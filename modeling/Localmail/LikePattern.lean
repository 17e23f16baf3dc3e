/-
Patterns of `LIKE`: one character stands for any run, one for any single
character, and one makes the character after it stand for itself.  A pattern
made from a value by putting a wildcard at both ends means that the value is
contained, as long as the value has none of the three characters.
-/
import Mathlib.Data.List.Infix

namespace Localmail

universe u

/-- The three characters a pattern reads specially. -/
structure LikeMarks (α : Type u) where
  many : α
  one : α
  escape : α
  one_ne_many : one ≠ many
  escape_ne_many : escape ≠ many
  escape_ne_one : escape ≠ one

inductive LikeItem (α : Type u) where
  | literal (char : α)
  | one
  | many
deriving Repr, DecidableEq

section Like

variable {α : Type u} [DecidableEq α] (marks : LikeMarks α)

def LikeMarks.IsMark (char : α) : Prop :=
  char = marks.many ∨ char = marks.one ∨ char = marks.escape

instance : DecidablePred marks.IsMark :=
  fun _ => inferInstanceAs (Decidable (_ ∨ _))

def LikeMarks.item (char : α) : LikeItem α :=
  if char = marks.many then .many
  else if char = marks.one then .one
  else .literal char

/-- What a pattern says; a pattern may not end with the escape. -/
def likeItems : List α → Option (List (LikeItem α))
  | [] => some []
  | char :: rest =>
      if char = marks.escape then
        match rest with
        | [] => none
        | escaped :: later => (likeItems later).map (.literal escaped :: ·)
      else (likeItems rest).map (marks.item char :: ·)

def likeMatches : List (LikeItem α) → List α → Bool
  | [], value => value.isEmpty
  | .literal _ :: _, [] => false
  | .literal char :: rest, head :: tail => head = char && likeMatches rest tail
  | .one :: _, [] => false
  | .one :: rest, _ :: tail => likeMatches rest tail
  | .many :: rest, value => value.tails.any fun tail => likeMatches rest tail

/-- `value LIKE pattern`. -/
def like (value pattern : List α) : Option Bool :=
  (likeItems marks pattern).map fun items => likeMatches items value

/-! ### Containment -/

section Containment

variable {marks} {items : List (LikeItem α)} {value word : List α}

theorem likeMatches_many_iff :
    likeMatches (.many :: items) value = true ↔
      ∃ tail, tail <:+ value ∧ likeMatches items tail = true := by
  simp [likeMatches, List.any_eq_true]

theorem likeMatches_many : likeMatches [.many] value = true :=
  likeMatches_many_iff.mpr ⟨[], List.nil_suffix, rfl⟩

theorem likeMatches_literals :
    likeMatches (word.map .literal ++ items) value = true ↔
      ∃ tail, value = word ++ tail ∧ likeMatches items tail = true := by
  induction word generalizing value with
  | nil => simp
  | cons char rest ih =>
      cases value with
      | nil => simp [likeMatches]
      | cons head tail =>
          simp only [List.map_cons, List.cons_append, likeMatches,
            Bool.and_eq_true, decide_eq_true_eq, ih, List.cons.injEq]
          constructor
          · rintro ⟨hhead, later, htail, hmatches⟩
            exact ⟨later, ⟨hhead, htail⟩, hmatches⟩
          · rintro ⟨later, ⟨hhead, htail⟩, hmatches⟩
            exact ⟨hhead, later, htail, hmatches⟩

theorem likeMatches_contains_iff :
    likeMatches (.many :: (word.map .literal ++ [.many])) value = true ↔
      word <:+: value := by
  rw [likeMatches_many_iff, List.infix_iff_prefix_suffix]
  constructor
  · rintro ⟨tail, hsuffix, hmatches⟩
    obtain ⟨later, rfl, -⟩ := likeMatches_literals.mp hmatches
    exact ⟨word ++ later, List.prefix_append word later, hsuffix⟩
  · rintro ⟨tail, ⟨later, rfl⟩, hsuffix⟩
    exact ⟨word ++ later, hsuffix,
      likeMatches_literals.mpr ⟨later, rfl, likeMatches_many⟩⟩

end Containment

/-! ### The pattern of a value -/

section Surrounded

variable {marks} {word : List α}

theorem LikeMarks.item_many : marks.item marks.many = .many := if_pos rfl

theorem LikeMarks.item_of_not_mark {char : α} (hplain : ¬ marks.IsMark char) :
    marks.item char = .literal char := by
  simp only [LikeMarks.IsMark, not_or] at hplain
  rw [LikeMarks.item, if_neg hplain.1, if_neg hplain.2.1]

theorem likeItems_cons {char : α} (hescape : char ≠ marks.escape)
    (rest : List α) :
    likeItems marks (char :: rest) =
      (likeItems marks rest).map (marks.item char :: ·) := by
  rw [likeItems.eq_def]
  exact if_neg hescape

theorem likeItems_many_cons (rest : List α) :
    likeItems marks (marks.many :: rest) =
      (likeItems marks rest).map (.many :: ·) := by
  rw [likeItems_cons marks.escape_ne_many.symm, LikeMarks.item_many]

theorem likeItems_escape_cons (escaped : α) (later : List α) :
    likeItems marks (marks.escape :: escaped :: later) =
      (likeItems marks later).map (.literal escaped :: ·) := by
  rw [likeItems.eq_def]
  exact if_pos rfl

theorem likeItems_plain (hplain : ∀ char ∈ word, ¬ marks.IsMark char) :
    likeItems marks (word ++ [marks.many]) =
      some (word.map .literal ++ [.many]) := by
  induction word with
  | nil => exact likeItems_many_cons []
  | cons char rest ih =>
      rw [List.forall_mem_cons] at hplain
      have hescape : char ≠ marks.escape := fun h => hplain.1 (.inr (.inr h))
      rw [List.cons_append, likeItems_cons hescape, ih hplain.2,
        LikeMarks.item_of_not_mark hplain.1]
      rfl

/-- The value between two wildcards. -/
def surrounded (marks : LikeMarks α) (word : List α) : List α :=
  marks.many :: (word ++ [marks.many])

/-- Of a value without marks the pattern says that it is contained. -/
theorem like_surrounded_iff (hplain : ∀ char ∈ word, ¬ marks.IsMark char)
    (value : List α) :
    like marks value (surrounded marks word) = some true ↔ word <:+: value := by
  rw [like, surrounded, likeItems_many_cons, likeItems_plain hplain]
  simp only [Option.map_some, Option.some.injEq]
  exact likeMatches_contains_iff

/-! ### A value with marks -/

/-- A text a pattern matches: what is escaped stands for itself, any run is
empty, and any single character is the mark for a run. -/
def likeSample (marks : LikeMarks α) : List (LikeItem α) → List α
  | [] => []
  | .literal char :: rest => char :: likeSample marks rest
  | .one :: rest => marks.many :: likeSample marks rest
  | .many :: rest => likeSample marks rest

theorem likeMatches_sample (items : List (LikeItem α)) :
    likeMatches items (likeSample marks items) = true := by
  induction items with
  | nil => rfl
  | cons item rest ih =>
      cases item with
      | literal char => simp [likeSample, likeMatches, ih]
      | one => exact ih
      | many => exact likeMatches_many_iff.mpr ⟨_, List.suffix_refl _, ih⟩

/-- The sample is no longer than the value, has its characters, and is the
value only if that has no marks. -/
structure LikeSampled (marks : LikeMarks α) (word sample : List α) : Prop where
  length_le : sample.length ≤ word.length
  chars : ∀ char ∈ sample, char ∈ word ∨ char = marks.many
  same : sample = word → ∀ char ∈ word, ¬ marks.IsMark char

section Sampled

omit [DecidableEq α]

variable {sample rest : List α} {char : α}

/-- A character of the value that leaves no trace. -/
theorem LikeSampled.skip (hsampled : LikeSampled marks rest sample) :
    LikeSampled marks (char :: rest) sample where
  length_le := Nat.le_succ_of_le hsampled.length_le
  chars := fun found hfound =>
    (hsampled.chars found hfound).imp (List.mem_cons_of_mem char) id
  same := by
    rintro rfl
    have hle := hsampled.length_le
    rw [List.length_cons] at hle
    exact absurd hle (Nat.not_succ_le_self _)

/-- A character of the value that stands for itself. -/
theorem LikeSampled.keep (hsampled : LikeSampled marks rest sample)
    (hplain : ¬ marks.IsMark char) :
    LikeSampled marks (char :: rest) (char :: sample) where
  length_le := Nat.succ_le_succ hsampled.length_le
  chars := by
    intro found hfound
    rcases List.mem_cons.mp hfound with rfl | hfound
    · exact .inl List.mem_cons_self
    · exact (hsampled.chars found hfound).imp (List.mem_cons_of_mem char) id
  same := by
    intro hequal
    rw [List.forall_mem_cons]
    exact ⟨hplain, hsampled.same (List.cons.inj hequal).2⟩

/-- A character of the value that another one stands for. -/
theorem LikeSampled.replace (hsampled : LikeSampled marks rest sample)
    (hchar : char ≠ marks.many) :
    LikeSampled marks (char :: rest) (marks.many :: sample) where
  length_le := Nat.succ_le_succ hsampled.length_le
  chars := by
    intro found hfound
    rcases List.mem_cons.mp hfound with rfl | hfound
    · exact .inr rfl
    · exact (hsampled.chars found hfound).imp (List.mem_cons_of_mem char) id
  same := fun hequal => absurd (List.cons.inj hequal).1.symm hchar

/-- An escape and what it escapes. -/
theorem LikeSampled.unescape (hsampled : LikeSampled marks rest sample)
    (escape : α) : LikeSampled marks (escape :: char :: rest) (char :: sample) where
  length_le := Nat.le_succ_of_le (Nat.succ_le_succ hsampled.length_le)
  chars := by
    intro found hfound
    rcases List.mem_cons.mp hfound with rfl | hfound
    · exact .inl (by simp)
    · exact (hsampled.chars found hfound).imp (fun hold => by simp [hold]) id
  same := by
    intro hequal
    have hle := hsampled.length_le
    have hlengths := congrArg List.length hequal
    simp only [List.length_cons] at hlengths
    omega

end Sampled

omit [DecidableEq α] in
theorem LikeSampled.nil : LikeSampled marks [] [] :=
  ⟨Nat.le_refl 0, nofun, nofun⟩

theorem exists_likeSampled (marks : LikeMarks α) :
    ∀ word : List α, ∃ items,
      likeItems marks (word ++ [marks.many]) = some items ∧
        LikeSampled marks word (likeSample marks items)
  | [] => ⟨[.many], likeItems_many_cons [], .nil⟩
  | char :: rest => by
      by_cases hescape : char = marks.escape
      · subst hescape
        cases rest with
        | nil =>
            -- the escape makes the wildcard after it a literal
            exact ⟨[.literal marks.many], likeItems_escape_cons _ [],
              LikeSampled.nil.replace marks.escape_ne_many⟩
        | cons escaped later =>
            obtain ⟨items, hitems, hsampled⟩ := exists_likeSampled marks later
            refine ⟨.literal escaped :: items, ?_, hsampled.unescape _⟩
            rw [List.cons_append, List.cons_append, likeItems_escape_cons, hitems]
            rfl
      · obtain ⟨items, hitems, hsampled⟩ := exists_likeSampled marks rest
        refine ⟨marks.item char :: items, ?_, ?_⟩
        · rw [List.cons_append, likeItems_cons hescape, hitems]
          rfl
        · by_cases hmany : char = marks.many
          · subst hmany
            rw [LikeMarks.item_many]
            exact hsampled.skip
          · by_cases hone : char = marks.one
            · rw [LikeMarks.item, if_neg hmany, if_pos hone]
              exact hsampled.replace hmany
            · have hplain : ¬ marks.IsMark char := by
                simp [LikeMarks.IsMark, hmany, hone, hescape]
              rw [LikeMarks.item_of_not_mark hplain]
              exact hsampled.keep hplain

/-- The escapes of a value never reach the end of its pattern. -/
theorem like_surrounded_isSome (value word : List α) :
    (like marks value (surrounded marks word)).isSome = true := by
  obtain ⟨items, hitems, -⟩ := exists_likeSampled marks word
  rw [like, surrounded, likeItems_many_cons, hitems]
  rfl

/-- A value with a mark in it: its pattern matches a text that does not contain
it. -/
theorem exists_like_surrounded_not_infix {char : α} (hchar : char ∈ word)
    (hmark : marks.IsMark char) :
    ∃ value : List α, (∀ found ∈ value, found ∈ word ∨ found = marks.many) ∧
      like marks value (surrounded marks word) = some true ∧
      ¬ word <:+: value := by
  obtain ⟨items, hitems, hsampled⟩ := exists_likeSampled marks word
  refine ⟨likeSample marks items, hsampled.chars, ?_, ?_⟩
  · rw [like, surrounded, likeItems_many_cons, hitems]
    exact congrArg some (likeMatches_many_iff.mpr
      ⟨_, List.suffix_refl _, likeMatches_sample items⟩)
  · intro hinfix
    have hsame := hinfix.eq_of_length_le hsampled.length_le
    exact hsampled.same hsame.symm char hchar hmark

end Surrounded

end Like

end Localmail
