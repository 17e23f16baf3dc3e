/-
The header block of a stored message: the bytes up to the separator that comes
first, read from a bounded start of the message and, when that was cut short
without a separator, from the whole.
-/
import Localmail.SyncStore
import Mathlib.Data.List.Infix
import Mathlib.Data.Prod.Lex

namespace Localmail

universe u

/-! ### Where a pattern first occurs -/

section FirstAt

variable {α : Type u} [DecidableEq α] {pattern data : List α} {index : Nat}

/-- The position of the first occurrence of `pattern`, as `bytes.find` gives
it. -/
def firstAt (pattern : List α) : List α → Option Nat
  | [] => if pattern = [] then some 0 else none
  | head :: tail =>
      if pattern.isPrefixOf (head :: tail) then some 0
      else (firstAt pattern tail).map (· + 1)

theorem firstAt_eq_some_iff (hpattern : pattern ≠ []) :
    firstAt pattern data = some index ↔
      pattern <+: data.drop index ∧
        ∀ earlier < index, ¬pattern <+: data.drop earlier := by
  induction data generalizing index with
  | nil =>
      have hnone : ¬pattern <+: [] := by simpa using hpattern
      simp [firstAt, hpattern]
  | cons head tail ih =>
      simp only [firstAt]
      split
      · rename_i hhere
        have hhere := List.isPrefixOf_iff_prefix.mp hhere
        constructor
        · rintro ⟨⟩
          exact ⟨hhere, fun _ hearlier => absurd hearlier (Nat.not_lt_zero _)⟩
        · rintro ⟨-, hfirst⟩
          have hzero : index = 0 := by
            by_contra hpositive
            exact hfirst 0 (Nat.pos_of_ne_zero hpositive) hhere
          rw [hzero]
      · rename_i hlater
        have hlater : ¬pattern <+: head :: tail :=
          fun hhere => hlater (List.isPrefixOf_iff_prefix.mpr hhere)
        cases index with
        | zero => simp [hlater]
        | succ index =>
            rw [Option.map_eq_some_iff]
            simp only [Nat.add_right_cancel_iff, exists_eq_right, ih,
              List.drop_succ_cons]
            constructor
            · rintro ⟨hat, hfirst⟩
              refine ⟨hat, ?_⟩
              intro earlier hearlier
              cases earlier with
              | zero => exact hlater
              | succ earlier =>
                  exact hfirst earlier (Nat.lt_of_succ_lt_succ hearlier)
            · rintro ⟨hat, hfirst⟩
              refine ⟨hat, ?_⟩
              intro earlier hearlier
              exact hfirst (earlier + 1) (Nat.succ_lt_succ hearlier)

theorem firstAt_eq_none_iff (hpattern : pattern ≠ []) :
    firstAt pattern data = none ↔ ¬pattern <:+: data := by
  induction data with
  | nil => simp [firstAt, hpattern]
  | cons head tail ih =>
      simp only [firstAt, List.infix_cons_iff]
      split
      · rename_i hhere
        simp [List.isPrefixOf_iff_prefix.mp hhere]
      · rename_i hlater
        have hlater : ¬pattern <+: head :: tail :=
          fun hhere => hlater (List.isPrefixOf_iff_prefix.mpr hhere)
        simp [hlater, ih]

end FirstAt

/-! ### The block -/

/-- The most of a message that is read for its header block. -/
def headerBlockReadBytes : Nat := 64 * 1024

def prefixReadBytes : Nat := headerBlockReadBytes + 1

/-- A read of `ceiling + 1` bytes was cut short. -/
def cutShort (ceiling : Nat) (data : Bytes) : Bool :=
  ceiling < data.length

def prefixIsTruncated (data : Bytes) : Bool :=
  cutShort headerBlockReadBytes data

/-- A doubled line terminator, and how much of it ends the last header
line. -/
def separators : List (Bytes × Nat) :=
  [([13, 10, 13, 10], 2), ([10, 10], 1)]

def separatorMatches (data : Bytes) : List (Nat ×ₗ Nat) :=
  separators.filterMap fun (pattern, endingLen) =>
    (firstAt pattern data).map fun index => toLex (index, endingLen)

/-- `_up_to_separator`: none without a separator. -/
def upToSeparator (data : Bytes) : Option Bytes :=
  (separatorMatches data).min?.map fun first =>
    data.take ((ofLex first).1 + (ofLex first).2)

def headerBlock (data : Bytes) (truncated : Bool) : Option Bytes :=
  match upToSeparator data with
  | some found => some found
  | none => if truncated then none else some data

def headerBlockOfWhole (data : Bytes) : Bytes :=
  (upToSeparator data).getD data

/-- What `_header_entries` and `fetch_local_dates` parse: the block of the
first `ceiling + 1` bytes, or of the whole message read again. -/
def blockRead (ceiling : Nat) (message : Bytes) : Bytes :=
  let data := message.take (ceiling + 1)
  (headerBlock data (cutShort ceiling data)).getD (headerBlockOfWhole message)

/-! ### The first separator -/

/-- A separator starts at `index`, and `endingLen` of its bytes are kept. -/
def SeparatorAt (data : Bytes) (index endingLen : Nat) : Prop :=
  ∃ pattern, (pattern, endingLen) ∈ separators ∧ pattern <+: data.drop index

/-- No separator starts before `index`. -/
def NoneBefore (data : Bytes) (index : Nat) : Prop :=
  ∀ earlier < index, ∀ endingLen, ¬SeparatorAt data earlier endingLen

theorem separators_ne_nil {separator : Bytes × Nat}
    (hseparator : separator ∈ separators) : separator.1 ≠ [] := by
  revert separator
  decide

theorem mem_separatorMatches {data : Bytes} {index endingLen : Nat} :
    toLex (index, endingLen) ∈ separatorMatches data ↔
      ∃ pattern, (pattern, endingLen) ∈ separators ∧
        firstAt pattern data = some index := by
  simp only [separatorMatches, List.mem_filterMap, Option.map_eq_some_iff,
    Prod.exists, toLex_inj, Prod.mk.injEq]
  constructor
  · rintro ⟨pattern, _, hseparator, _, hfirst, rfl, rfl⟩
    exact ⟨pattern, hseparator, hfirst⟩
  · rintro ⟨pattern, hseparator, hfirst⟩
    exact ⟨pattern, endingLen, hseparator, index, hfirst, rfl, rfl⟩

theorem cons_isPrefix_drop {α : Type u} {data pattern : List α} {head : α}
    {index : Nat} :
    head :: pattern <+: data.drop index ↔
      data[index]? = some head ∧ pattern <+: data.drop (index + 1) := by
  rw [← List.head?_drop, ← List.tail_drop]
  cases data.drop index with
  | nil => simp
  | cons first rest => simp [List.cons_prefix_cons, eq_comm]

theorem separatorAt_iff {data : Bytes} {index endingLen : Nat} :
    SeparatorAt data index endingLen ↔
      (endingLen = 2 ∧ data[index]? = some 13 ∧ data[index + 1]? = some 10 ∧
        data[index + 2]? = some 13 ∧ data[index + 3]? = some 10) ∨
      (endingLen = 1 ∧ data[index]? = some 10 ∧
        data[index + 1]? = some 10) := by
  simp only [SeparatorAt, separators, List.mem_cons, List.not_mem_nil,
    or_false, Prod.mk.injEq]
  constructor
  · rintro ⟨_, ⟨rfl, rfl⟩ | ⟨rfl, rfl⟩, hat⟩
    · left
      simpa [cons_isPrefix_drop] using hat
    · right
      simpa [cons_isPrefix_drop] using hat
  · rintro (⟨rfl, hat⟩ | ⟨rfl, hat⟩)
    · refine ⟨_, .inl ⟨rfl, rfl⟩, ?_⟩
      simpa [cons_isPrefix_drop] using hat
    · refine ⟨_, .inr ⟨rfl, rfl⟩, ?_⟩
      simpa [cons_isPrefix_drop] using hat

theorem SeparatorAt.endingLen_eq {data : Bytes} {index endingLen other : Nat}
    (hat : SeparatorAt data index endingLen)
    (hother : SeparatorAt data index other) : endingLen = other := by
  rw [separatorAt_iff] at hat hother
  rcases hat with ⟨rfl, hfirst, -⟩ | ⟨rfl, hfirst, -⟩ <;>
    rcases hother with ⟨rfl, hsame, -⟩ | ⟨rfl, hsame, -⟩
  · rfl
  · rw [hfirst] at hsame
    cases hsame
  · rw [hfirst] at hsame
    cases hsame
  · rfl

/-- The block ends with the line that the first separator ends. -/
theorem upToSeparator_eq_some_iff {data block : Bytes} :
    upToSeparator data = some block ↔
      ∃ index endingLen, SeparatorAt data index endingLen ∧
        NoneBefore data index ∧ block = data.take (index + endingLen) := by
  rw [upToSeparator, Option.map_eq_some_iff]
  constructor
  · rintro ⟨first, hmin, rfl⟩
    obtain ⟨hmem, hleast⟩ := List.min?_eq_some_iff.mp hmin
    obtain ⟨index, endingLen⟩ := first
    obtain ⟨pattern, hseparator, hfirst⟩ := mem_separatorMatches.mp hmem
    have hat := (firstAt_eq_some_iff (separators_ne_nil hseparator)).mp hfirst
    refine ⟨index, endingLen, ⟨pattern, hseparator, hat.1⟩, ?_, rfl⟩
    rintro earlier hearlier otherLen ⟨other, hother, hoccurs⟩
    have hne := separators_ne_nil hother
    cases hfound : firstAt other data with
    | none =>
        refine (firstAt_eq_none_iff hne).mp hfound ?_
        exact hoccurs.isInfix.trans (List.drop_suffix _ _).isInfix
    | some position =>
        have hposition : position ≤ earlier := by
          by_contra hlater
          exact ((firstAt_eq_some_iff hne).mp hfound).2 earlier
            (Nat.lt_of_not_le hlater) hoccurs
        have hle := hleast _ (mem_separatorMatches.mpr ⟨other, hother, hfound⟩)
        have hindex : index ≤ position := by
          rcases (Prod.Lex.le_iff).mp hle with hlt | ⟨hsame, -⟩
          · exact Nat.le_of_lt hlt
          · exact Nat.le_of_eq hsame
        omega
  · rintro ⟨index, endingLen, hat, hbefore, rfl⟩
    obtain ⟨pattern, hseparator, hoccurs⟩ := hat
    have hfirst : firstAt pattern data = some index := by
      refine (firstAt_eq_some_iff (separators_ne_nil hseparator)).mpr
        ⟨hoccurs, ?_⟩
      intro earlier hearlier hhere
      exact hbefore earlier hearlier endingLen ⟨pattern, hseparator, hhere⟩
    have hmem := mem_separatorMatches.mpr ⟨pattern, hseparator, hfirst⟩
    refine ⟨toLex (index, endingLen), List.min?_eq_some_iff.mpr ⟨hmem, ?_⟩, rfl⟩
    rintro ⟨position, otherLen⟩ hmatch
    obtain ⟨other, hother, hfound⟩ := mem_separatorMatches.mp hmatch
    have hthere : SeparatorAt data position otherLen :=
      ⟨other, hother, ((firstAt_eq_some_iff
        (separators_ne_nil hother)).mp hfound).1⟩
    apply Prod.Lex.le_iff.mpr
    rcases Nat.lt_trichotomy index position with hlt | heq | hgt
    · exact .inl hlt
    · subst heq
      exact .inr ⟨rfl, Nat.le_of_eq
        (SeparatorAt.endingLen_eq ⟨pattern, hseparator, hoccurs⟩ hthere)⟩
    · exact absurd hthere (hbefore position hgt otherLen)

theorem upToSeparator_eq_none_iff {data : Bytes} :
    upToSeparator data = none ↔
      ∀ separator ∈ separators, ¬separator.1 <:+: data := by
  rw [upToSeparator, Option.map_eq_none_iff, List.min?_eq_none_iff,
    separatorMatches, List.filterMap_eq_nil_iff]
  apply forall₂_congr
  intro separator hseparator
  rw [Option.map_eq_none_iff, firstAt_eq_none_iff (separators_ne_nil hseparator)]

/-! ### Reading a start of the message -/

section Start

variable {message : Bytes} {length index endingLen : Nat}

theorem SeparatorAt.of_take
    (hat : SeparatorAt (message.take length) index endingLen) :
    SeparatorAt message index endingLen := by
  obtain ⟨pattern, hseparator, hoccurs⟩ := hat
  refine ⟨pattern, hseparator, hoccurs.trans ?_⟩
  rw [List.drop_take]
  exact List.take_prefix _ _

/-- What is kept of a message up to its separator was read. -/
theorem SeparatorAt.kept_le
    (hat : SeparatorAt (message.take length) index endingLen) :
    index + endingLen ≤ length := by
  rw [separatorAt_iff] at hat
  simp only [List.getElem?_take] at hat
  grind

/-- A separator that starts before the first one read was read as well. -/
theorem NoneBefore.of_take (hbefore : NoneBefore (message.take length) index)
    (hat : SeparatorAt (message.take length) index endingLen) :
    NoneBefore message index := by
  intro earlier hearlier otherLen hother
  refine hbefore earlier hearlier otherLen ?_
  rw [separatorAt_iff] at hat hother ⊢
  simp only [List.getElem?_take] at hat ⊢
  grind

/-- A block found in a start of the message is the message's own. -/
theorem upToSeparator_of_take {block : Bytes}
    (hfound : upToSeparator (message.take length) = some block) :
    upToSeparator message = some block := by
  obtain ⟨index, endingLen, hat, hbefore, rfl⟩ :=
    upToSeparator_eq_some_iff.mp hfound
  refine upToSeparator_eq_some_iff.mpr
    ⟨index, endingLen, hat.of_take, hbefore.of_take hat, ?_⟩
  rw [List.take_take, Nat.min_eq_left hat.kept_le]

theorem cutShort_take {ceiling : Nat} :
    cutShort ceiling (message.take (ceiling + 1)) = true ↔
      ceiling < message.length := by
  simp only [cutShort, List.length_take, decide_eq_true_eq]
  omega

theorem headerBlock_eq_none_iff {data : Bytes} {truncated : Bool} :
    headerBlock data truncated = none ↔
      truncated = true ∧ upToSeparator data = none := by
  rw [headerBlock]
  cases upToSeparator data with
  | some found => simp
  | none => cases truncated <;> simp

end Start

/-- A bounded read gives no block or the message's own.  It gives none just
when the message is longer than the ceiling and no separator was read, and the
block that is parsed is always the whole message's. -/
theorem bounded_read_agrees (message : Bytes) (ceiling : Nat) :
    let data := message.take (ceiling + 1)
    let block := headerBlock data (cutShort ceiling data)
    (block = none ∨ block = some (headerBlockOfWhole message)) ∧
      (block = none ↔ ceiling < message.length ∧
        ∀ separator ∈ separators, ¬separator.1 <:+: data) ∧
      blockRead ceiling message = headerBlockOfWhole message := by
  intro data block
  have hagrees : block = none ∨ block = some (headerBlockOfWhole message) := by
    simp only [block, headerBlock]
    cases hfound : upToSeparator data with
    | some found =>
        right
        rw [headerBlockOfWhole, upToSeparator_of_take hfound]
        rfl
    | none =>
        cases hcut : cutShort ceiling data with
        | true => exact .inl rfl
        | false =>
            -- All of the message was read.
            right
            have hshort : ¬ceiling < message.length := by
              rw [← cutShort_take, hcut]
              exact Bool.false_ne_true
            have hwhole : data = message := List.take_of_length_le (by omega)
            rw [headerBlockOfWhole, ← hwhole, hfound]
            rfl
  refine ⟨hagrees, ?_, ?_⟩
  · rw [headerBlock_eq_none_iff, cutShort_take, upToSeparator_eq_none_iff]
  · change block.getD _ = _
    rcases hagrees with hnone | hsome
    · rw [hnone]
      rfl
    · rw [hsome]
      rfl

/-- A message that is one byte longer than the ceiling is read to its end, and
still its block is not told. -/
theorem whole_message_read_as_cut :
    ¬∀ (message : Bytes) (ceiling : Nat),
      headerBlock (message.take (ceiling + 1))
          (cutShort ceiling (message.take (ceiling + 1))) = none →
        message.take (ceiling + 1) ≠ message := by
  intro hclaim
  exact hclaim [97] 0 (by decide) rfl

end Localmail
