/-
`make_snippet`: a window of the chunk around the earliest match of a query
term.  The match is looked for in a lower-cased copy, whose characters may be
more than those of the chunk, and its position there is used in the chunk.
-/
import Localmail.HeaderBlock
import Localmail.QueryParse
import Localmail.RunningLeast

namespace Localmail

/-! ### Lower case -/

/-- `str.lower`: what each character of a text becomes where it stands. -/
structure Lowering where
  pieces : Text → List Text
  length_pieces : ∀ value, (pieces value).length = value.length
  piece_ne_nil : ∀ value, ∀ piece ∈ pieces value, piece ≠ []

def Lowering.lower (lowering : Lowering) (value : Text) : Text :=
  (lowering.pieces value).flatten

/-- The character a position of the lower-cased copy comes from. -/
def origin : List Text → Nat → Nat
  | [], _ => 0
  | piece :: rest, position =>
      if position < piece.length then 0
      else origin rest (position - piece.length) + 1

section Origin

variable {pieces : List Text} {position : Nat}

theorem origin_le (hpieces : ∀ piece ∈ pieces, piece ≠ []) :
    origin pieces position ≤ position := by
  induction pieces generalizing position with
  | nil => exact Nat.zero_le _
  | cons piece rest ih =>
      rw [List.forall_mem_cons] at hpieces
      have hpiece := List.length_pos_iff.mpr hpieces.1
      rw [origin]
      split
      · exact Nat.zero_le _
      · have hrest := @ih (position - piece.length) hpieces.2
        omega

theorem origin_lt (hposition : position < pieces.flatten.length) :
    origin pieces position < pieces.length := by
  induction pieces generalizing position with
  | nil => simp at hposition
  | cons piece rest ih =>
      rw [List.flatten_cons, List.length_append] at hposition
      rw [origin, List.length_cons]
      split
      · exact Nat.succ_pos _
      · have hrest := @ih (position - piece.length) (by omega)
        omega

end Origin

theorem Lowering.lower_ne_nil (lowering : Lowering) {value : Text}
    (hvalue : value ≠ []) : lowering.lower value ≠ [] := by
  intro hempty
  have hlength := lowering.length_pieces value
  cases hpieces : lowering.pieces value with
  | nil =>
      rw [hpieces] at hlength
      exact hvalue (List.length_eq_zero_iff.mp hlength.symm)
  | cons piece rest =>
      rw [lower, hpieces, List.flatten_cons, List.append_eq_nil_iff] at hempty
      exact lowering.piece_ne_nil value piece (by simp [hpieces]) hempty.1

/-! ### The snippet -/

/-- `value[start:stop]`. -/
def slice (value : Text) (start stop : Nat) : Text :=
  (value.take stop).drop start

section Snippet

variable (lowering : Lowering) (isWord : CodePoint → Bool) (chunkText : Text)
  (queryTerms : List Text) (width : Nat)

/-- The earliest place any term is found at in the lower-cased copy. -/
def bestPos : Option Nat :=
  queryTerms.foldl (fun best term =>
    if term = [] then best
    else
      match firstAt (lowering.lower term) (lowering.lower chunkText) with
      | none => best
      | some idx => if isEarlier idx best then some idx else best) none

/-- The leading window, cut after its last word character if it has one. -/
def leadingWindow : Text :=
  let cut := chunkText.take width
  if cut.any isWord then
    (cut.reverse.dropWhile fun char => !isWord char).reverse
  else cut

def windowStart (pos : Nat) : Nat := pos - width / 2

def windowEnd (pos : Nat) : Nat :=
  min chunkText.length (windowStart width pos + width)

def ellipsis : Text := text "…"

/-- `make_snippet`. -/
def makeSnippet : Text :=
  if chunkText = [] then []
  else if chunkText.length ≤ width then chunkText
  else
    match bestPos lowering chunkText queryTerms with
    | none => leadingWindow isWord chunkText width
    | some pos =>
        let start := windowStart width pos
        let stop := windowEnd chunkText width pos
        strip ((if 0 < start then ellipsis else []) ++
          slice chunkText start stop ++
          if stop < chunkText.length then ellipsis else [])

/-- The window of the chunk that is returned. -/
def snippetWindow : Nat × Nat :=
  if chunkText.length ≤ width then (0, chunkText.length)
  else
    match bestPos lowering chunkText queryTerms with
    | none => (0, (leadingWindow isWord chunkText width).length)
    | some pos => (windowStart width pos, windowEnd chunkText width pos)

/-! ### What a snippet shows -/

/-- The places of the lower-cased copy at which a term occurs. -/
def occurrences : Set Nat :=
  { position | ∃ term ∈ queryTerms, term ≠ [] ∧
    lowering.lower term <+: (lowering.lower chunkText).drop position }

/-- The snippet is a part of the chunk, but for ellipses beside it and white
space around it. -/
def Trimmed (snippet part : Text) : Prop :=
  snippet = part ∨ ∃ leading ∈ [[], ellipsis], ∃ trailing ∈ [[], ellipsis],
    snippet = strip (leading ++ part ++ trailing)

/-- The window is a part of the chunk of the width at most; if that is less
than the chunk, it has the first character of the earliest occurrence. -/
structure ShowsMatch : Prop where
  trimmed : Trimmed
    (makeSnippet lowering isWord chunkText queryTerms width)
    (slice chunkText
      (snippetWindow lowering isWord chunkText queryTerms width).1
      (snippetWindow lowering isWord chunkText queryTerms width).2)
  isInfix : slice chunkText
      (snippetWindow lowering isWord chunkText queryTerms width).1
      (snippetWindow lowering isWord chunkText queryTerms width).2 <:+: chunkText
  length_le : (slice chunkText
      (snippetWindow lowering isWord chunkText queryTerms width).1
      (snippetWindow lowering isWord chunkText queryTerms width).2).length ≤
    width
  contains : width < chunkText.length →
    ∀ position, IsLeast (occurrences lowering chunkText queryTerms) position →
      (snippetWindow lowering isWord chunkText queryTerms width).1 ≤
          origin (lowering.pieces chunkText) position ∧
        origin (lowering.pieces chunkText) position <
          (snippetWindow lowering isWord chunkText queryTerms width).2

/-- At the earliest occurrence the lower-cased copy is ahead of a longer chunk
by half the width at most. -/
def NotFarAhead : Prop :=
  width < chunkText.length →
    ∀ position, IsLeast (occurrences lowering chunkText queryTerms) position →
      position ≤ origin (lowering.pieces chunkText) position + width / 2

end Snippet

section Shows

variable {lowering : Lowering} {isWord : CodePoint → Bool} {chunkText : Text}
  {queryTerms : List Text} {width : Nat}

theorem bestPos_keepsFound :
    KeepsLeast { position | ∃ term ∈ queryTerms, term ≠ [] ∧
        firstAt (lowering.lower term) (lowering.lower chunkText) =
          some position }
      (bestPos lowering chunkText queryTerms) := by
  unfold bestPos
  induction queryTerms using List.reverseRecOn with
  | nil => simp [KeepsLeast]
  | append_singleton before term ih =>
      rw [List.foldl_append, List.foldl_cons, List.foldl_nil]
      split
      · rename_i hempty
        apply ih.of_eq
        ext position
        simp [hempty]
      · rename_i hterm
        split
        · rename_i hnone
          apply ih.of_eq
          ext position
          simp [or_and_right, exists_or, hnone]
        · rename_i idx hfound
          apply (ih.insert idx).of_eq
          ext position
          simp [or_and_right, exists_or, hfound, hterm, or_comm, eq_comm]

/-- The place kept is the least one at which a term occurs. -/
theorem bestPos_keepsLeast :
    KeepsLeast (occurrences lowering chunkText queryTerms)
      (bestPos lowering chunkText queryTerms) := by
  have hkept := @bestPos_keepsFound lowering chunkText queryTerms
  have hfound : ∀ position ∈ occurrences lowering chunkText queryTerms,
      ∃ term ∈ queryTerms, term ≠ [] ∧ ∃ first ≤ position,
        firstAt (lowering.lower term) (lowering.lower chunkText) =
          some first := by
    rintro position ⟨term, hterm, hne, hprefix⟩
    refine ⟨term, hterm, hne, ?_⟩
    have hlower := lowering.lower_ne_nil hne
    cases hfirst : firstAt (lowering.lower term) (lowering.lower chunkText) with
    | none =>
        have hinfix : lowering.lower term <:+: lowering.lower chunkText :=
          hprefix.isInfix.trans (List.drop_suffix _ _).isInfix
        exact absurd hinfix ((firstAt_eq_none_iff hlower).mp hfirst)
    | some first =>
        refine ⟨first, ?_, rfl⟩
        by_contra hlater
        exact ((firstAt_eq_some_iff hlower).mp hfirst).2 position
          (Nat.lt_of_not_le hlater) hprefix
  cases hbest : bestPos lowering chunkText queryTerms with
  | none =>
      rw [hbest] at hkept
      apply Set.eq_empty_of_forall_notMem
      intro position hposition
      obtain ⟨term, hterm, hne, first, -, hfirst⟩ := hfound position hposition
      have hmem : first ∈ (∅ : Set Nat) := hkept ▸ ⟨term, hterm, hne, hfirst⟩
      exact hmem
  | some best =>
      rw [hbest] at hkept
      obtain ⟨⟨term, hterm, hne, hfirst⟩, hleast⟩ := hkept
      refine ⟨⟨term, hterm, hne,
        ((firstAt_eq_some_iff (lowering.lower_ne_nil hne)).mp hfirst).1⟩, ?_⟩
      intro position hposition
      obtain ⟨other, hother, hotherNe, first, hle, hotherFirst⟩ :=
        hfound position hposition
      exact (hleast ⟨other, hother, hotherNe, hotherFirst⟩).trans hle

theorem length_slice_le (value : Text) (start stop : Nat) :
    (slice value start stop).length ≤ stop - start := by
  simp only [slice, List.length_drop, List.length_take]
  omega

theorem slice_infix (value : Text) (start stop : Nat) :
    slice value start stop <:+: value :=
  (List.drop_suffix start _).isInfix.trans (List.take_prefix stop value).isInfix

theorem slice_whole (value : Text) : slice value 0 value.length = value := by
  rw [slice, List.take_length, List.drop_zero]

/-- The leading window is the start of the chunk up to its own length. -/
theorem slice_leadingWindow :
    slice chunkText 0 (leadingWindow isWord chunkText width).length =
      leadingWindow isWord chunkText width := by
  have hprefix : leadingWindow isWord chunkText width <+: chunkText := by
    unfold leadingWindow
    dsimp only
    split
    · have hsuffix := List.dropWhile_suffix (l := (chunkText.take width).reverse)
        fun char => !isWord char
      have hreversed := List.reverse_prefix.mpr hsuffix
      rw [List.reverse_reverse] at hreversed
      exact hreversed.trans (List.take_prefix width chunkText)
    · exact List.take_prefix width chunkText
  rw [slice, List.drop_zero]
  exact (List.prefix_iff_eq_take.mp hprefix).symm

theorem length_leadingWindow_le :
    (leadingWindow isWord chunkText width).length ≤ width := by
  unfold leadingWindow
  dsimp only
  split
  · have hdropped := (List.dropWhile_suffix (l := (chunkText.take width).reverse)
      fun char => !isWord char).length_le
    rw [List.length_reverse] at hdropped ⊢
    exact hdropped.trans (List.length_take_le width chunkText)
  · exact List.length_take_le width chunkText

theorem makeSnippet_trimmed :
    Trimmed (makeSnippet lowering isWord chunkText queryTerms width)
      (slice chunkText
        (snippetWindow lowering isWord chunkText queryTerms width).1
        (snippetWindow lowering isWord chunkText queryTerms width).2) := by
  unfold makeSnippet snippetWindow
  by_cases hshort : chunkText.length ≤ width
  · rw [if_pos hshort, if_pos hshort, slice_whole]
    split
    · rename_i hempty
      exact .inl hempty.symm
    · exact .inl rfl
  · have hchunk : chunkText ≠ [] := by
      rintro rfl
      exact hshort (Nat.zero_le _)
    rw [if_neg hshort, if_neg hshort, if_neg hchunk]
    cases bestPos lowering chunkText queryTerms with
    | none => exact .inl slice_leadingWindow.symm
    | some pos =>
        refine .inr ⟨_, ?_, _, ?_, rfl⟩
        · split <;> simp
        · split <;> simp

theorem snippetWindow_width_le (hwidth : 1 ≤ width) :
    (snippetWindow lowering isWord chunkText queryTerms width).2 -
      (snippetWindow lowering isWord chunkText queryTerms width).1 ≤ width := by
  unfold snippetWindow
  split
  · rename_i hshort
    exact hshort
  · split
    · exact length_leadingWindow_le
    · simp only [windowEnd, windowStart]
      omega

/-- The window has a character at or before its place in the copy unless that
is too far ahead. -/
theorem window_contains_iff {pos first : Nat} (hwidth : 1 ≤ width)
    (hle : first ≤ pos) (hlt : first < chunkText.length) :
    windowStart width pos ≤ first ∧ first < windowEnd chunkText width pos ↔
      pos ≤ first + width / 2 := by
  simp only [windowStart, windowEnd]
  omega

/-- A snippet shows its match exactly if lower-casing has not put the copy too
far ahead of the chunk. -/
theorem makeSnippet_shows_match_iff (lowering : Lowering)
    (isWord : CodePoint → Bool) (chunkText : Text) (queryTerms : List Text)
    (width : Nat) (hwidth : 1 ≤ width) :
    ShowsMatch lowering isWord chunkText queryTerms width ↔
      NotFarAhead lowering chunkText queryTerms width := by
  have hplace : ∀ position, width < chunkText.length →
      IsLeast (occurrences lowering chunkText queryTerms) position →
      ((snippetWindow lowering isWord chunkText queryTerms width).1 ≤
            origin (lowering.pieces chunkText) position ∧
          origin (lowering.pieces chunkText) position <
            (snippetWindow lowering isWord chunkText queryTerms width).2 ↔
        position ≤ origin (lowering.pieces chunkText) position + width / 2) := by
    intro position hlong hleast
    have hbest : bestPos lowering chunkText queryTerms = some position :=
      bestPos_keepsLeast.unique (show KeepsLeast _ (some position) from hleast)
    obtain ⟨⟨term, -, hne, hprefix⟩, -⟩ := hleast
    have hinside : position < (lowering.lower chunkText).length := by
      have hlength := hprefix.length_le
      have hpositive := List.length_pos_iff.mpr (lowering.lower_ne_nil hne)
      rw [List.length_drop] at hlength
      omega
    have hlt := origin_lt hinside
    rw [lowering.length_pieces] at hlt
    rw [snippetWindow, if_neg (Nat.not_le.mpr hlong), hbest]
    exact window_contains_iff hwidth
      (origin_le (lowering.piece_ne_nil chunkText)) hlt
  constructor
  · intro hshows hlong position hleast
    exact (hplace position hlong hleast).mp (hshows.contains hlong position hleast)
  · intro hahead
    refine ⟨makeSnippet_trimmed, slice_infix _ _ _,
      (length_slice_le _ _ _).trans (snippetWindow_width_le hwidth), ?_⟩
    intro hlong position hleast
    exact (hplace position hlong hleast).mpr (hahead hlong position hleast)

end Shows

/-- `İ` becomes two characters, an ASCII letter its lower case. -/
def dottedLowering : Lowering where
  pieces value := value.map fun char =>
    if char = .scalar 'İ' then text "i\u0307" else [char.lowerAscii]
  length_pieces := fun value => List.length_map _
  piece_ne_nil := by
    intro value piece hpiece
    obtain ⟨char, -, rfl⟩ := List.mem_map.mp hpiece
    split
    · decide
    · exact List.cons_ne_nil _ _

def isAsciiWord : CodePoint → Bool
  | .scalar char => char.isAlphanum || char = '_'
  | .surrogate _ => false

theorem makeSnippet_shows_match_plain :
    ShowsMatch dottedLowering isAsciiWord (text "to Berlin") [text "berlin"]
      4 := by
  refine (makeSnippet_shows_match_iff dottedLowering isAsciiWord
    (text "to Berlin") [text "berlin"] 4 (by decide)).mpr ?_
  intro hlong position hleast
  have hbest : bestPos dottedLowering (text "to Berlin") [text "berlin"] =
      some position :=
    bestPos_keepsLeast.unique (show KeepsLeast _ (some position) from hleast)
  obtain rfl : 3 = position := Option.some.inj hbest
  decide

/-- Three dotted capitals put the copy three characters ahead: the snippet of
two is only an ellipsis. -/
theorem dotted_capitals_hide_match :
    makeSnippet dottedLowering isAsciiWord (text "İİİx") [text "x"] 2 =
        text "…" ∧
      ¬ ShowsMatch dottedLowering isAsciiWord (text "İİİx") [text "x"] 2 := by
  refine ⟨by decide, ?_⟩
  intro hshows
  have hbest : bestPos dottedLowering (text "İİİx") [text "x"] = some 6 := by
    decide
  have hleast := @bestPos_keepsLeast dottedLowering (text "İİİx") [text "x"]
  rw [hbest] at hleast
  have hcontains := hshows.contains (by decide) 6 hleast
  revert hcontains
  decide

end Localmail
