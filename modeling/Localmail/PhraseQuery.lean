/-
Conjunctions of phrases and negated phrases over documents that are lists of
words.  Over an infinite vocabulary a consistent conjunction is satisfied by its
own phrases set apart by a fresh word, so what it entails can be read off it.
-/
import Mathlib.Data.Fintype.EquivFin
import Mathlib.Data.List.Infix

namespace Localmail

universe u

variable {W : Type u}

/-- A phrase the document holds, or does not hold. -/
structure PhraseTerm (W : Type u) where
  negated : Bool
  phrase : List W
deriving DecidableEq

def PhraseTerm.Holds (document : List W) (term : PhraseTerm W) : Prop :=
  if term.negated then ¬term.phrase <:+: document
  else term.phrase <:+: document

/-- Every term holds. -/
def AllHold (document : List W) (terms : List (PhraseTerm W)) : Prop :=
  ∀ term ∈ terms, term.Holds document

/-- The phrases the document has to hold. -/
def positives (terms : List (PhraseTerm W)) : List (List W) :=
  (terms.filter fun term => !term.negated).map PhraseTerm.phrase

/-- No excluded phrase lies within a required one. -/
def Consistent (terms : List (PhraseTerm W)) : Prop :=
  ∀ term ∈ terms, term.negated = true →
    ∀ phrase ∈ positives terms, ¬term.phrase <:+: phrase

/-- One of the terms excludes every document that holds the phrase. -/
def RulesOut (terms : List (PhraseTerm W)) (phrase : List W) : Prop :=
  ∃ term ∈ terms, term.negated = true ∧ term.phrase <:+: phrase

section Decide

variable [DecidableEq W]

instance (document : List W) (term : PhraseTerm W) :
    Decidable (term.Holds document) :=
  inferInstanceAs (Decidable (if term.negated then ¬term.phrase <:+: document
    else term.phrase <:+: document))

instance (document : List W) (terms : List (PhraseTerm W)) :
    Decidable (AllHold document terms) :=
  inferInstanceAs (Decidable (∀ term ∈ terms, term.Holds document))

instance (terms : List (PhraseTerm W)) : Decidable (Consistent terms) :=
  inferInstanceAs (Decidable (∀ term ∈ terms, term.negated = true →
    ∀ phrase ∈ positives terms, ¬term.phrase <:+: phrase))

instance (terms : List (PhraseTerm W)) (phrase : List W) :
    Decidable (RulesOut terms phrase) :=
  inferInstanceAs (Decidable (∃ term ∈ terms,
    term.negated = true ∧ term.phrase <:+: phrase))

end Decide

/-- The phrases one after the other, each followed by the separator. -/
def separated (separator : W) (phrases : List (List W)) : List W :=
  phrases.flatMap fun phrase => phrase ++ [separator]

theorem infix_separated (separator : W) {phrases : List (List W)}
    {phrase : List W} (hphrase : phrase ∈ phrases) :
    phrase <:+: separated separator phrases := by
  obtain ⟨before, after, rfl⟩ := List.append_of_mem hphrase
  refine ⟨separated separator before, [separator] ++ separated separator after, ?_⟩
  simp [separated]

/-- Around a word it does not hold, a run of words is on one side. -/
theorem infix_or_infix_of_append_cons {phrase left right : List W}
    {separator : W} (hfresh : separator ∉ phrase)
    (hphrase : phrase <:+: left ++ separator :: right) :
    phrase <:+: left ∨ phrase <:+: right := by
  obtain ⟨before, after, hsplit⟩ := hphrase
  rw [List.append_assoc] at hsplit
  rcases List.append_eq_append_iff.mp hsplit with
    ⟨middle, hleft, hrest⟩ | ⟨middle, hbefore, hrest⟩
  · -- The run starts within the left part, and ends there.
    rcases List.append_eq_append_iff.mp hrest with
      ⟨tail, hmiddle, -⟩ | ⟨tail, hphrase, htail⟩
    · exact .inl ⟨before, tail, by rw [hleft, hmiddle, List.append_assoc]⟩
    · cases tail with
      | nil =>
          rw [List.append_nil] at hphrase
          exact .inl ⟨before, [], by rw [hleft, hphrase, List.append_nil]⟩
      | cons first others =>
          rw [List.cons_append] at htail
          obtain ⟨rfl, -⟩ := List.cons.inj htail
          exact absurd (hphrase ▸ List.mem_append_right _ List.mem_cons_self)
            hfresh
  · -- It starts behind the left part, past the separator unless it is empty.
    cases middle with
    | nil =>
        cases phrase with
        | nil => exact .inl List.nil_infix
        | cons first others =>
            obtain ⟨rfl, -⟩ := List.cons.inj hrest
            exact absurd List.mem_cons_self hfresh
    | cons first others =>
        obtain ⟨-, hright⟩ := List.cons.inj hrest
        refine .inr ⟨others, after, ?_⟩
        rw [hright, List.append_assoc]
        rfl

theorem exists_infix_of_infix_separated {separator : W} {phrase : List W}
    {phrases : List (List W)} (hnonempty : phrase ≠ [])
    (hfresh : separator ∉ phrase)
    (hphrase : phrase <:+: separated separator phrases) :
    ∃ given ∈ phrases, phrase <:+: given := by
  induction phrases with
  | nil => exact absurd (List.infix_nil.mp hphrase) hnonempty
  | cons first rest ih =>
      have hsplit : separated separator (first :: rest) =
          first ++ separator :: separated separator rest := by
        simp [separated]
      rw [hsplit] at hphrase
      rcases infix_or_infix_of_append_cons hfresh hphrase with hfirst | hlater
      · exact ⟨first, List.mem_cons_self, hfirst⟩
      · obtain ⟨given, hgiven, hwithin⟩ := ih hlater
        exact ⟨given, List.mem_cons_of_mem _ hgiven, hwithin⟩

theorem mem_positives {terms : List (PhraseTerm W)} {term : PhraseTerm W}
    (hterm : term ∈ terms) (hpositive : term.negated = false) :
    term.phrase ∈ positives terms :=
  List.mem_map_of_mem (List.mem_filter.mpr ⟨hterm, by simp [hpositive]⟩)

/-- Only consistent terms hold together. -/
theorem AllHold.consistent {document : List W} {terms : List (PhraseTerm W)}
    (hall : AllHold document terms) : Consistent terms := by
  intro term hterm hnegated phrase hphrase hwithin
  obtain ⟨given, hgiven, rfl⟩ := List.mem_map.mp hphrase
  obtain ⟨hmem, hpositive⟩ := List.mem_filter.mp hgiven
  have hexcluded := hall term hterm
  have hrequired := hall given hmem
  simp only [PhraseTerm.Holds, hnegated, ↓reduceIte] at hexcluded
  simp only [Bool.not_eq_true'] at hpositive
  simp only [PhraseTerm.Holds, hpositive, Bool.false_eq_true,
    ↓reduceIte] at hrequired
  exact hexcluded (hwithin.trans hrequired)

/-- A phrase that consistent terms do not rule out stands in a document in
which they all hold. -/
theorem exists_document [Infinite W] {terms : List (PhraseTerm W)}
    (hnonempty : ∀ term ∈ terms, term.phrase ≠ [])
    (hconsistent : Consistent terms) {phrase : List W}
    (hphrase : ¬RulesOut terms phrase) :
    ∃ document, AllHold document terms ∧ phrase <:+: document := by
  classical
  obtain ⟨separator, hseparator⟩ := Infinite.exists_notMem_finset
    (terms.flatMap PhraseTerm.phrase).toFinset
  have hfresh : ∀ term ∈ terms, separator ∉ term.phrase := by
    intro term hterm hmem
    exact hseparator (List.mem_toFinset.mpr
      (List.mem_flatMap.mpr ⟨term, hterm, hmem⟩))
  refine ⟨separated separator (phrase :: positives terms), ?_,
    infix_separated separator List.mem_cons_self⟩
  intro term hterm
  unfold PhraseTerm.Holds
  cases hnegated : term.negated with
  | false =>
      simp only [Bool.false_eq_true, ↓reduceIte]
      exact infix_separated separator
        (List.mem_cons_of_mem _ (mem_positives hterm hnegated))
  | true =>
      simp only [↓reduceIte]
      intro hwithin
      obtain ⟨given, hgiven, hinner⟩ := exists_infix_of_infix_separated
        (hnonempty term hterm) (hfresh term hterm) hwithin
      rcases List.mem_cons.mp hgiven with rfl | hpositive
      · exact hphrase ⟨term, hterm, hnegated, hinner⟩
      · exact hconsistent term hterm hnegated given hpositive hinner

/-- Where terms that rule a phrase out hold, the phrase does not stand. -/
theorem RulesOut.phrase_absent {document : List W} {terms : List (PhraseTerm W)}
    {phrase : List W} (hrules : RulesOut terms phrase)
    (hall : AllHold document terms) : ¬phrase <:+: document := by
  obtain ⟨term, hterm, hnegated, hwithin⟩ := hrules
  have hexcluded := hall term hterm
  simp only [PhraseTerm.Holds, hnegated, ↓reduceIte] at hexcluded
  exact fun hphrase => hexcluded (hwithin.trans hphrase)

end Localmail
