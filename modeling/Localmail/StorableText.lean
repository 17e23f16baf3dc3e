/-
Texts the database can store: no NUL and no lone surrogate.
-/
import Localmail.QueryParse

namespace Localmail

def CodePoint.isStorable : CodePoint → Bool
  | .surrogate _ => false
  | .scalar char => char ≠ '\x00'

/-- The text can be bound as a parameter. -/
def Storable (value : Text) : Prop :=
  ∀ ch ∈ value, ch.isStorable = true

instance (value : Text) : Decidable (Storable value) :=
  List.decidableBAll _ value

theorem Storable.nil : Storable [] := nofun

theorem storable_append {first second : Text} :
    Storable (first ++ second) ↔ Storable first ∧ Storable second :=
  List.forall_mem_append

theorem Storable.of_subset {value part : Text} (hvalue : Storable value)
    (hpart : ∀ ch ∈ part, ch ∈ value) : Storable part :=
  fun ch hch => hvalue ch (hpart ch hch)

theorem Storable.intercalate {separator : Text} {parts : List Text}
    (hseparator : Storable separator)
    (hparts : ∀ part ∈ parts, Storable part) :
    Storable (separator.intercalate parts) := by
  induction parts with
  | nil => exact Storable.nil
  | cons first rest ih =>
      have hfirst := hparts first List.mem_cons_self
      have hrest := ih fun part hpart => hparts part (List.mem_cons_of_mem _ hpart)
      cases rest with
      | nil =>
          rw [List.intercalate_singleton]
          exact hfirst
      | cons second more =>
          rw [List.intercalate_cons_cons, storable_append, storable_append]
          exact ⟨⟨hfirst, hseparator⟩, hrest⟩

theorem Storable.joinSpaces {parts : List Text}
    (hparts : ∀ part ∈ parts, Storable part) :
    Storable (joinSpaces parts) :=
  Storable.intercalate (by decide) hparts

/-- What the parser's check of a token accepts. -/
theorem rejectUnstorable_eq_ok {token : Text} :
    rejectUnstorable token = .ok () ↔ Storable token := by
  have hnone : unstorableIn token = none ↔ Storable token := by
    unfold unstorableIn
    constructor
    · intro hfound
      split at hfound
      · cases hfound
      · rename_i hnul
        rw [List.findSome?_eq_none_iff] at hfound
        intro ch hch
        cases ch with
        | surrogate offset => cases hfound _ hch
        | scalar char =>
            refine decide_eq_true ?_
            rintro rfl
            exact hnul hch
    · intro hstorable
      rw [if_neg fun hnul => absurd (hstorable _ hnul) (by decide),
        List.findSome?_eq_none_iff]
      intro ch hch
      cases ch with
      | surrogate offset => cases hstorable _ hch
      | scalar char => rfl
  unfold rejectUnstorable
  rw [← hnone]
  cases unstorableIn token with
  | none => simp
  | some problem => simp

end Localmail
