/-
The least value seen so far, kept for each key while values arrive in any
order.  What is kept depends on the set of values alone.
-/
import Mathlib.Data.List.AList
import Mathlib.Order.Bounds.Basic

namespace Localmail

universe u v

section Least

variable {τ : Type u} [LinearOrder τ] {values : Set τ} {kept : Option τ}
  {value : τ}

/-- Nothing for no values, the least of them otherwise. -/
def KeepsLeast (values : Set τ) : Option τ → Prop
  | none => values = ∅
  | some least => IsLeast values least

/-- A value is kept if it is before the one kept so far. -/
def isEarlier (value : τ) (kept : Option τ) : Bool :=
  kept.all fun least => value < least

theorem KeepsLeast.unique {other : Option τ} (hkept : KeepsLeast values kept)
    (hother : KeepsLeast values other) : kept = other := by
  cases kept with
  | none =>
      cases other with
      | none => rfl
      | some least =>
          rw [KeepsLeast] at hkept
          subst hkept
          exact absurd hother.1 (Set.notMem_empty least)
  | some least =>
      cases other with
      | none =>
          rw [KeepsLeast] at hother
          subst hother
          exact absurd hkept.1 (Set.notMem_empty least)
      | some other => exact congrArg some (IsLeast.unique hkept hother)

theorem KeepsLeast.insert (hkept : KeepsLeast values kept) (value : τ) :
    KeepsLeast (insert value values)
      (if isEarlier value kept then some value else kept) := by
  cases kept with
  | none =>
      rw [KeepsLeast] at hkept
      subst hkept
      exact ⟨Set.mem_insert _ _, by simp [lowerBounds]⟩
  | some least =>
      obtain ⟨hmem, hbound⟩ := hkept
      by_cases hearlier : value < least
      · have hkeep : isEarlier value (some least) = true :=
          decide_eq_true hearlier
        rw [if_pos hkeep]
        refine ⟨Set.mem_insert _ _, ?_⟩
        rintro other (rfl | hother)
        · exact le_refl other
        · exact hearlier.le.trans (hbound hother)
      · have hkeep : ¬ isEarlier value (some least) = true :=
          fun hkeep => hearlier (of_decide_eq_true hkeep)
        rw [if_neg hkeep]
        refine ⟨Set.mem_insert_of_mem _ hmem, ?_⟩
        rintro other (rfl | hother)
        · exact not_lt.mp hearlier
        · exact hbound hother

theorem KeepsLeast.isSome_iff (hkept : KeepsLeast values kept) :
    kept.isSome = true ↔ values.Nonempty := by
  cases kept with
  | none =>
      rw [KeepsLeast] at hkept
      simp [hkept]
  | some least => exact iff_of_true rfl ⟨least, hkept.1⟩

theorem KeepsLeast.of_eq {others : Set τ} (hkept : KeepsLeast values kept)
    (hsame : values = others) : KeepsLeast others kept :=
  hsame ▸ hkept

end Least

/-! ### Association lists -/

section Entries

variable {κ : Type u} {τ : Type v} [DecidableEq κ]

/-- `dict.setdefault`. -/
def setDefault (dict : AList fun _ : κ => τ) (key : κ) (value : τ) :
    AList fun _ : κ => τ :=
  if key ∈ dict then dict else dict.insert key value

theorem lookup_setDefault (dict : AList fun _ : κ => τ) (key wanted : κ)
    (value : τ) :
    (setDefault dict key value).lookup wanted =
      if wanted = key then some ((dict.lookup key).getD value)
      else dict.lookup wanted := by
  unfold setDefault
  by_cases hmem : key ∈ dict
  · rw [if_pos hmem]
    by_cases hsame : wanted = key
    · subst hsame
      obtain ⟨found, hfound⟩ :=
        Option.isSome_iff_exists.mp (AList.lookup_isSome.mpr hmem)
      rw [if_pos rfl, hfound]
      rfl
    · rw [if_neg hsame]
  · rw [if_neg hmem]
    by_cases hsame : wanted = key
    · subst hsame
      rw [if_pos rfl, AList.lookup_insert, AList.lookup_eq_none.mpr hmem]
      rfl
    · rw [if_neg hsame, AList.lookup_insert_ne hsame]

end Entries

end Localmail
