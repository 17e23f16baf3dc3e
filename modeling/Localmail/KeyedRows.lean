/-
Rows under a key: a list whose keys are distinct, read by looking a key up.
-/
import Mathlib.Data.List.Nodup

namespace Localmail

universe u v

variable {α : Type u} {κ : Type v} [DecidableEq κ] {key : α → κ}

theorem key_of_find? {rows : List α} {wanted : κ} {row : α}
    (hfind : rows.find? (fun other => key other = wanted) = some row) :
    key row = wanted := by
  simpa using List.find?_some hfind

/-- A row is found under its key. -/
theorem find?_of_mem_nodup {rows : List α} {row : α}
    (hnodup : (rows.map key).Nodup) (hmem : row ∈ rows) :
    rows.find? (fun other => key other = key row) = some row := by
  induction rows with
  | nil => cases hmem
  | cons first rest ih =>
      rw [List.map_cons, List.nodup_cons] at hnodup
      obtain rfl | hrest := List.mem_cons.mp hmem
      · simp
      · have hne : key first ≠ key row := by
          intro hsame
          exact hnodup.1 (hsame ▸ List.mem_map_of_mem hrest)
        simp [hne, ih hnodup.2 hrest]

/-- What a lookup finds is the row of that key. -/
theorem find?_eq_some_iff_mem {rows : List α} {wanted : κ} {row : α}
    (hnodup : (rows.map key).Nodup) :
    rows.find? (fun other => key other = wanted) = some row ↔
      row ∈ rows ∧ key row = wanted := by
  constructor
  · intro hfind
    exact ⟨List.mem_of_find?_eq_some hfind, key_of_find? hfind⟩
  · rintro ⟨hmem, rfl⟩
    exact find?_of_mem_nodup hnodup hmem

end Localmail
