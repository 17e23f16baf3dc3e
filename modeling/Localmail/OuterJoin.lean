/-
Left joins, and conditions on rows that may lack a side.  A condition is `NULL`
where it compares a missing column; only those that are true keep a row.
-/
import Mathlib.Data.List.Basic
import Mathlib.Data.List.Dedup

namespace Localmail

universe u v

/-! ### Joins -/

section Joins

variable {A : Type u} {B : Type v}

/-- Each row of the left side with each that matches it, or with none. -/
def leftJoin (matchesOn : A → B → Bool) (left : List A) (right : List B) :
    List (A × Option B) :=
  left.flatMap fun row =>
    match right.filter (matchesOn row) with
    | [] => [(row, none)]
    | found => found.map fun other => (row, some other)

variable {matchesOn : A → B → Bool} {left : List A} {right : List B}

/-- A join that finds no two matches multiplies no row. -/
theorem leftJoin_eq_map
    (hmost : ∀ row ∈ left, (right.filter (matchesOn row)).length ≤ 1) :
    leftJoin matchesOn left right =
      left.map fun row => (row, right.find? (matchesOn row)) := by
  rw [leftJoin, List.map_eq_flatMap]
  apply List.flatMap_congr
  intro row hrow
  rw [← List.head?_filter]
  have hlength := hmost row hrow
  match hfound : right.filter (matchesOn row) with
  | [] => rfl
  | [other] => rfl
  | first :: second :: rest =>
      rw [hfound] at hlength
      simp at hlength

/-- Of distinct rows one at most is a given one. -/
theorem length_filter_eq_le_one [DecidableEq B] (hdistinct : right.Nodup)
    (other : B) : (right.filter fun found => found = other).length ≤ 1 := by
  have hcount : right.count other ≤ 1 := List.nodup_iff_count_le_one.mp hdistinct _
  rw [List.count, List.countP_eq_length_filter] at hcount
  simpa only [beq_eq_decide] using hcount

theorem countP_eq_of_nodup [DecidableEq A] (hdistinct : left.Nodup) (row : A) :
    left.countP (fun other => other = row) = if row ∈ left then 1 else 0 := by
  have hcount : left.countP (fun other => other = row) = left.count row := by
    simp only [List.count, beq_eq_decide]
  rw [hcount]
  split
  · rename_i hmem
    exact List.count_eq_one_of_mem hdistinct hmem
  · rename_i hmem
    exact List.count_eq_zero_of_not_mem hmem

end Joins

/-! ### Conditions -/

/-- `AND` with `NULL`. -/
def sqlAnd : Option Bool → Option Bool → Option Bool
  | some false, _ | _, some false => some false
  | some true, some true => some true
  | _, _ => none

/-- `NOT` with `NULL`. -/
def sqlNot (condition : Option Bool) : Option Bool :=
  condition.map not

theorem sqlAnd_some (left : Bool) (right : Option Bool) :
    sqlAnd (some left) right = if left then right else some false := by
  cases left with
  | false => rfl
  | true =>
      match right with
      | none => rfl
      | some true => rfl
      | some false => rfl

/-- `value = ANY(list)`, for a list without `NULL`. -/
def sqlAny {A : Type u} [DecidableEq A] (value : Option A) (list : List A) :
    Option Bool :=
  if list = [] then some false else value.map fun value => value ∈ list

theorem sqlAny_eq_true_iff {A : Type u} [DecidableEq A] {value : Option A}
    {list : List A} :
    sqlAny value list = some true ↔ ∃ found, value = some found ∧ found ∈ list := by
  unfold sqlAny
  split
  · rename_i hempty
    simp [hempty]
  · simp

end Localmail
