/-
Three SQL idioms over lists: `ORDER BY … LIMIT n` as a sorted prefix,
`COALESCE(MAX(id), 0)`, and a fetch that fails with the first row that does not
load.  What a limited page needs is that it is closed downwards: whatever sorts
strictly before a row of the page is on the page as well.
-/
import Mathlib.Data.List.Pairwise
import Mathlib.Data.List.Sort

namespace Localmail

universe u

variable {α : Type u} {before : α → α → Prop}

/-- In a sorted list a prefix holds everything that is not after one of its
members. -/
theorem mem_take_of_not_rel {rows : List α} (hsorted : rows.Pairwise before)
    {limit : Nat} {last row : α} (hlast : last ∈ rows.take limit)
    (hrow : row ∈ rows) (hnot : ¬ before last row) : row ∈ rows.take limit := by
  rw [← List.take_append_drop limit rows] at hrow hsorted
  rcases List.mem_append.mp hrow with hkept | hdropped
  · exact hkept
  · exact absurd ((List.pairwise_append.mp hsorted).2.2 last hlast row hdropped)
      hnot

variable (before) [DecidableRel before]

/-- The first `limit` rows in the order `before`. -/
def orderLimit (limit : Nat) (rows : List α) : List α :=
  (rows.insertionSort before).take limit

variable {before} {limit : Nat} {rows : List α} {row last : α}

theorem mem_of_mem_orderLimit (hrow : row ∈ orderLimit before limit rows) :
    row ∈ rows :=
  (List.perm_insertionSort before rows).mem_iff.mp (List.mem_of_mem_take hrow)

theorem mem_orderLimit_of_not_rel [Std.Total before] [IsTrans α before]
    (hlast : last ∈ orderLimit before limit rows) (hrow : row ∈ rows)
    (hnot : ¬ before last row) : row ∈ orderLimit before limit rows :=
  mem_take_of_not_rel (List.pairwise_insertionSort before rows) hlast
    ((List.perm_insertionSort before rows).mem_iff.mpr hrow) hnot

theorem exists_mem_orderLimit (hlimit : 0 < limit) (hrow : row ∈ rows) :
    ∃ first, first ∈ orderLimit before limit rows := by
  apply List.exists_mem_of_length_pos
  have hlength : 0 < rows.length := List.length_pos_of_mem hrow
  simp only [orderLimit, List.length_take, List.length_insertionSort]
  omega

/-- `COALESCE(MAX(x), 0)`. -/
def maxOrZero (values : List Nat) : Nat := values.foldr max 0

theorem le_maxOrZero {values : List Nat} {value : Nat}
    (hvalue : value ∈ values) : value ≤ maxOrZero values := by
  induction values with
  | nil => simp at hvalue
  | cons head rest ih =>
      simp only [maxOrZero, List.foldr_cons]
      rcases List.mem_cons.mp hvalue with rfl | hrest
      · exact Nat.le_max_left _ _
      · exact Nat.le_trans (ih hrest) (Nat.le_max_right _ _)

theorem maxOrZero_mem {values : List Nat} (hpos : maxOrZero values ≠ 0) :
    maxOrZero values ∈ values := by
  induction values with
  | nil => simp [maxOrZero] at hpos
  | cons head rest ih =>
      have hcons : maxOrZero (head :: rest) = max head (maxOrZero rest) := rfl
      by_cases hhead : maxOrZero rest ≤ head
      · rw [hcons, Nat.max_eq_left hhead]
        exact List.mem_cons_self
      · rw [hcons, Nat.max_eq_right (by omega)]
        exact List.mem_cons_of_mem _ (ih (by omega))

/-! ### Fetching -/

section Fetch

variable {β : Type} {γ : Type} {read : β → Option γ} {items : List β}

/-- What was fetched was read from some row. -/
theorem exists_of_mem_mapM {values : List γ}
    (hvalues : items.mapM read = some values) {value : γ}
    (hvalue : value ∈ values) : ∃ item ∈ items, read item = some value := by
  induction items generalizing values with
  | nil =>
      cases hvalues
      cases hvalue
  | cons item rest ih =>
      rw [List.mapM_cons] at hvalues
      obtain ⟨first, hfirst, hmore⟩ := Option.bind_eq_some_iff.mp hvalues
      obtain ⟨others, hothers, hlist⟩ := Option.bind_eq_some_iff.mp hmore
      cases hlist
      rcases List.mem_cons.mp hvalue with rfl | hlater
      · exact ⟨item, List.mem_cons_self, hfirst⟩
      · obtain ⟨other, hother, hread⟩ := ih hothers hlater
        exact ⟨other, List.mem_cons_of_mem _ hother, hread⟩

/-- Every row that can be read is fetched. -/
theorem mem_of_mapM {values : List γ} (hvalues : items.mapM read = some values)
    {item : β} (hitem : item ∈ items) {value : γ}
    (hvalue : read item = some value) : value ∈ values := by
  induction items generalizing values with
  | nil => cases hitem
  | cons head rest ih =>
      rw [List.mapM_cons] at hvalues
      obtain ⟨first, hfirst, hmore⟩ := Option.bind_eq_some_iff.mp hvalues
      obtain ⟨others, hothers, hlist⟩ := Option.bind_eq_some_iff.mp hmore
      cases hlist
      rcases List.mem_cons.mp hitem with rfl | hlater
      · rw [hfirst] at hvalue
        cases hvalue
        exact List.mem_cons_self
      · exact List.mem_cons_of_mem _ (ih hothers hlater)

/-- A fetch succeeds just when every row can be read. -/
theorem mapM_isSome_iff :
    (items.mapM read).isSome ↔ ∀ item ∈ items, (read item).isSome := by
  induction items with
  | nil => exact iff_of_true rfl nofun
  | cons item rest ih =>
      rw [List.mapM_cons, List.forall_mem_cons, ← ih]
      cases read item with
      | none => simp
      | some value =>
          cases rest.mapM read with
          | none => simp
          | some others => simp

end Fetch

end Localmail
