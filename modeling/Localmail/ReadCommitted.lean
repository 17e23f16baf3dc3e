/-
Rows under READ COMMITTED.  Each row has its committed version, and while some
transaction holds its lock also that transaction's own version.  A transaction
reads its own versions and otherwise what is committed at that moment; writing
a row takes its lock, which only a commit or a rollback releases.
-/
import Mathlib.Data.List.Basic
import Mathlib.Logic.Function.Basic

namespace Localmail

universe u v

variable {K : Type u} [DecidableEq K] {Row : K → Type v}

/-- The rows of a database.  `dirty` means something only where `owner` names
the transaction that holds the lock; `keys` is what a scan goes through. -/
structure RowStore (Row : K → Type v) where
  committed : (key : K) → Option (Row key)
  dirty : (key : K) → Option (Row key)
  owner : K → Option Nat
  keys : List K
  covered : ∀ key, committed key ≠ none ∨ owner key ≠ none → key ∈ keys

namespace RowStore

def empty : RowStore Row where
  committed := fun _ => none
  dirty := fun _ => none
  owner := fun _ => none
  keys := []
  covered := by simp

/-- What a statement of `tx` starting now sees of a row. -/
def view (store : RowStore Row) (tx : Nat) (key : K) : Option (Row key) :=
  if store.owner key = some tx then store.dirty key else store.committed key

/-- `tx` need not wait for the row. -/
def Free (store : RowStore Row) (tx : Nat) (key : K) : Prop :=
  store.owner key = none ∨ store.owner key = some tx

instance (store : RowStore Row) (tx : Nat) (key : K) :
    Decidable (store.Free tx key) :=
  inferInstanceAs (Decidable (_ ∨ _))

/-- `tx` locks the row and gives it a new version; `none` deletes it. -/
def put (store : RowStore Row) (tx : Nat) (key : K)
    (version : Option (Row key)) : RowStore Row where
  committed := store.committed
  dirty := Function.update store.dirty key version
  owner := Function.update store.owner key (some tx)
  keys := key :: store.keys
  covered := by
    intro other hother
    by_cases hkey : other = key
    · simp [hkey]
    · rw [Function.update_of_ne hkey] at hother
      exact List.mem_cons_of_mem _ (store.covered other hother)

theorem covered_locked (store : RowStore Row) (tx : Nat) (locked : List K)
    (key : K) (hkey : store.committed key ≠ none ∨
      (if key ∈ locked then some tx else store.owner key) ≠ none) :
    key ∈ locked ++ store.keys := by
  by_cases hlocked : key ∈ locked
  · exact List.mem_append_left _ hlocked
  · rw [if_neg hlocked] at hkey
    exact List.mem_append_right _ (store.covered key hkey)

/-- `tx` locks and deletes all of these rows. -/
def removeAll (store : RowStore Row) (tx : Nat) (removed : List K) :
    RowStore Row where
  committed := store.committed
  dirty := fun key => if key ∈ removed then none else store.dirty key
  owner := fun key => if key ∈ removed then some tx else store.owner key
  keys := removed ++ store.keys
  covered := store.covered_locked tx removed

/-- The locks of `tx` are released. -/
def released (store : RowStore Row) (tx : Nat) (key : K) : Option Nat :=
  if store.owner key = some tx then none else store.owner key

omit [DecidableEq K] in
theorem owner_ne_none_of_released {store : RowStore Row} {tx : Nat} {key : K}
    (hreleased : store.released tx key ≠ none) : store.owner key ≠ none := by
  intro hnone
  simp [released, hnone] at hreleased

def commit (store : RowStore Row) (tx : Nat) : RowStore Row where
  committed := store.view tx
  dirty := store.dirty
  owner := store.released tx
  keys := store.keys
  covered := by
    intro key hkey
    refine store.covered key ?_
    rcases hkey with hview | howner
    · by_cases hown : store.owner key = some tx
      · exact Or.inr (by simp [hown])
      · exact Or.inl (by simpa [view, hown] using hview)
    · exact Or.inr (owner_ne_none_of_released howner)

def rollback (store : RowStore Row) (tx : Nat) : RowStore Row where
  committed := store.committed
  dirty := store.dirty
  owner := store.released tx
  keys := store.keys
  covered := by
    intro key hkey
    exact store.covered key (hkey.imp_right owner_ne_none_of_released)

/-- Those of the given keys whose row `tx` sees and finds to satisfy
`chosen`. -/
def matching (store : RowStore Row) (tx : Nat)
    (chosen : (key : K) → Row key → Bool) (keys : List K) : List K :=
  keys.filter fun key =>
    match store.view tx key with
    | some row => chosen key row
    | none => false

/-- The candidates of a statement of `tx` that takes its snapshot now. -/
def scan (store : RowStore Row) (tx : Nat)
    (chosen : (key : K) → Row key → Bool) : List K :=
  store.matching tx chosen store.keys

/-- `DELETE` on the candidates of an earlier snapshot.  It waits for their
locks and deletes those that still satisfy `chosen`. -/
def deleteChosen (store : RowStore Row) (tx : Nat)
    (chosen : (key : K) → Row key → Bool) (candidates : List K) :
    Option (RowStore Row) :=
  if ∀ key ∈ candidates, store.Free tx key then
    some (store.removeAll tx (store.matching tx chosen candidates))
  else none

/-- A row changed by a transaction that is not followed: it is committed at
once, and nobody may hold the row. -/
def install (store : RowStore Row) (key : K) (version : Option (Row key)) :
    Option (RowStore Row) :=
  if store.owner key = none then
    some
      { committed := Function.update store.committed key version
        dirty := store.dirty
        owner := store.owner
        keys := key :: store.keys
        covered := by
          intro other hother
          by_cases hkey : other = key
          · simp [hkey]
          · rw [Function.update_of_ne hkey] at hother
            exact List.mem_cons_of_mem _ (store.covered other hother) }
  else none

/-- Rows deleted together in the same way. -/
def uninstall (store : RowStore Row) (removed : List K) :
    Option (RowStore Row) :=
  if ∀ key ∈ removed, store.owner key = none then
    some
      { committed := fun key =>
          if key ∈ removed then none else store.committed key
        dirty := store.dirty
        owner := store.owner
        keys := store.keys
        covered := by
          intro key hkey
          refine store.covered key (hkey.imp_left fun hcommitted => ?_)
          split at hcommitted
          · exact absurd rfl hcommitted
          · exact hcommitted }
  else none

/-! ### What each operation leaves -/

section Facts

variable {store : RowStore Row} {tx : Nat} {key : K}

omit [DecidableEq K] in
theorem view_of_not_owner (hother : store.owner key ≠ some tx) :
    store.view tx key = store.committed key := by
  simp [view, hother]

omit [DecidableEq K] in
theorem view_of_owner (hown : store.owner key = some tx) :
    store.view tx key = store.dirty key := by
  simp [view, hown]

omit [DecidableEq K] in
theorem mem_matching {chosen : (key : K) → Row key → Bool} {keys : List K} :
    key ∈ store.matching tx chosen keys ↔
      key ∈ keys ∧ ∃ row, store.view tx key = some row ∧
        chosen key row = true := by
  unfold matching
  rw [List.mem_filter]
  refine and_congr_right fun _ => ?_
  cases store.view tx key with
  | none => simp
  | some row => simp

@[simp] theorem committed_put (version : Option (Row key)) (other : K) :
    (store.put tx key version).committed other = store.committed other := rfl

@[simp] theorem owner_put_self (version : Option (Row key)) :
    (store.put tx key version).owner key = some tx :=
  Function.update_self ..

@[simp] theorem dirty_put_self (version : Option (Row key)) :
    (store.put tx key version).dirty key = version :=
  Function.update_self ..

theorem owner_put_of_ne {other : K} (hne : other ≠ key)
    (version : Option (Row key)) :
    (store.put tx key version).owner other = store.owner other :=
  Function.update_of_ne hne ..

theorem dirty_put_of_ne {other : K} (hne : other ≠ key)
    (version : Option (Row key)) :
    (store.put tx key version).dirty other = store.dirty other :=
  Function.update_of_ne hne ..

@[simp] theorem committed_removeAll (removed : List K) (other : K) :
    (store.removeAll tx removed).committed other = store.committed other := rfl

omit [DecidableEq K] in
@[simp] theorem committed_commit (other : K) :
    (store.commit tx).committed other = store.view tx other := rfl

omit [DecidableEq K] in
@[simp] theorem committed_rollback (other : K) :
    (store.rollback tx).committed other = store.committed other := rfl

omit [DecidableEq K] in
@[simp] theorem dirty_commit (other : K) :
    (store.commit tx).dirty other = store.dirty other := rfl

omit [DecidableEq K] in
@[simp] theorem dirty_rollback (other : K) :
    (store.rollback tx).dirty other = store.dirty other := rfl

omit [DecidableEq K] in
theorem owner_of_released {other : Nat}
    (howner : store.released tx key = some other) :
    other ≠ tx ∧ store.owner key = some other := by
  unfold released at howner
  split at howner
  · cases howner
  · rename_i hne
    exact ⟨by rintro rfl; exact hne howner, howner⟩

omit [DecidableEq K] in
theorem released_of_ne {other : Nat} (hne : other ≠ tx)
    (howner : store.owner key = some other) :
    store.released tx key = some other := by
  simp [released, howner, hne]

omit [DecidableEq K] in
theorem released_ne_self : store.released tx key ≠ some tx := by
  intro howner
  exact (owner_of_released howner).1 rfl

end Facts

/-! ### Locked rows -/

/-- Nothing that `tx` has locked changed, and it gained no lock. -/
structure Undisturbed (tx : Nat) (before after : RowStore Row) : Prop where
  owner : ∀ key, after.owner key = some tx ↔ before.owner key = some tx
  dirty : ∀ key, before.owner key = some tx → after.dirty key = before.dirty key
  committed : ∀ key, before.owner key = some tx →
    after.committed key = before.committed key

section Locks

variable {store : RowStore Row} {tx other : Nat}

omit [DecidableEq K] in
theorem Undisturbed.refl (tx : Nat) (store : RowStore Row) :
    Undisturbed tx store store :=
  ⟨fun _ => Iff.rfl, fun _ _ => rfl, fun _ _ => rfl⟩

omit [DecidableEq K] in
/-- A row another transaction may write is not locked by this one. -/
theorem Free.ne_of_owner {key locked : K} (hfree : store.Free other key)
    (hne : tx ≠ other) (howner : store.owner locked = some tx) :
    locked ≠ key := by
  rintro rfl
  rcases hfree with hnone | hown
  · simp [hnone] at howner
  · rw [hown] at howner
    exact hne (Option.some.inj howner).symm

theorem undisturbed_put {key : K} (hne : tx ≠ other)
    (hfree : store.Free other key) (version : Option (Row key)) :
    Undisturbed tx store (store.put other key version) := by
  refine ⟨?_, ?_, fun _ _ => rfl⟩
  · intro locked
    by_cases hkey : locked = key
    · subst hkey
      rw [owner_put_self]
      constructor
      · intro hsame
        exact absurd (Option.some.inj hsame).symm hne
      · intro howner
        exact absurd rfl (hfree.ne_of_owner hne howner)
    · rw [owner_put_of_ne hkey]
  · intro locked howner
    exact dirty_put_of_ne (hfree.ne_of_owner hne howner) version

theorem undisturbed_removeAll {removed : List K} (hne : tx ≠ other)
    (hfree : ∀ key ∈ removed, store.Free other key) :
    Undisturbed tx store (store.removeAll other removed) := by
  have hout : ∀ key, store.owner key = some tx → key ∉ removed :=
    fun key howner hmem => (hfree key hmem).ne_of_owner hne howner rfl
  refine ⟨?_, ?_, fun _ _ => rfl⟩
  · intro key
    by_cases hmem : key ∈ removed
    · simp only [removeAll, hmem, ↓reduceIte, Option.some.injEq]
      constructor
      · intro hsame
        exact absurd hsame.symm hne
      · intro howner
        exact absurd hmem (hout key howner)
    · simp [removeAll, hmem]
  · intro key howner
    simp [removeAll, hout key howner]

omit [DecidableEq K] in
theorem released_eq_some_iff (hne : tx ≠ other) (key : K) :
    store.released other key = some tx ↔ store.owner key = some tx :=
  ⟨fun howner => (owner_of_released howner).2, released_of_ne hne⟩

omit [DecidableEq K] in
theorem undisturbed_commit (hne : tx ≠ other) :
    Undisturbed tx store (store.commit other) := by
  refine ⟨released_eq_some_iff hne, fun _ _ => rfl, ?_⟩
  intro key howner
  refine view_of_not_owner ?_
  rw [howner]
  intro hsame
  exact hne (Option.some.inj hsame)

omit [DecidableEq K] in
theorem undisturbed_rollback (hne : tx ≠ other) :
    Undisturbed tx store (store.rollback other) :=
  ⟨released_eq_some_iff hne, fun _ _ => rfl, fun _ _ => rfl⟩

end Locks

end RowStore

end Localmail
