/-
Savepoints and updates of several rows under READ COMMITTED.  What a
transaction has written is an overlay on the committed rows; a savepoint
remembers the overlay, and rolling back to it restores that overlay and gives
up the locks taken since.
-/
import Localmail.ReadCommitted

namespace Localmail

universe u v

variable {K : Type u} [DecidableEq K] {Row : K → Type v}

/-- Row versions some transaction holds; `none` where it holds no lock. -/
abbrev Overlay (Row : K → Type v) := (key : K) → Option (Option (Row key))

/-- What is seen through an overlay. -/
def Overlay.over (own : Overlay Row) (committed : (key : K) → Option (Row key))
    (key : K) : Option (Row key) :=
  (own key).getD (committed key)

namespace RowStore

/-- What `tx` has written so far. -/
def own (store : RowStore Row) (tx : Nat) : Overlay Row :=
  fun key => if store.owner key = some tx then some (store.dirty key) else none

/-- `ROLLBACK TO SAVEPOINT`, where `saved` is what `tx` had written by then. -/
def rollbackTo (store : RowStore Row) (tx : Nat) (saved : Overlay Row) :
    RowStore Row where
  committed := store.committed
  dirty := fun key =>
    if store.owner key = some tx then (saved key).join else store.dirty key
  owner := fun key =>
    if store.owner key = some tx then (saved key).map fun _ => tx
    else store.owner key
  keys := store.keys
  covered := by
    intro key hkey
    refine store.covered key (hkey.imp_right fun howner => ?_)
    split at howner
    · rename_i hown
      simp [hown]
    · exact howner

/-- `tx` locks all of these rows and rewrites what it sees of them. -/
def rewriteAll (store : RowStore Row) (tx : Nat)
    (rewrite : (key : K) → Row key → Row key) (rewritten : List K) :
    RowStore Row where
  committed := store.committed
  dirty := fun key =>
    if key ∈ rewritten then (store.view tx key).map (rewrite key)
    else store.dirty key
  owner := fun key => if key ∈ rewritten then some tx else store.owner key
  keys := rewritten ++ store.keys
  covered := store.covered_locked tx rewritten

/-- `UPDATE` on the candidates of an earlier snapshot.  It waits for their
locks and rewrites those that still satisfy `chosen`. -/
def updateChosen (store : RowStore Row) (tx : Nat)
    (chosen : (key : K) → Row key → Bool)
    (rewrite : (key : K) → Row key → Row key) (candidates : List K) :
    Option (RowStore Row) :=
  if ∀ key ∈ candidates, store.Free tx key then
    some (store.rewriteAll tx rewrite (store.matching tx chosen candidates))
  else none

section Facts

variable {store : RowStore Row} {tx other : Nat}

omit [DecidableEq K] in
theorem view_eq_over (key : K) :
    store.view tx key = (store.own tx).over store.committed key := by
  unfold view Overlay.over own
  split
  · rfl
  · rfl

omit [DecidableEq K] in
theorem owner_of_own {key : K} {version : Option (Row key)}
    (hown : store.own tx key = some version) :
    store.owner key = some tx ∧ store.dirty key = version := by
  unfold own at hown
  split at hown
  · rename_i howner
    exact ⟨howner, Option.some.inj hown⟩
  · cases hown

omit [DecidableEq K] in
theorem own_eq_none_of_not_owner {key : K}
    (hother : store.owner key ≠ some tx) : store.own tx key = none := by
  simp [own, hother]

omit [DecidableEq K] in
/-- Whoever disturbs nothing of `tx` leaves its overlay as it is. -/
theorem own_undisturbed {before after : RowStore Row}
    (hundisturbed : Undisturbed tx before after) :
    after.own tx = before.own tx := by
  funext key
  unfold own
  by_cases howner : before.owner key = some tx
  · rw [if_pos howner, if_pos ((hundisturbed.owner key).mpr howner),
      hundisturbed.dirty key howner]
  · rw [if_neg howner, if_neg fun hafter =>
      howner ((hundisturbed.owner key).mp hafter)]

theorem own_put_self (key : K) (version : Option (Row key)) :
    (store.put tx key version).own tx key = some version := by
  simp [own]

theorem own_put_of_ne {key changed : K} (hne : key ≠ changed)
    (version : Option (Row changed)) :
    (store.put tx changed version).own tx key = store.own tx key := by
  simp [own, owner_put_of_ne hne, dirty_put_of_ne hne]

theorem own_removeAll (removed : List K) (key : K) :
    (store.removeAll tx removed).own tx key =
      if key ∈ removed then some none else store.own tx key := by
  unfold own removeAll
  by_cases hremoved : key ∈ removed
  · simp [hremoved]
  · simp [hremoved]

theorem own_rewriteAll (rewrite : (key : K) → Row key → Row key)
    (rewritten : List K) (key : K) :
    (store.rewriteAll tx rewrite rewritten).own tx key =
      if key ∈ rewritten then some ((store.view tx key).map (rewrite key))
      else store.own tx key := by
  unfold own rewriteAll
  by_cases hrewritten : key ∈ rewritten
  · simp [hrewritten]
  · simp [hrewritten]

omit [DecidableEq K] in
theorem own_commit (key : K) : (store.commit tx).own tx key = none :=
  own_eq_none_of_not_owner released_ne_self

omit [DecidableEq K] in
theorem own_rollback (key : K) : (store.rollback tx).own tx key = none :=
  own_eq_none_of_not_owner released_ne_self

omit [DecidableEq K] in
/-- After rolling back, `tx` holds what it held at the savepoint. -/
theorem own_rollbackTo {saved : Overlay Row}
    (hlocked : ∀ key, saved key ≠ none → store.owner key = some tx) :
    (store.rollbackTo tx saved).own tx = saved := by
  funext key
  unfold own rollbackTo
  by_cases howner : store.owner key = some tx
  · cases hsaved : saved key with
    | none => simp [howner, hsaved]
    | some version => simp [howner, hsaved]
  · have hnone : saved key = none := by
      by_contra hsome
      exact howner (hlocked key hsome)
    simp [howner, hnone]

theorem undisturbed_rewriteAll {rewritten : List K} (hne : tx ≠ other)
    (hfree : ∀ key ∈ rewritten, store.Free other key)
    (rewrite : (key : K) → Row key → Row key) :
    Undisturbed tx store (store.rewriteAll other rewrite rewritten) := by
  have hout : ∀ key, store.owner key = some tx → key ∉ rewritten :=
    fun key howner hmem => (hfree key hmem).ne_of_owner hne howner rfl
  refine ⟨?_, ?_, fun _ _ => rfl⟩
  · intro key
    by_cases hmem : key ∈ rewritten
    · simp only [rewriteAll, hmem, ↓reduceIte, Option.some.injEq]
      constructor
      · intro hsame
        exact absurd hsame.symm hne
      · intro howner
        exact absurd hmem (hout key howner)
    · simp [rewriteAll, hmem]
  · intro key howner
    simp [rewriteAll, hout key howner]

omit [DecidableEq K] in
theorem undisturbed_rollbackTo (hne : tx ≠ other) (saved : Overlay Row) :
    Undisturbed tx store (store.rollbackTo other saved) := by
  have hout : ∀ key, store.owner key = some tx →
      store.owner key ≠ some other := by
    intro key howner hsame
    rw [howner] at hsame
    exact hne (Option.some.inj hsame)
  refine ⟨?_, ?_, fun _ _ => rfl⟩
  · intro key
    by_cases hother : store.owner key = some other
    · simp only [rollbackTo, hother, ↓reduceIte, Option.map_eq_some_iff,
        Option.some.injEq]
      constructor
      · rintro ⟨_, -, hsame⟩
        exact absurd hsame.symm hne
      · intro hsame
        exact absurd hsame.symm hne
    · simp [rollbackTo, hother]
  · intro key howner
    simp [rollbackTo, hout key howner]

end Facts

end RowStore

end Localmail
