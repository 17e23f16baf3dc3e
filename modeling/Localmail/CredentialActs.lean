/-
What one step of any program can do to the tables, said once: write a row it
need not wait for, insert under an unused secret, delete such rows, commit or
roll back.  From that: locks are respected, secrets are used once, and what a
credential descends from never changes.
-/
import Localmail.CredentialPrograms

namespace Localmail

def Key.secret : Key → Option Nat
  | .user _ => none
  | .token secret | .code secret | .refresh secret => some secret

/-- What an `UPDATE` can do to a row: a user gets a cutoff, a token its last
use, a refresh token is consumed, and all else stays. -/
def Updates : (key : Key) → CredentialRow key → CredentialRow key → Prop
  | .user _, old, new =>
      ∃ cutoff, new = { old with sessionsInvalidatedAt := some cutoff }
  | .token _, old, new => ∃ used, new = { old with lastUsedAt := some used }
  | .code _, _, _ => False
  | .refresh _, old, new => ∃ at', new = { old with consumedAt := some at' }

/-- One step of transaction `tx`. -/
inductive Acts (tx : Nat) (shared : Shared) : Shared → Prop
  | idle : Acts tx shared shared
  | put (key : Key) (version : Option (CredentialRow key))
      (current : CredentialRow key) (free : shared.store.Free tx key)
      (seen : shared.read tx key = some current)
      (updates : ∀ row, version = some row → Updates key current row) :
      Acts tx shared (shared.put tx key version)
  | insert (key : Key) (row : CredentialRow key) (descent : List (Key × Nat))
      (unused : key.secret = some shared.fresh) :
      Acts tx shared (shared.insert tx key row descent)
  | delete (chosen : (key : Key) → CredentialRow key → Bool)
      (candidates : List Key) (store : CredentialStore)
      (deleted : shared.store.deleteChosen tx chosen candidates = some store) :
      Acts tx shared { shared with store := store }
  | commit : Acts tx shared (shared.commit tx)
  | rollback : Acts tx shared (shared.rollback tx)

/-! ### The programs -/

section Programs

variable {config : CredentialConfig} {tx : Nat} {shared next : Shared}

theorem codeStep_acts {exchange after : CodeExchange}
    (hstep : codeStep config tx shared exchange = some (next, after)) :
    Acts tx shared next := by
  unfold codeStep at hstep
  cases hphase : exchange.phase <;> simp only [hphase] at hstep
  case load =>
    repeat' split at hstep
    all_goals
      cases hstep
      exact .idle
  case begin | mintBegin =>
    cases hstep
    exact .idle
  case burn | loadNew =>
    split at hstep
    all_goals
      cases hstep
      first | exact .idle | exact .rollback
  case burning =>
    split at hstep
    · rename_i hfree
      split at hstep
      · cases hstep
        exact .idle
      · rename_i row hrow
        cases hstep
        exact .put _ _ row hfree hrow nofun
    · cases hstep
  case burned =>
    split at hstep
    all_goals
      cases hstep
      exact .commit
  case mintRefresh | mintAccess =>
    split at hstep
    · cases hstep
      exact .insert _ _ _ rfl
    · cases hstep
      exact .rollback
  case finish =>
    cases hstep
    exact .commit
  case done | stopped => cases hstep

theorem refreshStep_acts {exchange after : RefreshExchange}
    (hstep : refreshStep config tx shared exchange = some (next, after)) :
    Acts tx shared next := by
  unfold refreshStep at hstep
  cases hphase : exchange.phase <;> simp only [hphase] at hstep
  case begin | claim | sweep | deleteFamily | purgeAccess =>
    cases hstep
    exact .idle
  case rawState | reread =>
    repeat' split at hstep
    all_goals
      cases hstep
      first | exact .idle | exact .rollback
  case load | loadNew =>
    split at hstep
    all_goals
      cases hstep
      first | exact .idle | exact .rollback
  case claiming =>
    split at hstep
    · rename_i hfree
      split at hstep
      · cases hstep
        exact .idle
      · rename_i row hrow
        split at hstep
        · cases hstep
          exact .put _ _ row hfree hrow (by
            rintro _ ⟨⟩
            exact ⟨_, rfl⟩)
        · cases hstep
          exact .idle
    · cases hstep
  case mint =>
    cases hstep
    exact .insert _ _ _ rfl
  case mintAccess =>
    split at hstep
    · cases hstep
      exact .insert _ _ _ rfl
    · cases hstep
      exact .rollback
  case sweeping | deletingFamily | purgingAccess =>
    split at hstep
    · cases hstep
    · rename_i store hdeleted
      cases hstep
      exact .delete _ _ store hdeleted
  case finish | finishReuse =>
    cases hstep
    exact .commit
  case rotated | reuse | stopped => cases hstep

theorem bearerStep_acts {refresh after : BearerRefresh}
    (hstep : bearerStep tx shared refresh = some (next, after)) :
    Acts tx shared next := by
  unfold bearerStep at hstep
  cases hphase : refresh.phase <;> simp only [hphase] at hstep
  case begin | delete =>
    cases hstep
    exact .idle
  case verify =>
    split at hstep
    all_goals
      cases hstep
      first | exact .idle | exact .rollback
  case touch =>
    split at hstep
    all_goals
      cases hstep
      exact .idle
  case touching =>
    split at hstep
    · rename_i hfree
      split at hstep
      · cases hstep
        exact .idle
      · rename_i row hrow
        split at hstep
        · cases hstep
          exact .put _ _ row hfree hrow (by
            rintro _ ⟨⟩
            exact ⟨_, rfl⟩)
        · cases hstep
          exact .idle
    · cases hstep
  case issue =>
    split at hstep
    · cases hstep
      exact .insert _ _ _ rfl
    · cases hstep
      exact .rollback
  case deleting =>
    split at hstep
    · rename_i hfree
      split at hstep
      · cases hstep
        exact .idle
      · rename_i row hrow
        cases hstep
        exact .put _ _ row hfree hrow nofun
    · cases hstep
  case finish =>
    cases hstep
    exact .commit
  case done | stopped => cases hstep

theorem logoutStep_acts {logout after : Logout}
    (hstep : logoutStep tx shared logout = some (next, after)) :
    Acts tx shared next := by
  unfold logoutStep at hstep
  cases hphase : logout.phase <;> simp only [hphase] at hstep
  case delete | checkKey =>
    repeat' split at hstep
    all_goals
      cases hstep
      first | exact .idle | exact .rollback
  case deleting =>
    split at hstep
    · rename_i hfree
      split at hstep
      · cases hstep
        exact .idle
      · rename_i row hrow
        split at hstep
        · cases hstep
          exact .put _ _ row hfree hrow nofun
        · cases hstep
          exact .idle
    · cases hstep
  case finish =>
    cases hstep
    exact .commit
  case done | stopped => cases hstep

theorem revokeStep_acts {revocation after : Revocation}
    (hstep : revokeStep tx shared revocation = some (next, after)) :
    Acts tx shared next := by
  unfold revokeStep at hstep
  cases hphase : revocation.phase <;> simp only [hphase] at hstep
  case begin =>
    cases hstep
    exact .idle
  case update =>
    split at hstep
    all_goals
      cases hstep
      first | exact .idle | exact .rollback
  case updating =>
    split at hstep
    · rename_i hfree
      split at hstep
      · cases hstep
        exact .rollback
      · rename_i row hrow
        cases hstep
        exact .put _ _ row hfree hrow (by
          rintro _ ⟨⟩
          exact ⟨_, rfl⟩)
    · cases hstep
  case finish =>
    cases hstep
    exact .commit
  case done | stopped => cases hstep

end Programs

/-! ### What follows for every program -/

/-- No row was ever stored under a secret that is still to be used. -/
def FreshUnused (shared : Shared) : Prop :=
  ∀ key secret, key.secret = some secret → shared.fresh ≤ secret →
    shared.store.committed key = none ∧ shared.store.owner key = none

section Consequences

variable {tx other : Nat} {shared next : Shared}

theorem FreshUnused.lt_of_committed (hfresh : FreshUnused shared) {key : Key}
    (hcommitted : shared.store.committed key ≠ none) {secret : Nat}
    (hsecret : key.secret = some secret) : secret < shared.fresh := by
  by_contra hge
  exact hcommitted (hfresh key secret hsecret (by omega)).1

theorem FreshUnused.lt_of_owner (hfresh : FreshUnused shared) {key : Key}
    (howner : shared.store.owner key = some tx) {secret : Nat}
    (hsecret : key.secret = some secret) : secret < shared.fresh := by
  by_contra hge
  rw [(hfresh key secret hsecret (by omega)).2] at howner
  cases howner

theorem deleteChosen_eq_some {store after : CredentialStore}
    {chosen : (key : Key) → CredentialRow key → Bool} {candidates : List Key}
    (hdeleted : store.deleteChosen tx chosen candidates = some after) :
    (∀ key ∈ candidates, store.Free tx key) ∧
      after = store.removeAll tx (store.matching tx chosen candidates) := by
  unfold RowStore.deleteChosen at hdeleted
  split at hdeleted
  · rename_i hfree
    exact ⟨hfree, (Option.some.inj hdeleted).symm⟩
  · cases hdeleted

theorem owner_commit_ne (key : Key) :
    (shared.commit tx).store.owner key ≠ some tx :=
  RowStore.released_ne_self

theorem owner_rollback_ne (key : Key) :
    (shared.rollback tx).store.owner key ≠ some tx :=
  RowStore.released_ne_self

theorem owner_put_cases {key written : Key}
    {version : Option (CredentialRow written)}
    (howner : (shared.store.put tx written version).owner key = some other) :
    key = written ∨ shared.store.owner key = some other := by
  by_cases hkey : key = written
  · exact Or.inl hkey
  · exact Or.inr ((RowStore.owner_put_of_ne hkey _).symm.trans howner)

/-- What another transaction has locked stays as it is. -/
theorem Acts.undisturbed (hacts : Acts tx shared next)
    (hfresh : FreshUnused shared) (hne : other ≠ tx) :
    RowStore.Undisturbed other shared.store next.store := by
  cases hacts with
  | idle => exact .refl other _
  | put key version _ hfree _ _ =>
      exact RowStore.undisturbed_put hne hfree version
  | insert key row descent hunused =>
      have hunowned := (hfresh key _ hunused (Nat.le_refl _)).2
      exact RowStore.undisturbed_put hne (Or.inl hunowned) (some row)
  | delete chosen candidates store hdeleted =>
      obtain ⟨hfree, rfl⟩ := deleteChosen_eq_some hdeleted
      exact RowStore.undisturbed_removeAll hne fun key hkey =>
        hfree key (RowStore.mem_matching.mp hkey).1
  | commit => exact RowStore.undisturbed_commit hne
  | rollback => exact RowStore.undisturbed_rollback hne

theorem Acts.fresh_le (hacts : Acts tx shared next) :
    shared.fresh ≤ next.fresh := by
  cases hacts with
  | insert => exact Nat.le_succ _
  | idle | put | delete | commit | rollback => exact Nat.le_refl _

/-- Descent is fixed when a secret is used. -/
theorem Acts.descent_eq (hacts : Acts tx shared next) {key : Key}
    (hkey : ∀ secret, key.secret = some secret → secret < shared.fresh) :
    next.descent key = shared.descent key := by
  cases hacts with
  | insert inserted row descent hunused =>
      refine Function.update_of_ne ?_ ..
      rintro rfl
      exact absurd (hkey _ hunused) (Nat.lt_irrefl _)
  | idle | put | delete | commit | rollback => rfl

/-- A step commits nothing unless it is a commit. -/
theorem Acts.committed_eq (hacts : Acts tx shared next) (key : Key) :
    next.store.committed key = shared.store.committed key ∨
      next = shared.commit tx := by
  cases hacts with
  | commit => exact Or.inr rfl
  | delete chosen candidates store hdeleted =>
      obtain ⟨-, rfl⟩ := deleteChosen_eq_some hdeleted
      exact Or.inl rfl
  | idle | put | insert | rollback => exact Or.inl rfl

/-- Only the acting transaction gains locks. -/
theorem Acts.owner_cases (hacts : Acts tx shared next) {key : Key}
    (howner : next.store.owner key = some other) :
    other = tx ∨ shared.store.owner key = some other := by
  by_cases hsame : other = tx
  · exact Or.inl hsame
  · refine Or.inr ?_
    cases hacts with
    | idle => exact howner
    | put written _ _ _ _ _ | insert written _ _ _ =>
        by_cases hkey : key = written
        · subst hkey
          have hself := (RowStore.owner_put_self _).symm.trans howner
          exact absurd (Option.some.inj hself).symm hsame
        · exact (RowStore.owner_put_of_ne hkey _).symm.trans howner
    | delete chosen candidates store hdeleted =>
        obtain ⟨-, rfl⟩ := deleteChosen_eq_some hdeleted
        simp only [RowStore.removeAll] at howner
        split at howner
        · exact absurd (Option.some.inj howner).symm hsame
        · exact howner
    | commit => exact (RowStore.owner_of_released howner).2
    | rollback => exact (RowStore.owner_of_released howner).2

/-- A row that is neither stored nor locked stays so, unless an insertion uses
its secret. -/
theorem Acts.absent (hacts : Acts tx shared next) {key : Key}
    (hcommitted : shared.store.committed key = none)
    (howner : shared.store.owner key = none)
    (hused : key.secret = some shared.fresh → next.fresh = shared.fresh) :
    next.store.committed key = none ∧ next.store.owner key = none := by
  have hview : shared.store.view tx key = none := by
    simp [RowStore.view, hcommitted, howner]
  constructor
  · rcases hacts.committed_eq key with hsame | rfl
    · exact hsame.trans hcommitted
    · exact hview
  · cases hacts with
    | idle => exact howner
    | put written version current hfree hseen =>
        have hne : key ≠ written := by
          rintro rfl
          cases hseen.symm.trans hview
        exact (RowStore.owner_put_of_ne hne _).trans howner
    | insert written row descent hunused =>
        have hne : key ≠ written := by
          rintro rfl
          exact Nat.succ_ne_self _ (hused hunused)
        exact (RowStore.owner_put_of_ne hne _).trans howner
    | delete chosen candidates store hdeleted =>
        obtain ⟨-, rfl⟩ := deleteChosen_eq_some hdeleted
        have hout : key ∉ shared.store.matching tx chosen candidates := by
          intro hmem
          obtain ⟨-, row, hrow, -⟩ := RowStore.mem_matching.mp hmem
          rw [hview] at hrow
          cases hrow
        simp [RowStore.removeAll, hout, howner]
    | commit => simp [Shared.commit, RowStore.commit, RowStore.released, howner]
    | rollback =>
        simp [Shared.rollback, RowStore.rollback, RowStore.released, howner]

theorem Acts.freshUnused (hacts : Acts tx shared next)
    (hfresh : FreshUnused shared) : FreshUnused next := by
  intro key secret hsecret hle
  have hmono := hacts.fresh_le
  obtain ⟨hcommitted, howner⟩ := hfresh key secret hsecret (by omega)
  refine hacts.absent hcommitted howner ?_
  intro hused
  have := Option.some.inj (hsecret.symm.trans hused)
  omega

/-- Every version of the row, committed or not, satisfies `P`. -/
structure AllVersions (shared : Shared) (key : Key)
    (P : CredentialRow key → Prop) : Prop where
  committed : ∀ row, shared.store.committed key = some row → P row
  dirty : ∀ row, shared.store.owner key ≠ none →
    shared.store.dirty key = some row → P row

theorem AllVersions.of_read {key : Key} {P : CredentialRow key → Prop}
    (hall : AllVersions shared key P) {row : CredentialRow key}
    (hread : shared.read tx key = some row) : P row := by
  by_cases howner : shared.store.owner key = some tx
  · rw [Shared.read, RowStore.view_of_owner howner] at hread
    exact hall.dirty row (by simp [howner]) hread
  · rw [Shared.read, RowStore.view_of_not_owner howner] at hread
    exact hall.committed row hread

/-- What updates keep stays true of a row that has been inserted. -/
theorem AllVersions.acts {key : Key} {P : CredentialRow key → Prop}
    (hall : AllVersions shared key P) (hacts : Acts tx shared next)
    (hused : ∀ secret, key.secret = some secret → secret < shared.fresh)
    (hkept : ∀ old new, Updates key old new → P old → P new) :
    AllVersions next key P := by
  cases hacts with
  | idle => exact hall
  | put written version current hfree hseen hupdates =>
      refine ⟨hall.committed, ?_⟩
      by_cases hkey : key = written
      · subst hkey
        intro row _ hdirty
        have hversion : version = some row :=
          (RowStore.dirty_put_self _).symm.trans hdirty
        exact hkept current row (hupdates row hversion) (hall.of_read hseen)
      · intro row howner hdirty
        refine hall.dirty row ?_ ((RowStore.dirty_put_of_ne hkey _).symm.trans hdirty)
        exact (RowStore.owner_put_of_ne hkey _).symm.trans_ne howner
  | insert written inserted descent hunused =>
      have hkey : key ≠ written := by
        rintro rfl
        exact absurd (hused _ hunused) (Nat.lt_irrefl _)
      refine ⟨hall.committed, ?_⟩
      intro row howner hdirty
      refine hall.dirty row ?_ ((RowStore.dirty_put_of_ne hkey _).symm.trans hdirty)
      exact (RowStore.owner_put_of_ne hkey _).symm.trans_ne howner
  | delete chosen candidates store hdeleted =>
      obtain ⟨-, rfl⟩ := deleteChosen_eq_some hdeleted
      refine ⟨hall.committed, ?_⟩
      intro row howner hdirty
      simp only [RowStore.removeAll] at howner hdirty
      split at hdirty
      · cases hdirty
      · rename_i hout
        rw [if_neg hout] at howner
        exact hall.dirty row howner hdirty
  | commit =>
      refine ⟨fun row hcommitted => hall.of_read hcommitted, ?_⟩
      intro row howner hdirty
      exact hall.dirty row (RowStore.owner_ne_none_of_released howner) hdirty
  | rollback =>
      refine ⟨hall.committed, ?_⟩
      intro row howner hdirty
      exact hall.dirty row (RowStore.owner_ne_none_of_released howner) hdirty

theorem AllVersions.of_absent {key : Key} {P : CredentialRow key → Prop}
    (hcommitted : shared.store.committed key = none)
    (howner : shared.store.owner key = none) : AllVersions shared key P where
  committed := by simp [hcommitted]
  dirty := by simp [howner]

theorem AllVersions.of_insert {key : Key} {P : CredentialRow key → Prop}
    (hcommitted : shared.store.committed key = none) {row : CredentialRow key}
    (hrow : P row) (descent : List (Key × Nat)) :
    AllVersions (shared.insert tx key row descent) key P where
  committed := by
    intro version hversion
    cases hcommitted.symm.trans hversion
  dirty := by
    intro version _ hversion
    have hsame := (RowStore.dirty_put_self _).symm.trans hversion
    exact Option.some.inj hsame ▸ hrow

/-- Under an unused secret nothing is stored unless this step inserts it. -/
theorem Acts.newest (hacts : Acts tx shared next) (hunused : FreshUnused shared)
    (key : Key) {secret : Nat} (hsecret : key.secret = some secret)
    (hle : shared.fresh ≤ secret) :
    (next.store.committed key = none ∧ next.store.owner key = none) ∨
      ∃ row descent, next = shared.insert tx key row descent := by
  have hnone := hunused key secret hsecret hle
  by_cases hinsert : next.fresh = shared.fresh
  · exact Or.inl (hacts.absent hnone.1 hnone.2 fun _ => hinsert)
  · cases hacts with
    | insert written row descent hused =>
        by_cases hkey : key = written
        · subst hkey
          exact Or.inr ⟨row, descent, rfl⟩
        · exact Or.inl ⟨hnone.1,
            (RowStore.owner_put_of_ne hkey _).trans hnone.2⟩
    | idle | put | delete | commit | rollback => exact absurd rfl hinsert

end Consequences

/-! ### Outside changes -/

/-- A change committed at once: no lock moves, no locked row changes, and under
a secret used before nothing new appears. -/
structure Settles (before after : Shared) : Prop where
  owner : after.store.owner = before.store.owner
  dirty : after.store.dirty = before.store.dirty
  committed : ∀ key, before.store.owner key ≠ none →
    after.store.committed key = before.store.committed key
  old : ∀ key secret, key.secret = some secret → secret < before.fresh →
    after.store.committed key = before.store.committed key ∨
      after.store.committed key = none
  clock : before.clock ≤ after.clock
  fresh : before.fresh ≤ after.fresh
  descent : after.descent = before.descent
  unused : FreshUnused before → FreshUnused after

section Outside

variable {shared next : Shared}

theorem install_eq_some {store after : CredentialStore} {key : Key}
    {version : Option (CredentialRow key)}
    (hinstall : store.install key version = some after) :
    store.owner key = none ∧ after.owner = store.owner ∧
      after.dirty = store.dirty ∧
      after.committed = Function.update store.committed key version := by
  unfold RowStore.install at hinstall
  split at hinstall
  · rename_i howner
    obtain rfl := Option.some.inj hinstall
    exact ⟨howner, rfl, rfl, rfl⟩
  · cases hinstall

theorem installFresh_eq_some {userId createdAt : Nat} {key : Key}
    {row : CredentialRow key}
    (hinstall : shared.installFresh userId createdAt key row = some next) :
    createdAt ≤ shared.clock ∧
      (shared.store.committed (.user userId)).isSome ∧
      ∃ store, shared.store.install key (some row) = some store ∧
        next = { shared with store := store, fresh := shared.fresh + 1 } := by
  unfold Shared.installFresh at hinstall
  split at hinstall
  · rename_i hallowed
    obtain ⟨store, hstore, rfl⟩ := Option.map_eq_some_iff.mp hinstall
    exact ⟨hallowed.1, hallowed.2, store, hstore, rfl⟩
  · cases hinstall

theorem installFresh_settles {userId createdAt : Nat} {key : Key}
    {row : CredentialRow key} (hsecret : key.secret = some shared.fresh)
    (hinstall : shared.installFresh userId createdAt key row = some next) :
    Settles shared next := by
  obtain ⟨-, -, store, hstore, rfl⟩ := installFresh_eq_some hinstall
  obtain ⟨hfree, howner, hdirty, hcommitted⟩ := install_eq_some hstore
  have hothers : ∀ other, other ≠ key →
      store.committed other = shared.store.committed other := by
    intro other hne
    rw [hcommitted, Function.update_of_ne hne]
  refine ⟨howner, hdirty, ?_, ?_, Nat.le_refl _, Nat.le_succ _, rfl, ?_⟩
  · intro other howned
    refine hothers other ?_
    rintro rfl
    exact howned hfree
  · intro other secret hother hlt
    refine Or.inl (hothers other ?_)
    rintro rfl
    have := Option.some.inj (hother.symm.trans hsecret)
    omega
  · intro hfresh other secret hother hle
    obtain ⟨hnone, hunowned⟩ :=
      hfresh other secret hother (Nat.le_of_succ_le hle)
    refine ⟨(hothers other ?_).trans hnone, ?_⟩
    · rintro rfl
      have := Option.some.inj (hother.symm.trans hsecret)
      simp only at hle
      omega
    · exact (congrFun howner other).trans hunowned

theorem Settles.trans {before middle after : Shared}
    (hfirst : Settles before middle) (hsecond : Settles middle after) :
    Settles before after where
  owner := hsecond.owner.trans hfirst.owner
  dirty := hsecond.dirty.trans hfirst.dirty
  committed := by
    intro key howned
    have hmiddle : middle.store.owner key ≠ none := by
      rw [hfirst.owner]
      exact howned
    exact (hsecond.committed key hmiddle).trans (hfirst.committed key howned)
  old := by
    intro key secret hsecret hlt
    rcases hsecond.old key secret hsecret (Nat.lt_of_lt_of_le hlt hfirst.fresh)
      with hsame | hnone
    · rw [hsame]
      exact hfirst.old key secret hsecret hlt
    · exact Or.inr hnone
  clock := Nat.le_trans hfirst.clock hsecond.clock
  fresh := Nat.le_trans hfirst.fresh hsecond.fresh
  descent := hsecond.descent.trans hfirst.descent
  unused := fun hfresh => hsecond.unused (hfirst.unused hfresh)

theorem setUser_settles {id : Nat} {row : UserRow}
    (houtside : shared.outside (.setUser id row) = some next) :
    Settles shared next := by
  obtain ⟨store, hstore, rfl⟩ := Option.map_eq_some_iff.mp houtside
  obtain ⟨hfree, howner, hdirty, hcommitted⟩ := install_eq_some hstore
  have hothers : ∀ other, other ≠ .user id →
      store.committed other = shared.store.committed other := by
    intro other hne
    rw [hcommitted, Function.update_of_ne hne]
  refine ⟨howner, hdirty, ?_, ?_, Nat.le_refl _, Nat.le_refl _, rfl, ?_⟩
  · intro other howned
    refine hothers other ?_
    rintro rfl
    exact howned hfree
  · intro other secret hother _
    refine Or.inl (hothers other ?_)
    rintro rfl
    cases hother
  · intro hfresh other secret hother hle
    obtain ⟨hnone, hunowned⟩ := hfresh other secret hother hle
    refine ⟨(hothers other ?_).trans hnone, (congrFun howner other).trans hunowned⟩
    rintro rfl
    cases hother

theorem deleteUser_settles {id : Nat}
    (houtside : shared.outside (.deleteUser id) = some next) :
    Settles shared next := by
  obtain ⟨store, hstore, rfl⟩ := Option.map_eq_some_iff.mp houtside
  unfold RowStore.uninstall at hstore
  split at hstore
  · rename_i hfree
    obtain rfl := Option.some.inj hstore
    refine ⟨rfl, rfl, ?_, ?_, Nat.le_refl _, Nat.le_refl _, rfl, ?_⟩
    · intro key howned
      refine if_neg ?_
      intro hmem
      exact howned (hfree key hmem)
    · intro key secret _ _
      by_cases hmem : key ∈ userKeys shared.store id
      · exact Or.inr (if_pos hmem)
      · exact Or.inl (if_neg hmem)
    · intro hfresh key secret hsecret hle
      obtain ⟨hnone, hunowned⟩ := hfresh key secret hsecret hle
      exact ⟨by simp [hnone], hunowned⟩
  · cases hstore

theorem outside_settles {change : Outside}
    (houtside : shared.outside change = some next) : Settles shared next := by
  cases change with
  | tick elapsed =>
      obtain rfl := Option.some.inj houtside
      exact ⟨rfl, rfl, fun _ _ => rfl, fun _ _ _ _ => Or.inl rfl,
        Nat.le_add_right _ _, Nat.le_refl _, rfl, id⟩
  | setUser id row => exact setUser_settles houtside
  | deleteUser id => exact deleteUser_settles houtside
  | login userId createdAt expiresAt =>
      exact installFresh_settles rfl houtside
  | consent userId clientId createdAt expiresAt =>
      exact installFresh_settles rfl houtside
  | grant userId clientId createdAt refreshExpiresAt accessExpiresAt =>
      obtain ⟨middle, hfirst, hsecond⟩ := Option.bind_eq_some_iff.mp houtside
      exact (installFresh_settles rfl hfirst).trans
        (installFresh_settles rfl hsecond)

theorem AllVersions.settles {key : Key} {P : CredentialRow key → Prop}
    (hall : AllVersions shared key P) (hsettles : Settles shared next)
    {secret : Nat} (hsecret : key.secret = some secret)
    (hused : secret < shared.fresh) : AllVersions next key P where
  committed := by
    intro row hcommitted
    rcases hsettles.old key secret hsecret hused with hsame | hnone
    · exact hall.committed row (hsame ▸ hcommitted)
    · rw [hnone] at hcommitted
      cases hcommitted
  dirty := by
    rw [hsettles.owner, hsettles.dirty]
    exact hall.dirty

/-- The rows an outside change writes. -/
def Outside.Writes (shared : Shared) : Outside → Key → Prop
  | .tick _, _ | .deleteUser _, _ => False
  | .setUser id _, key => key = .user id
  | .login _ _ _, key => key = .token shared.fresh
  | .consent _ _ _ _, key => key = .code shared.fresh
  | .grant _ _ _ _ _, key =>
      key = .refresh shared.fresh ∨ key = .token (shared.fresh + 1)

theorem installFresh_committed {userId createdAt : Nat} {key other : Key}
    {row : CredentialRow key}
    (hinstall : shared.installFresh userId createdAt key row = some next)
    (hne : other ≠ key) :
    next.store.committed other = shared.store.committed other := by
  obtain ⟨-, -, store, hstore, rfl⟩ := installFresh_eq_some hinstall
  obtain ⟨-, -, -, hcommitted⟩ := install_eq_some hstore
  simp only [hcommitted, Function.update_of_ne hne]

theorem installFresh_committed_self {userId createdAt : Nat} {key : Key}
    {row : CredentialRow key}
    (hinstall : shared.installFresh userId createdAt key row = some next) :
    next.store.committed key = some row := by
  obtain ⟨-, -, store, hstore, rfl⟩ := installFresh_eq_some hinstall
  obtain ⟨-, -, -, hcommitted⟩ := install_eq_some hstore
  simp only [hcommitted, Function.update_self]

/-- Every other row stays or is deleted with its user. -/
theorem outside_committed {change : Outside}
    (houtside : shared.outside change = some next) (key : Key) :
    next.store.committed key = shared.store.committed key ∨
      next.store.committed key = none ∨ change.Writes shared key := by
  by_cases hwrites : change.Writes shared key
  · exact Or.inr (Or.inr hwrites)
  cases change with
  | tick elapsed =>
      obtain rfl := Option.some.inj houtside
      exact Or.inl rfl
  | setUser id row =>
      obtain ⟨store, hstore, rfl⟩ := Option.map_eq_some_iff.mp houtside
      obtain ⟨-, -, -, hcommitted⟩ := install_eq_some hstore
      refine Or.inl ?_
      simp only [hcommitted]
      exact Function.update_of_ne hwrites ..
  | deleteUser id =>
      obtain ⟨store, hstore, rfl⟩ := Option.map_eq_some_iff.mp houtside
      unfold RowStore.uninstall at hstore
      split at hstore
      · obtain rfl := Option.some.inj hstore
        by_cases hmem : key ∈ userKeys shared.store id
        · exact Or.inr (Or.inl (if_pos hmem))
        · exact Or.inl (if_neg hmem)
      · cases hstore
  | login userId createdAt expiresAt =>
      exact Or.inl (installFresh_committed houtside hwrites)
  | consent userId clientId createdAt expiresAt =>
      exact Or.inl (installFresh_committed houtside hwrites)
  | grant userId clientId createdAt refreshExpiresAt accessExpiresAt =>
      obtain ⟨middle, hfirst, hsecond⟩ := Option.bind_eq_some_iff.mp houtside
      obtain ⟨-, -, store, -, rfl⟩ := installFresh_eq_some hfirst
      refine Or.inl ((installFresh_committed hsecond ?_).trans
        (installFresh_committed hfirst ?_))
      · exact fun hkey => hwrites (Or.inr hkey)
      · exact fun hkey => hwrites (Or.inl hkey)

theorem Settles.undisturbed (hsettles : Settles shared next) (tx : Nat) :
    RowStore.Undisturbed tx shared.store next.store := by
  refine ⟨?_, ?_, ?_⟩
  · intro key
    rw [hsettles.owner]
  · intro key _
    rw [hsettles.dirty]
  · intro key howner
    exact hsettles.committed key (by simp [howner])

end Outside

/-! ### Worlds -/

/-- The rules let processes only act on the tables, roll back what they
abandon, and settle what happens besides at once. -/
structure TableRules {P O : Type} (rules : ProcessRules Shared P O) : Prop where
  acts : ∀ tx shared proc next after,
    rules.advance tx shared proc = some (next, after) → Acts tx shared next
  abandon : ∀ tx shared, rules.abandon tx shared = shared.rollback tx
  settles : ∀ shared change next,
    rules.outside shared change = some next → Settles shared next

section Worlds

variable {P : Type} {advance : Nat → Shared → P → Option (Shared × P)}
  {stopped : P} {finished initial : P → Bool} {happens : Outside → Bool}

theorem credentialRules_outside {shared next : Shared} {change : Outside}
    (houtside : (credentialRules advance stopped finished initial
      happens).outside shared change = some next) :
    happens change = true ∧ shared.outside change = some next := by
  dsimp only [credentialRules] at houtside
  split at houtside
  · exact ⟨‹_›, houtside⟩
  · cases houtside

theorem credentialRules_table
    (hacts : ∀ tx shared proc next after,
      advance tx shared proc = some (next, after) → Acts tx shared next) :
    TableRules (credentialRules advance stopped finished initial happens) where
  acts := hacts
  abandon := fun _ _ => rfl
  settles := fun _ _ _ houtside =>
    outside_settles (credentialRules_outside houtside).2

/-- Secrets are used once, and every lock is held by a process. -/
structure StoreInv (world : World Shared P) : Prop where
  unused : FreshUnused world.shared
  owners : ∀ key tx, world.shared.store.owner key = some tx →
    tx < world.procs.length

theorem storeInv_empty : StoreInv (⟨.empty, []⟩ : World Shared P) where
  unused := fun _ _ _ _ => ⟨rfl, rfl⟩
  owners := by
    intro key tx howner
    cases howner

/-- A process that just started holds no lock. -/
theorem StoreInv.owner_length {world : World Shared P} (hinv : StoreInv world)
    (key : Key) : world.shared.store.owner key ≠ some world.procs.length :=
  fun howner => Nat.lt_irrefl _ (hinv.owners key _ howner)

/-- A process acted, or was abandoned. -/
theorem StoreInv.acts {world : World Shared P} (hinv : StoreInv world)
    {pid : Nat} {proc after : P} {next : Shared}
    (hproc : world.procs[pid]? = some proc) (hacts : Acts pid world.shared next) :
    StoreInv (⟨next, world.procs.set pid after⟩ : World Shared P) := by
  refine ⟨hacts.freshUnused hinv.unused, ?_⟩
  exact owners_set hinv.owners after hproc fun _ _ => hacts.owner_cases

theorem StoreInv.step {O : Type} {rules : ProcessRules Shared P O}
    (hrules : TableRules rules) {world next : World Shared P}
    {event : WorldEvent P O} (hinv : StoreInv world)
    (hstep : worldStep rules world event = some next) : StoreInv next := by
  rcases worldStep_cases hstep with
    ⟨change, shared, -, houtside, rfl⟩ | ⟨proc, -, -, rfl⟩ |
    ⟨pid, proc, shared, after, -, hproc, hadvance, rfl⟩ | ⟨pid, proc, -, hproc, -, rfl⟩
  · have hsettles := hrules.settles _ change shared houtside
    refine ⟨hsettles.unused hinv.unused, ?_⟩
    intro key tx howner
    rw [hsettles.owner] at howner
    exact hinv.owners key tx howner
  · exact ⟨hinv.unused, owners_append hinv.owners proc⟩
  · exact hinv.acts hproc (hrules.acts pid world.shared proc shared after hadvance)
  · rw [hrules.abandon]
    exact hinv.acts hproc .rollback

end Worlds

end Localmail
