/-
The tokens that descend from one login.  A bearer refresh inserts a successor
and then deletes the token it was presented with, without looking whether there
was a row left to delete.  As long as there always is one, a lineage has at
most one stored token and a logout ends it.
-/
import Localmail.CredentialActs

namespace Localmail

inductive SessionProcess where
  | refresh (refresh : BearerRefresh)
  | logout (logout : Logout)
deriving Repr, DecidableEq

def bearerWorldStep (tx : Nat) (shared : Shared) :
    SessionProcess → Option (Shared × SessionProcess)
  | .refresh refresh =>
      (bearerStep tx shared refresh).map (Prod.map id .refresh)
  | .logout logout => (logoutStep tx shared logout).map (Prod.map id .logout)

def SessionProcess.finished : SessionProcess → Bool
  | .refresh ⟨_, .done _⟩ | .refresh ⟨_, .stopped⟩ => true
  | .logout ⟨_, .done _⟩ | .logout ⟨_, .stopped⟩ => true
  | _ => false

def SessionProcess.initial : SessionProcess → Bool
  | .refresh ⟨_, .begin⟩ | .logout ⟨_, .delete⟩ => true
  | _ => false

/-- Refreshes and logouts, with logins and any changes to users. -/
def bearerRules : ProcessRules Shared SessionProcess Outside :=
  credentialRules bearerWorldStep (.refresh ⟨0, .stopped⟩) SessionProcess.finished
    SessionProcess.initial
    fun
      | .tick _ | .setUser _ _ | .deleteUser _ | .login _ _ _ => true
      | .consent _ _ _ _ | .grant _ _ _ _ _ => false

abbrev SessionWorld := World Shared SessionProcess

/-- What the token was refreshed from, nearest first. -/
def Shared.ancestors (shared : Shared) (token : Nat) : List Key :=
  (shared.descent (.token token)).map Prod.fst

/-- The token is `root` or was refreshed from it, directly or not. -/
def Descends (shared : Shared) (root token : Nat) : Prop :=
  token = root ∨ Key.token root ∈ shared.ancestors token

/-- Every refresh that comes to its `DELETE` finds the row it was presented
with still stored, both when the statement takes its snapshot and when it has
the lock. -/
def DeletesStored (world : SessionWorld) :
    WorldEvent SessionProcess Outside → Prop
  | .advance pid =>
      match world.procs[pid]? with
      | some (.refresh ⟨token, .delete _ _⟩)
      | some (.refresh ⟨token, .deleting _ _⟩) =>
          (world.shared.store.committed (.token token)).isSome
      | _ => True
  | .outside _ | .spawn _ | .crash _ => True

instance (world : SessionWorld) (event : WorldEvent SessionProcess Outside) :
    Decidable (DeletesStored world event) := by
  unfold DeletesStored
  split
  · split <;> infer_instance
  all_goals infer_instance

/-! ### Where a process is -/

/-- A token the process has found stored. -/
def SessionProcess.found : SessionProcess → Option Nat
  | .refresh ⟨_, .begin⟩ | .refresh ⟨_, .verify _⟩
  | .refresh ⟨_, .stopped⟩ => none
  | .refresh ⟨token, _⟩ => some token
  | .logout ⟨token, .deleting⟩ | .logout ⟨token, .finish true⟩
  | .logout ⟨token, .done true⟩ => some token
  | .logout _ => none

/-- The successor it has inserted, not yet committed. -/
def SessionProcess.inserted : SessionProcess → Option Nat
  | .refresh ⟨_, .delete _ next⟩ | .refresh ⟨_, .deleting _ next⟩
  | .refresh ⟨_, .finish _ next⟩ => some next
  | _ => none

/-- The token it has deleted, not yet committed. -/
def SessionProcess.deleted : SessionProcess → Option Nat
  | .refresh ⟨token, .finish _ _⟩ | .logout ⟨token, .finish true⟩ => some token
  | _ => none

/-- The rows it may have locked. -/
def SessionProcess.mayOwn (proc : SessionProcess) (key : Key) : Prop :=
  match proc with
  | .refresh ⟨token, .issue _ _⟩ => key = .token token
  | .refresh ⟨token, .delete _ next⟩ | .refresh ⟨token, .deleting _ next⟩
  | .refresh ⟨token, .finish _ next⟩ => key = .token token ∨ key = .token next
  | .logout ⟨token, .finish true⟩ => key = .token token
  | _ => False

structure BearerInv (shared : Shared) (pid : Nat) (proc : SessionProcess) :
    Prop where
  own : ∀ key, shared.store.owner key = some pid → proc.mayOwn key
  found : ∀ token, proc.found = some token → token < shared.fresh
  inserted : ∀ next, proc.inserted = some next →
    shared.store.owner (.token next) = some pid ∧
      shared.store.committed (.token next) = none ∧
      ∃ token createdAt, proc.found = some token ∧
        shared.descent (.token next) =
          (.token token, createdAt) :: shared.descent (.token token)
  deleted : ∀ token, proc.deleted = some token →
    shared.store.owner (.token token) = some pid ∧
      shared.store.dirty (.token token) = none ∧
      shared.store.committed (.token token) ≠ none
  -- what it holds of the presented token before its `DELETE` is an update
  touched : ∀ token, proc.found = some token → proc.deleted = none →
    shared.store.owner (.token token) = some pid →
    shared.store.dirty (.token token) ≠ none

section Steps

variable {pid : Nat} {shared next : Shared} {proc after : SessionProcess}

theorem bearerWorldStep_cases
    (hstep : bearerWorldStep pid shared proc = some (next, after)) :
    (∃ refresh refresh', proc = .refresh refresh ∧ after = .refresh refresh' ∧
      bearerStep pid shared refresh = some (next, refresh')) ∨
    ∃ logout logout', proc = .logout logout ∧ after = .logout logout' ∧
      logoutStep pid shared logout = some (next, logout') := by
  cases proc with
  | refresh refresh =>
      obtain ⟨⟨shared', refresh'⟩, hbearer, heq⟩ :=
        Option.map_eq_some_iff.mp hstep
      cases heq
      exact Or.inl ⟨refresh, refresh', rfl, rfl, hbearer⟩
  | logout logout =>
      obtain ⟨⟨shared', logout'⟩, hlogout, heq⟩ :=
        Option.map_eq_some_iff.mp hstep
      cases heq
      exact Or.inr ⟨logout, logout', rfl, rfl, hlogout⟩

theorem bearerWorldStep_acts
    (hstep : bearerWorldStep pid shared proc = some (next, after)) :
    Acts pid shared next := by
  rcases bearerWorldStep_cases hstep with
    ⟨refresh, refresh', -, -, hbearer⟩ | ⟨logout, logout', -, -, hlogout⟩
  · exact bearerStep_acts hbearer
  · exact logoutStep_acts hlogout

/-- Nothing that leaves its locked rows alone and keeps the descent of used
tokens disturbs a process. -/
theorem BearerInv.transfer (hinv : BearerInv shared pid proc)
    (hunused : FreshUnused shared)
    (hundisturbed : RowStore.Undisturbed pid shared.store next.store)
    (hfresh : shared.fresh ≤ next.fresh)
    (hdescent : ∀ token, token < shared.fresh →
      next.descent (.token token) = shared.descent (.token token)) :
    BearerInv next pid proc where
  own := fun key howner => hinv.own key ((hundisturbed.owner key).mp howner)
  found := fun token hfound =>
    Nat.lt_of_lt_of_le (hinv.found token hfound) hfresh
  inserted := by
    intro inserted hinserted
    obtain ⟨howner, hcommitted, token, createdAt, hfound, hlineage⟩ :=
      hinv.inserted inserted hinserted
    have hlt : inserted < shared.fresh :=
      hunused.lt_of_owner howner rfl
    refine ⟨(hundisturbed.owner _).mpr howner,
      (hundisturbed.committed _ howner).trans hcommitted, token, createdAt,
      hfound, ?_⟩
    rw [hdescent inserted hlt, hdescent token (hinv.found token hfound)]
    exact hlineage
  deleted := by
    intro token hdeleted
    obtain ⟨howner, hdirty, hcommitted⟩ := hinv.deleted token hdeleted
    refine ⟨(hundisturbed.owner _).mpr howner,
      (hundisturbed.dirty _ howner).trans hdirty, ?_⟩
    rw [hundisturbed.committed _ howner]
    exact hcommitted
  touched := by
    intro token hfound hdeleted howner
    have hbefore := (hundisturbed.owner _).mp howner
    rw [hundisturbed.dirty _ hbefore]
    exact hinv.touched token hfound hdeleted hbefore

/-- A process that holds no lock. -/
theorem BearerInv.of_unlocked (hown : ∀ key, shared.store.owner key ≠ some pid)
    (hfound : ∀ token, proc.found = some token → token < shared.fresh)
    (hinserted : proc.inserted = none) (hdeleted : proc.deleted = none) :
    BearerInv shared pid proc where
  own := fun key howner => absurd howner (hown key)
  found := hfound
  inserted := by simp [hinserted]
  deleted := by simp [hdeleted]
  touched := fun token _ _ howner => absurd howner (hown _)

/-- Nor one that has found nothing. -/
theorem BearerInv.of_nothing (hown : ∀ key, shared.store.owner key ≠ some pid)
    (hfound : proc.found = none) (hinserted : proc.inserted = none)
    (hdeleted : proc.deleted = none) : BearerInv shared pid proc :=
  .of_unlocked hown (by simp [hfound]) hinserted hdeleted

/-- A process that moved on without touching the tables. -/
theorem BearerInv.of_moved (hinv : BearerInv shared pid proc)
    (hown : ∀ key, proc.mayOwn key → after.mayOwn key)
    (hfound : after.found = proc.found)
    (hinserted : after.inserted = proc.inserted)
    (hdeleted : after.deleted = proc.deleted) :
    BearerInv shared pid after where
  own := fun key howner => hown key (hinv.own key howner)
  found := hfound ▸ hinv.found
  inserted := by
    rw [hinserted, hfound]
    exact hinv.inserted
  deleted := hdeleted ▸ hinv.deleted
  touched := by
    rw [hfound, hdeleted]
    exact hinv.touched

/-- Before its `DELETE` a process still sees the stored row it found. -/
theorem BearerInv.sees (hinv : BearerInv shared pid proc) {token : Nat}
    (hfound : proc.found = some token) (hdeleted : proc.deleted = none)
    (hstored : shared.store.committed (.token token) ≠ none) :
    shared.read pid (.token token) ≠ none := by
  by_cases howner : shared.store.owner (.token token) = some pid
  · rw [Shared.read, RowStore.view_of_owner howner]
    exact hinv.touched token hfound hdeleted howner
  · rw [Shared.read, RowStore.view_of_not_owner howner]
    exact hstored

theorem BearerInv.advance_refresh {refresh refresh' : BearerRefresh}
    (hinv : BearerInv shared pid (.refresh refresh))
    (hunused : FreshUnused shared)
    (hstored : ∀ row next, refresh.phase = .delete row next ∨
      refresh.phase = .deleting row next →
      shared.store.committed (.token refresh.token) ≠ none)
    (hstep : bearerStep pid shared refresh = some (next, refresh')) :
    BearerInv next pid (.refresh refresh') := by
  obtain ⟨token, phase⟩ := refresh
  cases phase <;> simp only [bearerStep] at hstep
  case begin =>
    cases hstep
    exact .of_nothing hinv.own rfl rfl rfl
  case verify now =>
    split at hstep
    · cases hstep
      exact .of_nothing owner_rollback_ne rfl rfl rfl
    · rename_i row user hselect
      cases hstep
      refine .of_unlocked hinv.own ?_ rfl rfl
      rintro _ ⟨⟩
      have hseen := (verifySelect_eq_some hselect).1
      have hcommitted : shared.store.committed (.token token) ≠ none := by
        rw [← RowStore.view_of_not_owner (hinv.own _), ← Shared.read, hseen]
        exact Option.some_ne_none _
      exact hunused.lt_of_committed hcommitted rfl
  case touch now row =>
    split at hstep
    · cases hstep
      exact hinv.of_moved (fun _ => False.elim) rfl rfl rfl
    · rename_i current hcurrent
      by_cases hstale : lastUsedStale now current
      all_goals
        simp only [hstale] at hstep
        cases hstep
        exact hinv.of_moved (fun _ => False.elim) rfl rfl rfl
  case touching now row =>
    split at hstep
    · split at hstep
      · cases hstep
        exact hinv.of_moved (fun _ => False.elim) rfl rfl rfl
      · split at hstep
        · cases hstep
          refine ⟨?_, hinv.found, ?_, ?_, ?_⟩
          · intro key howner
            rcases owner_put_cases howner with hkey | hold
            · exact hkey
            · exact (hinv.own key hold).elim
          · rintro _ ⟨⟩
          · rintro _ ⟨⟩
          · rintro _ ⟨⟩ - -
            simp [Shared.put]
        · cases hstep
          exact hinv.of_moved (fun _ => False.elim) rfl rfl rfl
    · cases hstep
  case issue now row =>
    split at hstep
    · cases hstep
      have hlt := hinv.found token rfl
      have hne : Key.token token ≠ .token shared.fresh := by
        rintro ⟨⟩
        exact Nat.lt_irrefl _ hlt
      have hnone := hunused (.token shared.fresh) _ rfl (Nat.le_refl _)
      refine ⟨?_, ?_, ?_, ?_, ?_⟩
      · intro key howner
        rcases owner_put_cases howner with hkey | hold
        · exact Or.inr hkey
        · exact Or.inl (hinv.own key hold)
      · rintro _ ⟨⟩
        exact Nat.lt_succ_of_lt hlt
      · rintro _ ⟨⟩
        refine ⟨RowStore.owner_put_self _, hnone.1, token, row.createdAt, rfl, ?_⟩
        simp [Shared.issueToken, Shared.insert, BearerRefresh.lineage, hne]
      · rintro _ ⟨⟩
      · rintro _ ⟨⟩ - howner
        refine (RowStore.dirty_put_of_ne hne _).trans_ne ?_
        exact hinv.touched token rfl rfl
          ((RowStore.owner_put_of_ne hne _).symm.trans howner)
    · cases hstep
      exact .of_nothing owner_rollback_ne rfl rfl rfl
  case delete row inserted =>
    have hsees := hinv.sees rfl rfl (hstored row inserted (Or.inl rfl))
    have hsome : (shared.read pid (.token token)).isSome = true :=
      Option.isSome_iff_ne_none.mpr hsees
    simp only [hsome, ↓reduceIte] at hstep
    cases hstep
    exact hinv.of_moved (fun _ => id) rfl rfl rfl
  case deleting row inserted =>
    have hcommitted := hstored row inserted (Or.inr rfl)
    have hsees := hinv.sees rfl rfl hcommitted
    split at hstep
    · split at hstep
      · rename_i hnone
        exact absurd hnone hsees
      · cases hstep
        obtain ⟨howner, hnone, hlineage⟩ := hinv.inserted inserted rfl
        have hne : Key.token inserted ≠ .token token := by
          rintro ⟨⟩
          exact hcommitted hnone
        refine ⟨?_, hinv.found, ?_, ?_, ?_⟩
        · intro key howner
          rcases owner_put_cases howner with hkey | hold
          · exact Or.inl hkey
          · exact hinv.own key hold
        · rintro _ ⟨⟩
          exact ⟨(RowStore.owner_put_of_ne hne _).trans howner, hnone, hlineage⟩
        · rintro _ ⟨⟩
          exact ⟨RowStore.owner_put_self _, RowStore.dirty_put_self _,
            hcommitted⟩
        · rintro _ _ ⟨⟩
    · cases hstep
  case finish row inserted =>
    cases hstep
    exact .of_unlocked owner_commit_ne hinv.found rfl rfl
  case done | stopped => cases hstep

theorem BearerInv.advance_logout {logout logout' : Logout}
    (hinv : BearerInv shared pid (.logout logout))
    (hunused : FreshUnused shared)
    (hstep : logoutStep pid shared logout = some (next, logout')) :
    BearerInv next pid (.logout logout') := by
  obtain ⟨token, phase⟩ := logout
  have hlt : shared.read pid (.token token) ≠ none → token < shared.fresh := by
    intro hseen
    by_cases howner : shared.store.owner (.token token) = some pid
    · exact hunused.lt_of_owner howner rfl
    · rw [Shared.read, RowStore.view_of_not_owner howner] at hseen
      exact hunused.lt_of_committed hseen rfl
  cases phase <;> simp only [logoutStep] at hstep
  case delete =>
    split at hstep
    · cases hstep
      exact .of_nothing hinv.own rfl rfl rfl
    · rename_i row hrow
      have hfound : token < shared.fresh := hlt (by simp [hrow])
      by_cases hsession : row.apiKeyName.isNone = true
      all_goals
        simp only [hsession] at hstep
        cases hstep
        refine .of_unlocked hinv.own ?_ rfl rfl
        rintro _ ⟨⟩
      exact hfound
  case deleting =>
    split at hstep
    · split at hstep
      · cases hstep
        exact .of_nothing hinv.own rfl rfl rfl
      · rename_i row hrow
        split at hstep
        · cases hstep
          have hcommitted : shared.store.committed (.token token) ≠ none := by
            rw [← RowStore.view_of_not_owner (hinv.own _), ← Shared.read, hrow]
            exact Option.some_ne_none _
          refine ⟨?_, hinv.found, ?_, ?_, ?_⟩
          · intro key howner
            rcases owner_put_cases howner with hkey | hold
            · exact hkey
            · exact (hinv.own key hold).elim
          · rintro _ ⟨⟩
          · rintro _ ⟨⟩
            exact ⟨RowStore.owner_put_self _, RowStore.dirty_put_self _,
              hcommitted⟩
          · rintro _ _ ⟨⟩
        · cases hstep
          exact .of_nothing hinv.own rfl rfl rfl
    · cases hstep
  case checkKey =>
    repeat' split at hstep
    all_goals
      cases hstep
      first
        | exact .of_nothing hinv.own rfl rfl rfl
        | exact .of_nothing owner_rollback_ne rfl rfl rfl
  case finish removed =>
    cases hstep
    cases removed with
    | false => exact .of_nothing owner_commit_ne rfl rfl rfl
    | true => exact .of_unlocked owner_commit_ne hinv.found rfl rfl
  case done | stopped => cases hstep

/-- A process finds only tokens that are stored. -/
theorem found_of_bearerWorldStep (hinv : BearerInv shared pid proc)
    (hstep : bearerWorldStep pid shared proc = some (next, after)) {token : Nat}
    (hfound : after.found = some token) :
    proc.found = some token ∨
      shared.store.committed (.token token) ≠ none := by
  rcases bearerWorldStep_cases hstep with
    ⟨refresh, refresh', rfl, rfl, hbearer⟩ | ⟨logout, logout', rfl, rfl, hlogout⟩
  · obtain ⟨presented, phase⟩ := refresh
    cases phase <;> simp only [bearerStep] at hbearer
    case begin =>
      cases hbearer
      cases hfound
    case verify now =>
      split at hbearer
      · cases hbearer
        cases hfound
      · rename_i row user hselect
        cases hbearer
        cases hfound
        refine Or.inr ?_
        rw [← RowStore.view_of_not_owner (hinv.own _), ← Shared.read,
          (verifySelect_eq_some hselect).1]
        exact Option.some_ne_none _
    case delete row inserted =>
      cases hbearer
      refine Or.inl ?_
      split at hfound <;> exact hfound
    case finish row inserted =>
      cases hbearer
      exact Or.inl hfound
    case touch now row =>
      split at hbearer
      · cases hbearer
        exact Or.inl hfound
      · cases hbearer
        refine Or.inl ?_
        split at hfound <;> exact hfound
    case touching | issue | deleting =>
      repeat' split at hbearer
      all_goals
        cases hbearer
        try exact Or.inl hfound
      all_goals cases hfound
    case done | stopped => cases hbearer
  · obtain ⟨presented, phase⟩ := logout
    cases phase <;> simp only [logoutStep] at hlogout
    case delete =>
      split at hlogout
      · cases hlogout
        cases hfound
      · rename_i row hrow
        cases hlogout
        split at hfound
        · cases hfound
          refine Or.inr ?_
          rw [← RowStore.view_of_not_owner (hinv.own _), ← Shared.read, hrow]
          exact Option.some_ne_none _
        · cases hfound
    case deleting =>
      repeat' split at hlogout
      all_goals
        cases hlogout
        try cases hfound
      exact Or.inl rfl
    case checkKey =>
      repeat' split at hlogout
      all_goals
        cases hlogout
        cases hfound
    case finish removed =>
      cases hlogout
      cases removed with
      | false => cases hfound
      | true => exact Or.inl hfound
    case done | stopped => cases hlogout

/-- The process inserted the successor of a token it had found. -/
structure Inserts (shared next : Shared) (proc after : SessionProcess)
    (token createdAt : Nat) : Prop where
  found : proc.found = some token
  stillFound : after.found = some token
  inserted : after.inserted = some shared.fresh
  fresh : next.fresh = shared.fresh + 1
  committed : next.store.committed = shared.store.committed
  descent : next.descent = Function.update shared.descent (.token shared.fresh)
    ((.token token, createdAt) :: shared.descent (.token token))

theorem inserted_of_bearerWorldStep
    (hstep : bearerWorldStep pid shared proc = some (next, after)) :
    (next.descent = shared.descent ∧ next.fresh = shared.fresh ∧
      ∀ successor, after.inserted = some successor →
        proc.inserted = some successor) ∨
    ∃ token createdAt, Inserts shared next proc after token createdAt := by
  rcases bearerWorldStep_cases hstep with
    ⟨refresh, refresh', rfl, rfl, hbearer⟩ | ⟨logout, logout', rfl, rfl, hlogout⟩
  · obtain ⟨presented, phase⟩ := refresh
    cases phase <;> simp only [bearerStep] at hbearer
    case issue now row =>
      split at hbearer
      · cases hbearer
        exact Or.inr ⟨presented, row.createdAt, rfl, rfl, rfl, rfl, rfl, rfl⟩
      · cases hbearer
        exact Or.inl ⟨rfl, rfl, nofun⟩
    case touch now row =>
      refine Or.inl ?_
      split at hbearer
      · cases hbearer
        exact ⟨rfl, rfl, nofun⟩
      · cases hbearer
        refine ⟨rfl, rfl, ?_⟩
        split <;> exact nofun
    case delete row inserted =>
      cases hbearer
      refine Or.inl ⟨rfl, rfl, ?_⟩
      split <;> exact fun _ => id
    case begin | finish =>
      cases hbearer
      exact Or.inl ⟨rfl, rfl, nofun⟩
    case verify | touching =>
      repeat' split at hbearer
      all_goals
        cases hbearer
        try exact Or.inl ⟨rfl, rfl, nofun⟩
    case deleting =>
      repeat' split at hbearer
      all_goals
        cases hbearer
        try exact Or.inl ⟨rfl, rfl, fun _ => id⟩
    case done | stopped => cases hbearer
  · obtain ⟨presented, phase⟩ := logout
    refine Or.inl ?_
    cases phase <;> simp only [logoutStep] at hlogout
    case finish =>
      cases hlogout
      exact ⟨rfl, rfl, nofun⟩
    case delete =>
      split at hlogout
      · cases hlogout
        exact ⟨rfl, rfl, nofun⟩
      · cases hlogout
        refine ⟨rfl, rfl, ?_⟩
        split <;> exact nofun
    case deleting | checkKey =>
      repeat' split at hlogout
      all_goals
        cases hlogout
        try exact ⟨rfl, rfl, nofun⟩
    case done | stopped => cases hlogout

/-- A process commits once, as its last step. -/
theorem bearerWorldStep_commits
    (hstep : bearerWorldStep pid shared proc = some (next, after)) :
    (next.store.committed = shared.store.committed ∧
      (after.finished = false ∨ after.found = none)) ∨
    next = shared.commit pid ∧
      ((∃ token row successor, proc = .refresh ⟨token, .finish row successor⟩ ∧
        after = .refresh ⟨token, .done successor⟩) ∨
      ∃ token removed, proc = .logout ⟨token, .finish removed⟩ ∧
        after = .logout ⟨token, .done removed⟩) := by
  rcases bearerWorldStep_cases hstep with
    ⟨refresh, refresh', rfl, rfl, hbearer⟩ | ⟨logout, logout', rfl, rfl, hlogout⟩
  · obtain ⟨presented, phase⟩ := refresh
    cases phase <;> simp only [bearerStep] at hbearer
    case finish row successor =>
      cases hbearer
      exact Or.inr ⟨rfl, Or.inl ⟨presented, row, successor, rfl, rfl⟩⟩
    case touch now row =>
      split at hbearer
      · cases hbearer
        exact Or.inl ⟨rfl, Or.inl rfl⟩
      · cases hbearer
        refine Or.inl ⟨rfl, Or.inl ?_⟩
        split <;> rfl
    case delete row inserted =>
      cases hbearer
      refine Or.inl ⟨rfl, Or.inl ?_⟩
      split <;> rfl
    case begin =>
      cases hbearer
      exact Or.inl ⟨rfl, Or.inl rfl⟩
    case verify | touching | issue | deleting =>
      repeat' split at hbearer
      all_goals
        cases hbearer
        try exact Or.inl ⟨rfl, Or.inl rfl⟩
      all_goals exact Or.inl ⟨rfl, Or.inr rfl⟩
    case done | stopped => cases hbearer
  · obtain ⟨presented, phase⟩ := logout
    cases phase <;> simp only [logoutStep] at hlogout
    case finish removed =>
      cases hlogout
      exact Or.inr ⟨rfl, Or.inr ⟨presented, removed, rfl, rfl⟩⟩
    case delete =>
      split at hlogout
      · cases hlogout
        exact Or.inl ⟨rfl, Or.inl rfl⟩
      · cases hlogout
        refine Or.inl ⟨rfl, Or.inl ?_⟩
        split <;> rfl
    case deleting | checkKey =>
      repeat' split at hlogout
      all_goals
        cases hlogout
        try exact Or.inl ⟨rfl, Or.inl rfl⟩
      all_goals exact Or.inl ⟨rfl, Or.inr rfl⟩
    case done | stopped => cases hlogout

end Steps

end Localmail
