/-
A committed revocation is final.  In every run in which revocations are in
order with the exchanges, whatever descends from a credential older than a
committed cutoff carries a creation time before that cutoff, and the cutoff in
the user's row never goes back; so no lookup honours it.
-/
import Localmail.RevocationCheck

namespace Localmail

structure RevocationsInv (world : RevocableWorld) : Prop extends
    StoreInv world where
  unborn : ∀ key secret, key.secret = some secret →
    world.shared.fresh ≤ secret → world.shared.descent key = []
  identities : Identities world.shared
  knows : ∀ (pid : Nat) (proc : RevocableProcess),
    world.procs[pid]? = some proc → proc.Knows world.shared
  used : ∀ (pid : Nat) (proc : RevocableProcess) (check : Check),
    world.procs[pid]? = some proc → proc.checked = some check →
    ∃ secret, check.key.secret = some secret ∧ secret < world.shared.fresh
  users : ∀ pid id : Nat, world.shared.store.owner (.user id) = some pid →
    ∃ now user,
      world.procs[pid]? = some (RevocableProcess.revoke ⟨id, .finish now⟩) ∧
      world.shared.store.dirty (.user id) = some user ∧
      user.sessionsInvalidatedAt = some now ∧
      ∀ stored old, world.shared.store.committed (.user id) = some stored →
        stored.sessionsInvalidatedAt = some old → old ≤ now
  locked : ∀ pid userId now : Nat,
    world.procs[pid]? = some (RevocableProcess.revoke ⟨userId, .finish now⟩) →
    world.shared.store.owner (.user userId) = some pid ∧
      ∃ user, world.shared.store.dirty (.user userId) = some user ∧
        user.sessionsInvalidatedAt = some now
  cut : ∀ pid userId now : Nat,
    world.procs[pid]? = some (RevocableProcess.revoke ⟨userId, .done now⟩) →
    ∃ user cutoff, world.shared.store.committed (.user userId) = some user ∧
      user.sessionsInvalidatedAt = some cutoff ∧ now ≤ cutoff
  rows : ∀ (pid : Nat) (proc : RevocableProcess) (userId cutoff : Nat),
    world.procs[pid]? = some proc → proc.cutoff = some (userId, cutoff) →
    ∀ key secret, key.secret = some secret →
      AllVersions world.shared key (RowBehind world.shared userId cutoff key)
  checks : ∀ (pid other : Nat) (proc second : RevocableProcess)
    (cutoff : Nat) (check : Check),
    world.procs[pid]? = some proc → world.procs[other]? = some second →
    proc.cutoff = some (check.user, cutoff) → second.checked = some check →
    check.Behind world.shared cutoff

theorem revocationsInv_empty : RevocationsInv ⟨.empty, []⟩ where
  toStoreInv := storeInv_empty
  unborn := fun _ _ _ _ => rfl
  identities := ⟨fun _ hused => absurd hused (Nat.not_lt_zero _),
    fun _ hused => absurd hused (Nat.not_lt_zero _)⟩
  knows := by simp
  used := by simp
  users := by
    intro pid id howner
    cases howner
  locked := by simp
  cut := by simp
  rows := by simp
  checks := by simp

theorem Check.behind_congr {check : Check} {shared next : Shared}
    (hdescent : next.descent check.key = shared.descent check.key)
    (cutoff : Nat) :
    check.Behind next cutoff ↔ check.Behind shared cutoff := by
  unfold Check.Behind Check.lineage
  rw [hdescent]

section Rows

variable {tx userId cutoff : Nat} {shared next : Shared}

/-- An update changes neither the user nor the creation time. -/
theorem rowBehind_of_updates {key : Key} {old new : CredentialRow key}
    {secret : Nat} (hsecret : key.secret = some secret)
    (hupdates : Updates key old new)
    (hbehind : RowBehind shared userId cutoff key old) :
    RowBehind shared userId cutoff key new := by
  cases key with
  | user id => cases hsecret
  | token token =>
      obtain ⟨used, rfl⟩ := hupdates
      exact hbehind
  | code code => exact hupdates.elim
  | refresh token =>
      obtain ⟨consumedAt, rfl⟩ := hupdates
      exact hbehind

/-- Rows under used secrets stay behind; under an unused one a step may
insert. -/
theorem rowsBehind_acts (hacts : Acts tx shared next)
    (hunused : FreshUnused shared)
    (hrows : ∀ key secret, key.secret = some secret →
      AllVersions shared key (RowBehind shared userId cutoff key))
    (hinserted : ∀ key row descent, next = shared.insert tx key row descent →
      RowBehind next userId cutoff key row) :
    ∀ key secret, key.secret = some secret →
      AllVersions next key (RowBehind next userId cutoff key) := by
  intro key secret hsecret
  by_cases hold : secret < shared.fresh
  · have hused : ∀ other, key.secret = some other → other < shared.fresh := by
      intro other hother
      exact Option.some.inj (hsecret.symm.trans hother) ▸ hold
    have hsame : RowBehind next userId cutoff key =
        RowBehind shared userId cutoff key := by
      funext row
      rw [RowBehind, RowBehind, hacts.descent_eq hused]
    rw [hsame]
    exact (hrows key secret hsecret).acts hacts hused
      fun old new hupdates => rowBehind_of_updates hsecret hupdates
  · rcases hacts.newest hunused key hsecret (by omega) with
      ⟨hcommitted, howner⟩ | ⟨row, descent, hnext⟩
    · exact .of_absent hcommitted howner
    · have hrow := hinserted key row descent hnext
      rw [hnext] at hrow ⊢
      exact .of_insert (hunused key secret hsecret (by omega)).1 hrow descent

theorem rowsBehind_settles (hsettles : Settles shared next)
    (hunborn : ∀ key secret, key.secret = some secret →
      shared.fresh ≤ secret → shared.descent key = [])
    (hrows : ∀ key secret, key.secret = some secret →
      AllVersions shared key (RowBehind shared userId cutoff key)) :
    ∀ key secret, key.secret = some secret →
      AllVersions next key (RowBehind next userId cutoff key) := by
  intro key secret hsecret
  have hsame : RowBehind next userId cutoff key =
      RowBehind shared userId cutoff key := by
    funext row
    rw [RowBehind, RowBehind, hsettles.descent]
  rw [hsame]
  by_cases hold : secret < shared.fresh
  · exact (hrows key secret hsecret).settles hsettles hsecret hold
  · have hdescent := hunborn key secret hsecret (by omega)
    have hany : ∀ row, RowBehind shared userId cutoff key row := by
      intro row _ hancestor
      simp [hdescent, OldFor] at hancestor
    exact ⟨fun row _ => hany row, fun row _ _ => hany row⟩

end Rows

/-! ### A step of an exchange -/

section Exchange

variable {pid : Nat} {next : Shared} {proc after : RevocableProcess}
  {world : RevocableWorld}

theorem ExchangeStep.acts {shared : Shared}
    (hstep : ExchangeStep pid shared next proc after) :
    Acts pid shared next := by
  rcases hstep.tables with hquiet | ⟨check, key, row, -, hmints⟩
  · exact hquiet.acts
  · rw [hmints.inserts]
    exact .insert key row _ hmints.secret

/-- An exchange takes no lock on a user. -/
theorem ExchangeStep.users {shared : Shared}
    (hstep : ExchangeStep pid shared next proc after) {id : Nat}
    (howner : next.store.owner (.user id) = some pid) :
    shared.store.owner (.user id) = some pid := by
  rcases hstep.tables with hquiet | ⟨check, key, row, -, hmints⟩
  · exact hquiet.users id howner
  · have hne : Key.user id ≠ key := by
      rintro rfl
      cases hmints.secret
    rw [hmints.inserts] at howner
    exact (RowStore.owner_put_of_ne hne _).symm.trans howner

/-- What the exchange inserts is behind, because what it checked is. -/
theorem ExchangeStep.rows {shared : Shared} {userId cutoff : Nat}
    (hstep : ExchangeStep pid shared next proc after)
    (hunused : FreshUnused shared)
    (hrows : ∀ key secret, key.secret = some secret →
      AllVersions shared key (RowBehind shared userId cutoff key))
    (hchecks : ∀ check, proc.checked = some check → check.user = userId →
      check.Behind shared cutoff) :
    ∀ key secret, key.secret = some secret →
      AllVersions next key (RowBehind next userId cutoff key) := by
  rcases hstep.tables with hquiet | ⟨check, written, minted, hchecked, hmints⟩
  · refine rowsBehind_acts hquiet.acts hunused hrows ?_
    intro key row descent hnext
    have hfresh := hquiet.fresh
    rw [hnext] at hfresh
    exact absurd hfresh (Nat.succ_ne_self _)
  · intro key secret hsecret
    by_cases hkey : key = written
    · subst hkey
      have hnone := hunused key _ hmints.secret (Nat.le_refl _)
      rw [hmints.inserts]
      refine .of_insert hnone.1 ?_ _
      intro huser hold
      simp only [Shared.insert, Function.update_self] at hold
      have hbehind := hchecks check hchecked (hmints.user.symm.trans huser) hold
      rw [hmints.stamp] at hbehind
      exact hbehind
    · have hbefore := hrows key secret hsecret
      have hsame : RowBehind next userId cutoff key =
          RowBehind shared userId cutoff key := by
        funext row
        rw [RowBehind, RowBehind, hmints.inserts]
        simp only [Shared.insert, Function.update_of_ne hkey]
      rw [hsame, hmints.inserts]
      refine ⟨hbefore.committed, ?_⟩
      intro row howner hdirty
      refine hbefore.dirty row ?_
        ((RowStore.dirty_put_of_ne hkey _).symm.trans hdirty)
      exact (RowStore.owner_put_of_ne hkey _).symm.trans_ne howner

/-- No exchange has locked a user. -/
theorem RevocationsInv.not_locked (hinv : RevocationsInv world)
    (hproc : world.procs[pid]? = some proc) (hexchange : proc.cutoff = none)
    (id : Nat) : world.shared.store.owner (.user id) ≠ some pid := by
  intro howner
  obtain ⟨now, user, hrevoke, -⟩ := hinv.users pid id howner
  obtain rfl := Option.some.inj (hproc.symm.trans hrevoke)
  cases hexchange

/-- What is checked is a credential. -/
theorem secret_of_checking {shared : Shared} {check : Check}
    (hchecking : proc.checking shared pid = some check) :
    ∃ secret, check.key.secret = some secret := by
  unfold RevocableProcess.checking at hchecking
  split at hchecking
  · obtain ⟨row, -, rfl⟩ := Option.map_eq_some_iff.mp hchecking
    exact ⟨_, rfl⟩
  · cases hchecking
    exact ⟨_, rfl⟩
  · obtain ⟨row, -, rfl⟩ := Option.map_eq_some_iff.mp hchecking
    exact ⟨_, rfl⟩
  · cases hchecking

/-- A check that passes is behind every cutoff: of those committed it has seen
the latest, of the others by the order of the run. -/
theorem RevocationsInv.passes_behind (hinv : RevocationsInv world)
    (hproc : world.procs[pid]? = some proc) (hexchange : proc.cutoff = none)
    (hmeets : ∀ check ∈ proc.checking world.shared pid,
      ∀ other ∈ world.procs, ∀ open' ∈ other.cutoff, other.finished = false →
        open'.1 = check.user → check.Behind world.shared open'.2)
    {check : Check} (hchecking : proc.checking world.shared pid = some check)
    (hpasses : Passes world.shared pid check) {other cutoff : Nat}
    {second : RevocableProcess} (hother : world.procs[other]? = some second)
    (hcutoff : second.cutoff = some (check.user, cutoff)) :
    check.Behind world.shared cutoff := by
  by_cases hopen : second.finished = false
  · exact hmeets check hchecking second (List.mem_of_getElem? hother)
      (check.user, cutoff) hcutoff hopen rfl
  · -- the revocation has committed, and the check saw at least its cutoff
    have hdone : second = .revoke ⟨check.user, .done cutoff⟩ := by
      unfold RevocableProcess.cutoff at hcutoff
      split at hcutoff
      · exact absurd rfl hopen
      · exact absurd rfl hopen
      · exact absurd rfl hopen
      · cases hcutoff
        rfl
      · cases hcutoff
    subst hdone
    obtain ⟨user, stored, huser, hstored, hle⟩ :=
      hinv.cut other check.user cutoff hother
    obtain ⟨row, seen, hrow, howner, hcreated, hseen, hvalid⟩ := hpasses
    rw [Shared.read, RowStore.view_of_not_owner
      (hinv.not_locked hproc hexchange _), huser] at hseen
    obtain rfl := Option.some.inj hseen
    have hlate := cutoff_le_of_credentialValidSql hvalid hstored
    intro hold
    obtain ⟨ancestor, hmem, hlt⟩ := hold
    rcases List.mem_cons.mp hmem with rfl | hdescent
    · simp only at hlt
      omega
    · obtain ⟨secret, hsecret⟩ := secret_of_checking hchecking
      have hbehind := (hinv.rows other _ _ _ hother rfl check.key secret
        hsecret).of_read hrow howner ⟨ancestor, hdescent, hlt⟩
      omega

/-- Descent of unused secrets stays empty. -/
theorem unborn_acts {shared : Shared} (hacts : Acts pid shared next)
    (hunborn : ∀ key secret, key.secret = some secret →
      shared.fresh ≤ secret → shared.descent key = []) :
    ∀ key secret, key.secret = some secret → next.fresh ≤ secret →
      next.descent key = [] := by
  intro key secret hsecret hle
  have hmono := hacts.fresh_le
  have hbefore := hunborn key secret hsecret (by omega)
  cases hacts with
  | insert written row descent hunused =>
      have hkey : key ≠ written := by
        rintro rfl
        have := Option.some.inj (hsecret.symm.trans hunused)
        simp only [Shared.insert] at hle
        omega
      simpa only [Shared.insert, Function.update_of_ne hkey] using hbefore
  | idle | put | delete | commit | rollback => exact hbefore

theorem knows_acts {shared : Shared} {tx : Nat} (hacts : Acts tx shared next)
    (hknows : proc.Knows shared) : proc.Knows next := by
  cases proc with
  | code exchange =>
      refine ⟨?_, ?_⟩
      · intro subject hsubject
        exact (hknows.subject subject hsubject).acts hacts fun _ _ => False.elim
      · intro subject burn hphase
        exact (hknows.burning subject burn hphase).acts hacts
          fun _ _ => False.elim
  | refresh exchange => exact RefreshKnows.acts hknows hacts
  | bearer | revoke => trivial

/-- A step of a process, for everybody else. -/
structure RevocationsInv.Others (world : RevocableWorld) (pid : Nat)
    (next : Shared) : Prop where
  users : ∀ other id : Nat, other ≠ pid →
    next.store.owner (.user id) = some other →
    ∃ now user,
      world.procs[other]? = some (RevocableProcess.revoke ⟨id, .finish now⟩) ∧
      next.store.dirty (.user id) = some user ∧
      user.sessionsInvalidatedAt = some now ∧
      ∀ stored old, next.store.committed (.user id) = some stored →
        stored.sessionsInvalidatedAt = some old → old ≤ now
  locked : ∀ other userId now : Nat, other ≠ pid →
    world.procs[other]? = some (RevocableProcess.revoke ⟨userId, .finish now⟩) →
    next.store.owner (.user userId) = some other ∧
      ∃ user, next.store.dirty (.user userId) = some user ∧
        user.sessionsInvalidatedAt = some now
  checks : ∀ (first other : Nat) (one second : RevocableProcess)
    (cutoff : Nat) (check : Check),
    world.procs[first]? = some one → world.procs[other]? = some second →
    one.cutoff = some (check.user, cutoff) → second.checked = some check →
    check.Behind next cutoff
  used : ∀ (other : Nat) (second : RevocableProcess) (check : Check),
    world.procs[other]? = some second → second.checked = some check →
    ∃ secret, check.key.secret = some secret ∧ secret < next.fresh

theorem RevocationsInv.others (hinv : RevocationsInv world)
    (hacts : Acts pid world.shared next) :
    RevocationsInv.Others world pid next where
  users := by
    intro other id hne howner
    have hundisturbed := hacts.undisturbed hinv.unused hne
    have hbefore := (hundisturbed.owner _).mp howner
    obtain ⟨now, user, hproc, hdirty, hcutoff, hstored⟩ :=
      hinv.users other id hbefore
    refine ⟨now, user, hproc, (hundisturbed.dirty _ hbefore).trans hdirty,
      hcutoff, ?_⟩
    rw [hundisturbed.committed _ hbefore]
    exact hstored
  locked := by
    intro other userId now hne hother
    have hundisturbed := hacts.undisturbed hinv.unused hne
    obtain ⟨howner, user, hdirty, hcutoff⟩ :=
      hinv.locked other userId now hother
    exact ⟨(hundisturbed.owner _).mpr howner, user,
      (hundisturbed.dirty _ howner).trans hdirty, hcutoff⟩
  checks := by
    intro first other one second cutoff check hfirst hother hcutoff hchecked
    refine (Check.behind_congr (hacts.descent_eq ?_) cutoff).mpr
      (hinv.checks first other one second cutoff check hfirst hother hcutoff
        hchecked)
    intro secret hsecret
    obtain ⟨known, hknown, hlt⟩ := hinv.used other second check hother hchecked
    exact Option.some.inj (hknown.symm.trans hsecret) ▸ hlt
  used := by
    intro other second check hother hchecked
    obtain ⟨secret, hsecret, hlt⟩ := hinv.used other second check hother hchecked
    exact ⟨secret, hsecret, Nat.lt_of_lt_of_le hlt hacts.fresh_le⟩

theorem RevocationsInv.exchange (hinv : RevocationsInv world)
    (hproc : world.procs[pid]? = some proc) (hexchange : proc.cutoff = none)
    (hafter : after.cutoff = none)
    (hmeets : ∀ check ∈ proc.checking world.shared pid,
      ∀ other ∈ world.procs, ∀ open' ∈ other.cutoff, other.finished = false →
        open'.1 = check.user → check.Behind world.shared open'.2)
    (hstore : StoreInv (⟨next, world.procs.set pid after⟩ : RevocableWorld))
    (hstep : ExchangeStep pid world.shared next proc after)
    (hknows : after.Knows next) :
    RevocationsInv ⟨next, world.procs.set pid after⟩ := by
  have hacts := hstep.acts
  have hothers := hinv.others hacts
  have hrevokes : ∀ {other : Nat} {second : RevocableProcess}
      {cutoff : Nat × Nat}, (world.procs.set pid after)[other]? = some second →
      second.cutoff = some cutoff → world.procs[other]? = some second := by
    intro other second cutoff hother hcutoff
    rcases procs_set_cases hother with ⟨-, rfl⟩ | ⟨-, hold⟩
    · rw [hafter] at hcutoff
      cases hcutoff
    · exact hold
  refine ⟨hstore, unborn_acts hacts hinv.unborn,
    hinv.identities.acts hinv.unused hacts, ?_, ?_, ?_, ?_, ?_, ?_, ?_⟩
  · intro other second hother
    rcases procs_set_cases hother with ⟨-, rfl⟩ | ⟨-, hold⟩
    · exact hknows
    · exact knows_acts hacts (hinv.knows other second hold)
  · intro other second check hother hchecked
    rcases procs_set_cases hother with ⟨-, rfl⟩ | ⟨-, hold⟩
    · rcases hstep.checked check hchecked with
        hbefore | ⟨rfl, hbefore | ⟨hchecking, row, user, hrow, -⟩⟩
      · exact hothers.used pid proc check hproc hbefore
      · exact hothers.used pid proc { check with stamp := none } hproc hbefore
      · obtain ⟨secret, hsecret⟩ := secret_of_checking hchecking
        exact ⟨secret, hsecret, hinv.unused.lt_of_read hrow hsecret⟩
    · exact hothers.used other second check hold hchecked
  · intro other id howner
    have hne : other ≠ pid := by
      rintro rfl
      exact hinv.not_locked hproc hexchange id (hstep.users howner)
    obtain ⟨now, user, hrevoke, hrest⟩ := hothers.users other id hne howner
    refine ⟨now, user, ?_, hrest⟩
    exact (List.getElem?_set_ne hne.symm).trans hrevoke
  · intro other userId now hother
    have hne : other ≠ pid := by
      rintro rfl
      rw [hrevokes hother rfl] at hproc
      cases hproc
      cases hexchange
    exact hothers.locked other userId now hne (hrevokes hother rfl)
  · intro other userId now hother
    have hold := hrevokes hother rfl
    obtain ⟨user, cutoff, huser, hrest⟩ := hinv.cut other userId now hold
    refine ⟨user, cutoff, ?_, hrest⟩
    rcases hacts.committed_eq (.user userId) with hsame | rfl
    · exact hsame.trans huser
    · exact (RowStore.view_of_not_owner
        (hinv.not_locked hproc hexchange userId)).trans huser
  · intro other second userId cutoff hother hcutoff
    have hold := hrevokes hother hcutoff
    refine hstep.rows hinv.unused
      (hinv.rows other second userId cutoff hold hcutoff) ?_
    rintro check hchecked rfl
    exact hinv.checks other pid second proc cutoff check hold hproc hcutoff
      hchecked
  · intro first other one second cutoff check hfirst hother hcutoff hchecked
    have hold := hrevokes hfirst hcutoff
    rcases procs_set_cases hother with ⟨-, rfl⟩ | ⟨-, hsecond⟩
    · rcases hstep.checked check hchecked with
        hbefore | ⟨rfl, hbefore | ⟨hchecking, hpasses⟩⟩
      · exact hothers.checks first pid one proc cutoff check hold hproc hcutoff
          hbefore
      · intro hancient
        exact (hinv.checks first pid one proc cutoff { check with stamp := none }
          hold hproc hcutoff hbefore hancient).elim
      · exact hinv.passes_behind hproc hexchange hmeets hchecking hpasses hold
          hcutoff
    · exact hothers.checks first other one second cutoff check hold hsecond
        hcutoff hchecked

end Exchange

/-! ### A step of a revocation -/

section Revoke

variable {pid : Nat} {next : Shared} {revocation after : Revocation}
  {world : RevocableWorld}

theorem revokeStep_cases {shared : Shared}
    (hstep : revokeStep pid shared revocation = some (next, after)) :
    (next = shared ∧ revocation.phase = .begin ∧
      after = ⟨revocation.userId, .update shared.clock⟩) ∨
    (next = shared ∧ ∃ now, revocation.phase = .update now ∧
      after = ⟨revocation.userId, .updating now⟩) ∨
    (next = shared.rollback pid ∧ after = ⟨revocation.userId, .stopped⟩) ∨
    (∃ (now : Nat) (row : UserRow), revocation.phase = .updating now ∧
      shared.store.Free pid (.user revocation.userId) ∧
      next = shared.put pid (.user revocation.userId)
        (some ({ row with sessionsInvalidatedAt := some now } : UserRow)) ∧
      after = ⟨revocation.userId, .finish now⟩) ∨
    (next = shared.commit pid ∧ ∃ now, revocation.phase = .finish now ∧
      after = ⟨revocation.userId, .done now⟩) := by
  obtain ⟨userId, phase⟩ := revocation
  cases phase <;> simp only [revokeStep] at hstep
  case begin =>
    cases hstep
    exact Or.inl ⟨rfl, rfl, rfl⟩
  case update now =>
    split at hstep
    · cases hstep
      exact Or.inr (Or.inr (Or.inl ⟨rfl, rfl⟩))
    · cases hstep
      exact Or.inr (Or.inl ⟨rfl, now, rfl, rfl⟩)
  case updating now =>
    split at hstep
    · rename_i hfree
      split at hstep
      · cases hstep
        exact Or.inr (Or.inr (Or.inl ⟨rfl, rfl⟩))
      · rename_i row hrow
        cases hstep
        exact Or.inr (Or.inr (Or.inr (Or.inl ⟨now, row, rfl, hfree, rfl, rfl⟩)))
    · cases hstep
  case finish now =>
    cases hstep
    exact Or.inr (Or.inr (Or.inr (Or.inr ⟨rfl, now, rfl, rfl⟩)))
  case done | stopped => cases hstep

theorem revokeStep_tables {shared : Shared}
    (hstep : revokeStep pid shared revocation = some (next, after)) :
    next.fresh = shared.fresh ∧ next.descent = shared.descent := by
  rcases revokeStep_cases hstep with ⟨rfl, -⟩ | ⟨rfl, -⟩ | ⟨rfl, -⟩ |
    ⟨now, row, -, -, rfl, -⟩ | ⟨rfl, -⟩
  all_goals exact ⟨rfl, rfl⟩

/-- Every cutoff a revocation stands for was so before, or is taken now, with
everything behind it. -/
theorem RevocationsInv.cutoff_revoke (hinv : RevocationsInv world)
    (hproc : world.procs[pid]? = some (RevocableProcess.revoke revocation))
    (hmeets : RevocationsOrdered world (.advance pid))
    (hstep : revokeStep pid world.shared revocation = some (next, after))
    {userId cutoff : Nat}
    (hcutoff : (RevocableProcess.revoke after).cutoff = some (userId, cutoff)) :
    (∀ key secret, key.secret = some secret →
      AllVersions world.shared key (RowBehind world.shared userId cutoff key)) ∧
    ∀ (other : Nat) (second : RevocableProcess) (check : Check),
      world.procs[other]? = some second → second.checked = some check →
      check.user = userId → check.Behind world.shared cutoff := by
  have hkept : (RevocableProcess.revoke revocation).cutoff =
      some (userId, cutoff) → _ := fun hbefore =>
    And.intro (hinv.rows pid _ userId cutoff hproc hbefore)
      fun (other : Nat) (second : RevocableProcess) (check : Check) hother
        hchecked (huser : check.user = userId) =>
        hinv.checks pid other _ second cutoff check hproc hother
          (huser ▸ hbefore) hchecked
  obtain ⟨target, phase⟩ := revocation
  rcases revokeStep_cases hstep with ⟨-, hphase, rfl⟩ | ⟨-, now, hphase, rfl⟩ |
    ⟨-, rfl⟩ | ⟨now, row, hphase, -, -, rfl⟩ | ⟨-, now, hphase, rfl⟩
  · obtain rfl : phase = .begin := hphase
    cases hcutoff
    simp only [RevocationsOrdered, hproc] at hmeets
    obtain ⟨hchecks, hkeys⟩ := hmeets
    constructor
    · intro key secret hsecret
      refine ⟨?_, ?_⟩
      · intro row hrow
        have hmem := world.shared.store.covered key (Or.inl (by simp [hrow]))
        exact (hkeys key hmem (by simp [hsecret])).1 row hrow
      · intro row howner hrow
        have hmem := world.shared.store.covered key (Or.inr howner)
        exact (hkeys key hmem (by simp [hsecret])).2
          (Option.isSome_iff_ne_none.mpr howner) row hrow
    · intro other second check hother hchecked huser
      exact hchecks second (List.mem_of_getElem? hother) check hchecked huser
  · obtain rfl : phase = .update now := hphase
    exact hkept hcutoff
  · cases hcutoff
  · obtain rfl : phase = .updating now := hphase
    exact hkept hcutoff
  · obtain rfl : phase = .finish now := hphase
    exact hkept hcutoff

/-- The cutoff in a user's row never goes back. -/
theorem RevocationsInv.cut_revoke (hinv : RevocationsInv world)
    (hproc : world.procs[pid]? = some (RevocableProcess.revoke revocation))
    (hstep : revokeStep pid world.shared revocation = some (next, after))
    {other userId now : Nat}
    (hother : (world.procs.set pid (RevocableProcess.revoke after))[other]? =
      some (.revoke ⟨userId, .done now⟩)) :
    ∃ user cutoff, next.store.committed (.user userId) = some user ∧
      user.sessionsInvalidatedAt = some cutoff ∧ now ≤ cutoff := by
  have hacts := revokeStep_acts hstep
  rcases procs_set_cases hother with ⟨rfl, hafter⟩ | ⟨-, hold⟩
  · obtain ⟨target, phase⟩ := revocation
    cases hafter
    rcases revokeStep_cases hstep with ⟨-, -, hafter⟩ | ⟨-, _, -, hafter⟩ |
      ⟨-, hafter⟩ | ⟨_, _, -, -, -, hafter⟩ | ⟨rfl, now', hphase, hafter⟩
    · cases hafter
    · cases hafter
    · cases hafter
    · cases hafter
    · cases hafter
      obtain rfl : phase = .finish now := hphase
      obtain ⟨howner, user, hdirty, hcutoff⟩ :=
        hinv.locked other _ now hproc
      exact ⟨user, now, (RowStore.view_of_owner howner).trans hdirty, hcutoff,
        Nat.le_refl _⟩
  · obtain ⟨user, cutoff, huser, hcutoff, hle⟩ := hinv.cut other userId now hold
    rcases hacts.committed_eq (.user userId) with hsame | rfl
    · exact ⟨user, cutoff, hsame.trans huser, hcutoff, hle⟩
    · by_cases howner : world.shared.store.owner (.user userId) = some pid
      · obtain ⟨later, row, -, hdirty, hlater, hstored⟩ :=
          hinv.users pid userId howner
        have := hstored user cutoff huser hcutoff
        exact ⟨row, later, (RowStore.view_of_owner howner).trans hdirty, hlater,
          by omega⟩
      · exact ⟨user, cutoff, (RowStore.view_of_not_owner howner).trans huser,
          hcutoff, hle⟩

theorem RevocationsInv.users_revoke (hinv : RevocationsInv world)
    (hproc : world.procs[pid]? = some (RevocableProcess.revoke revocation))
    (hmeets : RevocationsOrdered world (.advance pid))
    (hstep : revokeStep pid world.shared revocation = some (next, after))
    {id : Nat} (howner : next.store.owner (.user id) = some pid) :
    ∃ now user, after = ⟨id, .finish now⟩ ∧
      next.store.dirty (.user id) = some user ∧
      user.sessionsInvalidatedAt = some now ∧
      ∀ stored old, next.store.committed (.user id) = some stored →
        stored.sessionsInvalidatedAt = some old → old ≤ now := by
  have hbefore : world.shared.store.owner (.user id) = some pid →
      ∃ now, revocation = ⟨id, .finish now⟩ := by
    intro howner
    obtain ⟨now, user, hrevoke, -⟩ := hinv.users pid id howner
    cases hproc.symm.trans hrevoke
    exact ⟨now, rfl⟩
  obtain ⟨target, phase⟩ := revocation
  rcases revokeStep_cases hstep with ⟨rfl, hphase, rfl⟩ | ⟨rfl, now, hphase, rfl⟩ |
    ⟨rfl, rfl⟩ | ⟨now, row, hphase, -, rfl, rfl⟩ | ⟨rfl, now, hphase, rfl⟩
  · obtain ⟨_, hfinish⟩ := hbefore howner
    cases hfinish
    cases hphase
  · obtain ⟨_, hfinish⟩ := hbefore howner
    cases hfinish
    cases hphase
  · exact absurd howner (owner_rollback_ne _)
  · obtain rfl : phase = .updating now := hphase
    by_cases hid : id = target
    · subst hid
      refine ⟨now, { row with sessionsInvalidatedAt := some now }, rfl,
        RowStore.dirty_put_self _, rfl, ?_⟩
      intro stored old hstored hold
      simp only [RevocationsOrdered, hproc] at hmeets
      exact hmeets stored hstored old hold
    · have hne : Key.user id ≠ .user target := by simpa using hid
      obtain ⟨_, hfinish⟩ :=
        hbefore ((RowStore.owner_put_of_ne hne _).symm.trans howner)
      cases hfinish
  · exact absurd howner (owner_commit_ne _)

theorem RevocationsInv.revoke (hinv : RevocationsInv world)
    (hproc : world.procs[pid]? = some (RevocableProcess.revoke revocation))
    (hmeets : RevocationsOrdered world (.advance pid))
    (hstore : StoreInv
      (⟨next, world.procs.set pid (.revoke after)⟩ : RevocableWorld))
    (hstep : revokeStep pid world.shared revocation = some (next, after)) :
    RevocationsInv ⟨next, world.procs.set pid (.revoke after)⟩ := by
  have hacts := revokeStep_acts hstep
  obtain ⟨hfresh, hdescent⟩ := revokeStep_tables hstep
  have hothers := hinv.others hacts
  have hbehind : ∀ {check : Check} {cutoff : Nat},
      check.Behind world.shared cutoff → check.Behind next cutoff :=
    fun hcheck => (Check.behind_congr (congrFun hdescent _) _).mpr hcheck
  have hnoInsert : ∀ (userId cutoff : Nat) (key : Key) (row : CredentialRow key)
      (descent : List (Key × Nat)), next = world.shared.insert pid key row descent →
      RowBehind next userId cutoff key row := by
    intro userId cutoff key row descent hnext
    rw [hnext] at hfresh
    exact absurd hfresh (Nat.succ_ne_self _)
  refine ⟨hstore, unborn_acts hacts hinv.unborn,
    hinv.identities.acts hinv.unused hacts, ?_, ?_, ?_, ?_, ?_, ?_, ?_⟩
  · intro other second hother
    rcases procs_set_cases hother with ⟨-, rfl⟩ | ⟨-, hold⟩
    · trivial
    · exact knows_acts hacts (hinv.knows other second hold)
  · intro other second check hother hchecked
    rcases procs_set_cases hother with ⟨-, rfl⟩ | ⟨-, hold⟩
    · cases hchecked
    · exact hothers.used other second check hold hchecked
  · intro other id howner
    by_cases hne : other = pid
    · subst hne
      obtain ⟨now, user, rfl, hrest⟩ := hinv.users_revoke hproc hmeets hstep howner
      refine ⟨now, user, ?_, hrest⟩
      exact List.getElem?_set_self (List.getElem?_eq_some_iff.mp hproc).1
    · obtain ⟨now, user, hrevoke, hrest⟩ := hothers.users other id hne howner
      refine ⟨now, user, ?_, hrest⟩
      exact (List.getElem?_set_ne (Ne.symm hne)).trans hrevoke
  · intro other userId now hother
    rcases procs_set_cases hother with ⟨rfl, hafter⟩ | ⟨hne, hold⟩
    · cases hafter
      rcases revokeStep_cases hstep with ⟨-, -, hafter⟩ | ⟨-, _, -, hafter⟩ |
        ⟨-, hafter⟩ | ⟨_, row, -, -, rfl, hafter⟩ | ⟨-, _, -, hafter⟩
      · cases hafter
      · cases hafter
      · cases hafter
      · cases hafter
        exact ⟨RowStore.owner_put_self _, _, RowStore.dirty_put_self _, rfl⟩
      · cases hafter
    · exact hothers.locked other userId now hne hold
  · intro other userId now hother
    exact hinv.cut_revoke hproc hstep hother
  · intro other second userId cutoff hother hcutoff
    refine rowsBehind_acts hacts hinv.unused ?_ (hnoInsert userId cutoff)
    rcases procs_set_cases hother with ⟨-, rfl⟩ | ⟨-, hold⟩
    · exact (hinv.cutoff_revoke hproc hmeets hstep hcutoff).1
    · exact hinv.rows other second userId cutoff hold hcutoff
  · intro first other one second cutoff check hfirst hother hcutoff hchecked
    have hsecond : world.procs[other]? = some second := by
      rcases procs_set_cases hother with ⟨-, rfl⟩ | ⟨-, hold⟩
      · cases hchecked
      · exact hold
    rcases procs_set_cases hfirst with ⟨-, rfl⟩ | ⟨-, hold⟩
    · exact hbehind ((hinv.cutoff_revoke hproc hmeets hstep hcutoff).2 other
        second check hsecond hchecked rfl)
    · exact hothers.checks first other one second cutoff check hold hsecond
        hcutoff hchecked

end Revoke

/-! ### Every run -/

section Runs

variable {config : CredentialConfig} {world : RevocableWorld}

theorem revocableOutside_eq {shared next : Shared} {change : Outside}
    (houtside : revocableOutside shared change = some next) :
    shared.outside change = some next ∧
      ∀ id user, shared.store.committed (.user id) = some user →
        ∃ user', next.store.committed (.user id) = some user' ∧
          user'.sessionsInvalidatedAt = user.sessionsInvalidatedAt := by
  cases change with
  | tick elapsed =>
      refine ⟨houtside, ?_⟩
      obtain rfl := Option.some.inj houtside
      exact fun id user huser => ⟨user, huser, rfl⟩
  | setUser target row =>
      simp only [revocableOutside] at houtside
      split at houtside
      · rename_i hkeeps
        refine ⟨houtside, ?_⟩
        intro id user huser
        by_cases hid : id = target
        · subst hid
          refine ⟨row, ?_, ?_⟩
          · obtain ⟨store, hstore, rfl⟩ := Option.map_eq_some_iff.mp houtside
            obtain ⟨-, -, -, hcommitted⟩ := install_eq_some hstore
            simp only [hcommitted, Function.update_self]
          · simpa [keepsCutoff, huser] using hkeeps
        · have hne : Key.user id ≠ .user target := by simpa using hid
          refine ⟨user, ?_, rfl⟩
          obtain ⟨store, hstore, rfl⟩ := Option.map_eq_some_iff.mp houtside
          obtain ⟨-, -, -, hcommitted⟩ := install_eq_some hstore
          simp only [hcommitted, Function.update_of_ne hne]
          exact huser
      · cases houtside
  | login | consent =>
      refine ⟨houtside, ?_⟩
      intro id user huser
      have hsame : next.store.committed (.user id) =
          shared.store.committed (.user id) :=
        installFresh_committed houtside nofun
      exact ⟨user, hsame.trans huser, rfl⟩
  | deleteUser | grant => cases houtside

theorem revocableStep_cases {pid : Nat} {shared next : Shared}
    {proc after : RevocableProcess}
    (hstep : revocableStep config pid shared proc = some (next, after)) :
    (∃ exchange exchange', proc = .code exchange ∧ after = .code exchange' ∧
      codeStep config pid shared exchange = some (next, exchange')) ∨
    (∃ exchange exchange', proc = .refresh exchange ∧
      after = .refresh exchange' ∧
      refreshStep config pid shared exchange = some (next, exchange')) ∨
    (∃ refresh refresh', proc = .bearer refresh ∧ after = .bearer refresh' ∧
      bearerStep pid shared refresh = some (next, refresh')) ∨
    ∃ revocation revocation', proc = .revoke revocation ∧
      after = .revoke revocation' ∧
      revokeStep pid shared revocation = some (next, revocation') := by
  cases proc with
  | code exchange =>
      obtain ⟨⟨_, exchange'⟩, hcode, heq⟩ := Option.map_eq_some_iff.mp hstep
      cases heq
      exact Or.inl ⟨exchange, exchange', rfl, rfl, hcode⟩
  | refresh exchange =>
      obtain ⟨⟨_, exchange'⟩, hrefresh, heq⟩ := Option.map_eq_some_iff.mp hstep
      cases heq
      exact Or.inr (Or.inl ⟨exchange, exchange', rfl, rfl, hrefresh⟩)
  | bearer refresh =>
      obtain ⟨⟨_, refresh'⟩, hbearer, heq⟩ := Option.map_eq_some_iff.mp hstep
      cases heq
      exact Or.inr (Or.inr (Or.inl ⟨refresh, refresh', rfl, rfl, hbearer⟩))
  | revoke revocation =>
      obtain ⟨⟨_, revocation'⟩, hrevoke, heq⟩ := Option.map_eq_some_iff.mp hstep
      cases heq
      exact Or.inr (Or.inr (Or.inr
        ⟨revocation, revocation', rfl, rfl, hrevoke⟩))

theorem revocableRules_table : TableRules (revocableRules config) where
  acts := by
    intro tx shared proc next after hstep
    rcases revocableStep_cases hstep with ⟨_, _, -, -, hcode⟩ |
      ⟨_, _, -, -, hrefresh⟩ | ⟨_, _, -, -, hbearer⟩ | ⟨_, _, -, -, hrevoke⟩
    · exact codeStep_acts hcode
    · exact refreshStep_acts hrefresh
    · exact bearerStep_acts hbearer
    · exact revokeStep_acts hrevoke
  abandon := fun _ _ => rfl
  settles := fun _ _ _ houtside => outside_settles (revocableOutside_eq houtside).1

theorem knows_settles {shared next : Shared} {proc : RevocableProcess}
    (hsettles : Settles shared next) (hknows : proc.Knows shared) :
    proc.Knows next := by
  cases proc with
  | code exchange =>
      refine ⟨?_, ?_⟩
      · intro subject hsubject
        exact (hknows.subject subject hsubject).settles hsettles rfl
      · intro subject burn hphase
        exact (hknows.burning subject burn hphase).settles hsettles rfl
  | refresh exchange =>
      refine ⟨?_, ?_, hknows.newRow⟩
      · intro row hloaded
        exact (hknows.loaded row hloaded).settles hsettles rfl
      · intro row successor hloaded hinserted
        exact (hknows.inserted row successor hloaded hinserted).settles hsettles
          rfl
  | bearer | revoke => trivial

theorem RevocationsInv.outside (hinv : RevocationsInv world) {shared : Shared}
    {change : Outside} (hstore : StoreInv { world with shared := shared })
    (houtside : revocableOutside world.shared change = some shared) :
    RevocationsInv { world with shared := shared } := by
  obtain ⟨hchange, hcutoffs⟩ := revocableOutside_eq houtside
  have hsettles := outside_settles hchange
  have hdescent := hsettles.descent
  refine ⟨hstore, ?_, hinv.identities.settles hinv.unused hsettles, ?_, ?_, ?_,
    ?_, ?_, ?_, ?_⟩
  · intro key secret hsecret hle
    rw [hdescent]
    exact hinv.unborn key secret hsecret (Nat.le_trans hsettles.fresh hle)
  · intro pid proc hproc
    exact knows_settles hsettles (hinv.knows pid proc hproc)
  · intro pid proc check hproc hchecked
    obtain ⟨secret, hsecret, hlt⟩ := hinv.used pid proc check hproc hchecked
    exact ⟨secret, hsecret, Nat.lt_of_lt_of_le hlt hsettles.fresh⟩
  · intro pid id howner
    have hundisturbed := hsettles.undisturbed pid
    have hbefore := (hundisturbed.owner _).mp howner
    obtain ⟨now, user, hproc, hdirty, hcutoff, hstored⟩ :=
      hinv.users pid id hbefore
    refine ⟨now, user, hproc, (hundisturbed.dirty _ hbefore).trans hdirty,
      hcutoff, ?_⟩
    simp only [hundisturbed.committed _ hbefore]
    exact hstored
  · intro pid userId now hproc
    have hundisturbed := hsettles.undisturbed pid
    obtain ⟨howner, user, hdirty, hcutoff⟩ := hinv.locked pid userId now hproc
    exact ⟨(hundisturbed.owner _).mpr howner, user,
      (hundisturbed.dirty _ howner).trans hdirty, hcutoff⟩
  · intro pid userId now hproc
    obtain ⟨user, cutoff, huser, hcutoff, hle⟩ := hinv.cut pid userId now hproc
    obtain ⟨user', huser', hsame⟩ := hcutoffs userId user huser
    exact ⟨user', cutoff, huser', hsame.trans hcutoff, hle⟩
  · intro pid proc userId cutoff hproc hcutoff
    exact rowsBehind_settles hsettles hinv.unborn
      (hinv.rows pid proc userId cutoff hproc hcutoff)
  · intro pid other proc second cutoff check hproc hother hcutoff hchecked
    exact (Check.behind_congr (congrFun hdescent _) cutoff).mpr
      (hinv.checks pid other proc second cutoff check hproc hother hcutoff
        hchecked)

theorem RevocableProcess.of_initial {proc : RevocableProcess} (shared : Shared)
    (hinitial : proc.initial = true) :
    proc.checked = none ∧ proc.cutoff = none ∧ proc.Knows shared ∧
      proc.finished = false := by
  unfold RevocableProcess.initial at hinitial
  split at hinitial
  · exact ⟨rfl, rfl, .of_nothing rfl, rfl⟩
  · exact ⟨rfl, rfl, .of_nothing rfl, rfl⟩
  · exact ⟨rfl, rfl, trivial, rfl⟩
  · exact ⟨rfl, rfl, trivial, rfl⟩
  · cases hinitial

theorem RevocationsInv.spawn (hinv : RevocationsInv world)
    {started : RevocableProcess}
    (hstore : StoreInv { world with procs := world.procs ++ [started] })
    (hinitial : started.initial = true) :
    RevocationsInv { world with procs := world.procs ++ [started] } := by
  obtain ⟨hchecked, hcutoff, hknows, -⟩ :=
    RevocableProcess.of_initial world.shared hinitial
  have hold : ∀ {other : Nat} {second : RevocableProcess},
      world.procs[other]? = some second →
      (world.procs ++ [started])[other]? = some second := fun hsecond =>
    (List.getElem?_append_left (List.getElem?_eq_some_iff.mp hsecond).1).trans
      hsecond
  have hrevokes : ∀ {other : Nat} {second : RevocableProcess}
      {cutoff : Nat × Nat}, (world.procs ++ [started])[other]? = some second →
      second.cutoff = some cutoff → world.procs[other]? = some second := by
    intro other second cutoff hother hsecond
    rcases procs_append_cases hother with ⟨-, rfl⟩ | hbefore
    · rw [hcutoff] at hsecond
      cases hsecond
    · exact hbefore
  have hchecks : ∀ {other : Nat} {second : RevocableProcess} {check : Check},
      (world.procs ++ [started])[other]? = some second →
      second.checked = some check → world.procs[other]? = some second := by
    intro other second check hother hsecond
    rcases procs_append_cases hother with ⟨-, rfl⟩ | hbefore
    · rw [hchecked] at hsecond
      cases hsecond
    · exact hbefore
  refine ⟨hstore, hinv.unborn, hinv.identities, ?_, ?_, ?_, ?_, ?_, ?_, ?_⟩
  · intro other second hother
    rcases procs_append_cases hother with ⟨-, rfl⟩ | hbefore
    · exact hknows
    · exact hinv.knows other second hbefore
  · intro other second check hother hsecond
    exact hinv.used other second check (hchecks hother hsecond) hsecond
  · intro other id howner
    obtain ⟨now, user, hproc, hrest⟩ := hinv.users other id howner
    exact ⟨now, user, hold hproc, hrest⟩
  · intro other userId now hother
    exact hinv.locked other userId now (hrevokes hother rfl)
  · intro other userId now hother
    exact hinv.cut other userId now (hrevokes hother rfl)
  · intro other second userId cutoff hother hsecond
    exact hinv.rows other second userId cutoff (hrevokes hother hsecond) hsecond
  · intro first other one second cutoff check hfirst hother hone hsecond
    exact hinv.checks first other one second cutoff check (hrevokes hfirst hone)
      (hchecks hother hsecond) hone hsecond

theorem RevocationsInv.crash (hinv : RevocationsInv world) {pid : Nat}
    (hstore : StoreInv (⟨world.shared.rollback pid,
      world.procs.set pid (revocableRules config).stopped⟩ : RevocableWorld)) :
    RevocationsInv ⟨world.shared.rollback pid,
      world.procs.set pid (revocableRules config).stopped⟩ := by
  have hacts : Acts pid world.shared (world.shared.rollback pid) := .rollback
  have hothers := hinv.others hacts
  have hkept : ∀ {other : Nat} {second : RevocableProcess},
      (world.procs.set pid (revocableRules config).stopped)[other]? =
        some second →
      second = (revocableRules config).stopped ∨
        other ≠ pid ∧ world.procs[other]? = some second := by
    intro other second hother
    rcases procs_set_cases hother with ⟨-, rfl⟩ | hold
    · exact Or.inl rfl
    · exact Or.inr hold
  refine ⟨hstore, hinv.unborn, hinv.identities.acts hinv.unused hacts, ?_, ?_, ?_,
    ?_, ?_, ?_, ?_⟩
  · intro other second hother
    rcases hkept hother with rfl | ⟨-, hold⟩
    · trivial
    · exact knows_acts hacts (hinv.knows other second hold)
  · intro other second check hother hchecked
    rcases hkept hother with rfl | ⟨-, hold⟩
    · cases hchecked
    · exact hothers.used other second check hold hchecked
  · intro other id howner
    have hne : other ≠ pid := by
      rintro rfl
      exact owner_rollback_ne _ howner
    obtain ⟨now, user, hrevoke, hrest⟩ := hothers.users other id hne howner
    exact ⟨now, user, (List.getElem?_set_ne hne.symm).trans hrevoke, hrest⟩
  · intro other userId now hother
    rcases hkept hother with hstopped | ⟨hne, hold⟩
    · cases hstopped
    · exact hothers.locked other userId now hne hold
  · intro other userId now hother
    rcases hkept hother with hstopped | ⟨-, hold⟩
    · cases hstopped
    · exact hinv.cut other userId now hold
  · intro other second userId cutoff hother hcutoff
    rcases hkept hother with rfl | ⟨-, hold⟩
    · cases hcutoff
    · refine rowsBehind_acts hacts hinv.unused
        (hinv.rows other second userId cutoff hold hcutoff) ?_
      intro key row descent hnext
      exact absurd (congrArg Shared.fresh hnext) (Nat.succ_ne_self _).symm
  · intro first other one second cutoff check hfirst hother hcutoff hchecked
    rcases hkept hfirst with rfl | ⟨-, hone⟩
    · cases hcutoff
    · rcases hkept hother with rfl | ⟨-, hsecond⟩
      · cases hchecked
      · exact hothers.checks first other one second cutoff check hone hsecond
          hcutoff hchecked

theorem RevocationsInv.step {later : RevocableWorld}
    {event : WorldEvent RevocableProcess Outside} (hinv : RevocationsInv world)
    (hmeets : RevocationsOrdered world event)
    (hstep : worldStep (revocableRules config) world event = some later) :
    RevocationsInv later := by
  have hstore : StoreInv later :=
    hinv.toStoreInv.step revocableRules_table hstep
  rcases worldStep_cases hstep with
    ⟨change, shared, -, houtside, rfl⟩ | ⟨started, -, hinitial, rfl⟩ |
    ⟨pid, proc, shared, moved, rfl, hproc, hadvance, rfl⟩ |
    ⟨pid, proc, -, hproc, -, rfl⟩
  · exact hinv.outside hstore houtside
  · exact hinv.spawn hstore hinitial
  · have hknows := hinv.knows pid proc hproc
    rcases revocableStep_cases hadvance with
      ⟨exchange, exchange', rfl, rfl, hcode⟩ |
      ⟨exchange, exchange', rfl, rfl, hrefresh⟩ |
      ⟨refresh, refresh', rfl, rfl, hbearer⟩ |
      ⟨revocation, revocation', rfl, rfl, hrevoke⟩
    · obtain ⟨hexchange, hafter⟩ :=
        codeStep_exchange hknows hinv.identities hinv.unused hcode
      simp only [RevocationsOrdered, hproc] at hmeets
      exact hinv.exchange hproc rfl rfl hmeets hstore hexchange hafter
    · obtain ⟨hexchange, hafter⟩ :=
        refreshStep_exchange hknows hinv.identities hinv.unused hrefresh
      simp only [RevocationsOrdered, hproc] at hmeets
      exact hinv.exchange hproc rfl rfl hmeets hstore hexchange hafter
    · simp only [RevocationsOrdered, hproc] at hmeets
      exact hinv.exchange hproc rfl rfl hmeets hstore
        (bearerStep_exchange hbearer) trivial
    · exact hinv.revoke hproc hmeets hstore hrevoke
  · exact hinv.crash hstore

end Runs

/-- After a revocation has committed, no token that was minted from something
created before its cutoff is honoured, whatever the time. -/
def RevocationTerminal (world : RevocableWorld) : Prop :=
  ∀ pid userId cutoff : Nat,
    world.procs[pid]? = some (RevocableProcess.revoke ⟨userId, .done cutoff⟩) →
    (∀ now secret row user,
      verifySelect world.shared.store.committed now secret = some (row, user) →
      row.userId = userId →
      ¬ OldFor cutoff (world.shared.descent (.token secret))) ∧
    ∀ now secret row,
      loadRefresh world.shared.store.committed now secret = some row →
      row.userId = userId →
      ¬ OldFor cutoff (world.shared.descent (.refresh secret))

theorem revocation_terminal {config : CredentialConfig} {world : RevocableWorld}
    (hreach : GuardedReach (worldStep (revocableRules config))
      RevocationsOrdered ⟨.empty, []⟩ world) :
    RevocationTerminal world := by
  have hinv : RevocationsInv world :=
    hreach.invariant revocationsInv_empty fun _ _ _ hinv hmeets hstep =>
      hinv.step hmeets hstep
  intro pid userId cutoff hproc
  obtain ⟨user, stored, huser, hstored, hle⟩ := hinv.cut pid userId cutoff hproc
  have hrows := hinv.rows pid _ userId cutoff hproc rfl
  constructor
  · rintro now secret row found hselect rfl hold
    obtain ⟨hrow, hfound, hvalid⟩ := verifySelect_eq_some hselect
    obtain rfl := Option.some.inj (huser.symm.trans hfound)
    have hbehind := (hrows (.token secret) secret rfl).committed row hrow rfl hold
    have hlate := cutoff_le_of_credentialValidSql hvalid hstored
    simp only [rowCreatedAt] at hbehind
    omega
  · rintro now secret row hload rfl hold
    obtain ⟨hrow, -, found, hfound, hvalid⟩ := loadRefresh_eq_some hload
    obtain rfl := Option.some.inj (huser.symm.trans hfound)
    have hbehind :=
      (hrows (.refresh secret) secret rfl).committed row hrow rfl hold
    have hlate := cutoff_le_of_credentialValidSql hvalid hstored
    simp only [rowCreatedAt] at hbehind
    omega

namespace RevocationWitness

def config : CredentialConfig := ⟨3600, 60⟩

def person : UserRow := ⟨text "ann", text "hash", false, false, none, none⟩

def client : Text := text "mcp"

/-- A code of user 7 is created and, five microseconds later, presented. -/
def consent : List (WorldEvent RevocableProcess Outside) :=
  [.outside (.setUser 7 person), .outside (.consent 7 client 0 (secs 60)),
    .outside (.tick 5), .spawn (.code ⟨0, client, .load⟩)]

def revocation : List (WorldEvent RevocableProcess Outside) :=
  [.outside (.tick 10), .spawn (.revoke ⟨7, .begin⟩)] ++
    List.replicate 4 (.advance 1)

/-- The exchange is over before the user is revoked. -/
def inTurn : List (WorldEvent RevocableProcess Outside) :=
  consent ++ List.replicate 10 (.advance 0) ++ revocation

/-- The user is revoked after the code is burnt and before the mint begins. -/
def between : List (WorldEvent RevocableProcess Outside) :=
  consent ++ List.replicate 5 (.advance 0) ++ revocation ++
    List.replicate 5 (.advance 0)

end RevocationWitness

open RevocationWitness in
theorem revocation_terminal_in_turn :
    ∃ world, replayGuarded (worldStep (revocableRules config))
        RevocationsOrdered ⟨.empty, []⟩ inTurn = some world ∧
      world.procs[1]? = some (.revoke ⟨7, .done 15⟩) ∧
      (world.shared.store.committed (.refresh 1)).isSome ∧
      ∀ now secret row,
        loadRefresh world.shared.store.committed now secret = some row →
        row.userId = 7 →
        ¬ OldFor 15 (world.shared.descent (.refresh secret)) := by
  obtain ⟨world, hworld, hproc, hstored⟩ : ∃ world,
      replayGuarded (worldStep (revocableRules config)) RevocationsOrdered
        ⟨.empty, []⟩ inTurn = some world ∧
      world.procs[1]? = some (.revoke ⟨7, .done 15⟩) ∧
      (world.shared.store.committed (.refresh 1)).isSome := by
    refine ⟨_, rfl, ?_⟩
    decide
  have hterminal := revocation_terminal (.of_replay _ hworld)
  exact ⟨world, hworld, hproc, hstored, (hterminal 1 7 15 hproc).2⟩

open RevocationWitness in
/-- The pair minted after the revocation, from the code burnt before it, is
honoured. -/
theorem revocation_outlived :
    ∃ world, Reach (worldStep (revocableRules config)) ⟨.empty, []⟩ world ∧
      ¬ RevocationTerminal world := by
  obtain ⟨world, hworld, hproc, hload, hold⟩ : ∃ world,
      replayGuarded (worldStep (revocableRules config)) (fun _ _ => True)
        ⟨.empty, []⟩ between = some world ∧
      world.procs[1]? = some (.revoke ⟨7, .done 15⟩) ∧
      loadRefresh world.shared.store.committed 20 1 =
        some ⟨client, 7, 15, 15 + secs 3600, 1, none⟩ ∧
      OldFor 15 (world.shared.descent (.refresh 1)) := by
    refine ⟨_, rfl, ?_⟩
    decide
  refine ⟨world, .of_replay _ hworld, ?_⟩
  intro hterminal
  exact (hterminal 1 7 15 hproc).2 20 1 _ hload rfl hold

end Localmail
