/-
There is always a usable administrator.  A transaction that may take one away
holds the advisory lock from before its guard until it commits, and once past
the guard it has seen another administrator, whom nobody else can take away
meanwhile.
-/
import Localmail.AdminPrograms

namespace Localmail

/-- An administrator who can administer: admin, enabled, human. -/
def ActiveAdmin (row : Option UserRow) : Prop :=
  ∃ user, row = some user ∧ user.isActiveAdmin = true

theorem activeAdmin_iff_any {row : Option UserRow} :
    ActiveAdmin row ↔ row.any UserRow.isActiveAdmin = true := by
  cases row with
  | none => simp [ActiveAdmin]
  | some user => simp [ActiveAdmin]

/-! ### The statements -/

/-- A call that is not guarded takes nobody's administration. -/
theorem version_active {hasher : PasswordHasher} {now : Nat}
    {call : AdminCall} {row : UserRow} (hfree : call.guardedAs = none)
    (hmatch : call.matchesRow row = true) (hactive : row.isActiveAdmin = true) :
    ActiveAdmin (call.version hasher now row) := by
  simp only [UserRow.isActiveAdmin, Bool.and_eq_true, Bool.not_eq_true',
    Option.isNone_iff_eq_none] at hactive
  obtain ⟨⟨hadmin, henabled⟩, hhuman⟩ := hactive
  cases call with
  | setAdmin userId isAdmin =>
      cases isAdmin with
      | true => exact ⟨_, rfl, by simp [UserRow.isActiveAdmin, henabled, hhuman]⟩
      | false => cases hfree
  | setDisabled userId disabled =>
      cases disabled with
      | true => cases hfree
      | false => exact ⟨_, rfl, by simp [UserRow.isActiveAdmin, hadmin, hhuman]⟩
  | deleteUser userId => cases hfree
  | createUser username password isAdmin salt =>
      exact ⟨_, rfl, by simp [UserRow.isActiveAdmin, hadmin, henabled, hhuman]⟩
  | setPassword userId newPassword salt =>
      exact ⟨_, rfl, by simp [UserRow.isActiveAdmin, hadmin, henabled, hhuman]⟩
  | deleteKeyPrincipal userId =>
      have hservice : row.isService = true := hmatch
      rw [hhuman] at hservice
      cases hservice

/-- Two counted administrators are two ids, so one of them is not the
target. -/
theorem exists_active_ne_of_count {shared : AdminShared} {tx : Nat}
    (target : Nat) (hcount : 2 ≤ shared.activeAdminCount tx) :
    ∃ id, id ≠ target ∧ ActiveAdmin (shared.read tx id) := by
  by_contra hnone
  push Not at hnone
  have hle : shared.activeAdminCount tx ≤
      (List.range shared.nextUser).countP (· == target) := by
    apply List.countP_mono_left
    intro id _ hactive
    by_contra hne
    exact hnone id (by simpa using hne) (activeAdmin_iff_any.mpr hactive)
  have hone : (List.range shared.nextUser).countP (· == target) ≤ 1 :=
    List.nodup_iff_count_le_one.mp List.nodup_range target
  omega

/-! ### The invariant -/

/-- In a guarded call the lock is held from the guard's first read on. -/
def AdminPhase.locked : AdminPhase → Bool
  | .userState _ | .count _ _ | .write _ | .writing _ | .missed
  | .finish => true
  | .begin | .acquire _ | .rejectService _ | .checkExists _ | .insert | .done
  | .raised _ => false

/-- The guard has let the call pass, or has nothing to refuse. -/
def AdminPhase.pastGuard : AdminPhase → Bool
  | .count _ false | .write _ | .writing _ | .missed | .finish => true
  | .count _ true | .userState _ | .begin | .acquire _ | .rejectService _
  | .checkExists _ | .insert | .done | .raised _ => false

/-- The phases only calls without a guard go through. -/
def AdminPhase.unguarded : AdminPhase → Bool
  | .rejectService _ | .checkExists _ | .insert => true
  | .userState _ | .count _ _ | .write _ | .writing _ | .missed | .finish
  | .begin | .acquire _ | .done | .raised _ => false

/-- What holds of one transaction. -/
structure AdminProcInv (shared : AdminShared) (tx : Nat)
    (proc : AdminProcess) : Prop where
  fits : proc.call.guardedAs ≠ none → proc.phase.unguarded = false
  owns : ∀ id, shared.store.owner id = some tx →
    proc.phase = .finish ∧
      (proc.call.guardedAs ≠ none → proc.call.target = some id) ∧
      (proc.call.guardedAs = none →
        ActiveAdmin (shared.store.committed id) →
          ActiveAdmin (shared.store.dirty id))
  locked : proc.call.guardedAs ≠ none → proc.phase.locked = true →
    shared.lock = some tx
  spared : proc.call.guardedAs ≠ none → proc.phase.pastGuard = true →
    ∃ id, proc.call.target ≠ some id ∧
      ActiveAdmin (shared.store.committed id)

structure AdminInv (world : World AdminShared AdminProcess) : Prop where
  active : ∃ id, ActiveAdmin (world.shared.store.committed id)
  below : ∀ id, world.shared.store.committed id ≠ none ∨
    world.shared.store.owner id ≠ none → id < world.shared.nextUser
  running : ∀ id tx, world.shared.store.owner id = some tx →
    tx < world.procs.length
  procs : ∀ tx proc, world.procs[tx]? = some proc →
    AdminProcInv world.shared tx proc

theorem AdminProcInv.reads {shared : AdminShared} {tx : Nat}
    {proc : AdminProcess} (hproc : AdminProcInv shared tx proc)
    (hphase : proc.phase ≠ .finish) (id : Nat) :
    shared.read tx id = shared.store.committed id :=
  RowStore.view_of_not_owner fun hown => hphase (hproc.owns id hown).1

/-- A commit takes administration only from the target of a guarded call. -/
theorem AdminProcInv.commit_active {shared : AdminShared} {tx id : Nat}
    {proc : AdminProcess} (hproc : AdminProcInv shared tx proc)
    (hspared : proc.call.guardedAs ≠ none → proc.call.target ≠ some id)
    (hactive : ActiveAdmin (shared.store.committed id)) :
    ActiveAdmin ((shared.commit tx).store.committed id) := by
  change ActiveAdmin (shared.store.view tx id)
  by_cases hown : shared.store.owner id = some tx
  · obtain ⟨-, htarget, hkeeps⟩ := hproc.owns id hown
    rw [RowStore.view_of_owner hown]
    by_cases hguarded : proc.call.guardedAs = none
    · exact hkeeps hguarded hactive
    · exact absurd (htarget hguarded) (hspared hguarded)
  · rw [RowStore.view_of_not_owner hown]
    exact hactive

/-- What the others' steps must leave alone. -/
theorem AdminProcInv.transfer {before after : AdminShared} {tx : Nat}
    {proc : AdminProcess} (hproc : AdminProcInv before tx proc)
    (hundisturbed : RowStore.Undisturbed tx before.store after.store)
    (hlock : before.lock = some tx → after.lock = some tx)
    (hactive : before.lock = some tx → ∀ id,
      ActiveAdmin (before.store.committed id) →
        ActiveAdmin (after.store.committed id)) :
    AdminProcInv after tx proc where
  fits := hproc.fits
  owns := by
    intro id hown
    have hown' := (hundisturbed.owner id).mp hown
    rw [hundisturbed.dirty id hown', hundisturbed.committed id hown']
    exact hproc.owns id hown'
  locked := fun hguarded hphase => hlock (hproc.locked hguarded hphase)
  spared := by
    intro hguarded hphase
    obtain ⟨id, hne, hid⟩ := hproc.spared hguarded hphase
    have hlocked : proc.phase.locked = true := by
      revert hphase
      cases proc.phase <;> simp [AdminPhase.pastGuard, AdminPhase.locked]
    exact ⟨id, hne, hactive (hproc.locked hguarded hlocked) id hid⟩

/-! ### What one statement may do to the table -/

inductive AdminActs (tx : Nat) (phase : AdminPhase) (shared : AdminShared) :
    AdminShared → Prop
  | none : AdminActs tx phase shared shared
  | acquire (hfree : shared.lock = none ∨ shared.lock = some tx) :
      AdminActs tx phase shared { shared with lock := some tx }
  | put (id : Nat) (version : Option UserRow)
      (hfree : shared.store.Free tx id)
      (hbelow : shared.store.committed id ≠ Option.none) :
      AdminActs tx phase shared (shared.put tx id version)
  | insert (row : UserRow) :
      AdminActs tx phase shared
        { shared.put tx shared.nextUser (some row) with
          nextUser := shared.nextUser + 1 }
  | commit (hphase : phase = .finish) :
      AdminActs tx phase shared (shared.commit tx)
  | rollback : AdminActs tx phase shared (shared.rollback tx)

/-- A transaction with nothing written and nothing to hold on to. -/
theorem AdminProcInv.idle {shared : AdminShared} {tx : Nat}
    {call : AdminCall} {phase : AdminPhase}
    (hnone : ∀ id, shared.store.owner id ≠ some tx)
    (hfits : call.guardedAs ≠ none → phase.unguarded = false)
    (hlocked : phase.locked = false) (hpast : phase.pastGuard = false) :
    AdminProcInv shared tx ⟨call, phase⟩ where
  fits := hfits
  owns := fun id hown => absurd hown (hnone id)
  locked := fun _ hphase => by rw [hlocked] at hphase; cases hphase
  spared := fun _ hphase => by rw [hpast] at hphase; cases hphase

/-- It has written nothing, but its guard may be behind it. -/
theorem AdminProcInv.waiting {shared : AdminShared} {tx : Nat}
    {call : AdminCall} {phase : AdminPhase}
    (hnone : ∀ id, shared.store.owner id ≠ some tx)
    (hfits : phase.unguarded = false)
    (hlocked : call.guardedAs ≠ none → shared.lock = some tx)
    (hspared : call.guardedAs ≠ none → phase.pastGuard = true →
      ∃ id, call.target ≠ some id ∧
        ActiveAdmin (shared.store.committed id)) :
    AdminProcInv shared tx ⟨call, phase⟩ where
  fits := fun _ => hfits
  owns := fun id hown => absurd hown (hnone id)
  locked := fun hguarded _ => hlocked hguarded
  spared := hspared

/-- An exception rolls the transaction back. -/
theorem AdminProcInv.raise (shared : AdminShared) (tx : Nat)
    (call : AdminCall) (error : AuthError) :
    AdminProcInv (shared.rollback tx) tx ⟨call, .raised error⟩ :=
  .idle (fun _ => RowStore.released_ne_self) (fun _ => rfl) rfl rfl

section OwnStep

variable {hasher : PasswordHasher} {tx : Nat} {shared shared' : AdminShared}
  {call : AdminCall} {proc' : AdminProcess}

/-- A statement before the write that reads the target and either raises or
goes on. -/
theorem start_inv {phase : AdminPhase} (now : Nat)
    (hnone : ∀ id, shared.store.owner id ≠ some tx)
    (hphase : phase = call.start now) :
    AdminProcInv shared tx ⟨call, phase⟩ := by
  subst hphase
  cases call with
  | setAdmin userId isAdmin =>
      cases isAdmin with
      | true => exact .idle hnone (fun hguarded => absurd rfl hguarded) rfl rfl
      | false => exact .idle hnone (fun _ => rfl) rfl rfl
  | setDisabled userId disabled =>
      cases disabled with
      | true => exact .idle hnone (fun _ => rfl) rfl rfl
      | false => exact .idle hnone (fun hguarded => absurd rfl hguarded) rfl rfl
  | deleteUser userId => exact .idle hnone (fun _ => rfl) rfl rfl
  | createUser username password isAdmin salt =>
      simp only [AdminCall.start]
      split
      · exact .idle hnone (fun _ => rfl) rfl rfl
      · split
        · exact .idle hnone (fun _ => rfl) rfl rfl
        · exact .idle hnone (fun hguarded => absurd rfl hguarded) rfl rfl
  | setPassword userId newPassword salt =>
      exact .idle hnone (fun hguarded => absurd rfl hguarded) rfl rfl
  | deleteKeyPrincipal userId =>
      exact .waiting hnone rfl (fun hguarded => absurd rfl hguarded)
        fun hguarded => absurd rfl hguarded

/-- Only a call without a guard is in a phase of these. -/
theorem AdminProcInv.free {phase : AdminPhase}
    (hproc : AdminProcInv shared tx ⟨call, phase⟩)
    (hunguarded : phase.unguarded = true) : call.guardedAs = none := by
  by_contra hguarded
  cases (hproc.fits hguarded).symm.trans hunguarded

/-- A call without a guard may go wherever it goes. -/
theorem unguarded_inv {phase : AdminPhase}
    (hnone : ∀ id, shared.store.owner id ≠ some tx)
    (hfree : call.guardedAs = none) :
    AdminProcInv shared tx ⟨call, phase⟩ where
  fits := fun hguarded => absurd hfree hguarded
  owns := fun id hown => absurd hown (hnone id)
  locked := fun hguarded => absurd hfree hguarded
  spared := fun hguarded => absurd hfree hguarded

/-- One statement keeps what holds of its transaction. -/
theorem adminStep_inv {phase : AdminPhase}
    (hproc : AdminProcInv shared tx ⟨call, phase⟩)
    (hactive : ∃ id, ActiveAdmin (shared.store.committed id))
    (hbelow : ∀ id, shared.store.committed id ≠ none ∨
      shared.store.owner id ≠ none → id < shared.nextUser)
    (hstep : adminStep hasher tx shared ⟨call, phase⟩ =
      some (shared', proc')) :
    AdminActs tx phase shared shared' ∧ AdminProcInv shared' tx proc' := by
  have hnone : phase ≠ .finish → ∀ id, shared.store.owner id ≠ some tx :=
    fun hphase id hown => hphase (hproc.owns id hown).1
  cases phase with
  | begin =>
      cases hstep
      exact ⟨.none, start_inv shared.clock (hnone nofun) rfl⟩
  | acquire now =>
      simp only [adminStep] at hstep
      split at hstep
      · rename_i hfree
        cases hstep
        exact ⟨.acquire hfree, .waiting (hnone nofun) rfl (fun _ => rfl) nofun⟩
      · cases hstep
  | userState now =>
      cases htarget : call.target with
      | none => simp [adminStep, htarget] at hstep
      | some id =>
          simp only [adminStep, htarget] at hstep
          split at hstep
          · cases hstep
            exact ⟨.rollback, .raise shared tx call _⟩
          · rename_i row hrow
            cases hstep
            refine ⟨.none, .waiting (hnone nofun) rfl
              (fun hguarded => hproc.locked hguarded rfl) ?_⟩
            intro hguarded hpast
            -- the target is no active admin, so the one there is is another
            obtain ⟨other, hother⟩ := hactive
            refine ⟨other, ?_, hother⟩
            rw [htarget]
            rintro ⟨⟩
            obtain ⟨user, huser, hadmin⟩ := hother
            rw [hproc.reads nofun, huser] at hrow
            cases hrow
            simp only [UserRow.isActiveAdmin, Bool.and_eq_true] at hadmin
            simp [hadmin.1.1, hadmin.1.2, AdminPhase.pastGuard] at hpast
  | count now active =>
      simp only [adminStep] at hstep
      split at hstep
      · cases hstep
        exact ⟨.rollback, .raise shared tx call _⟩
      · rename_i hpasses
        cases hstep
        refine ⟨.none, .waiting (hnone nofun) rfl
          (fun hguarded => hproc.locked hguarded rfl) ?_⟩
        intro hguarded _
        cases active with
        | false => exact hproc.spared hguarded rfl
        | true =>
            simp only [wouldOrphanLastAdmin, Bool.true_and,
              decide_eq_true_eq, Nat.not_le] at hpasses
            cases htarget : call.target with
            | none =>
                obtain ⟨id, hid⟩ := hactive
                exact ⟨id, nofun, hid⟩
            | some target =>
                obtain ⟨id, hne, hid⟩ :=
                  exists_active_ne_of_count target hpasses
                rw [hproc.reads nofun] at hid
                exact ⟨id, fun hsame => hne (Option.some.inj hsame).symm, hid⟩
  | rejectService now =>
      have hfree := hproc.free rfl
      cases htarget : call.target with
      | none => simp [adminStep, htarget] at hstep
      | some id =>
          simp only [adminStep, htarget] at hstep
          split at hstep
          · cases hstep
            exact ⟨.rollback, .raise shared tx call _⟩
          · split at hstep
            · cases hstep
              exact ⟨.rollback, .raise shared tx call _⟩
            · cases hstep
              exact ⟨.none, unguarded_inv (hnone nofun) hfree⟩
  | checkExists now =>
      have hfree := hproc.free rfl
      cases htarget : call.target with
      | none => simp [adminStep, htarget] at hstep
      | some id =>
          simp only [adminStep, htarget] at hstep
          split at hstep
          · cases hstep
            exact ⟨.rollback, .raise shared tx call _⟩
          · cases hstep
            exact ⟨.none, unguarded_inv (hnone nofun) hfree⟩
  | write now =>
      cases htarget : call.target with
      | none => simp [adminStep, htarget] at hstep
      | some id =>
          simp only [adminStep, htarget] at hstep
          have hgo : ∀ next : AdminPhase, next.unguarded = false →
              AdminProcInv shared tx ⟨call, next⟩ := fun next hfits =>
            .waiting (hnone nofun) hfits
              (fun hguarded => hproc.locked hguarded rfl)
              fun hguarded _ => hproc.spared hguarded rfl
          cases hstep
          refine ⟨.none, hgo _ ?_⟩
          split <;> rfl
  | writing now =>
      cases htarget : call.target with
      | none => simp [adminStep, htarget] at hstep
      | some id =>
          have hmissed : AdminProcInv shared tx ⟨call, .missed⟩ :=
            .waiting (hnone nofun) rfl
              (fun hguarded => hproc.locked hguarded rfl)
              fun hguarded _ => hproc.spared hguarded rfl
          simp only [adminStep, htarget] at hstep
          split at hstep
          · rename_i hfree
            split at hstep
            · cases hstep
              exact ⟨.none, hmissed⟩
            · rename_i row hrow
              rw [hproc.reads nofun] at hrow
              split at hstep
              · rename_i hmatch
                cases hstep
                refine ⟨.put id _ hfree (by rw [hrow]; nofun), ?_⟩
                constructor
                · exact fun _ => rfl
                · intro other hown
                  have hother : other = id := by
                    by_contra hne
                    rw [AdminShared.put, RowStore.owner_put_of_ne hne] at hown
                    exact hnone nofun other hown
                  subst hother
                  refine ⟨rfl, fun _ => htarget, fun hfree' hwas => ?_⟩
                  obtain ⟨user, huser, huserActive⟩ := hwas
                  change shared.store.committed other = some user at huser
                  cases hrow.symm.trans huser
                  change ActiveAdmin
                    ((shared.store.put tx other _).dirty other)
                  rw [RowStore.dirty_put_self]
                  exact version_active hfree' hmatch huserActive
                · exact fun hguarded _ => hproc.locked hguarded rfl
                · exact fun hguarded _ => hproc.spared hguarded rfl
              · cases hstep
                exact ⟨.none, hmissed⟩
          · cases hstep
  | insert =>
      have hfree := hproc.free rfl
      cases call with
      | createUser username password isAdmin salt =>
          simp only [adminStep] at hstep
          split at hstep
          · cases hstep
          · split at hstep
            · cases hstep
              exact ⟨.rollback, .raise shared tx _ _⟩
            · cases hstep
              refine ⟨.insert _, ?_⟩
              constructor
              · exact fun hguarded => absurd rfl hguarded
              · intro other hown
                have hother : other = shared.nextUser := by
                  by_contra hne
                  change (shared.store.put tx shared.nextUser _).owner other =
                    some tx at hown
                  rw [RowStore.owner_put_of_ne hne] at hown
                  exact hnone nofun other hown
                subst hother
                refine ⟨rfl, fun hguarded => absurd rfl hguarded, ?_⟩
                rintro - ⟨user, huser, -⟩
                change shared.store.committed shared.nextUser = some user
                  at huser
                have hlt := hbelow shared.nextUser (.inl (by rw [huser]; nofun))
                omega
              · exact fun hguarded => absurd rfl hguarded
              · exact fun hguarded => absurd rfl hguarded
      | setAdmin | setDisabled | deleteUser | setPassword
      | deleteKeyPrincipal =>
          cases hstep
  | missed =>
      have hfinish : AdminProcInv shared tx ⟨call, .finish⟩ :=
        .waiting (hnone nofun) rfl
          (fun hguarded => hproc.locked hguarded rfl)
          fun hguarded _ => hproc.spared hguarded rfl
      cases call with
      | createUser => cases hstep
      | setAdmin | setDisabled =>
          cases hstep
          exact ⟨.none, hfinish⟩
      | deleteUser | setPassword | deleteKeyPrincipal =>
          cases hstep
          exact ⟨.rollback, .raise shared tx _ _⟩
  | finish =>
      cases hstep
      exact ⟨.commit rfl, .idle (fun _ => RowStore.released_ne_self)
        (fun _ => rfl) rfl rfl⟩
  | done => cases hstep
  | raised error => cases hstep

end OwnStep

/-! ### Between transactions -/

namespace AdminActs

variable {tx other : Nat} {phase : AdminPhase}
  {shared shared' : AdminShared}

theorem undisturbed (hacts : AdminActs tx phase shared shared') (hne : other ≠ tx)
    (hbelow : ∀ id, shared.store.owner id ≠ Option.none →
      id < shared.nextUser) :
    RowStore.Undisturbed other shared.store shared'.store := by
  cases hacts with
  | none => exact .refl other shared.store
  | acquire hfree => exact .refl other shared.store
  | put id version hfree _ => exact RowStore.undisturbed_put hne hfree version
  | insert row =>
      refine RowStore.undisturbed_put hne (.inl ?_) _
      by_contra hsome
      have hlt := hbelow shared.nextUser hsome
      omega
  | commit hphase => exact RowStore.undisturbed_commit hne
  | rollback => exact RowStore.undisturbed_rollback hne

theorem lock_kept (hacts : AdminActs tx phase shared shared') (hne : other ≠ tx)
    (hlock : shared.lock = some other) : shared'.lock = some other := by
  have hstays : shared.unlocked tx = some other := by
    unfold AdminShared.unlocked
    rw [if_neg ?_]
    · exact hlock
    · rw [hlock]
      exact fun hsame => hne (Option.some.inj hsame)
  cases hacts with
  | none => exact hlock
  | acquire hfree =>
      obtain hnone | hown := hfree
      · rw [hlock] at hnone
        cases hnone
      · rw [hlock] at hown
        exact absurd (Option.some.inj hown) hne
  | put id version hfree _ => exact hlock
  | insert row => exact hlock
  | commit hphase => exact hstays
  | rollback => exact hstays

/-- Administration is lost only when a guarded call commits. -/
theorem active_kept {call : AdminCall} {id : Nat}
    (hacts : AdminActs tx phase shared shared')
    (hproc : AdminProcInv shared tx ⟨call, phase⟩)
    (hspared : phase = .finish → call.guardedAs ≠ Option.none →
      call.target ≠ some id)
    (hactive : ActiveAdmin (shared.store.committed id)) :
    ActiveAdmin (shared'.store.committed id) := by
  cases hacts with
  | commit hphase => exact hproc.commit_active (hspared hphase) hactive
  | none | acquire | put | insert | rollback => exact hactive

theorem below_kept (hacts : AdminActs tx phase shared shared')
    (hbelow : ∀ id, shared.store.committed id ≠ Option.none ∨
      shared.store.owner id ≠ Option.none → id < shared.nextUser)
    (id : Nat) (hid : shared'.store.committed id ≠ Option.none ∨
      shared'.store.owner id ≠ Option.none) :
    id < shared'.nextUser := by
  cases hacts with
  | none => exact hbelow id hid
  | acquire hfree => exact hbelow id hid
  | put key version hfree hkey =>
      by_cases hsame : id = key
      · subst hsame
        exact hbelow id (.inl hkey)
      · refine hbelow id (hid.imp_right fun howner => ?_)
        rwa [AdminShared.put, RowStore.owner_put_of_ne hsame] at howner
  | insert row =>
      by_cases hsame : id = shared.nextUser
      · exact hsame ▸ Nat.lt_succ_self _
      · refine Nat.lt_succ_of_lt (hbelow id (hid.imp_right fun howner => ?_))
        change (shared.store.put tx shared.nextUser _).owner id ≠ _ at howner
        rwa [RowStore.owner_put_of_ne hsame] at howner
  | commit hphase =>
      apply hbelow id
      obtain hview | howner := hid
      · by_cases hown : shared.store.owner id = some tx
        · exact .inr (by rw [hown]; nofun)
        · left
          rwa [AdminShared.commit, RowStore.committed_commit,
            RowStore.view_of_not_owner hown] at hview
      · exact .inr (RowStore.owner_ne_none_of_released howner)
  | rollback =>
      exact hbelow id (hid.imp_right RowStore.owner_ne_none_of_released)

theorem owner_kept (hacts : AdminActs tx phase shared shared') {id : Nat}
    (howner : shared'.store.owner id = some other) :
    other = tx ∨ shared.store.owner id = some other := by
  cases hacts with
  | none => exact .inr howner
  | acquire hfree => exact .inr howner
  | put key version hfree _ =>
      by_cases hsame : id = key
      · subst hsame
        rw [AdminShared.put, RowStore.owner_put_self] at howner
        exact .inl (Option.some.inj howner).symm
      · rw [AdminShared.put, RowStore.owner_put_of_ne hsame] at howner
        exact .inr howner
  | insert row =>
      change (shared.store.put tx shared.nextUser _).owner id = _ at howner
      by_cases hsame : id = shared.nextUser
      · subst hsame
        rw [RowStore.owner_put_self] at howner
        exact .inl (Option.some.inj howner).symm
      · rw [RowStore.owner_put_of_ne hsame] at howner
        exact .inr howner
  | commit hphase => exact .inr (RowStore.owner_of_released howner).2
  | rollback => exact .inr (RowStore.owner_of_released howner).2

end AdminActs

/-! ### Runs -/

abbrev AdminWorld := World AdminShared AdminProcess

def adminWorldStep (hasher : PasswordHasher) :
    AdminWorld → WorldEvent AdminProcess Nat → Option AdminWorld :=
  worldStep (adminRules hasher)

/-- What one transaction did, with its new place, leaves the invariant. -/
theorem AdminInv.acted {world : AdminWorld} {tx : Nat} {call : AdminCall}
    {phase : AdminPhase} {after : AdminProcess} {shared : AdminShared}
    (hinv : AdminInv world)
    (hproc : world.procs[tx]? = some ⟨call, phase⟩)
    (hacts : AdminActs tx phase world.shared shared)
    (hown : AdminProcInv shared tx after) :
    AdminInv ⟨shared, world.procs.set tx after⟩ where
  active := by
    have hcall := hinv.procs tx ⟨call, phase⟩ hproc
    by_cases hfinish : phase = .finish ∧ call.guardedAs ≠ none
    · -- the guard saw another one, and it is still there
      obtain ⟨rfl, hguarded⟩ := hfinish
      obtain ⟨spare, hne, hspare⟩ := hcall.spared hguarded rfl
      exact ⟨spare, hacts.active_kept hcall (fun _ _ => hne) hspare⟩
    · obtain ⟨id, hid⟩ := hinv.active
      refine ⟨id, hacts.active_kept hcall ?_ hid⟩
      exact fun hphase hguarded => absurd ⟨hphase, hguarded⟩ hfinish
  below := hacts.below_kept hinv.below
  running := owners_set hinv.running after hproc fun _ _ => hacts.owner_kept
  procs := by
    intro other proc' hproc'
    obtain ⟨rfl, rfl⟩ | ⟨hne, hold⟩ := procs_set_cases hproc'
    · exact hown
    · apply (hinv.procs other proc' hold).transfer
      · exact hacts.undisturbed hne fun id howner => hinv.below id (.inr howner)
      · exact hacts.lock_kept hne
      · intro hlock id hid
        have hcall := hinv.procs tx ⟨call, phase⟩ hproc
        refine hacts.active_kept hcall (fun hphase hguarded => ?_) hid
        -- a guarded call that commits holds the lock itself
        have hheld := hcall.locked hguarded (by rw [hphase]; rfl)
        rw [hlock] at hheld
        exact absurd (Option.some.inj hheld) hne

/-- Every step of the system keeps the invariant. -/
theorem AdminInv.step {hasher : PasswordHasher} {world next : AdminWorld}
    {event : WorldEvent AdminProcess Nat} (hinv : AdminInv world)
    (hstep : adminWorldStep hasher world event = some next) :
    AdminInv next := by
  obtain ⟨elapsed, shared, -, hshared, rfl⟩ | ⟨proc, -, hinitial, rfl⟩ |
    ⟨tx, proc, shared, after, -, hproc, hadvance, rfl⟩ |
    ⟨tx, proc, -, hproc, -, rfl⟩ := worldStep_cases hstep
  · cases hshared
    exact ⟨hinv.active, hinv.below, hinv.running, fun tx proc hproc =>
      (hinv.procs tx proc hproc).transfer (.refl tx _) id fun _ _ hid => hid⟩
  · refine ⟨hinv.active, hinv.below, owners_append hinv.running proc, ?_⟩
    intro tx other hother
    obtain ⟨rfl, rfl⟩ | hold := procs_append_cases hother
    · obtain ⟨call, phase⟩ := other
      cases of_decide_eq_true hinitial
      refine .idle (fun id howner => ?_) (fun _ => rfl) rfl rfl
      exact absurd (hinv.running id _ howner) (Nat.lt_irrefl _)
    · exact hinv.procs tx other hold
  · obtain ⟨call, phase⟩ := proc
    obtain ⟨hacts, hown⟩ := adminStep_inv
      (hinv.procs tx ⟨call, phase⟩ hproc) hinv.active hinv.below hadvance
    exact hinv.acted hproc hacts hown
  · obtain ⟨call, phase⟩ := proc
    exact hinv.acted hproc .rollback
      (.idle (fun _ => RowStore.released_ne_self) (fun _ => rfl) rfl rfl)

/-! ### The refusal -/

/-- The refusal is still possible, or has happened. -/
def AdminPhase.beforeRefusal : AdminPhase → Bool
  | .begin | .acquire _ | .userState _ | .count _ _
  | .raised (.lastAdmin _) => true
  | .rejectService _ | .checkExists _ | .write _ | .writing _ | .insert
  | .missed | .finish | .done | .raised _ => false

/-- A statement after which the refusal is possible, or has happened, wrote
nothing, and it was possible before. -/
theorem adminStep_beforeRefusal {hasher : PasswordHasher} {tx : Nat}
    {shared shared' : AdminShared} {proc proc' : AdminProcess}
    (hstep : adminStep hasher tx shared proc = some (shared', proc'))
    (hbefore : proc'.phase.beforeRefusal = true) :
    proc.phase.beforeRefusal = true ∧
      shared'.store.committed = shared.store.committed ∧
      ∀ id, shared'.store.owner id = some tx →
        shared.store.owner id = some tx := by
  obtain ⟨call, phase⟩ := proc
  cases phase with
  | begin =>
      cases hstep
      exact ⟨rfl, rfl, fun _ howner => howner⟩
  | acquire now =>
      simp only [adminStep] at hstep
      split at hstep
      · cases hstep
        exact ⟨rfl, rfl, fun _ howner => howner⟩
      · cases hstep
  | userState now =>
      cases htarget : call.target with
      | none => simp [adminStep, htarget] at hstep
      | some id =>
          simp only [adminStep, htarget] at hstep
          split at hstep
          · cases hstep
            cases hbefore
          · cases hstep
            exact ⟨rfl, rfl, fun _ howner => howner⟩
  | count now active =>
      simp only [adminStep] at hstep
      split at hstep
      · cases hstep
        exact ⟨rfl, rfl, fun _ howner => absurd howner
          RowStore.released_ne_self⟩
      · cases hstep
        cases hbefore
  | rejectService now =>
      cases htarget : call.target with
      | none => simp [adminStep, htarget] at hstep
      | some id =>
          simp only [adminStep, htarget] at hstep
          split at hstep
          · cases hstep
            cases hbefore
          · split at hstep
            · cases hstep
              cases hbefore
            · cases hstep
              cases call with
              | setPassword userId newPassword salt =>
                  simp only [AdminCall.afterReject] at hbefore
                  split at hbefore <;> cases hbefore
              | setAdmin | setDisabled | deleteUser | createUser
              | deleteKeyPrincipal => cases hbefore
  | checkExists now =>
      cases htarget : call.target with
      | none => simp [adminStep, htarget] at hstep
      | some id =>
          simp only [adminStep, htarget] at hstep
          split at hstep <;> cases hstep <;> cases hbefore
  | write now =>
      cases htarget : call.target with
      | none => simp [adminStep, htarget] at hstep
      | some id =>
          simp only [adminStep, htarget] at hstep
          cases hstep
          simp only at hbefore
          split at hbefore <;> cases hbefore
  | writing now =>
      cases htarget : call.target with
      | none => simp [adminStep, htarget] at hstep
      | some id =>
          simp only [adminStep, htarget] at hstep
          split at hstep
          · split at hstep
            · cases hstep
              cases hbefore
            · split at hstep <;> cases hstep <;> cases hbefore
          · cases hstep
  | insert =>
      cases call with
      | createUser username password isAdmin salt =>
          simp only [adminStep] at hstep
          split at hstep
          · cases hstep
          · split at hstep <;> cases hstep <;> cases hbefore
      | setAdmin | setDisabled | deleteUser | setPassword
      | deleteKeyPrincipal => cases hstep
  | missed =>
      cases call with
      | createUser => cases hstep
      | deleteKeyPrincipal userId =>
          simp only [adminStep, AdminCall.target] at hstep
          cases hstep
          simp only at hbefore
          split at hbefore <;> cases hbefore
      | setAdmin | setDisabled | deleteUser | setPassword =>
          cases hstep
          cases hbefore
  | finish =>
      cases hstep
      cases hbefore
  | done => cases hstep
  | raised error => cases hstep

/-- A transaction past its guard never ends in the refusal. -/
theorem beforeRefusal_stays {hasher : PasswordHasher}
    {world final : AdminWorld} {tx : Nat}
    (hreach : Reach (adminWorldStep hasher) world final)
    (hpast : ∃ proc, world.procs[tx]? = some proc ∧
      proc.phase.beforeRefusal = false) :
    ∃ proc, final.procs[tx]? = some proc ∧
      proc.phase.beforeRefusal = false := by
  apply hreach.invariant hpast
  rintro before event after ⟨proc, hproc, hphase⟩ - hstep
  have hlt := (List.getElem?_eq_some_iff.mp hproc).1
  obtain ⟨elapsed, shared, -, hshared, rfl⟩ | ⟨started, -, -, rfl⟩ |
    ⟨other, moved, shared, next, -, hmoved, hadvance, rfl⟩ |
    ⟨other, moved, -, hmoved, -, rfl⟩ := worldStep_cases hstep
  · exact ⟨proc, hproc, hphase⟩
  · exact ⟨proc, (List.getElem?_append_left hlt).trans hproc, hphase⟩
  · by_cases hsame : other = tx
    · subst hsame
      cases hproc.symm.trans hmoved
      refine ⟨next, List.getElem?_set_self hlt, ?_⟩
      by_contra hbefore
      have hback := adminStep_beforeRefusal hadvance
        (Bool.eq_true_of_not_eq_false hbefore)
      rw [hphase] at hback
      cases hback.1
    · exact ⟨proc, (List.getElem?_set_ne hsame).trans hproc, hphase⟩
  · by_cases hsame : other = tx
    · subst hsame
      exact ⟨_, List.getElem?_set_self hlt, rfl⟩
    · exact ⟨proc, (List.getElem?_set_ne hsame).trans hproc, hphase⟩

/-- There is always a usable administrator, whatever the transactions and
however they interleave; and a transaction that ends in the refusal of the
last administrator never wrote anything. -/
theorem always_usable_administrator (hasher : PasswordHasher)
    (users : Nat → Option UserRow) (nextUser : Nat)
    (hbelow : ∀ id, users id ≠ none → id < nextUser)
    (hadmin : ∃ id, ActiveAdmin (users id)) {world : AdminWorld}
    (hreach : Reach (adminWorldStep hasher)
      ⟨.start users nextUser hbelow, []⟩ world) :
    (∃ id user, world.shared.store.committed id = some user ∧
      user.isAdmin = true ∧ user.disabledAt = none ∧
      user.isService = false) ∧
    ∀ tx next final call action,
      adminWorldStep hasher world (.advance tx) = some next →
      Reach (adminWorldStep hasher) next final →
      final.procs[tx]? = some ⟨call, .raised (.lastAdmin action)⟩ →
        next.shared.store.committed = world.shared.store.committed ∧
          ∀ id, next.shared.store.owner id ≠ some tx := by
  have hinv : AdminInv world := by
    apply hreach.invariant
    · refine ⟨hadmin, fun id hid => ?_, nofun, nofun⟩
      exact hbelow id (hid.resolve_right fun hsome => hsome rfl)
    · exact fun before event after hbefore _ hstep => hbefore.step hstep
  constructor
  · obtain ⟨id, user, huser, hactive⟩ := hinv.active
    simp only [UserRow.isActiveAdmin, Bool.and_eq_true, Bool.not_eq_true',
      Option.isNone_iff_eq_none] at hactive
    exact ⟨id, user, huser, hactive.1.1, hactive.1.2, hactive.2⟩
  · intro tx next final call action hstep hrun hraised
    obtain ⟨_, _, hevent, _⟩ | ⟨_, hevent, _⟩ |
      ⟨pid, proc, shared, after, hevent, hproc, hadvance, rfl⟩ |
      ⟨_, _, hevent, _⟩ := worldStep_cases hstep
    · cases hevent
    · cases hevent
    · cases hevent
      have hlt := (List.getElem?_eq_some_iff.mp hproc).1
      have hbefore : after.phase.beforeRefusal = true := by
        by_contra hpast
        obtain ⟨proc', hproc', hphase'⟩ := beforeRefusal_stays hrun
          ⟨after, List.getElem?_set_self hlt, eq_false_of_ne_true hpast⟩
        cases hraised.symm.trans hproc'
        cases hphase'
      obtain ⟨hback, hcommitted, howner⟩ :=
        adminStep_beforeRefusal hadvance hbefore
      refine ⟨hcommitted, fun id hown => ?_⟩
      have hfinish := ((hinv.procs tx proc hproc).owns id (howner id hown)).1
      rw [hfinish] at hback
      cases hback
    · cases hevent

namespace LastAdmin

def admin (name : String) : UserRow :=
  ⟨text name, text "1$pw", true, false, none, none⟩

/-- Two administrators. -/
def pair : Nat → Option UserRow
  | 0 => some (admin "ann")
  | 1 => some (admin "bob")
  | _ => none

theorem pair_below : ∀ id, pair id ≠ none → id < 2 := by
  intro id hsome
  match id with
  | 0 | 1 => decide
  | _ + 2 => exact absurd rfl hsome

/-- Both are demoted at once: the second transaction waits for the lock, and
is refused once the first has committed. -/
def demotions : List (WorldEvent AdminProcess Nat) :=
  [.spawn ⟨.setAdmin 0 false, .begin⟩, .spawn ⟨.setAdmin 1 false, .begin⟩] ++
    [0, 1, 0, 0, 0, 0, 0, 0, 1, 1].map .advance

end LastAdmin

open LastAdmin in
/-- After two overlapping demotions one administrator is left and the other
call is about to be refused. -/
theorem always_usable_administrator_demotions :
    ∃ world next, replayGuarded (adminWorldStep saltedHasher)
        (fun _ _ => True) ⟨.start pair 2 pair_below, []⟩ demotions =
          some world ∧
      adminWorldStep saltedHasher world (.advance 1) = some next ∧
      next.procs[1]? = some ⟨.setAdmin 1 false,
        .raised (.lastAdmin "demote")⟩ ∧
      (∃ id user, world.shared.store.committed id = some user ∧
        user.isAdmin = true ∧ user.disabledAt = none ∧
        user.isService = false) ∧
      next.shared.store.committed = world.shared.store.committed := by
  refine ⟨_, _, rfl, rfl, rfl, ?_⟩
  obtain ⟨hadmin, hrefused⟩ := always_usable_administrator saltedHasher pair 2
    pair_below ⟨0, admin "ann", rfl, rfl⟩
    (GuardedReach.of_replay demotions rfl)
  exact ⟨hadmin, (hrefused 1 _ _ _ _ rfl .refl rfl).1⟩

end Localmail
