/-
The registry of the daemon and the bundles of threads it names, what each
operation does to them, and the steps of the daemon one by one.
-/
import Localmail.DaemonPlan

namespace Localmail

namespace DaemonLoop

/-! ### The registry -/

/-- Every entry names a bundle of its account, and a bundle that was not told to
stop is the one that is named. -/
structure DaemonWorld.Registered (world : DaemonWorld) : Prop where
  held : ∀ id serial, world.registry.lookup id = some serial →
    ∃ bundle, world.bundles[serial]? = some bundle ∧ bundle.accountId = id
  owned : ∀ serial bundle, world.bundles[serial]? = some bundle →
    bundle.stopSet = false →
      world.registry.lookup bundle.accountId = some serial
  working : world.stopEvent = false → ∀ id serial bundle,
    world.registry.lookup id = some serial →
      world.bundles[serial]? = some bundle → bundle.stopSet = false

section Registry

variable {world : DaemonWorld}

theorem getElem?_signal (serial other : Nat) :
    (world.signal serial).bundles[other]? = world.bundles[other]?.map
      fun bundle => if serial = other then { bundle with stopSet := true }
        else bundle := by
  simp only [DaemonWorld.signal, List.getElem?_modify]
  split
  · rfl
  · simp

theorem fingerprint_signal (serial : Nat) :
    (world.signal serial).fingerprint = world.fingerprint := by
  funext id
  unfold DaemonWorld.fingerprint
  have hregistry : (world.signal serial).registry = world.registry := rfl
  rw [hregistry]
  congr 1
  funext other
  rw [getElem?_signal, Option.map_map]
  congr 1
  funext bundle
  simp only [Function.comp_apply]
  split
  · rfl
  · rfl

theorem DaemonWorld.Registered.lt (h : world.Registered) {id serial : Nat}
    (hlookup : world.registry.lookup id = some serial) :
    serial < world.bundles.length := by
  obtain ⟨bundle, hbundle, -⟩ := h.held id serial hlookup
  exact (List.getElem?_eq_some_iff.mp hbundle).1

/-- Tearing an account down touches the threads only. -/
theorem teardown_eq (accountId : Nat) :
    world.teardown accountId =
      { world with
        bundles := (world.teardown accountId).bundles
        registry := (world.teardown accountId).registry } := by
  unfold DaemonWorld.teardown
  split
  · rfl
  · rfl

theorem fingerprint_teardown (accountId : Nat) :
    (world.teardown accountId).fingerprint =
      Function.update world.fingerprint accountId none := by
  funext id
  unfold DaemonWorld.teardown
  cases hlookup : world.registry.lookup accountId with
  | none =>
      by_cases hsame : id = accountId
      · subst hsame
        simp [DaemonWorld.fingerprint, hlookup]
      · simp [hsame]
  | some serial =>
      by_cases hsame : id = accountId
      · subst hsame
        simp [DaemonWorld.fingerprint]
      · have hsignal :
            (world.signal serial).fingerprint id = world.fingerprint id :=
          congrFun (fingerprint_signal serial) id
        rw [Function.update_of_ne hsame, ← hsignal]
        unfold DaemonWorld.fingerprint
        dsimp only
        rw [AList.lookup_erase_ne hsame]
        rfl

theorem fingerprint_spawn (h : world.Registered) (row : SyncableRow) :
    (world.spawn row).fingerprint =
      Function.update world.fingerprint row.id (some row.updatedAt) := by
  funext id
  unfold DaemonWorld.fingerprint DaemonWorld.spawn
  by_cases hsame : id = row.id
  · subst hsame
    simp
  · rw [Function.update_of_ne hsame, AList.lookup_insert_ne hsame]
    cases hlookup : world.registry.lookup id with
    | none => rfl
    | some serial =>
        simp only [Option.bind_some]
        rw [List.getElem?_append_left (h.lt hlookup)]

/-- The reconcile's steps are steps on the fingerprints. -/
theorem fingerprint_operate (h : world.Registered) (op : RegistryOp) :
    (world.operate op).fingerprint = op.run world.fingerprint := by
  cases op with
  | teardown accountId => exact fingerprint_teardown accountId
  | spawn row => exact fingerprint_spawn h row

theorem fingerprint_eq_none (h : world.Registered) {id : Nat} :
    world.fingerprint id = none ↔ world.registry.lookup id = none := by
  unfold DaemonWorld.fingerprint
  cases hlookup : world.registry.lookup id with
  | none => simp
  | some serial =>
      obtain ⟨bundle, hbundle, -⟩ := h.held id serial hlookup
      simp [hbundle]

theorem lookup_runningFingerprints (id : Nat) :
    world.runningFingerprints.lookup id = world.fingerprint id := by
  have hkeys (ids : List Nat) :
      (ids.foldr (fun id running =>
        (world.fingerprint id).elim running (running.insert id))
          (∅ : Fingerprints)).lookup id =
      if id ∈ ids then world.fingerprint id else none := by
    induction ids with
    | nil => rfl
    | cons first rest ih =>
        rw [List.foldr_cons]
        by_cases hsame : id = first
        · subst hsame
          cases hfirst : world.fingerprint id with
          | none => simp [ih, hfirst]
          | some updatedAt => simp [AList.lookup_insert]
        · cases hfirst : world.fingerprint first with
          | none => simp [ih, hsame]
          | some updatedAt => simp [AList.lookup_insert_ne hsame, ih, hsame]
  rw [DaemonWorld.runningFingerprints, hkeys]
  split
  · rfl
  · have hnone := AList.lookup_eq_none.mpr (mt AList.mem_keys.mp ‹_›)
    simp [DaemonWorld.fingerprint, hnone]

theorem DaemonWorld.Registered.signal (h : world.Registered) (hstop : world.stopEvent)
    (serial : Nat) : (world.signal serial).Registered := by
  refine ⟨fun id other hlookup => ?_, fun other bundle hbundle hset => ?_,
    fun hrunning => ?_⟩
  · obtain ⟨bundle, hbundle, hid⟩ := h.held id other hlookup
    rw [getElem?_signal, hbundle]
    refine ⟨_, rfl, ?_⟩
    split
    · exact hid
    · exact hid
  · rw [getElem?_signal] at hbundle
    obtain ⟨before, hbefore, rfl⟩ := Option.map_eq_some_iff.mp hbundle
    split at hset
    · cases hset
    · rw [if_neg ‹_›]
      exact h.owned other before hbefore hset
  · exact absurd (show world.stopEvent = false from hrunning) (by simp [hstop])

theorem DaemonWorld.Registered.teardown (h : world.Registered)
    (accountId : Nat) : (world.teardown accountId).Registered := by
  unfold DaemonWorld.teardown
  cases hgone : world.registry.lookup accountId with
  | none => exact h
  | some gone =>
      have hother {id serial : Nat}
          (hlookup : (world.registry.erase accountId).lookup id = some serial) :
          id ≠ accountId ∧ world.registry.lookup id = some serial := by
        by_cases hsame : id = accountId
        · subst hsame
          simp at hlookup
        · rw [AList.lookup_erase_ne hsame] at hlookup
          exact ⟨hsame, hlookup⟩
      refine ⟨fun id serial hlookup => ?_, fun serial bundle hbundle hset => ?_,
        fun hrunning id serial bundle hlookup hbundle => ?_⟩
      · obtain ⟨bundle, hbundle, hid⟩ := h.held id serial (hother hlookup).2
        refine ⟨_, (getElem?_signal gone serial).trans
          (congrArg (Option.map _) hbundle), ?_⟩
        split
        · exact hid
        · exact hid
      · obtain ⟨before, hbefore, rfl⟩ := Option.map_eq_some_iff.mp
          ((getElem?_signal gone serial).symm.trans hbundle)
        split at hset
        · cases hset
        · rw [if_neg ‹_›]
          have howned := h.owned serial before hbefore hset
          have hne : before.accountId ≠ accountId := by
            rintro hsame
            rw [hsame, hgone, Option.some.injEq] at howned
            contradiction
          exact (AList.lookup_erase_ne hne).trans howned
      · obtain ⟨before, hbefore, rfl⟩ := Option.map_eq_some_iff.mp
          ((getElem?_signal gone serial).symm.trans hbundle)
        obtain ⟨hne, hlookup⟩ := hother hlookup
        have hdiffer : gone ≠ serial := by
          rintro rfl
          obtain ⟨first, hfirst, hid⟩ := h.held id gone hlookup
          obtain ⟨second, hsecond, hother⟩ := h.held accountId gone hgone
          rw [hfirst, Option.some.injEq] at hsecond
          exact hne (hid.symm.trans ((congrArg _ hsecond).trans hother))
        rw [if_neg hdiffer]
        exact h.working hrunning id serial before hlookup hbefore

theorem DaemonWorld.Registered.spawn (h : world.Registered) (row : SyncableRow)
    (hnone : world.registry.lookup row.id = none) :
    (world.spawn row).Registered := by
  unfold DaemonWorld.spawn
  have hbundles {serial : Nat} {bundle : AccountThreads}
      (hbundle : (world.bundles ++ [⟨row.id, row.updatedAt, false⟩])[serial]? =
        some bundle) :
      world.bundles[serial]? = some bundle ∨
        serial = world.bundles.length ∧
          bundle = ⟨row.id, row.updatedAt, false⟩ := by
    rw [List.getElem?_append] at hbundle
    split at hbundle
    · exact .inl hbundle
    · rw [List.getElem?_singleton] at hbundle
      split at hbundle
      · exact .inr ⟨by omega, (Option.some.inj hbundle).symm⟩
      · cases hbundle
  refine ⟨fun id serial hlookup => ?_, fun serial bundle hbundle hset => ?_,
    fun hrunning id serial bundle hlookup hbundle => ?_⟩
  · by_cases hsame : id = row.id
    · subst hsame
      rw [AList.lookup_insert, Option.some.injEq] at hlookup
      subst hlookup
      exact ⟨⟨row.id, row.updatedAt, false⟩, by simp, rfl⟩
    · rw [AList.lookup_insert_ne hsame] at hlookup
      obtain ⟨bundle, hbundle, hid⟩ := h.held id serial hlookup
      refine ⟨bundle, ?_, hid⟩
      exact (List.getElem?_append_left (h.lt hlookup)).trans hbundle
  · obtain hold | ⟨rfl, rfl⟩ := hbundles hbundle
    · have howned := h.owned serial bundle hold hset
      have hne : bundle.accountId ≠ row.id := by
        intro hsame
        rw [hsame, hnone] at howned
        cases howned
      exact (AList.lookup_insert_ne hne).trans howned
    · exact AList.lookup_insert _
  · obtain hold | ⟨rfl, rfl⟩ := hbundles hbundle
    · by_cases hsame : id = row.id
      · subst hsame
        rw [AList.lookup_insert, Option.some.injEq] at hlookup
        subst hlookup
        have := (List.getElem?_eq_some_iff.mp hold).1
        omega
      · rw [AList.lookup_insert_ne hsame] at hlookup
        exact h.working hrunning id serial bundle hlookup hold
    · rfl

end Registry

/-! ### The steps -/

section Turn

variable (settings : DaemonSettings) (world : DaemonWorld)

/-- Where a drain may fail, with what it had carried out. -/
def DaemonPoint.drained : DaemonPoint → List Mark → Prop
  | .claiming, marks => marks = []
  | .draining _ marks, done => done = marks
  | _, _ => False

/-- What a step does, by where the main thread is. -/
inductive DaemonTurn : DaemonEvent → DaemonWorld → Prop
  | setAccounts {rows} (distinct : (rows.map SyncableRow.id).Nodup) :
      DaemonTurn (.setAccounts rows) { world with syncable := rows }
  | deleteAccount {accountId}
      (locked : ∀ row ∈ world.commands,
        row.command.accountId? = some accountId → row.id ∈ world.locked) :
      DaemonTurn (.deleteAccount accountId) { world with
        syncable := world.syncable.filter fun row => row.id ≠ accountId
        commands := world.commands.filter fun row =>
          row.command.accountId? ≠ some accountId
        locked := world.locked.filter fun id => ∃ row ∈ world.commands,
          row.id = id ∧ row.command.accountId? ≠ some accountId }
  | enqueue {requestedAt command} :
      DaemonTurn (.enqueue requestedAt command) { world with
        pending := world.pending ++
          [⟨world.nextCommandId, requestedAt, command, .queued, none⟩]
        nextCommandId := world.nextCommandId + 1 }
  | publish {commandId} :
      DaemonTurn (.publish commandId) { world with
        commands := world.commands ++
          world.pending.filter fun row => row.id = commandId
        pending := world.pending.filter fun row => row.id ≠ commandId }
  | abandon {commandId} :
      DaemonTurn (.abandon commandId) { world with
        pending := world.pending.filter fun row => row.id ≠ commandId }
  | lock {commandIds}
      (free : ∀ row ∈ world.point.claimed, row.id ∉ commandIds) :
      DaemonTurn (.lock commandIds)
        { world with locked := world.locked ++ commandIds }
  | unlock {commandIds} :
      DaemonTurn (.unlock commandIds)
        { world with locked := world.locked.diff commandIds }
  | requestStop : DaemonTurn .requestStop { world with stopEvent := true }
  | signalBundle {serial} (stop : world.stopEvent = true) :
      DaemonTurn (.signalBundle serial) (world.signal serial)
  | start {row rest} (point : world.point = .starting (row :: rest)) :
      DaemonTurn (.operate true)
        { world.spawn row with point := .starting rest }
  | crash {todo} (point : world.point = .starting todo) :
      DaemonTurn (.operate false) { world with point := .crashed }
  | halfStart {row rest} (point : world.point = .starting (row :: rest)) :
      DaemonTurn .halfSpawn
        { world with strays := row.id :: world.strays, point := .crashed }
  | started (point : world.point = .starting []) :
      DaemonTurn .settle { world with point := .waiting }
  | leave (point : world.point = .waiting) (stop : world.stopEvent = true) :
      DaemonTurn .wake { world with point := .leaving }
  | wake (point : world.point = .waiting) (stop : world.stopEvent = false) :
      DaemonTurn .wake { world with
        point := .claiming
        claimQueue := []
        claimLocked := []
        settled := none
        restarted := []
        tickStart := world.bundles.length }
  | claim (point : world.point = .claiming) :
      DaemonTurn (.claim true) { world with
        point := .draining (claimCommands world.commands world.locked) []
        claimQueue := queuedCommands world.commands
        claimLocked := world.locked }
  | apply {row rest marks raised}
      (point : world.point = .draining (row :: rest) marks) :
      DaemonTurn (.apply raised) { world.applyCommand row.command with
        point := .draining rest (marks ++ [markOf row raised]) }
  | commit {marks} (point : world.point = .draining [] marks) :
      DaemonTurn (.commit true) { world with
        commands := world.commands.map (CommandRow.marked marks)
        point := afterDrain world
        drains := world.drains ++ [drainOf world marks true] }
  | rollBack {event marks} (drained : world.point.drained marks)
      (keeps : event = .claim false ∨ event = .markFails ∨
        event = .commit false) :
      DaemonTurn event (rollBack world marks)
  | readFails (point : world.point = .reading) :
      DaemonTurn (.readAccounts false) { world with point := .waiting }
  | read (point : world.point = .reading) :
      DaemonTurn (.readAccounts true) (reconcileWith world world.syncable)
  | operate {op rest rows} (point : world.point = .applying (op :: rest) rows) :
      DaemonTurn (.operate true)
        { world.operate op with point := .applying rest rows }
  | operateFails {op rest rows}
      (point : world.point = .applying (op :: rest) rows) :
      DaemonTurn (.operate false) { world with point := .leaving }
  | halfSpawn {row rest rows}
      (point : world.point = .applying (.spawn row :: rest) rows) :
      DaemonTurn .halfSpawn
        { world with strays := row.id :: world.strays, point := .leaving }
  | settle {rows} (point : world.point = .applying [] rows) :
      DaemonTurn .settle { world.resizePool settings with
        point := .waiting, settled := some rows }
  | shutDown (point : world.point = .leaving) :
      DaemonTurn .shutDown { world with
        bundles := world.bundles.mapIdx fun serial bundle =>
          if world.registry.lookup bundle.accountId = some serial then
            { bundle with stopSet := true }
          else bundle
        registry := ∅
        stopEvent := true
        point := .stopped }

variable {settings world}

theorem DaemonTurn.of_advance {event : DaemonEvent} {next : DaemonWorld}
    (hstep : advanceDaemon settings world world.point event = some next) :
    DaemonTurn settings world event next := by
  unfold advanceDaemon at hstep
  split at hstep
  case h_1 works hpoint =>
      cases works with
      | true => cases hstep; exact .start hpoint
      | false => cases hstep; exact .crash hpoint
  case h_2 hpoint =>
      cases hstep
      exact .halfStart hpoint
  case h_3 hpoint =>
      cases hstep
      exact .started hpoint
  case h_4 hpoint =>
      cases hstep
      exact .crash hpoint
  case h_5 hpoint =>
      split at hstep
      · cases hstep
        exact .leave hpoint ‹_›
      · rename_i hrunning
        cases hstep
        exact .wake hpoint (by simpa using hrunning)
  case h_6 works hpoint =>
      cases works with
      | true => cases hstep; exact .claim hpoint
      | false =>
          cases hstep
          exact .rollBack (by rw [hpoint]; rfl) (.inl rfl)
  case h_7 hpoint =>
      cases hstep
      exact .apply hpoint
  case h_8 hpoint =>
      cases hstep
      exact .rollBack (by rw [hpoint]; rfl) (.inr (.inl rfl))
  case h_9 durable hpoint =>
      cases durable with
      | true => cases hstep; exact .commit hpoint
      | false =>
          cases hstep
          exact .rollBack (by rw [hpoint]; rfl) (.inr (.inr rfl))
  case h_10 works hpoint =>
      cases works with
      | true => cases hstep; exact .read hpoint
      | false => cases hstep; exact .readFails hpoint
  case h_11 works hpoint =>
      cases works with
      | true => cases hstep; exact .operate hpoint
      | false => cases hstep; exact .operateFails hpoint
  case h_12 hpoint =>
      cases hstep
      exact .halfSpawn hpoint
  case h_13 hpoint =>
      cases hstep
      exact .settle hpoint
  case h_14 hpoint =>
      cases hstep
      exact .shutDown hpoint
  case h_15 => cases hstep

theorem DaemonTurn.of_step {event : DaemonEvent} {next : DaemonWorld}
    (hstep : daemonStep settings world event = some next) :
    DaemonTurn settings world event next := by
  unfold daemonStep at hstep
  split at hstep
  · split at hstep
    · cases hstep
      exact .setAccounts ‹_›
    · cases hstep
  · split at hstep
    · rename_i hheld
      cases hstep
      exact .deleteAccount hheld.1
    · cases hstep
  · cases hstep
    exact .enqueue
  · cases hstep
    exact .publish
  · cases hstep
    exact .abandon
  · split at hstep
    · rename_i hfree
      cases hstep
      exact .lock hfree.2
    · cases hstep
  · cases hstep
    exact .unlock
  · cases hstep
    exact .requestStop
  · split at hstep
    · cases hstep
      exact .signalBundle ‹_›
    · cases hstep
  · exact .of_advance hstep

end Turn

end DaemonLoop

end Localmail
