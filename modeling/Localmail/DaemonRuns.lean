/-
What every run of the daemon keeps.  At most one bundle of threads of an account
was not told to stop, and a tick that gets to its end runs exactly the accounts
it has read.
-/
import Localmail.DaemonRegistry

namespace Localmail

namespace DaemonLoop

/-! ### The invariant -/

def updatedAtOf (rows : List SyncableRow) (id : Nat) : Option Int :=
  (rows.find? fun row => row.id = id).map SyncableRow.updatedAt

/-- What runs is what the rows ask for. -/
def DaemonWorld.Runs (world : DaemonWorld) (rows : List SyncableRow) : Prop :=
  ∀ id, world.fingerprint id = updatedAtOf rows id

section Invariant

variable (settings : DaemonSettings) (world : DaemonWorld)

/-- What holds besides while the main thread is at a point. -/
def PointInv : DaemonPoint → Prop
  | .starting todo =>
      world.settled = none ∧ (todo.map SyncableRow.id).Nodup ∧
        (∀ row ∈ todo, world.registry.lookup row.id = none) ∧
        poolSize settings (world.registry.keys.length + todo.length) ≤
          world.poolMax
  | .waiting =>
      poolSize settings world.registry.keys.length ≤ world.poolMax ∧
        ∀ rows, world.settled = some rows → world.Runs rows
  | .claiming =>
      poolSize settings world.registry.keys.length ≤ world.poolMax ∧
        world.settled = none ∧ world.tickStart = world.bundles.length
  | .draining _ _ | .reading =>
      poolSize settings world.registry.keys.length ≤ world.poolMax ∧
        world.settled = none
  | .applying todo rows =>
      world.settled = none ∧ opsFresh todo world.fingerprint ∧
        ∀ id, runOps todo world.fingerprint id = updatedAtOf rows id
  | .stopped => ∀ bundle ∈ world.bundles, bundle.stopSet
  | .leaving | .crashed => True

structure DaemonInv : Prop where
  registered : world.Registered
  distinct : (world.syncable.map SyncableRow.id).Nodup
  pinned : ∀ size, settings.poolMaxSize = some size → world.poolMax = size
  tick : world.tickStart ≤ world.bundles.length
  restarted : ∀ id ∈ world.restarted, ∀ serial,
    world.registry.lookup id = some serial → world.tickStart ≤ serial
  point : PointInv settings world world.point

variable {settings world}

theorem poolSize_mono {fewer more : Nat} (hle : fewer ≤ more) :
    poolSize settings fewer ≤ poolSize settings more := by
  unfold poolSize computeDaemonPoolSize slotsPerAccount
  cases settings.poolMaxSize with
  | none => simp only [Option.getD_none]; omega
  | some size => exact Nat.le_refl _

theorem length_keys_teardown (accountId : Nat) :
    (world.teardown accountId).registry.keys.length ≤
      world.registry.keys.length := by
  unfold DaemonWorld.teardown
  split
  · exact Nat.le_refl _
  · rw [AList.keys_erase]
    exact List.length_erase_le

theorem length_keys_spawn (row : SyncableRow) :
    (world.spawn row).registry.keys.length ≤
      world.registry.keys.length + 1 := by
  unfold DaemonWorld.spawn
  rw [AList.keys_insert, List.length_cons]
  exact Nat.succ_le_succ List.length_erase_le

theorem PointInv.signal {point : DaemonPoint} (h : PointInv settings world point)
    (serial : Nat) : PointInv settings (world.signal serial) point := by
  cases point with
  | starting todo => exact h
  | waiting =>
      refine ⟨h.1, fun rows hsettled id => ?_⟩
      rw [fingerprint_signal]
      exact h.2 rows hsettled id
  | claiming =>
      refine ⟨h.1, h.2.1, h.2.2.trans ?_⟩
      exact (List.length_modify _ _ _).symm
  | draining todo marks => exact h
  | reading => exact h
  | applying todo rows =>
      unfold PointInv
      rw [fingerprint_signal]
      exact h
  | leaving => trivial
  | stopped =>
      intro bundle hbundle
      obtain ⟨other, hother⟩ := List.mem_iff_getElem?.mp hbundle
      obtain ⟨before, hbefore, rfl⟩ := Option.map_eq_some_iff.mp
        ((getElem?_signal serial other).symm.trans hother)
      split
      · rfl
      · exact h before (List.mem_of_getElem? hbefore)
  | crashed => trivial

theorem PointInv.afterDrain
    (hpool : poolSize settings world.registry.keys.length ≤ world.poolMax)
    (hsettled : world.settled = none) :
    PointInv settings world (afterDrain world) := by
  unfold DaemonLoop.afterDrain
  split
  · refine ⟨hpool, fun rows hrows => ?_⟩
    rw [hsettled] at hrows
    cases hrows
  · exact ⟨hpool, hsettled⟩

/-- A drain may fail at any time: what it did to the registry stays. -/
theorem DaemonInv.rollBack (h : DaemonInv settings world) {marks : List Mark}
    (hdrained : world.point.drained marks) :
    DaemonInv settings (rollBack world marks) := by
  have hpoint := h.point
  refine ⟨⟨h.registered.held, h.registered.owned, h.registered.working⟩,
    h.distinct, h.pinned, h.tick, h.restarted, ?_⟩
  show PointInv settings (DaemonLoop.rollBack world marks)
    (DaemonLoop.afterDrain (DaemonLoop.rollBack world marks))
  apply PointInv.afterDrain
  · cases hat : world.point with
    | claiming => rw [hat] at hpoint; exact hpoint.1
    | draining todo done => rw [hat] at hpoint; exact hpoint.1
    | _ => rw [hat] at hdrained; exact hdrained.elim
  · cases hat : world.point with
    | claiming => rw [hat] at hpoint; exact hpoint.2.1
    | draining todo done => rw [hat] at hpoint; exact hpoint.2
    | _ => rw [hat] at hdrained; exact hdrained.elim

theorem planOps_of_isEmpty {plan : ReconcilePlan} (hempty : plan.isEmpty)
    (rows : List SyncableRow) : planOps plan rows = [] := by
  simp only [ReconcilePlan.isEmpty, decide_eq_true_eq] at hempty
  obtain ⟨hspawn, hteardown, hrespawn⟩ := hempty
  simp [planOps, hspawn, hteardown, hrespawn]

/-- What is read is what the registry is brought in line with. -/
theorem DaemonInv.reconcileWith (h : DaemonInv settings world)
    (hpoint : world.point = .reading) :
    DaemonInv settings (reconcileWith world world.syncable) := by
  have hat := h.point
  rw [hpoint] at hat
  have hrunning : (fun id => world.runningFingerprints.lookup id) =
      world.fingerprint := funext lookup_runningFingerprints
  have hruns := @runOps_planOps world.runningFingerprints _ h.distinct
  have hfresh := @opsFresh_planOps world.runningFingerprints _ h.distinct
  rw [hrunning] at hruns hfresh
  simp only [lookup_desiredFingerprints h.distinct] at hruns
  unfold DaemonLoop.reconcileWith
  dsimp only
  split
  · rename_i hempty
    rw [planOps_of_isEmpty hempty] at hruns
    refine ⟨⟨h.registered.held, h.registered.owned, h.registered.working⟩,
      h.distinct, h.pinned, h.tick, h.restarted, hat.1, fun rows hrows => ?_⟩
    cases hrows
    exact hruns
  · exact ⟨⟨h.registered.held, h.registered.owned, h.registered.working⟩,
      h.distinct, h.pinned, h.tick, h.restarted, hat.2, hfresh, hruns⟩

theorem DaemonInv.spawn (h : DaemonInv settings world) (row : SyncableRow)
    (hnone : world.registry.lookup row.id = none) {point : DaemonPoint}
    (hpoint : PointInv settings (world.spawn row) point) :
    DaemonInv settings { world.spawn row with point := point } := by
  have hregistered := h.registered.spawn row hnone
  refine ⟨⟨hregistered.held, hregistered.owned, hregistered.working⟩,
    h.distinct, h.pinned, ?_, fun id hid serial hlookup => ?_, hpoint⟩
  · refine Nat.le_trans h.tick ?_
    simp [DaemonWorld.spawn]
  · by_cases hsame : id = row.id
    · subst hsame
      have hnew := (AList.lookup_insert world.registry).symm.trans hlookup
      cases hnew
      exact h.tick
    · exact h.restarted id hid serial
        ((AList.lookup_insert_ne hsame).symm.trans hlookup)

theorem lookup_teardown {accountId id serial : Nat}
    (hlookup : (world.teardown accountId).registry.lookup id = some serial) :
    id ≠ accountId ∧ world.registry.lookup id = some serial := by
  unfold DaemonWorld.teardown at hlookup
  split at hlookup
  · rename_i hnone
    refine ⟨?_, hlookup⟩
    rintro rfl
    rw [hnone] at hlookup
    cases hlookup
  · by_cases hsame : id = accountId
    · subst hsame
      simp at hlookup
    · exact ⟨hsame, (AList.lookup_erase_ne hsame).symm.trans hlookup⟩

theorem teardown_same (accountId : Nat) :
    (world.teardown accountId).syncable = world.syncable ∧
      (world.teardown accountId).poolMax = world.poolMax ∧
      (world.teardown accountId).tickStart = world.tickStart ∧
      (world.teardown accountId).restarted = world.restarted ∧
      (world.teardown accountId).settled = world.settled ∧
      (world.teardown accountId).bundles.length = world.bundles.length := by
  have hlength : (world.teardown accountId).bundles.length =
      world.bundles.length := by
    unfold DaemonWorld.teardown
    split
    · rfl
    · exact List.length_modify _ _ _
  rw [teardown_eq]
  exact ⟨rfl, rfl, rfl, rfl, rfl, hlength⟩

/-- Tearing an account down, for a restart or because it is to go. -/
theorem DaemonInv.teardown (h : DaemonInv settings world) (accountId : Nat)
    {point : DaemonPoint} {restarted : List Nat}
    (hrestarted : restarted ⊆ accountId :: world.restarted)
    (hpoint : PointInv settings (world.teardown accountId) point) :
    DaemonInv settings { world.teardown accountId with
      point := point, restarted := restarted } := by
  have hregistered := h.registered.teardown accountId
  obtain ⟨hsyncable, hpool, htick, -, -, hlength⟩ :=
    @teardown_same world accountId
  refine ⟨⟨hregistered.held, hregistered.owned, hregistered.working⟩,
    ?_, ?_, ?_, fun id hid serial hlookup => ?_, ?_⟩
  · exact hsyncable ▸ h.distinct
  · exact hpool ▸ h.pinned
  · show (world.teardown accountId).tickStart ≤
      (world.teardown accountId).bundles.length
    rw [htick, hlength]
    exact h.tick
  · obtain ⟨hne, hbefore⟩ := lookup_teardown hlookup
    show (world.teardown accountId).tickStart ≤ serial
    rw [htick]
    have hmem := (List.mem_cons.mp (hrestarted hid)).resolve_left hne
    exact h.restarted id hmem serial hbefore
  · exact hpoint

/-- The main thread goes on, and nothing else changes. -/
theorem DaemonInv.moveTo (h : DaemonInv settings world) {point : DaemonPoint}
    (hpoint : PointInv settings world point) :
    DaemonInv settings { world with point := point } :=
  ⟨⟨h.registered.held, h.registered.owned, h.registered.working⟩, h.distinct,
    h.pinned, h.tick, h.restarted, hpoint⟩

theorem DaemonInv.apply (h : DaemonInv settings world) {row : CommandRow}
    {rest todo : List CommandRow} {marks done : List Mark}
    (hpoint : world.point = .draining todo marks) :
    DaemonInv settings { world.applyCommand row.command with
      point := .draining rest done } := by
  have hat := h.point
  rw [hpoint] at hat
  cases hcommand : row.command with
  | reloadNow => exact h.moveTo hat
  | drainStop =>
      refine ⟨⟨h.registered.held, h.registered.owned, fun hrunning => ?_⟩,
        h.distinct, h.pinned, h.tick, h.restarted, hat⟩
      cases hrunning
  | restartAccount accountId =>
      obtain ⟨-, hpool, -, -, hsettled, -⟩ := @teardown_same world accountId
      refine h.teardown accountId (List.Subset.refl _)
        ⟨?_, hsettled.trans hat.2⟩
      refine Nat.le_trans (poolSize_mono (length_keys_teardown accountId)) ?_
      rw [hpool]
      exact hat.1

theorem DaemonInv.operate (h : DaemonInv settings world) {op : RegistryOp}
    {rest : List RegistryOp} {rows : List SyncableRow}
    (hpoint : world.point = .applying (op :: rest) rows) :
    DaemonInv settings
      { world.operate op with point := .applying rest rows } := by
  have hat := h.point
  rw [hpoint] at hat
  obtain ⟨hsettled, hfresh, hruns⟩ := hat
  have hafter := fingerprint_operate h.registered op
  cases op with
  | teardown accountId =>
      obtain ⟨-, -, -, hrestarted, hsame, -⟩ := @teardown_same world accountId
      refine h.teardown accountId ?_ ⟨hsame.trans hsettled, ?_, ?_⟩
      · exact hrestarted ▸ List.subset_cons_self _ _
      · exact hafter ▸ hfresh
      · exact hafter ▸ hruns
  | spawn row =>
      have hnone := (fingerprint_eq_none h.registered).mp hfresh.1
      refine h.spawn row hnone ⟨hsettled, ?_, ?_⟩
      · exact hafter ▸ hfresh.2
      · exact hafter ▸ hruns

theorem DaemonInv.settle (h : DaemonInv settings world)
    {rows : List SyncableRow} (hpoint : world.point = .applying [] rows) :
    DaemonInv settings { world.resizePool settings with
      point := .waiting, settled := some rows } := by
  have hat := h.point
  rw [hpoint] at hat
  have hruns : ∀ asked, some rows = some asked → world.Runs asked := by
    rintro asked hasked
    cases hasked
    exact hat.2.2
  unfold DaemonWorld.resizePool
  split
  · rename_i hpinned
    obtain ⟨size, hsize⟩ := Option.isSome_iff_exists.mp hpinned
    refine ⟨⟨h.registered.held, h.registered.owned, h.registered.working⟩,
      h.distinct, h.pinned, h.tick, h.restarted, ?_, hruns⟩
    show poolSize settings world.registry.keys.length ≤ world.poolMax
    rw [h.pinned size hsize, poolSize, hsize, Option.getD_some]
  · refine ⟨⟨h.registered.held, h.registered.owned, h.registered.working⟩,
      h.distinct, fun size hsize => ?_, h.tick, h.restarted, Nat.le_refl _,
      hruns⟩
    exact absurd (Option.isSome_of_eq_some hsize) ‹_›

theorem DaemonInv.shutDown (h : DaemonInv settings world) :
    DaemonInv settings { world with
      bundles := world.bundles.mapIdx fun serial bundle =>
        if world.registry.lookup bundle.accountId = some serial then
          { bundle with stopSet := true }
        else bundle
      registry := ∅
      stopEvent := true
      point := .stopped } := by
  have hstopped : ∀ bundle ∈ world.bundles.mapIdx fun serial bundle =>
      if world.registry.lookup bundle.accountId = some serial then
        { bundle with stopSet := true }
      else bundle, bundle.stopSet := by
    intro bundle hbundle
    obtain ⟨serial, hlt, rfl⟩ := List.mem_mapIdx.mp hbundle
    split
    · rfl
    · by_contra hset
      have howned := h.registered.owned serial world.bundles[serial]
        (List.getElem?_eq_getElem hlt) (by simpa using hset)
      contradiction
  refine ⟨⟨fun id serial hlookup => ?_, fun serial bundle hbundle hset => ?_,
    fun hrunning => ?_⟩, h.distinct, h.pinned, ?_, fun id _ serial hlookup => ?_,
    hstopped⟩
  · cases hlookup
  · have := hstopped bundle (List.mem_of_getElem? hbundle)
    rw [hset] at this
    cases this
  · cases hrunning
  · exact h.tick.trans_eq List.length_mapIdx.symm
  · cases hlookup

/-- The step lemma. -/
theorem DaemonInv.step (h : DaemonInv settings world) {event : DaemonEvent}
    {next : DaemonWorld} (hturn : DaemonTurn settings world event next) :
    DaemonInv settings next := by
  have hat := h.point
  have hregistered := h.registered
  cases hturn with
  | setAccounts hdistinct =>
      exact ⟨⟨hregistered.held, hregistered.owned, hregistered.working⟩,
        hdistinct, h.pinned, h.tick, h.restarted, hat⟩
  | deleteAccount =>
      refine ⟨⟨hregistered.held, hregistered.owned, hregistered.working⟩,
        ?_, h.pinned, h.tick, h.restarted, hat⟩
      exact h.distinct.sublist (List.filter_sublist.map SyncableRow.id)
  | enqueue | publish | abandon | lock | unlock =>
      exact ⟨⟨hregistered.held, hregistered.owned, hregistered.working⟩,
        h.distinct, h.pinned, h.tick, h.restarted, hat⟩
  | requestStop =>
      refine ⟨⟨hregistered.held, hregistered.owned, fun hrunning => ?_⟩,
        h.distinct, h.pinned, h.tick, h.restarted, hat⟩
      cases hrunning
  | @signalBundle serial hstop =>
      refine ⟨hregistered.signal hstop serial, h.distinct, h.pinned, ?_,
        h.restarted, hat.signal serial⟩
      exact h.tick.trans_eq (List.length_modify _ _ _).symm
  | @start row rest hpoint =>
      rw [hpoint] at hat
      obtain ⟨hsettled, hnodup, hnone, hpool⟩ := hat
      rw [List.map_cons, List.nodup_cons] at hnodup
      have hrow := hnone row List.mem_cons_self
      refine h.spawn row hrow ⟨hsettled, hnodup.2, fun later hlater => ?_, ?_⟩
      · have hne : later.id ≠ row.id := fun hsame =>
          hnodup.1 (hsame ▸ List.mem_map_of_mem hlater)
        exact (AList.lookup_insert_ne hne).trans
          (hnone later (List.mem_cons_of_mem row hlater))
      · refine Nat.le_trans (poolSize_mono ?_) hpool
        have := @length_keys_spawn world row
        simp only [List.length_cons]
        omega
  | crash hpoint => exact h.moveTo trivial
  | halfStart | halfSpawn =>
      exact ⟨⟨hregistered.held, hregistered.owned, hregistered.working⟩,
        h.distinct, h.pinned, h.tick, h.restarted, trivial⟩
  | started hpoint =>
      rw [hpoint] at hat
      refine h.moveTo ⟨hat.2.2.2, fun rows hrows => ?_⟩
      exact absurd (hat.1.symm.trans hrows) (by simp)
  | leave hpoint hstop => exact h.moveTo trivial
  | wake hpoint hstop =>
      rw [hpoint] at hat
      refine ⟨⟨hregistered.held, hregistered.owned, hregistered.working⟩,
        h.distinct, h.pinned, Nat.le_refl _, fun id hid => ?_,
        hat.1, rfl, rfl⟩
      cases hid
  | claim hpoint =>
      rw [hpoint] at hat
      exact ⟨⟨hregistered.held, hregistered.owned, hregistered.working⟩,
        h.distinct, h.pinned, h.tick, h.restarted, hat.1, hat.2.1⟩
  | apply hpoint => exact h.apply hpoint
  | commit hpoint =>
      rw [hpoint] at hat
      exact ⟨⟨hregistered.held, hregistered.owned, hregistered.working⟩,
        h.distinct, h.pinned, h.tick, h.restarted,
        PointInv.afterDrain hat.1 hat.2⟩
  | rollBack hdrained => exact h.rollBack hdrained
  | readFails hpoint =>
      rw [hpoint] at hat
      refine h.moveTo ⟨hat.1, fun rows hrows => ?_⟩
      exact absurd (hat.2.symm.trans hrows) (by simp)
  | read hpoint => exact h.reconcileWith hpoint
  | operate hpoint => exact h.operate hpoint
  | operateFails hpoint => exact h.moveTo trivial
  | settle hpoint => exact h.settle hpoint
  | shutDown hpoint => exact h.shutDown

/-- The run lemma. -/
theorem DaemonInv.reached (start : DaemonStart) {world : DaemonWorld}
    (hrun : Reach (daemonStep settings) (start.world settings) world) :
    DaemonInv settings world := by
  refine hrun.invariant ?_ fun before event after h _ hstep =>
    h.step (.of_step hstep)
  refine ⟨⟨fun id serial hlookup => ?_, fun serial bundle hbundle => ?_,
    fun _ id serial bundle hlookup => ?_⟩, start.distinct, fun size hsize => ?_,
    Nat.le_refl _, fun id hid => ?_, rfl, start.distinct, fun row _ => rfl, ?_⟩
  · cases hlookup
  · cases hbundle
  · cases hlookup
  · show poolSize settings start.rows.length = size
    rw [poolSize, hsize, Option.getD_some]
  · cases hid
  · show poolSize settings (0 + start.rows.length) ≤
      poolSize settings start.rows.length
    rw [Nat.zero_add]

end Invariant

/-! ### Threads without a bundle -/

/-- The daemon is about to end. -/
def DaemonPoint.ends : DaemonPoint → Bool
  | .leaving | .stopped | .crashed => true
  | _ => false

/-- An idle thread without a bundle is the only one, its account has no bundle
that works, and the daemon is about to end. -/
def DaemonWorld.StrayEnds (world : DaemonWorld) : Prop :=
  world.strays = [] ∨ ∃ id, world.strays = [id] ∧
    world.registry.lookup id = none ∧ world.point.ends

section Strays

variable {settings : DaemonSettings} {world next : DaemonWorld}

theorem strays_teardown (accountId : Nat) :
    (world.teardown accountId).strays = world.strays := by
  rw [teardown_eq]

theorem DaemonWorld.StrayEnds.none (h : world.StrayEnds)
    (hgoes : world.point.ends = false) : world.strays = [] := by
  refine h.resolve_right ?_
  rintro ⟨id, -, -, hends⟩
  rw [hgoes] at hends
  cases hends

theorem DaemonWorld.StrayEnds.of_same (h : world.StrayEnds)
    (hstrays : next.strays = world.strays) (hpoint : next.point = world.point)
    (hregistry : next.registry = world.registry) : next.StrayEnds := by
  unfold DaemonWorld.StrayEnds
  rw [hstrays, hpoint, hregistry]
  exact h

/-- A spawn that fails half-way leaves one idle thread, and the daemon ends. -/
theorem DaemonWorld.StrayEnds.step (h : world.StrayEnds)
    (hinv : DaemonInv settings world) {event : DaemonEvent}
    (hturn : DaemonTurn settings world event next) : next.StrayEnds := by
  have hat := hinv.point
  have hgoes : world.point.ends = false → next.strays = world.strays →
      next.StrayEnds := fun hends hsame => .inl (hsame.trans (h.none hends))
  cases hturn with
  | setAccounts | deleteAccount | enqueue | publish | abandon | lock | unlock
  | requestStop | signalBundle => exact h.of_same rfl rfl rfl
  | halfStart hpoint =>
      rw [hpoint] at hat
      refine .inr ⟨_, ?_, hat.2.2.1 _ List.mem_cons_self, rfl⟩
      rw [h.none (by rw [hpoint]; rfl)]
  | halfSpawn hpoint =>
      rw [hpoint] at hat
      refine .inr ⟨_, ?_,
        (fingerprint_eq_none hinv.registered).mp hat.2.1.1, rfl⟩
      rw [h.none (by rw [hpoint]; rfl)]
  | shutDown hpoint =>
      refine h.imp_right ?_
      rintro ⟨id, hstrays, -, -⟩
      exact ⟨id, hstrays, rfl, rfl⟩
  | rollBack hdrained =>
      refine hgoes ?_ rfl
      cases hpoint : world.point with
      | claiming | draining => rfl
      | _ => rw [hpoint] at hdrained; exact hdrained.elim
  | @apply row rest marks raised hpoint =>
      refine hgoes (by rw [hpoint]; rfl) ?_
      cases hcommand : row.command with
      | restartAccount accountId => exact strays_teardown accountId
      | _ => rfl
  | @operate op rest rows hpoint =>
      refine hgoes (by rw [hpoint]; rfl) ?_
      cases op with
      | teardown accountId => exact strays_teardown accountId
      | spawn row => rfl
  | read hpoint =>
      refine hgoes (by rw [hpoint]; rfl) ?_
      unfold DaemonLoop.reconcileWith
      dsimp only
      split
      · rfl
      · rfl
  | settle hpoint =>
      refine hgoes (by rw [hpoint]; rfl) ?_
      unfold DaemonWorld.resizePool
      split
      · rfl
      · rfl
  | start hpoint | crash hpoint | started hpoint | leave hpoint | wake hpoint
  | claim hpoint | commit hpoint | readFails hpoint | operateFails hpoint =>
      exact hgoes (by rw [hpoint]; rfl) rfl

theorem DaemonWorld.StrayEnds.reached (start : DaemonStart)
    (hrun : Reach (daemonStep settings) (start.world settings) world) :
    world.StrayEnds := by
  induction hrun with
  | refl => exact .inl rfl
  | tail hbefore _ hstep ih =>
      exact ih.step (DaemonInv.reached start hbefore) (.of_step hstep)

end Strays

/-! ### What the registry keeps -/

section Results

variable {settings : DaemonSettings} {world : DaemonWorld}

/-- In every run at most one bundle of threads of an account was not told to
stop; while the daemon is not stopping these are the bundles of its registry;
once it has wound down every bundle was told to stop; and an idle thread without
a bundle is there only once the daemon is about to end, one at most, and beside
no bundle of its account that was not told to stop. -/
theorem one_bundle_an_account (start : DaemonStart)
    (hrun : Reach (daemonStep settings) (start.world settings) world) :
    (∀ (serial other : Nat) (bundle twin : AccountThreads),
      world.bundles[serial]? = some bundle →
      world.bundles[other]? = some twin →
      bundle.stopSet = false → twin.stopSet = false →
      bundle.accountId = twin.accountId → serial = other) ∧
    (world.stopEvent = false → ∀ (serial : Nat) (bundle : AccountThreads),
      world.bundles[serial]? = some bundle →
      (bundle.stopSet = false ↔
        world.registry.lookup bundle.accountId = some serial)) ∧
    (world.point = .stopped → ∀ bundle ∈ world.bundles, bundle.stopSet) ∧
    ∀ id ∈ world.strays, world.strays = [id] ∧ world.point.ends ∧
      ∀ bundle ∈ world.bundles, bundle.accountId = id → bundle.stopSet := by
  have h := DaemonInv.reached start hrun
  refine ⟨fun serial other bundle twin hbundle htwin hset hother hsame => ?_,
    fun hrunning serial bundle hbundle => ⟨h.registered.owned serial bundle
      hbundle, fun hlookup => ?_⟩, fun hstopped => ?_, fun id hid => ?_⟩
  · have howned := h.registered.owned serial bundle hbundle hset
    rw [hsame, h.registered.owned other twin htwin hother] at howned
    exact (Option.some.inj howned).symm
  · exact h.registered.working hrunning _ serial bundle hlookup hbundle
  · have hpoint := h.point
    rw [hstopped] at hpoint
    exact hpoint
  · obtain hnone | ⟨only, honly, hlookup, hends⟩ :=
      DaemonWorld.StrayEnds.reached start hrun
    · rw [hnone] at hid
      cases hid
    · rw [honly, List.mem_singleton] at hid
      subst hid
      refine ⟨honly, hends, fun bundle hbundle hsame => ?_⟩
      obtain ⟨serial, hserial⟩ := List.mem_iff_getElem?.mp hbundle
      by_contra hset
      have howned :=
        h.registered.owned serial bundle hserial (by simpa using hset)
      rw [hsame, hlookup] at howned
      cases howned

def twoAccounts : DaemonStart :=
  .quiet [⟨1, 10⟩, ⟨2, 20⟩] (by decide)

def sized : DaemonSettings := ⟨true, false, none⟩

/-- One account goes, one is changed and to be restarted, and one is new. -/
def untilTick : List DaemonEvent :=
  [.operate true, .operate true, .settle, .setAccounts [⟨2, 25⟩, ⟨3, 30⟩],
    .enqueue 5 (.restartAccount 2), .publish 0, .wake]

def restartTick : List DaemonEvent :=
  [.claim true, .apply none, .commit true, .readAccounts true, .operate true,
    .operate true, .operate true, .settle]

theorem one_bundle_an_account_restarted : ∃ world,
    Reach (daemonStep sized) (twoAccounts.world sized) world ∧
    world.bundles = [⟨1, 10, true⟩, ⟨2, 20, true⟩, ⟨2, 25, false⟩,
      ⟨3, 30, false⟩] ∧
    ∀ (serial other : Nat) (bundle twin : AccountThreads),
      world.bundles[serial]? = some bundle →
      world.bundles[other]? = some twin →
      bundle.stopSet = false → twin.stopSet = false →
      bundle.accountId = twin.accountId → serial = other := by
  have hreplay : (replayGuarded (daemonStep sized) (fun _ _ => True)
      (twoAccounts.world sized) (untilTick ++ restartTick)).map
        DaemonWorld.bundles =
      some [⟨1, 10, true⟩, ⟨2, 20, true⟩, ⟨2, 25, false⟩, ⟨3, 30, false⟩] := by
    decide +kernel
  obtain ⟨world, hworld, hbundles⟩ := Option.map_eq_some_iff.mp hreplay
  have hrun := GuardedReach.of_replay _ hworld
  exact ⟨world, hrun, hbundles, (one_bundle_an_account twoAccounts hrun).1⟩

/-- Everything but a change of the accounts. -/
def DaemonEvent.keepsAccounts : DaemonEvent → Bool
  | .setAccounts _ | .deleteAccount _ => false
  | _ => true

/-- What holds from the start of a tick on, while the accounts do not change. -/
structure Following (before after : DaemonWorld) : Prop where
  same : after.syncable = before.syncable
  later : before.bundles.length ≤ after.tickStart
  asked : ∀ rows, after.settled = some rows → rows = before.syncable
  planned : ∀ todo rows, after.point = .applying todo rows →
    rows = before.syncable

theorem afterDrain_ne_applying (world : DaemonWorld) (todo : List RegistryOp)
    (rows : List SyncableRow) : afterDrain world ≠ .applying todo rows := by
  unfold afterDrain
  split
  · simp
  · simp

theorem Following.of_same {before after next : DaemonWorld}
    (h : Following before after) (hsyncable : next.syncable = after.syncable)
    (htick : next.tickStart = after.tickStart)
    (hsettled : next.settled = after.settled)
    (hplanned : ∀ todo rows, next.point = .applying todo rows →
      rows = before.syncable) : Following before next := by
  refine ⟨hsyncable.trans h.same, htick ▸ h.later, fun rows hrows => ?_,
    hplanned⟩
  exact h.asked rows (hsettled.symm.trans hrows)

theorem Following.step {before after next : DaemonWorld} {event : DaemonEvent}
    (h : Following before after) (hinv : DaemonInv settings after)
    (hkeeps : event.keepsAccounts)
    (hturn : DaemonTurn settings after event next) : Following before next := by
  have hmoved {point : DaemonPoint}
      (hpoint : ∀ todo rows, point ≠ .applying todo rows) :
      Following before { after with point := point } :=
    ⟨h.same, h.later, h.asked, fun todo rows hat => absurd hat (hpoint todo rows)⟩
  cases hturn with
  | setAccounts hdistinct => cases hkeeps
  | deleteAccount => cases hkeeps
  | enqueue | publish | abandon | lock | unlock | requestStop | signalBundle =>
      exact ⟨h.same, h.later, h.asked, h.planned⟩
  | start | halfStart | halfSpawn =>
      exact ⟨h.same, h.later, h.asked, fun todo rows hat => by cases hat⟩
  | crash hpoint => exact hmoved (by simp)
  | started hpoint => exact hmoved (by simp)
  | leave hpoint hstop => exact hmoved (by simp)
  | wake hpoint hstop =>
      refine ⟨h.same, Nat.le_trans h.later hinv.tick, fun rows hrows => ?_,
        fun todo rows hat => ?_⟩
      · cases hrows
      · cases hat
  | claim hpoint =>
      exact ⟨h.same, h.later, h.asked, fun todo rows hat => by cases hat⟩
  | @apply row rest marks raised hpoint =>
      cases hcommand : row.command with
      | restartAccount accountId =>
          obtain ⟨hsyncable, -, htick, -, hsettled, -⟩ :=
            @teardown_same after accountId
          exact h.of_same hsyncable htick hsettled fun todo rows hat => by
            cases hat
      | _ => exact h.of_same rfl rfl rfl fun todo rows hat => by cases hat
  | commit hpoint =>
      exact h.of_same rfl rfl rfl fun todo rows hat =>
        absurd hat (afterDrain_ne_applying after todo rows)
  | rollBack hdrained =>
      exact h.of_same rfl rfl rfl fun todo rows hat =>
        absurd hat (afterDrain_ne_applying _ todo rows)
  | readFails hpoint => exact hmoved (by simp)
  | read hpoint =>
      unfold reconcileWith
      dsimp only
      split
      · refine ⟨h.same, h.later, fun rows hrows => ?_, fun todo rows hat => ?_⟩
        · cases hrows
          exact h.same
        · cases hat
      · refine ⟨h.same, h.later, h.asked, fun todo rows hat => ?_⟩
        cases hat
        exact h.same
  | @operate op rest rows hpoint =>
      have hplanned := h.planned _ _ hpoint
      cases op with
      | teardown accountId =>
          obtain ⟨hsyncable, -, htick, -, hsettled, -⟩ :=
            @teardown_same after accountId
          refine h.of_same hsyncable htick hsettled fun todo asked hat => ?_
          cases hat
          exact hplanned
      | spawn row =>
          refine h.of_same rfl rfl rfl fun todo asked hat => ?_
          cases hat
          exact hplanned
  | operateFails hpoint => exact hmoved (by simp)
  | @settle rows hpoint =>
      have hplanned := h.planned _ _ hpoint
      have hsame : (after.resizePool settings).syncable = after.syncable ∧
          (after.resizePool settings).tickStart = after.tickStart := by
        unfold DaemonWorld.resizePool
        split
        · exact ⟨rfl, rfl⟩
        · exact ⟨rfl, rfl⟩
      refine ⟨hsame.1.trans h.same, h.later.trans_eq hsame.2.symm,
        fun asked hasked => ?_, fun todo asked hat => ?_⟩
      · cases hasked
        exact hplanned
      · cases hat
  | shutDown hpoint =>
      exact ⟨h.same, h.later, h.asked, fun todo rows hat => by cases hat⟩

theorem updatedAtOf_isSome_iff {rows : List SyncableRow} {id : Nat} :
    (updatedAtOf rows id).isSome ↔ id ∈ rows.map SyncableRow.id := by
  simp only [updatedAtOf, Option.isSome_map, List.find?_isSome,
    decide_eq_true_eq, List.mem_map]

/-- A daemon that runs what the rows ask for has an entry for each. -/
theorem DaemonWorld.Runs.length_keys (hregistered : world.Registered)
    {rows : List SyncableRow} (hruns : world.Runs rows)
    (hdistinct : (rows.map SyncableRow.id).Nodup) :
    world.registry.keys.length = rows.length := by
  have hmem (id : Nat) :
      id ∈ world.registry.keys ↔ id ∈ rows.map SyncableRow.id := by
    rw [← updatedAtOf_isSome_iff, ← hruns id, ← AList.mem_keys,
      ← AList.lookup_isSome, ← not_iff_not, Option.not_isSome_iff_eq_none,
      Option.not_isSome_iff_eq_none, fingerprint_eq_none hregistered]
  have hsame : world.registry.keys.Perm (rows.map SyncableRow.id) :=
    (List.perm_ext_iff_of_nodup world.registry.keys_nodup hdistinct).mpr hmem
  rw [hsame.length_eq, List.length_map]

/-- In every run, once the accounts do not change from the start of a tick on,
a daemon whose tick got to its end runs exactly the accounts of the table, by
the rows they have there; an account that was to be restarted has threads that
were started after the tick began; and a pool whose size is not pinned has room
for all of them. -/
theorem settled_tick_runs_the_accounts (start : DaemonStart)
    {before after : DaemonWorld} {rows : List SyncableRow}
    (hrun : Reach (daemonStep settings) (start.world settings) before)
    (hpoint : before.point = .claiming)
    (hkept : GuardedReach (daemonStep settings)
      (fun _ event => event.keepsAccounts) before after)
    (hwaiting : after.point = .waiting) (hsettled : after.settled = some rows) :
    after.Runs before.syncable ∧
      (∀ id ∈ after.restarted, ∀ serial,
        after.registry.lookup id = some serial →
          before.bundles.length ≤ serial) ∧
      (settings.poolMaxSize = none →
        computeDaemonPoolSize settings before.syncable.length ≤
          after.poolMax) ∧
      ∀ size, settings.poolMaxSize = some size → after.poolMax = size := by
  have hinv := DaemonInv.reached start hrun
  have hclaiming := hinv.point
  rw [hpoint] at hclaiming
  have hfollow : DaemonInv settings after ∧ Following before after := by
    refine @GuardedReach.invariant _ _ _ _
      (fun world => DaemonInv settings world ∧ Following before world) _ _ hkept
      ⟨hinv, rfl, hclaiming.2.2.ge, fun rows hrows => ?_, fun todo rows hat => ?_⟩
      ?_
    · exact absurd (hclaiming.2.1.symm.trans hrows) (by simp)
    · rw [hpoint] at hat
      cases hat
    · intro world event next h hkeeps hstep
      have hturn := DaemonTurn.of_step hstep
      exact ⟨h.1.step hturn, h.2.step h.1 hkeeps hturn⟩
  obtain ⟨hafter, hfollowing⟩ := hfollow
  have hat := hafter.point
  rw [hwaiting] at hat
  have hruns : after.Runs before.syncable :=
    hfollowing.asked rows hsettled ▸ hat.2 rows hsettled
  refine ⟨hruns, fun id hid serial hlookup => ?_, fun hunpinned => ?_,
    hafter.pinned⟩
  rotate_left
  · have hpool := hat.1
    rwa [poolSize, hunpinned, Option.getD_none,
      hruns.length_keys hafter.registered hinv.distinct] at hpool
  · exact Nat.le_trans hfollowing.later (hafter.restarted id hid serial hlookup)

theorem settled_tick_runs_the_accounts_restarted :
    ∃ before after : DaemonWorld,
      Reach (daemonStep sized) (twoAccounts.world sized) before ∧
      before.bundles.length = 2 ∧ after.restarted = [2] ∧
      after.Runs [⟨2, 25⟩, ⟨3, 30⟩] ∧
      (∀ id ∈ after.restarted, ∀ serial,
        after.registry.lookup id = some serial → 2 ≤ serial) ∧
      7 ≤ after.poolMax := by
  have hfirst : (replayGuarded (daemonStep sized) (fun _ _ => True)
      (twoAccounts.world sized) untilTick).map (fun before =>
        (before.point, before.syncable, before.bundles.length)) =
      some (.claiming, [⟨2, 25⟩, ⟨3, 30⟩], 2) := by
    decide +kernel
  have hthen : ((replayGuarded (daemonStep sized) (fun _ _ => True)
      (twoAccounts.world sized) untilTick).bind fun before =>
        replayGuarded (daemonStep sized) (fun _ event => event.keepsAccounts)
          before restartTick).map (fun after =>
            (after.point, after.settled, after.restarted)) =
      some (.waiting, some [⟨2, 25⟩, ⟨3, 30⟩], [2]) := by
    decide +kernel
  obtain ⟨before, hbefore, hends⟩ := Option.map_eq_some_iff.mp hfirst
  obtain ⟨hpoint, hends⟩ := Prod.mk.inj hends
  obtain ⟨hsyncable, hlength⟩ := Prod.mk.inj hends
  rw [hbefore, Option.bind_some] at hthen
  obtain ⟨after, hafter, hends⟩ := Option.map_eq_some_iff.mp hthen
  obtain ⟨hwaiting, hends⟩ := Prod.mk.inj hends
  obtain ⟨hsettled, hrestarted⟩ := Prod.mk.inj hends
  have hrun := GuardedReach.of_replay _ hbefore
  have hruns := settled_tick_runs_the_accounts twoAccounts hrun hpoint
    (GuardedReach.of_replay _ hafter) hwaiting hsettled
  rw [hsyncable, hlength] at hruns
  exact ⟨before, after, hrun, hlength, hrestarted, hruns.1, hruns.2.1,
    hruns.2.2.1 rfl⟩

end Results

end DaemonLoop

end Localmail
