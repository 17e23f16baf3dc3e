/-
The loop of the sync daemon: it drains the command queue, reads the accounts
that are to be synced, and brings the threads it runs in line with them.  Each
of its steps stands between whatever others do meanwhile: they insert a command
and commit it later, or never, lock rows of the queue, and delete an account
with the commands about it.  Any transaction of the daemon's own may fail, and it
may be told to stop at any moment.  Whether a thread that was told to stop has
ended is not followed.
-/
import Localmail.LabelledRun
import Localmail.SearchRequest
import Mathlib.Data.List.AList
import Mathlib.Data.List.Sort

namespace Localmail

namespace DaemonLoop

/-! ### The tables -/

/-- A row of `list_syncable_accounts`, by what the reconcile compares. -/
structure SyncableRow where
  id : Nat
  updatedAt : Int
deriving Repr, DecidableEq

/-- The constraint of the table pairs a restart with its account. -/
inductive CommandName where
  | reloadNow
  | restartAccount (accountId : Nat)
  | drainStop
deriving Repr, DecidableEq

inductive CommandState where
  | queued
  | done
  | failed
deriving Repr, DecidableEq

/-- A claimed command is never set back to queued. -/
inductive TerminalCommandState where
  | done
  | failed
deriving Repr, DecidableEq

def TerminalCommandState.toState : TerminalCommandState → CommandState
  | .done => .done
  | .failed => .failed

structure CommandRow where
  id : Nat
  requestedAt : Int
  command : CommandName
  state : CommandState
  resultMsg : Option Text
deriving Repr, DecidableEq

def CommandName.accountId? : CommandName → Option Nat
  | .restartAccount accountId => some accountId
  | .reloadNow | .drainStop => none

/-! ### `daemon_reconcile.py` -/

structure ReconcilePlan where
  toSpawn : List Nat
  toTeardown : List Nat
  toRespawn : List Nat
deriving Repr, DecidableEq

abbrev Fingerprints := AList fun _ : Nat => Int

def ReconcilePlan.isEmpty (plan : ReconcilePlan) : Bool :=
  plan.toSpawn = [] ∧ plan.toTeardown = [] ∧ plan.toRespawn = []

def planReconcile (running desired : Fingerprints) : ReconcilePlan where
  toSpawn := (desired.keys.filter fun id => id ∉ running).insertionSort (· ≤ ·)
  toTeardown := (running.keys.filter fun id => id ∉ desired).insertionSort (· ≤ ·)
  toRespawn := (running.keys.filter fun id => id ∈ desired ∧
    running.lookup id ≠ desired.lookup id).insertionSort (· ≤ ·)

/-! ### The daemon -/

/-- The two threads of an account, by the row they were started for. -/
structure AccountThreads where
  accountId : Nat
  updatedAt : Int
  stopSet : Bool
deriving Repr, DecidableEq

/-- What the reconcile does to the registry. -/
inductive RegistryOp where
  | teardown (accountId : Nat)
  | spawn (row : SyncableRow)
deriving Repr, DecidableEq

structure DaemonSettings where
  runEmbed : Bool
  runExtract : Bool
  poolMaxSize : Option Nat

/-- A claimed command that was applied, with what it is to be marked. -/
structure Mark where
  row : CommandRow
  state : TerminalCommandState
  message : Text
deriving Repr, DecidableEq

/-- Where the daemon's main thread is. -/
inductive DaemonPoint where
  | starting (todo : List SyncableRow)
  | waiting
  | claiming
  | draining (todo : List CommandRow) (marks : List Mark)
  | reading
  | applying (todo : List RegistryOp) (rows : List SyncableRow)
  | leaving
  | stopped
  | crashed
deriving Repr, DecidableEq

/-- A drain that has ended: the commands it applied, those that were queued when
it claimed and which rows others had locked then, and whether it was
committed. -/
structure Drain where
  applied : List CommandRow
  queue : List CommandRow
  locked : List Nat
  committed : Bool
deriving Repr, DecidableEq

/-- The committed tables, what others have under way and the daemon.  `pending`
are the commands that are inserted and not committed, `locked` the rows of the
queue that others have locked.  Bundles of threads are named by how many were
started before, and `strays` are the accounts of idle threads that were started
without one; `claimQueue`, `claimLocked`, `drains`, `settled`, `restarted` and
`tickStart` keep what happened. -/
structure DaemonWorld where
  syncable : List SyncableRow
  commands : List CommandRow
  pending : List CommandRow
  nextCommandId : Nat
  locked : List Nat
  bundles : List AccountThreads
  registry : AList fun _ : Nat => Nat
  strays : List Nat
  stopEvent : Bool
  poolMax : Nat
  point : DaemonPoint
  claimQueue : List CommandRow
  claimLocked : List Nat
  drains : List Drain
  settled : Option (List SyncableRow)
  restarted : List Nat
  tickStart : Nat

def poolBaselineMin : Nat := 4

def poolHeadroom : Nat := 2

def slotsPerAccount : Nat := 2

def computeDaemonPoolSize (settings : DaemonSettings) (accounts : Nat) : Nat :=
  let workers := (if settings.runEmbed then 1 else 0) +
    (if settings.runExtract then 1 else 0)
  max poolBaselineMin (slotsPerAccount * accounts + workers + poolHeadroom)

def poolSize (settings : DaemonSettings) (accounts : Nat) : Nat :=
  settings.poolMaxSize.getD (computeDaemonPoolSize settings accounts)

namespace DaemonWorld

variable (world : DaemonWorld)

def fingerprint (accountId : Nat) : Option Int :=
  (world.registry.lookup accountId).bind fun serial =>
    world.bundles[serial]?.map AccountThreads.updatedAt

/-- `_running_fingerprints`. -/
def runningFingerprints : Fingerprints :=
  world.registry.keys.foldr (fun id running =>
    (world.fingerprint id).elim running (running.insert id)) ∅

def signal (serial : Nat) : DaemonWorld :=
  { world with
    bundles := world.bundles.modify serial fun bundle =>
      { bundle with stopSet := true } }

/-- `_teardown_account`. -/
def teardown (accountId : Nat) : DaemonWorld :=
  match world.registry.lookup accountId with
  | none => world
  | some serial =>
      { world.signal serial with registry := world.registry.erase accountId }

/-- `_spawn_account`. -/
def spawn (row : SyncableRow) : DaemonWorld :=
  { world with
    bundles := world.bundles ++ [⟨row.id, row.updatedAt, false⟩]
    registry := world.registry.insert row.id world.bundles.length }

def operate : RegistryOp → DaemonWorld
  | .teardown accountId => world.teardown accountId
  | .spawn row => world.spawn row

/-- `_resize_pool`, which leaves a pinned size. -/
def resizePool (settings : DaemonSettings) : DaemonWorld :=
  if settings.poolMaxSize.isSome then world
  else { world with poolMax := poolSize settings world.registry.keys.length }

/-- `_apply_command`, up to what it raises. -/
def applyCommand : CommandName → DaemonWorld
  | .reloadNow => world
  | .drainStop => { world with stopEvent := true }
  | .restartAccount accountId =>
      { world.teardown accountId with
        restarted := accountId :: world.restarted }

end DaemonWorld

def desiredFingerprints (rows : List SyncableRow) : Fingerprints :=
  rows.foldr (fun row desired => desired.insert row.id row.updatedAt) ∅

/-- Tear down, then respawn, then spawn. -/
def planOps (plan : ReconcilePlan) (rows : List SyncableRow) : List RegistryOp :=
  let spawn (accountId : Nat) : List RegistryOp :=
    ((rows.find? fun row => row.id = accountId).map .spawn).toList
  plan.toTeardown.map .teardown ++
    plan.toRespawn.flatMap (fun id => .teardown id :: spawn id) ++
    plan.toSpawn.flatMap spawn

def CommandRow.notAfter (row other : CommandRow) : Prop :=
  row.requestedAt < other.requestedAt ∨
    row.requestedAt = other.requestedAt ∧ row.id ≤ other.id

instance decidableRelNotAfter : DecidableRel CommandRow.notAfter :=
  fun _ _ => inferInstanceAs (Decidable (_ ∨ _))

def queuedCommands (commands : List CommandRow) : List CommandRow :=
  commands.filter fun row => row.state = .queued

/-- `claim_commands`: every queued row that nobody else has locked, oldest
first. -/
def claimCommands (commands : List CommandRow) (locked : List Nat) :
    List CommandRow :=
  ((queuedCommands commands).filter fun row => row.id ∉ locked).insertionSort
    CommandRow.notAfter

/-- `mark_command`, for a whole batch. -/
def CommandRow.marked (marks : List Mark) (row : CommandRow) : CommandRow :=
  match marks.find? fun mark => mark.row.id = row.id with
  | some mark =>
      { row with state := mark.state.toState, resultMsg := some mark.message }
  | none => row

def resultMessage : CommandName → Text
  | .reloadNow => text "reconcile triggered"
  | .drainStop => text "daemon stopping"
  | .restartAccount accountId =>
      text "account " ++ decimal accountId ++ text " torn down for restart"

def markOf (row : CommandRow) : Option Text → Mark
  | none => ⟨row, .done, resultMessage row.command⟩
  | some message => ⟨row, .failed, message⟩

/-- The rows that a drain has locked, in the order it applies them. -/
def DaemonPoint.claimed : DaemonPoint → List CommandRow
  | .draining todo marks => marks.map Mark.row ++ todo
  | _ => []

inductive DaemonEvent where
  | setAccounts (rows : List SyncableRow)
  | deleteAccount (accountId : Nat)
  | enqueue (requestedAt : Int) (command : CommandName)
  | publish (commandId : Nat)
  | abandon (commandId : Nat)
  | lock (commandIds : List Nat)
  | unlock (commandIds : List Nat)
  | requestStop
  | signalBundle (serial : Nat)
  | wake
  | claim (works : Bool)
  | apply (raised : Option Text)
  | markFails
  | commit (durable : Bool)
  | readAccounts (works : Bool)
  | operate (works : Bool)
  | halfSpawn
  | settle
  | shutDown
deriving Repr, DecidableEq

section Step

variable (settings : DaemonSettings) (world : DaemonWorld)

/-- The drain is over; the reconcile goes on unless it is to stop. -/
def afterDrain : DaemonPoint :=
  if world.stopEvent then .waiting else .reading

/-- What is kept of a drain. -/
def drainOf (marks : List Mark) (committed : Bool) : Drain where
  applied := marks.map Mark.row
  queue := world.claimQueue
  locked := world.claimLocked
  committed := committed

/-- Nothing of the batch is kept, and its rows are queued still. -/
def rollBack (marks : List Mark) : DaemonWorld :=
  { world with
    point := afterDrain world
    drains := world.drains ++ [drainOf world marks false] }

/-- What the daemon makes of the accounts it has read. -/
def reconcileWith (rows : List SyncableRow) : DaemonWorld :=
  let plan := planReconcile world.runningFingerprints (desiredFingerprints rows)
  if plan.isEmpty then { world with point := .waiting, settled := some rows }
  else { world with point := .applying (planOps plan rows) rows }

/-- A step of the daemon's main thread.  A spawn fails before it has started a
thread, or with the idle thread running; at the start the workers that belong to
no account may fail too. -/
def advanceDaemon : DaemonPoint → DaemonEvent → Option DaemonWorld
  | .starting (row :: rest), .operate works =>
      if works then some { world.spawn row with point := .starting rest }
      else some { world with point := .crashed }
  | .starting (row :: _), .halfSpawn =>
      some { world with strays := row.id :: world.strays, point := .crashed }
  | .starting [], .settle => some { world with point := .waiting }
  | .starting [], .operate false => some { world with point := .crashed }
  | .waiting, .wake =>
      if world.stopEvent then some { world with point := .leaving }
      else some { world with
        point := .claiming
        claimQueue := []
        claimLocked := []
        settled := none
        restarted := []
        tickStart := world.bundles.length }
  | .claiming, .claim works =>
      if works then some { world with
        point := .draining (claimCommands world.commands world.locked) []
        claimQueue := queuedCommands world.commands
        claimLocked := world.locked }
      else some (rollBack world [])
  | .draining (row :: rest) marks, .apply raised =>
      some { world.applyCommand row.command with
        point := .draining rest (marks ++ [markOf row raised]) }
  | .draining _ marks, .markFails => some (rollBack world marks)
  | .draining [] marks, .commit durable =>
      if durable then some { world with
        commands := world.commands.map (CommandRow.marked marks)
        point := afterDrain world
        drains := world.drains ++ [drainOf world marks true] }
      else some (rollBack world marks)
  | .reading, .readAccounts works =>
      if works then some (reconcileWith world world.syncable)
      else some { world with point := .waiting }
  | .applying (op :: rest) rows, .operate works =>
      if works then some { world.operate op with point := .applying rest rows }
      else some { world with point := .leaving }
  | .applying (.spawn row :: _) _, .halfSpawn =>
      some { world with strays := row.id :: world.strays, point := .leaving }
  | .applying [] rows, .settle =>
      some { world.resizePool settings with
        point := .waiting, settled := some rows }
  | .leaving, .shutDown =>
      some { world with
        bundles := world.bundles.mapIdx fun serial bundle =>
          if world.registry.lookup bundle.accountId = some serial then
            { bundle with stopSet := true }
          else bundle
        registry := ∅
        stopEvent := true
        point := .stopped }
  | _, _ => none

/-- An account is deleted when its commands are locked and none about it is under
way: the insert of one holds the account, and the deletion the commands. -/
def daemonStep (settings : DaemonSettings) (world : DaemonWorld) :
    DaemonEvent → Option DaemonWorld
  | .setAccounts rows =>
      if (rows.map SyncableRow.id).Nodup then
        some { world with syncable := rows }
      else none
  | .deleteAccount accountId =>
      if (∀ row ∈ world.commands, row.command.accountId? = some accountId →
            row.id ∈ world.locked) ∧
          ∀ row ∈ world.pending, row.command.accountId? ≠ some accountId then
        some { world with
          syncable := world.syncable.filter fun row => row.id ≠ accountId
          commands := world.commands.filter fun row =>
            row.command.accountId? ≠ some accountId
          locked := world.locked.filter fun id => ∃ row ∈ world.commands,
            row.id = id ∧ row.command.accountId? ≠ some accountId }
      else none
  | .enqueue requestedAt command =>
      some { world with
        pending := world.pending ++
          [⟨world.nextCommandId, requestedAt, command, .queued, none⟩]
        nextCommandId := world.nextCommandId + 1 }
  | .publish commandId =>
      some { world with
        commands := world.commands ++
          world.pending.filter fun row => row.id = commandId
        pending := world.pending.filter fun row => row.id ≠ commandId }
  | .abandon commandId =>
      some { world with
        pending := world.pending.filter fun row => row.id ≠ commandId }
  | .lock commandIds =>
      if (∀ id ∈ commandIds, ∃ row ∈ world.commands, row.id = id) ∧
          ∀ row ∈ world.point.claimed, row.id ∉ commandIds then
        some { world with locked := world.locked ++ commandIds }
      else none
  | .unlock commandIds =>
      some { world with locked := world.locked.diff commandIds }
  | .requestStop => some { world with stopEvent := true }
  | .signalBundle serial =>
      if world.stopEvent then some (world.signal serial) else none
  | event => advanceDaemon settings world world.point event

end Step

/-- A daemon that is built: it has read the accounts and opened its pool. -/
structure DaemonStart where
  rows : List SyncableRow
  distinct : (rows.map SyncableRow.id).Nodup
  commands : List CommandRow
  unique : (commands.map CommandRow.id).Nodup
  nextCommandId : Nat
  named : ∀ row ∈ commands, row.id < nextCommandId

/-- A daemon whose queue is empty. -/
def DaemonStart.quiet (rows : List SyncableRow)
    (distinct : (rows.map SyncableRow.id).Nodup) : DaemonStart where
  rows := rows
  distinct := distinct
  commands := []
  unique := .nil
  nextCommandId := 0
  named := List.forall_mem_nil _

def DaemonStart.world (start : DaemonStart) (settings : DaemonSettings) :
    DaemonWorld where
  syncable := start.rows
  commands := start.commands
  pending := []
  nextCommandId := start.nextCommandId
  locked := []
  bundles := []
  registry := ∅
  strays := []
  stopEvent := false
  poolMax := poolSize settings start.rows.length
  point := .starting start.rows
  claimQueue := []
  claimLocked := []
  drains := []
  settled := none
  restarted := []
  tickStart := 0

end DaemonLoop

end Localmail
