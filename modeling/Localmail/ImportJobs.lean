/-
`import_jobs`, statement by statement: creating, cancelling, reaping and
running a job.  Every call is a transaction of its own on the rows, run by some
operating-system process; each of its statements may fail, and a commit may
happen without its caller learning of it.
-/
import Localmail.Processes
import Localmail.Savepoints

namespace Localmail

inductive JobStatus where
  | pending
  | running
  | completed
  | failed
  | cancelled
deriving Repr, DecidableEq

/-- `ACTIVE_STATUSES`. -/
def JobStatus.isActive : JobStatus → Bool
  | .pending | .running => true
  | .completed | .failed | .cancelled => false

/-- `_Counters`. -/
structure ImportCounters where
  processed : Nat
  inserted : Nat
  skippedDup : Nat
  failed : Nat
deriving Repr, DecidableEq

def ImportCounters.zero : ImportCounters := ⟨0, 0, 0, 0⟩

/-- What became of one message of the source. -/
inductive MessageOutcome where
  | inserted
  | skippedDup
  | failed
deriving Repr, DecidableEq

def ImportCounters.count (counters : ImportCounters) :
    MessageOutcome → ImportCounters
  | .inserted => { counters with
      processed := counters.processed + 1, inserted := counters.inserted + 1 }
  | .skippedDup => { counters with
      processed := counters.processed + 1
      skippedDup := counters.skippedDup + 1 }
  | .failed => { counters with
      processed := counters.processed + 1, failed := counters.failed + 1 }

/-- A row; `updates` counts the statements that wrote it, which also set its
timestamps. -/
structure ImportJobRow where
  status : JobStatus
  counters : ImportCounters
  errorMsg : Option String
  cancelRequested : Bool
  ownerHost : Option String
  ownerPid : Option Nat
  updates : Nat
deriving Repr, DecidableEq

structure OsProcess where
  host : String
  pid : Nat
deriving Repr, DecidableEq

/-- The table, its id sequence, and which processes have exited. -/
structure ImportShared where
  store : RowStore fun _ : Nat => ImportJobRow
  nextJob : Nat
  exited : List OsProcess

namespace ImportShared

variable (shared : ImportShared) (tx : Nat)

def read (jobId : Nat) : Option ImportJobRow := shared.store.view tx jobId

def commit : ImportShared :=
  { shared with store := shared.store.commit tx }

def rollback : ImportShared :=
  { shared with store := shared.store.rollback tx }

/-- `UPDATE … WHERE id = ANY(ids) AND chosen`. -/
def update (ids : List Nat) (chosen : ImportJobRow → Bool)
    (change : ImportJobRow → ImportJobRow) : Option ImportShared :=
  (shared.store.updateChosen tx (fun _ => chosen)
    (fun _ row => { change row with updates := row.updates + 1 })
    (shared.store.matching tx (fun _ => chosen) ids)).map fun store =>
      { shared with store := store }

/-- Another open transaction has a row that was or will be active, so that the
unique index makes an insert wait. -/
def activeContended : Bool :=
  (List.range shared.nextJob).any fun jobId =>
    (shared.store.owner jobId).any (· ≠ tx) &&
      ((shared.store.committed jobId).any (·.status.isActive) ||
        (shared.store.dirty jobId).any (·.status.isActive))

def activeCount : Nat :=
  (List.range shared.nextJob).countP fun jobId =>
    (shared.read tx jobId).any (·.status.isActive)

/-- The active rows, with their owners. -/
def activeOwners : List (Nat × Option String × Option Nat) :=
  (List.range shared.nextJob).filterMap fun jobId =>
    ((shared.read tx jobId).filter (·.status.isActive)).map fun row =>
      (jobId, row.ownerHost, row.ownerPid)

def insertPending (os : OsProcess) : ImportShared :=
  { shared with
    store := shared.store.put tx shared.nextJob
      (some ⟨.pending, .zero, none, false, some os.host, some os.pid, 0⟩)
    nextJob := shared.nextJob + 1 }

end ImportShared

/-! ### Calls -/

/-- `ownership.should_reap`. -/
def shouldReap (ownerHost : Option String) (ownerPid : Option Nat)
    (currentHost : String) (pidAlive : Bool) : Bool :=
  match ownerPid with
  | none => true
  | some _ => if ownerHost ≠ some currentHost then false else !pidAlive

/-- How a statement of `run_import` ends, or what the source yields next.
`fails` tells whether the exception is one of `DB_CONTENTION_ERRORS`; a commit
that is `lost` happened all the same. -/
inductive Fate where
  | ok
  | fails (contention : Bool) (error : String)
  | lost (error : String)
  | mailbox
  | message (outcome : MessageOutcome) (checkpoint : Bool)
deriving Repr, DecidableEq

/-- The exception, as `error_msg` shows it. -/
def Fate.error : Fate → Option String
  | .fails true error =>
      some ("database contention; re-run the import (idempotent): " ++ error)
  | .fails false error | .lost error => some error
  | .ok | .mailbox | .message _ _ => none

/-- The same where no handler adds a hint. -/
def Fate.bareError : Fate → Option String
  | .fails _ error | .lost error => some error
  | .ok | .mailbox | .message _ _ => none

/-- `reused` are pids of the caller's host that another process has now. -/
inductive ImportCall where
  | createJob
  | cancelJob (jobId : Nat)
  | reconcileOrphanedJobs (reused : List Nat)
  | runImport (jobId terminalWriteAttempts : Nat)
deriving Repr, DecidableEq

inductive ImportError where
  | busy
  | notFound (jobId : Nat)
  | noAttempts
  | terminalStatusUnwritten
deriving Repr, DecidableEq

/-- The values of one terminal write. -/
structure TerminalWrite where
  status : JobStatus
  counters : ImportCounters
  errorMsg : Option String
deriving Repr, DecidableEq

/-- The statement a call is at.  `committed` are the counters as of the
worker's last commit; `left` counts the attempts at the terminal write, and
`moved` tells that this call has moved the job out of `pending` itself. -/
inductive ImportPhase where
  | begin
  | insert
  | created (jobId : Nat)
  | cancelled
  | probe (rest : List (Nat × Option String × Option Nat)) (ids : List Nat)
  | reap (ids : List Nat)
  | reaped (ids : List Nat)
  | loading
  | marking
  | marked (changed : Bool)
  | streaming (counters committed : ImportCounters)
  | flushing (counters committed : ImportCounters)
  | flushed (counters committed : ImportCounters)
  | polling (counters : ImportCounters)
  | finishing (counters committed : ImportCounters) (cancelled : Bool)
  | closing (counters : ImportCounters) (cancelled : Bool)
  | terminal (write : TerminalWrite) (left : Nat) (moved : Bool)
  | written (write : TerminalWrite) (left : Nat) (moved : Bool)
  | done
  | raised (error : ImportError)
deriving Repr, DecidableEq

structure ImportProcess where
  os : OsProcess
  call : ImportCall
  phase : ImportPhase
  fates : List Fate
deriving Repr, DecidableEq

section Statements

variable (tx : Nat) (shared : ImportShared)

def createJob (os : OsProcess) :
    ImportPhase → Option (ImportShared × ImportPhase)
  | .begin =>
      if 0 < shared.activeCount tx then
        some (shared.rollback tx, .raised .busy)
      else some (shared, .insert)
  | .insert =>
      if shared.activeContended tx then none
      else if 0 < shared.activeCount tx then
        some ({ shared.rollback tx with nextJob := shared.nextJob + 1 },
          .raised .busy)
      else some (shared.insertPending tx os, .created shared.nextJob)
  | .created _ => some (shared.commit tx, .done)
  | _ => none

def cancelJob (jobId : Nat) : ImportPhase → Option (ImportShared × ImportPhase)
  | .begin =>
      if (shared.read tx jobId).isSome then
        (shared.update tx [jobId] (fun _ => true) fun row =>
          { row with cancelRequested := true }).map fun shared =>
            (shared, .cancelled)
      else some (shared.rollback tx, .raised (.notFound jobId))
  | .cancelled => some (shared.commit tx, .done)
  | _ => none

/-- One probe answers for one row, at its own moment. -/
def reconcileOrphanedJobs (os : OsProcess) (reused : List Nat) :
    ImportPhase → Option (ImportShared × ImportPhase)
  | .begin => some (shared, .probe (shared.activeOwners tx) [])
  | .probe [] ids => some (shared, if ids = [] then .reaped [] else .reap ids)
  | .probe ((jobId, ownerHost, ownerPid) :: rest) ids =>
      let pidAlive := ownerPid.any fun pid =>
        ⟨os.host, pid⟩ ∉ shared.exited || pid ∈ reused
      some (shared, .probe rest
        (if shouldReap ownerHost ownerPid os.host pidAlive then
          ids ++ [jobId] else ids))
  | .reap ids =>
      (shared.update tx ids (fun _ => true) fun row =>
        { row with
          status := .failed
          errorMsg :=
            some "interrupted: owning process is no longer running" }).map
        fun shared => (shared, .reaped ids)
  | .reaped _ => some (shared.commit tx, .done)
  | _ => none

/-- `_mark_terminal` on its way to the first attempt. -/
def markTerminal (attempts : Nat) (status : JobStatus)
    (counters : ImportCounters) (errorMsg : Option String) (moved : Bool) :
    ImportPhase :=
  .terminal ⟨status, counters, errorMsg⟩ attempts moved

/-- After a failed attempt. -/
def retryTerminal (write : TerminalWrite) (left : Nat) (moved : Bool) :
    ImportPhase :=
  if left = 0 then .raised .terminalStatusUnwritten
  else .terminal write left moved

def runImport (jobId attempts : Nat) (fate : Fate) :
    ImportPhase → Option (ImportShared × ImportPhase)
  | .begin =>
      if attempts = 0 then some (shared, .raised .noAttempts)
      else
        match fate.bareError with
        | some error => some (shared,
            markTerminal attempts .failed .zero (some error) false)
        | none => some (shared, .loading)
  | .loading =>
      match fate.error with
      | some error => some (shared.rollback tx,
          markTerminal attempts .failed .zero (some error) false)
      | none =>
          if (shared.read tx jobId).isSome then some (shared, .marking)
          else some (shared.rollback tx, .done)
  | .marking =>
      match fate.error with
      | some error => some (shared.rollback tx,
          markTerminal attempts .failed .zero (some error) false)
      | none =>
          (shared.update tx [jobId] (fun row => row.status = .pending)
            fun row => { row with status := .running }).map fun updated =>
              (updated, .marked ((shared.read tx jobId).any
                fun row => row.status = .pending))
  | .marked changed =>
      match fate with
      | .fails _ _ => some (shared.rollback tx,
          markTerminal attempts .failed .zero fate.error false)
      | .lost _ => some (shared.commit tx,
          markTerminal attempts .failed .zero fate.error changed)
      | _ => some (shared.commit tx,
          if changed then .streaming .zero .zero else .done)
  | .streaming counters committed =>
      match fate with
      | .fails _ _ | .lost _ => some (shared.rollback tx,
          markTerminal attempts .failed committed fate.error true)
      | .mailbox => some (shared.commit tx, .streaming counters counters)
      | .message outcome checkpoint =>
          some (shared, if checkpoint then
            .flushing (counters.count outcome) committed
          else .streaming (counters.count outcome) committed)
      | .ok => some (shared, .finishing counters committed false)
  | .flushing counters committed =>
      match fate.error with
      | some error => some (shared.rollback tx,
          markTerminal attempts .failed committed (some error) true)
      | none =>
          (shared.update tx [jobId] (fun _ => true) fun row =>
            { row with counters := counters }).map fun shared =>
              (shared, .flushed counters committed)
  | .flushed counters committed =>
      match fate with
      | .fails _ _ => some (shared.rollback tx,
          markTerminal attempts .failed committed fate.error true)
      | .lost _ => some (shared.commit tx,
          markTerminal attempts .failed committed fate.error true)
      | _ => some (shared.commit tx, .polling counters)
  | .polling counters =>
      match fate.error with
      | some error => some (shared.rollback tx,
          markTerminal attempts .failed counters (some error) true)
      | none => some (shared,
          if (shared.read tx jobId).any (·.cancelRequested) then
            .finishing counters counters true
          else .streaming counters counters)
  | .finishing counters committed cancelled =>
      match fate with
      | .fails _ _ => some (shared.rollback tx,
          markTerminal attempts .failed committed fate.error true)
      | .lost _ => some (shared.commit tx,
          markTerminal attempts .failed committed fate.error true)
      | _ => some (shared.commit tx, .closing counters cancelled)
  | .closing counters cancelled =>
      match fate.error with
      | some error => some (shared.rollback tx,
          markTerminal attempts .failed counters (some error) true)
      | none => some (shared, markTerminal attempts
          (if cancelled then .cancelled else .completed) counters none true)
  | .terminal _ 0 _ => none
  | .terminal write (left + 1) moved =>
      match fate.error with
      | some _ => some (shared.rollback tx, retryTerminal write left moved)
      | none =>
          (shared.update tx [jobId] (fun _ => true) fun row =>
            { row with
              status := write.status
              counters := write.counters
              errorMsg := write.errorMsg }).map fun shared =>
                (shared, .written write left moved)
  | .written write left moved =>
      match fate with
      | .fails _ _ => some (shared.rollback tx, retryTerminal write left moved)
      -- the row, if there is one, is now as this call wrote it
      | .lost _ => some (shared.commit tx, retryTerminal write left
          (moved || (shared.read tx jobId).isSome))
      | _ => some (shared.commit tx, .done)
  | .insert | .created _ | .cancelled | .probe _ _ | .reap _ | .reaped _ | .done
  | .raised _ => none

/-- One statement of a call.  When nothing is said of how a statement of
`run_import` ends, it succeeds. -/
def importStep (proc : ImportProcess) :
    Option (ImportShared × ImportProcess) :=
  if proc.os ∈ shared.exited then none
  else
    (match proc.call with
    | .createJob => createJob tx shared proc.os proc.phase
    | .cancelJob jobId => cancelJob tx shared jobId proc.phase
    | .reconcileOrphanedJobs reused =>
        reconcileOrphanedJobs tx shared proc.os reused proc.phase
    | .runImport jobId attempts =>
        runImport tx shared jobId attempts (proc.fates.headD .ok)
          proc.phase).map
      fun (shared, phase) =>
        (shared, { proc with phase := phase, fates := proc.fates.tail })

end Statements

def ImportProcess.finished (proc : ImportProcess) : Bool :=
  match proc.phase with
  | .done | .raised _ => true
  | _ => false

/-- Any number of such calls; besides them, processes exit. -/
def importRules : ProcessRules ImportShared ImportProcess OsProcess where
  advance := importStep
  abandon := fun tx shared => shared.rollback tx
  stopped := ⟨⟨"", 0⟩, .createJob, .done, []⟩
  finished := ImportProcess.finished
  initial := fun proc => proc.phase = .begin
  outside := fun shared os =>
    some { shared with exited := os :: shared.exited }

/-- Rows with ids the sequence is past, and nobody at work. -/
def ImportShared.start (rows : Nat → Option ImportJobRow) (nextJob : Nat)
    (hbelow : ∀ id, rows id ≠ none → id < nextJob) : ImportShared where
  store :=
    { committed := rows
      dirty := fun _ => none
      owner := fun _ => none
      keys := List.range nextJob
      covered := fun id hid =>
        List.mem_range.mpr (hbelow id (hid.resolve_right fun h => h rfl)) }
  nextJob := nextJob
  exited := []

end Localmail
