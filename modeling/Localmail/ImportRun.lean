/-
`run_import`, statement by statement, with what its session has written: the
counters it keeps, the ones as of its last commit, and the row it writes at the
end.
-/
import Mathlib.Data.Rat.Defs
import Localmail.ImportJobs
import Localmail.QueryParse
import Localmail.SessionJournal

namespace Localmail

namespace ImportRun

/-! ### What is written -/

/-- What is written for a message. -/
inductive WriteKind where
  | messageRow
  | label
  | attachments
  | failedRow
deriving Repr, DecidableEq

/-- A write, for the message at a position of the source. -/
structure ImportWrite where
  position : Nat
  kind : WriteKind
deriving Repr, DecidableEq

/-- What the writes make of the message at a position, if there are any. -/
def effectOf (writes : List ImportWrite) (position : Nat) :
    Option MessageOutcome :=
  if ⟨position, .failedRow⟩ ∈ writes then some .failed
  else if ⟨position, .label⟩ ∈ writes then
    if ⟨position, .messageRow⟩ ∈ writes then some .inserted
    else some .skippedDup
  else none

end ImportRun

/-- The counter of an outcome. -/
def ImportCounters.of (counters : ImportCounters) : MessageOutcome → Nat
  | .inserted => counters.inserted
  | .skippedDup => counters.skippedDup
  | .failed => counters.failed

namespace ImportRun

/-! ### The run -/

structure ImportSettings where
  checkpointEvery : Int
  checkpointSeconds : Rat
  terminalWriteAttempts : Nat
deriving Repr, DecidableEq

/-- `job_state.should_checkpoint`. -/
def shouldCheckpoint (settings : ImportSettings)
    (processed processedAtLastCheckpoint : Nat)
    (secondsSinceCheckpoint : Rat) : Bool :=
  let unflushed : Int := processed - processedAtLastCheckpoint
  if unflushed ≤ 0 then false
  else if processedAtLastCheckpoint = 0 then true
  else if 0 < settings.checkpointEvery ∧
      settings.checkpointEvery ≤ unflushed then true
  else if 0 < settings.checkpointSeconds ∧
      settings.checkpointSeconds ≤ secondsSinceCheckpoint then true
  else false

/-- The statement the run is at.  `saved` is what was pending at the savepoint
of the message. -/
inductive RunPhase where
  | connecting
  | loading
  | marking
  | markCommitting
  | fetching
  | openingMailbox (name : Text)
  | committingMailbox (name : Text)
  | readingUid
  | savepoint
  | upserting (saved : List ImportWrite)
  | labelling (saved : List ImportWrite) (didInsert : Bool)
  | storing (saved : List ImportWrite)
  | releasing (saved : List ImportWrite) (didInsert : Bool)
  | rollingBack (saved : List ImportWrite)
  | readingFailedUid
  | failLog
  | recording
  | unrecording
  | counted
  | flushing
  | flushCommitting
  | polling
  | committing (cancelled : Bool)
  | closing (cancelled : Bool)
  | terminal (status : JobStatus) (counters : ImportCounters) (left : Nat)
  | ended
deriving Repr, DecidableEq

/-- How a statement ends, and what the source, the clock and the operator do.
A commit that is `lost` happened, but raises. -/
inductive RunEvent where
  | ok
  | raises (contention : Bool)
  | lost
  | notPending
  | yields (mailboxName : Text)
  | exhausted
  | upserted (didInsert : Bool)
  | labelled (hasAttachments : Bool)
  | elapsed (seconds : Rat)
  | polled (cancelRequested : Bool)
deriving Repr, DecidableEq

/-- `yielded` is how many messages the source has yielded; `row` is the terminal
row the run has written. -/
structure RunState where
  phase : RunPhase
  counters : ImportCounters
  committed : ImportCounters
  yielded : Nat
  mailboxes : List Text
  processedAtLastCheckpoint : Nat
  session : Session ImportWrite
  row : Option (JobStatus × ImportCounters)
deriving Repr, DecidableEq

namespace RunState

/-- Without an attempt at the terminal write the call raises at once. -/
def start (settings : ImportSettings) : RunState where
  phase := if settings.terminalWriteAttempts = 0 then .ended else .connecting
  counters := .zero
  committed := .zero
  yielded := 0
  mailboxes := []
  processedAtLastCheckpoint := 0
  session := .empty
  row := none

variable (settings : ImportSettings) (state : RunState)

def goto (phase : RunPhase) : RunState :=
  { state with phase := phase }

/-- The outer handler: the connection is closed, and the job has failed. -/
def fail : RunState :=
  { state with
    session := state.session.rollback
    phase := .terminal .failed state.committed settings.terminalWriteAttempts }

/-- The inner handler: contention fails the job, anything else the message. -/
def poison (saved : List ImportWrite) (contention : Bool) : RunState :=
  if contention then state.fail settings else state.goto (.rollingBack saved)

/-- The position of the message at hand. -/
def position : Nat := state.yielded - 1

def write (kinds : List WriteKind) : RunState :=
  { state with
    session := state.session.write
      (kinds.map fun kind => ⟨state.position, kind⟩) }

def count (outcome : MessageOutcome) : RunState :=
  { state with counters := state.counters.count outcome, phase := .counted }

/-- A commit, and the counters as of it. -/
def commit (next : RunPhase) : RunState :=
  { state with
    session := state.session.commit
    committed := state.counters
    phase := next }

/-- A commit that raises though it happened. -/
def lose : RunState :=
  { state with session := state.session.commit }.fail settings

/-- A statement that succeeds or fails the job. -/
def statement (next : RunState) : RunEvent → Option RunState
  | .ok => some next
  | .raises _ => some (state.fail settings)
  | _ => none

/-- The same for a commit. -/
def commitStatement (next : RunState) : RunEvent → Option RunState
  | .ok => some next
  | .raises _ => some (state.fail settings)
  | .lost => some (state.lose settings)
  | _ => none

/-- An attempt at the terminal write, `left` of which remain. -/
def attemptTerminal (status : JobStatus) (counters : ImportCounters)
    (left : Nat) : RunEvent → Option RunState
  | .ok => some { state with row := some (status, counters), phase := .ended }
  | .raises _ =>
      some (state.goto (if left = 0 then .ended else .terminal status counters left))
  | .lost =>
      some { state with
        row := some (status, counters)
        phase := if left = 0 then .ended else .terminal status counters left }
  | _ => none

/-- `run_import`: opening the connection and claiming the job. -/
def prepare : RunPhase → RunEvent → Option RunState
  | .connecting, event => state.statement settings (state.goto .loading) event
  | .loading, .notPending => some (state.goto .ended)
  | .loading, event => state.statement settings (state.goto .marking) event
  | .marking, event => state.statement settings (state.goto .markCommitting) event
  | .markCommitting, .notPending =>
      some { state with session := state.session.commit, phase := .ended }
  | .markCommitting, event =>
      state.commitStatement settings
        { state with session := state.session.commit, phase := .fetching } event
  | _, _ => none

/-- The loop up to the savepoint of a message. -/
def meet : RunPhase → RunEvent → Option RunState
  | .fetching, .yields name =>
      some { state with
        yielded := state.yielded + 1
        phase := if name ∈ state.mailboxes then .savepoint
          else .openingMailbox name }
  | .fetching, .exhausted => some (state.goto (.committing false))
  | .fetching, .raises _ => some (state.fail settings)
  | .openingMailbox name, event =>
      state.statement settings (state.goto (.committingMailbox name)) event
  | .committingMailbox name, event =>
      state.commitStatement settings
        { state.commit .readingUid with mailboxes := name :: state.mailboxes }
        event
  | .readingUid, event => state.statement settings (state.goto .savepoint) event
  | .savepoint, event =>
      state.statement settings (state.goto (.upserting state.session.pending)) event
  | _, _ => none

/-- `process_one_message` and the savepoint it runs in. -/
def process : RunPhase → RunEvent → Option RunState
  | .upserting saved, .upserted didInsert =>
      some ((state.write (if didInsert then [.messageRow] else [])).goto
        (.labelling saved didInsert))
  | .upserting saved, .raises contention =>
      some (state.poison settings saved contention)
  | .labelling saved didInsert, .labelled hasAttachments =>
      some ((state.write [.label]).goto
        (if didInsert && hasAttachments then .storing saved
          else .releasing saved didInsert))
  | .labelling saved _, .raises contention =>
      some (state.poison settings saved contention)
  | .storing saved, .ok =>
      some ((state.write [.attachments]).goto (.releasing saved true))
  | .storing saved, .raises contention =>
      some (state.poison settings saved contention)
  | .releasing _ didInsert, .ok =>
      some (state.count (if didInsert then .inserted else .skippedDup))
  | .releasing saved _, .raises contention =>
      some (state.poison settings saved contention)
  | _, _ => none

/-- A poison message: rolled back, and recorded if that can be done. -/
def record : RunPhase → RunEvent → Option RunState
  | .rollingBack saved, event =>
      state.statement settings
        { state with
          session := state.session.rollbackTo saved
          phase := .readingFailedUid } event
  | .readingFailedUid, event =>
      state.statement settings (state.goto .failLog) event
  | .failLog, event => state.statement settings (state.goto .recording) event
  | .recording, .raises false => some (state.goto .unrecording)
  | .recording, event =>
      state.statement settings ((state.write [.failedRow]).count .failed) event
  | .unrecording, event => state.statement settings (state.count .failed) event
  | _, _ => none

/-- The checkpoint after a message. -/
def checkpoint : RunPhase → RunEvent → Option RunState
  | .counted, .elapsed seconds =>
      some (state.goto
        (if shouldCheckpoint settings state.counters.processed
            state.processedAtLastCheckpoint seconds then .flushing
          else .fetching))
  | .flushing, event =>
      state.statement settings (state.goto .flushCommitting) event
  | .flushCommitting, event =>
      state.commitStatement settings
        { state.commit .polling with
          processedAtLastCheckpoint := state.counters.processed } event
  | .polling, .polled cancelRequested =>
      some (state.goto (if cancelRequested then .committing true else .fetching))
  | .polling, .raises _ => some (state.fail settings)
  | _, _ => none

/-- The end of the run. -/
def finish : RunPhase → RunEvent → Option RunState
  | .committing cancelled, event =>
      state.commitStatement settings (state.commit (.closing cancelled)) event
  | .closing cancelled, event =>
      state.statement settings
        (state.goto (.terminal (if cancelled then .cancelled else .completed)
          state.counters settings.terminalWriteAttempts)) event
  | .terminal status counters (left + 1), event =>
      state.attemptTerminal status counters left event
  | _, _ => none

/-- One statement of the run. -/
def step (event : RunEvent) : Option RunState :=
  match state.phase with
  | .connecting | .loading | .marking | .markCommitting =>
      state.prepare settings state.phase event
  | .fetching | .openingMailbox _ | .committingMailbox _ | .readingUid
  | .savepoint => state.meet settings state.phase event
  | .upserting _ | .labelling _ _ | .storing _ | .releasing _ _ =>
      state.process settings state.phase event
  | .rollingBack _ | .readingFailedUid | .failLog | .recording | .unrecording =>
      state.record settings state.phase event
  | .counted | .flushing | .flushCommitting | .polling =>
      state.checkpoint settings state.phase event
  | .committing _ | .closing _ | .terminal _ _ _ =>
      state.finish settings state.phase event
  | .ended => none

end RunState

/-! ### What the row should say -/

/-- The messages of an outcome whose effects are durable. -/
def durableCount (state : RunState) (outcome : MessageOutcome) : Nat :=
  (List.range state.yielded).countP fun position =>
    effectOf state.session.durable position = some outcome

/-- The terminal row counts what is durable. -/
def CountersExact (state : RunState) : Prop :=
  ∀ status counters, state.row = some (status, counters) →
    counters.processed =
      counters.inserted + counters.skippedDup + counters.failed ∧
    ∀ outcome, counters.of outcome = durableCount state outcome

def RunPhase.isCommit : RunPhase → Bool
  | .markCommitting | .committingMailbox _ | .flushCommitting
  | .committing _ => true
  | _ => false

/-- The record of a failure is not given up, and a commit that is lost has
nothing to commit for messages counted since the last one. -/
def TellsItsEffects (state : RunState) (event : RunEvent) : Prop :=
  (state.phase = .recording → event ≠ .raises false) ∧
    (state.phase.isCommit = true → event = .lost →
      state.counters = state.committed)

instance (state : RunState) (event : RunEvent) :
    Decidable (TellsItsEffects state event) :=
  inferInstanceAs (Decidable (_ ∧ _))

end ImportRun

end Localmail
