/-
Any number of `sync_mailbox` passes and `retry-failed-fetches` runs over one
mailbox, interleaved one statement or one round trip at a time.  Each has its
own connection and transaction; a statement that needs a row another of them
has locked waits.  The UIDVALIDITY is the stored one throughout, so the reset
branch of a pass is not part of this model.
-/
import Localmail.HeldBody
import Localmail.Processes
import Localmail.Savepoints
import Localmail.SyncPass

namespace Localmail

/-! ### The rows -/

/-- The rows the passes share, under the keys their statements find them by:
the mailbox, a message by its dedup key, a label by its message, and the rows
kept for a UID. -/
inductive SyncKey where
  | mailbox
  | message (key : DedupKey)
  | label (messageId : Nat)
  | failed (uid : Nat)
  | hold (uid : Nat)
deriving Repr, DecidableEq

def SyncRow : SyncKey → Type
  | .mailbox => MailboxRow
  | .message _ => MessageRow
  | .label _ => LabelRow
  | .failed _ => FailedRow
  | .hold _ => TransientFetch

/-- A row of each kind, or none, under every key. -/
abbrev SyncView := (key : SyncKey) → Option (SyncRow key)

structure OverlapShared where
  server : ImapServer
  store : RowStore SyncRow
  /-- The next value of `messages_id_seq`. -/
  nextMessageId : Nat
  /-- The UIDs a probe answered "gone" for. -/
  reportedAbsent : List Nat

/-- The hold row of `uid`. -/
def holdOf (uid : Nat) : (key : SyncKey) → SyncRow key → Bool
  | .hold other, _ => other = uid
  | .mailbox, _ | .message _, _ | .label _, _ | .failed _, _ => false

def isHold : (key : SyncKey) → SyncRow key → Bool
  | .hold _, _ => true
  | .mailbox, _ | .message _, _ | .label _, _ | .failed _, _ => false

/-- `gave_up_at IS NOT NULL`. -/
def isTombstone : (key : SyncKey) → SyncRow key → Bool
  | .hold _, (row : TransientFetch) => row.gaveUpAt.isSome
  | .mailbox, _ | .message _, _ | .label _, _ | .failed _, _ => false

/-- `uid < resumeAt AND gave_up_at IS NULL`. -/
def isDeadBelow (resumeAt : Nat) : (key : SyncKey) → SyncRow key → Bool
  | .hold uid, (row : TransientFetch) => uid < resumeAt && row.gaveUpAt.isNone
  | .mailbox, _ | .message _, _ | .label _, _ | .failed _, _ => false

def SyncKey.heldUid : SyncKey → Option Nat
  | .hold uid => some uid
  | .mailbox | .message _ | .label _ | .failed _ => none

/-- The row of `record_attempt`. -/
def attemptRow (current : Option TransientFetch) (uid : Nat) (txNow : Micros) :
    TransientFetch :=
  match current with
  | some row => { row with attemptCount := row.attemptCount + 1, lastSeenAt := txNow }
  | none => ⟨uid, 1, txNow, txNow, none⟩

/-- The row of `mark_gave_up`. -/
def gaveUpRow (row : TransientFetch) (txNow : Micros) : TransientFetch :=
  { row with gaveUpAt := some (row.gaveUpAt.getD txNow) }

/-- The row of `record_failed_message`. -/
def failedRow (current : Option FailedRow) (uid : Nat) (raw : Bytes) :
    FailedRow :=
  match current with
  | some row => ⟨uid, raw, row.retryCount + 1⟩
  | none => ⟨uid, raw, 0⟩

/-- What `arm_for_retry` makes of a row. -/
def armRow (now : Micros) : (key : SyncKey) → SyncRow key → SyncRow key
  | .hold _, (row : TransientFetch) =>
      ({ row with attemptCount := 0, firstSeenAt := now, lastSeenAt := now } :
        TransientFetch)
  | .mailbox, row => row
  | .message _, row => row
  | .label _, row => row
  | .failed _, row => row

/-! ### A process -/

/-- The local variables of the fetch loop.  `received` records the UIDs whose
body arrived since the last commit. -/
structure SyncLoop where
  args : PassArgs
  serverUidvalidity : Nat
  now : Micros
  batches : List (List Nat)
  highestSeen : Nat
  holdAt : Option Nat
  serverEmptyingBodies : Bool
  heldAttempts : List Nat
  inserted : Nat
  received : List Nat
deriving Repr, DecidableEq

/-- What a pass does next for the UID it is at.  From the per-message
SAVEPOINT on it keeps what the transaction had written by then. -/
inductive UidStage where
  | look
  | record
  | giveUp
  | clearing (candidates : List SyncKey)
  | storing
  | inserting (saved : Overlay SyncRow) (parsed : ParsedMessage)
  | rereading (saved : Overlay SyncRow) (parsed : ParsedMessage)
  | labelling (saved : Overlay SyncRow) (parsed : ParsedMessage)
      (messageDbId : Nat) (didInsert : Bool)
  | attaching (saved : Overlay SyncRow) (parsed : ParsedMessage)
      (didInsert : Bool)
  | failing

/-- A pass from `upsert_mailbox` on, or a run of `retry-failed-fetches` from
`listing` on.  The constructor says which statement or round trip is next. -/
inductive SyncProc where
  | starting (args : PassArgs)
  | opened (args : PassArgs) (row : MailboxRow)
  | ready (args : PassArgs) (row : MailboxRow)
  | selected (selected : Selected)
  | empty (selected : Selected)
  | searched (selected : Selected) (uids : List Nat)
  | between (loop : SyncLoop)
  | handling (loop : SyncLoop) (uid : Nat) (chunk : List Nat)
      (fetched : List FetchData) (stage : UidStage)
  | chunkDone (loop : SyncLoop)
  | checkpointed (loop : SyncLoop) (resumeAt : Nat)
  | reclaiming (loop : SyncLoop) (resumeAt : Nat) (candidates : List SyncKey)
  | reclaimed (loop : SyncLoop)
  | listing
  | planning (tombstones : List Nat)
  | rewinding (plan : Option Nat)
  | arming
  | armed (candidates : List SyncKey)
  | closing
  | finished

/-- What the outside answers a step with: nothing of interest, whether SELECT
reports a UIDNEXT, the clock, a FETCH response, a probe, or an exception. -/
inductive StepAnswer where
  | done
  | select (reportsUidnext : Bool)
  | now (moment : Micros)
  | fetch (data : List FetchData)
  | probe (stillOnServer : Bool)
  | raised (fault : Fault)
deriving Repr, DecidableEq

namespace OverlapShared

variable (shared : OverlapShared) (tx : Nat)

def put (key : SyncKey) (version : Option (SyncRow key)) : OverlapShared :=
  { shared with store := shared.store.put tx key version }

def commit : OverlapShared :=
  { shared with store := shared.store.commit tx }

def rollback : OverlapShared :=
  { shared with store := shared.store.rollback tx }

/-- `update_mailbox_progress`. -/
def updateProgress (uidvalidity uidnext : Nat) : Option OverlapShared :=
  if shared.store.Free tx .mailbox then
    some (shared.put tx .mailbox
      (some (⟨some uidvalidity, some uidnext⟩ : MailboxRow)))
  else none

end OverlapShared

/-- On to the next UID of the chunk, or to its checkpoint. -/
def nextUid (loop : SyncLoop) (chunk : List Nat) (fetched : List FetchData) :
    SyncProc :=
  match chunk with
  | [] => .chunkDone loop
  | uid :: rest => .handling loop uid rest fetched .look

/-- Past `uid`: it is dealt with. -/
def SyncLoop.pass (loop : SyncLoop) (uid : Nat) : SyncLoop :=
  { loop with highestSeen := max loop.highestSeen uid }

/-- `uid` clamps the resume point. -/
def SyncLoop.hold (loop : SyncLoop) (uid : Nat) : SyncLoop :=
  { loop with
    heldAttempts := uid :: loop.heldAttempts
    holdAt := some ((loop.holdAt.map fun held => min held uid).getD uid) }

section Steps

variable (parse : Parser) (tx : Nat) (shared : OverlapShared)

/-- An exception inside the savepoint: contention ends the pass, anything else
sets the message aside. -/
def raiseTo (saved : Overlay SyncRow) (failing : SyncProc) (fault : Fault) :
    OverlapShared × SyncProc :=
  match fault with
  | .contention => (shared.rollback tx, .finished)
  | .other =>
      ({ shared with store := shared.store.rollbackTo tx saved }, failing)

/-- One step for the UID a pass is at.  `proceed` is the pass at another stage
of the same UID, and `next` the pass gone on to the next one. -/
def uidStep (loop : SyncLoop) (uid : Nat) (fetched : List FetchData)
    (proceed : SyncLoop → UidStage → SyncProc) (next : SyncLoop → SyncProc) :
    UidStage → StepAnswer → Option (OverlapShared × SyncProc)
  | .look, answer =>
      match fetchedBody fetched uid with
      | none =>
          if loop.serverEmptyingBodies then some (shared, proceed loop .record)
          else
            match answer with
            | .probe true =>
                some (shared,
                  proceed { loop with serverEmptyingBodies := true } .record)
            | .probe false =>
                if uid ∉ shared.server.uids then
                  some ({ shared with
                      reportedAbsent := uid :: shared.reportedAbsent },
                    next (loop.pass uid))
                else none
            | _ => none
      | some _ =>
          if uid ∈ loop.heldAttempts then
            some (shared,
              proceed loop (.clearing (shared.store.scan tx (holdOf uid))))
          else some (shared, proceed loop .storing)
  | .record, .now txNow =>
      if shared.store.Free tx (.hold uid) then
        let row := attemptRow (shared.store.view tx (.hold uid)) uid txNow
        some (shared.put tx (.hold uid) (some row),
          if holdExpired row.firstSeenAt loop.now loop.args.maxBodyFetchHold then
            proceed loop .giveUp
          else next (loop.hold uid))
      else none
  | .giveUp, .now txNow =>
      match shared.store.view tx (.hold uid) with
      | none => some (shared, next (loop.pass uid))
      | some row =>
          if shared.store.Free tx (.hold uid) then
            some (shared.put tx (.hold uid) (some (gaveUpRow row txNow)),
              next (loop.pass uid))
          else none
  | .clearing candidates, .done =>
      (shared.store.deleteChosen tx (holdOf uid) candidates).map fun store =>
        ({ shared with store := store },
          proceed
            { loop with
              heldAttempts := loop.heldAttempts.filter fun held => held ≠ uid }
            .storing)
  | .storing, answer =>
      let saved := shared.store.own tx
      let failing := proceed loop .failing
      match answer, (fetchedBody fetched uid).bind fun data => parse data.body with
      | .raised fault, _ => some (raiseTo tx shared saved failing fault)
      | .done, none => some (raiseTo tx shared saved failing .other)
      | .done, some parsed =>
          match shared.store.view tx (.message parsed.dedupKey) with
          | some (row : MessageRow) =>
              some (shared, proceed loop (.labelling saved parsed row.id false))
          | none => some (shared, proceed loop (.inserting saved parsed))
      | _, _ => none
  | .inserting saved parsed, .done =>
      let key := parsed.dedupKey
      if shared.store.Free tx (.message key) then
        match shared.store.view tx (.message key) with
        | some _ => some (shared, proceed loop (.rereading saved parsed))
        | none =>
            let id := shared.nextMessageId
            let row : MessageRow :=
              ⟨id, key, (fetchedBody fetched uid).bind FetchData.internalDate⟩
            some ({ shared.put tx (.message key) (some row) with
                nextMessageId := id + 1 },
              proceed loop (.labelling saved parsed id true))
      else none
  | .rereading saved parsed, .done =>
      match shared.store.view tx (.message parsed.dedupKey) with
      | some (row : MessageRow) =>
          some (shared, proceed loop (.labelling saved parsed row.id false))
      | none => some (raiseTo tx shared saved (proceed loop .failing) .other)
  | .labelling saved parsed id didInsert, .done =>
      if shared.store.Free tx (.label id) then
        let flags := ((fetchedBody fetched uid).map FetchData.flags).getD []
        some (shared.put tx (.label id) (some (⟨id, uid, flags⟩ : LabelRow)),
          proceed loop (.attaching saved parsed didInsert))
      else none
  | .attaching _ _ didInsert, .done =>
      some (shared, next { loop.pass uid with
        inserted := loop.inserted + (if didInsert then 1 else 0) })
  | .inserting saved _, .raised fault | .rereading saved _, .raised fault
  | .labelling saved _ _ _, .raised fault | .attaching saved _ _, .raised fault =>
      some (raiseTo tx shared saved (proceed loop .failing) fault)
  | .failing, .done =>
      if shared.store.Free tx (.failed uid) then
        let raw := ((fetchedBody fetched uid).map FetchData.body).getD []
        some (shared.put tx (.failed uid)
            (some (failedRow (shared.store.view tx (.failed uid)) uid raw)),
          next (loop.pass uid))
      else none
  | _, _ => none

/-- The loop as it stands before the first FETCH. -/
def startLoop (selected : Selected) (uids : List Nat) (now : Micros) :
    SyncLoop where
  args := selected.args
  serverUidvalidity := selected.serverUidvalidity
  now := now
  batches := batches batchSize uids
  highestSeen := resumeFrom selected.row - 1
  holdAt := none
  serverEmptyingBodies := false
  heldAttempts := (shared.store.scan tx isHold).filterMap SyncKey.heldUid
  inserted := 0
  received := []

/-- The UIDs a FETCH response has a body for. -/
def bodiesIn (data : List FetchData) : List Nat :=
  (data.filter fun item => item.body ≠ []).map FetchData.uid

/-- The next step of a process. -/
def procStep : SyncProc → StepAnswer → Option (OverlapShared × SyncProc)
  | .starting args, .done =>
      match shared.store.view tx .mailbox with
      | some row =>
          if shared.store.Free tx .mailbox then
            some (shared.put tx .mailbox (some row), .opened args row)
          else none
      | none => none
  | .opened args row, .done => some (shared.commit tx, .ready args row)
  | .ready args row, .select reportsUidnext =>
      some (shared, .selected ⟨args, row, shared.server.uidvalidity,
        if reportsUidnext then shared.server.uidnext else 0⟩)
  | .selected selected, .done =>
      if selected.fullSync then none
      else
        let uids := capUids (candidateUids shared.server selected)
          selected.args.maxMessages
        if uids = [] then some (shared, .empty selected)
        else some (shared, .searched selected uids)
  | .empty selected, .done =>
      (shared.updateProgress tx selected.serverUidvalidity
        (emptyUidnext selected)).map fun after => (after, .closing)
  | .searched selected uids, .now moment =>
      some (shared, .between (startLoop tx shared selected uids moment))
  | .between loop, .fetch data =>
      match loop.batches with
      | [] => none
      | chunk :: rest =>
          if ∀ item ∈ data, item.body ≠ [] →
              ⟨item.uid, item.body⟩ ∈ shared.server.messages then
            some (shared,
              nextUid { loop with
                batches := rest
                received := bodiesIn data ++ loop.received } chunk data)
          else none
  | .handling loop uid chunk fetched stage, answer =>
      uidStep parse tx shared loop uid fetched
        (fun after stage => .handling after uid chunk fetched stage)
        (fun after => nextUid after chunk fetched) stage answer
  | .chunkDone loop, .done =>
      let resumeAt := checkpointUidnext loop.highestSeen loop.holdAt
      (shared.updateProgress tx loop.serverUidvalidity resumeAt).map
        fun after => (after, .checkpointed loop resumeAt)
  | .checkpointed loop resumeAt, .done =>
      some (shared, .reclaiming loop resumeAt
        (shared.store.scan tx (isDeadBelow resumeAt)))
  | .reclaiming loop resumeAt candidates, .done =>
      (shared.store.deleteChosen tx (isDeadBelow resumeAt) candidates).map
        fun store => ({ shared with store := store }, .reclaimed loop)
  | .reclaimed loop, .done =>
      some (shared.commit tx,
        if loop.batches = [] then .finished
        else .between { loop with received := [] })
  | .listing, .done =>
      let tombstones :=
        (shared.store.scan tx isTombstone).filterMap SyncKey.heldUid
      some (shared, if tombstones = [] then .finished else .planning tombstones)
  | .planning tombstones, .done =>
      let current := (shared.store.view tx .mailbox).bind MailboxRow.uidnext
      some (shared, .rewinding (planUidnextRewind
        (tombstones.map fun uid => (0, uid)) (fun _ => current) 0))
  | .rewinding none, .done => some (shared, .arming)
  | .rewinding (some resumeAt), .done =>
      match shared.store.view tx .mailbox with
      | some (row : MailboxRow) =>
          if shared.store.Free tx .mailbox then
            some (shared.put tx .mailbox
              (some ({ row with uidnext := some resumeAt } : MailboxRow)),
              .arming)
          else none
      | none => some (shared, .arming)
  | .arming, .done =>
      some (shared, .armed (shared.store.scan tx isTombstone))
  | .armed candidates, .now moment =>
      (shared.store.updateChosen tx isTombstone (armRow moment) candidates).map
        fun store => ({ shared with store := store }, .closing)
  | .closing, .done => some (shared.commit tx, .finished)
  | _, _ => none

variable {parse tx shared} in
/-- A failed message is recorded and its UID passed. -/
theorem procStep_failing {loop : SyncLoop} {uid : Nat} {chunk : List Nat}
    {fetched : List FetchData} {after : OverlapShared} {next : SyncProc}
    (hstep : procStep parse tx shared
      (.handling loop uid chunk fetched .failing) .done = some (after, next)) :
    shared.store.Free tx (.failed uid) ∧
      after = shared.put tx (.failed uid)
        (some (failedRow (shared.store.view tx (.failed uid)) uid
          (((fetchedBody fetched uid).map FetchData.body).getD []))) ∧
      next = nextUid (loop.pass uid) chunk fetched := by
  simp only [procStep, uidStep] at hstep
  obtain ⟨hfree, hsome⟩ := Option.ite_none_right_eq_some.mp hstep
  obtain ⟨rfl, rfl⟩ := Prod.mk.inj (Option.some.inj hsome)
  exact ⟨hfree, rfl, rfl⟩

end Steps

/-! ### Every interleaving -/

/-- A process as it starts: a pass with its arguments, or
`retry-failed-fetches`. -/
def SyncProc.initial : SyncProc → Bool
  | .starting _ | .listing => true
  | _ => false

inductive OverlapEvent where
  | deliver (message : ServerMessage)
  | expunge (uid : Nat)
  | spawn (proc : SyncProc)
  | step (pid : Nat) (answer : StepAnswer)
  | crash (pid : Nat)

abbrev OverlapWorld := World OverlapShared SyncProc

/-- The mailbox on the server changed. -/
def OverlapWorld.moved (world : OverlapWorld) (server : ImapServer) :
    OverlapWorld :=
  { world with shared := { world.shared with server := server } }

def overlapStep (parse : Parser) (world : OverlapWorld) :
    OverlapEvent → Option OverlapWorld
  | .deliver message =>
      if world.shared.server.uidnext ≤ message.uid then
        some (OverlapWorld.moved world
          { world.shared.server with
            uidnext := message.uid + 1
            messages := world.shared.server.messages ++ [message] })
      else none
  | .expunge uid =>
      some (OverlapWorld.moved world
        { world.shared.server with
          messages := world.shared.server.messages.filter
            fun message => message.uid ≠ uid })
  | .spawn proc =>
      if proc.initial then some { world with procs := world.procs ++ [proc] }
      else none
  | .step pid answer =>
      match world.procs[pid]? with
      | none => none
      | some proc =>
          (procStep parse pid world.shared proc answer).map
            fun (shared, after) => ⟨shared, world.procs.set pid after⟩
  | .crash pid =>
      match world.procs[pid]? with
      | none => none
      | some _ =>
          some ⟨world.shared.rollback pid, world.procs.set pid .finished⟩

/-- What a step can be. -/
theorem overlapStep_cases {parse : Parser} {world next : OverlapWorld}
    {event : OverlapEvent} (hstep : overlapStep parse world event = some next) :
    (∃ message, event = .deliver message ∧
      world.shared.server.uidnext ≤ message.uid ∧
      next = OverlapWorld.moved world
        { world.shared.server with
          uidnext := message.uid + 1
          messages := world.shared.server.messages ++ [message] }) ∨
    (∃ uid, event = .expunge uid ∧
      next = OverlapWorld.moved world
        { world.shared.server with
          messages := world.shared.server.messages.filter
            fun message => message.uid ≠ uid }) ∨
    (∃ proc, event = .spawn proc ∧ proc.initial = true ∧
      next = { world with procs := world.procs ++ [proc] }) ∨
    (∃ pid answer proc shared after, event = .step pid answer ∧
      world.procs[pid]? = some proc ∧
      procStep parse pid world.shared proc answer = some (shared, after) ∧
      next = ⟨shared, world.procs.set pid after⟩) ∨
    (∃ pid proc, event = .crash pid ∧ world.procs[pid]? = some proc ∧
      next = ⟨world.shared.rollback pid, world.procs.set pid .finished⟩) := by
  cases event with
  | deliver message =>
      obtain ⟨hfresh, hnext⟩ := Option.ite_none_right_eq_some.mp hstep
      exact .inl ⟨message, rfl, hfresh, (Option.some.inj hnext).symm⟩
  | expunge uid =>
      exact .inr (.inl ⟨uid, rfl, (Option.some.inj hstep).symm⟩)
  | spawn proc =>
      obtain ⟨hinitial, hnext⟩ := Option.ite_none_right_eq_some.mp hstep
      exact .inr (.inr (.inl
        ⟨proc, rfl, hinitial, (Option.some.inj hnext).symm⟩))
  | step pid answer =>
      simp only [overlapStep] at hstep
      split at hstep
      · cases hstep
      · rename_i proc hproc
        obtain ⟨⟨shared, after⟩, hadvance, rfl⟩ :=
          Option.map_eq_some_iff.mp hstep
        exact .inr (.inr (.inr (.inl
          ⟨pid, answer, proc, shared, after, rfl, hproc, hadvance, rfl⟩)))
  | crash pid =>
      simp only [overlapStep] at hstep
      split at hstep
      · cases hstep
      · rename_i proc hproc
        exact .inr (.inr (.inr (.inr
          ⟨pid, proc, rfl, hproc, (Option.some.inj hstep).symm⟩)))

end Localmail
