/-
Archive imports.  `run_import` invents the UIDs of a mailbox: it reads the
highest one a label or a failure holds when a job first meets the mailbox, and
counts up in memory from there.  `retry_failed_messages` invents them again,
from the labels alone.  Jobs and retries run one after another, over any number
of archive accounts; whatever may raise, may raise.
-/
import Mathlib.Logic.Function.Basic
import Localmail.OrderLimit
import Localmail.SyncStore
import Localmail.LabelledRun

namespace Localmail

namespace Archive

/-! ### The tables -/

structure MailboxRow where
  id : Nat
  accountId : Nat
  name : String
deriving Repr, DecidableEq

structure MessageRow where
  id : Nat
  accountId : Nat
  key : DedupKey
  internalDate : Option Micros
deriving Repr, DecidableEq

structure LabelRow where
  messageId : Nat
  mailboxId : Nat
  uid : Nat
  flags : List String
deriving Repr, DecidableEq

structure FailedRow where
  id : Nat
  accountId : Nat
  mailboxId : Nat
  uid : Nat
  rawBytes : Bytes
  rawSha256 : Nat
  retryCount : Nat
deriving Repr, DecidableEq

/-- The rows of each table stand in the order of their ids, and each `next…Id`
is the next value of that table's sequence. -/
structure Db where
  mailboxes : List MailboxRow
  messages : List MessageRow
  labels : List LabelRow
  failed : List FailedRow
  nextMailboxId : Nat
  nextMessageId : Nat
  nextFailedId : Nat
deriving Repr, DecidableEq

def Db.empty : Db := ⟨[], [], [], [], 1, 1, 1⟩

/-- The account's message with this dedup key is archived, and labelled in the
mailbox. -/
def Db.Labelled (db : Db) (accountId mailboxId : Nat) (key : DedupKey) : Prop :=
  ∃ message ∈ db.messages, message.accountId = accountId ∧ message.key = key ∧
    ∃ label ∈ db.labels, label.messageId = message.id ∧
      label.mailboxId = mailboxId

instance (db : Db) (accountId mailboxId : Nat) (key : DedupKey) :
    Decidable (db.Labelled accountId mailboxId key) :=
  inferInstanceAs (Decidable (∃ message ∈ db.messages, _))

/-! ### `uids.py`, the reads -/

/-- `COALESCE(MAX(uid), 0)` over the labels of the mailbox. -/
def maxLabelUid (db : Db) (mailboxId : Nat) : Nat :=
  maxOrZero ((db.labels.filter fun row => row.mailboxId = mailboxId).map
    LabelRow.uid)

def maxReservedUid (db : Db) (accountId mailboxId : Nat) : Nat :=
  max (maxLabelUid db mailboxId)
    (maxOrZero ((db.failed.filter fun row =>
      row.accountId = accountId ∧ row.mailboxId = mailboxId).map
        FailedRow.uid))

/-! ### `sync.py`, the row helpers -/

/-- `upsert_mailbox`; an archive mailbox has no delimiter and no flags. -/
def upsertMailbox (db : Db) (accountId : Nat) (name : String) : Db × Nat :=
  match db.mailboxes.find? fun row =>
      row.accountId = accountId ∧ row.name = name with
  | some row => (db, row.id)
  | none =>
      ({ db with
          mailboxes := db.mailboxes ++ [⟨db.nextMailboxId, accountId, name⟩]
          nextMailboxId := db.nextMailboxId + 1 },
        db.nextMailboxId)

def existingMessageId (db : Db) (accountId : Nat) (key : DedupKey) :
    Option Nat :=
  (db.messages.find? fun row =>
    row.accountId = accountId ∧ row.key = key).map MessageRow.id

def upsertMessage (db : Db) (accountId : Nat) (parsed : ParsedMessage)
    (internalDate : Option Micros) : Db × Nat × Bool :=
  match existingMessageId db accountId parsed.dedupKey with
  | some id => (db, id, false)
  | none =>
      ({ db with
          messages := db.messages ++
            [⟨db.nextMessageId, accountId, parsed.dedupKey, internalDate⟩]
          nextMessageId := db.nextMessageId + 1 },
        db.nextMessageId, true)

/-- The UID belongs to another message of the mailbox. -/
def Db.uidTaken (db : Db) (messageDbId mailboxId uid : Nat) : Bool :=
  db.labels.any fun row =>
    row.mailboxId = mailboxId ∧ row.uid = uid ∧ row.messageId ≠ messageDbId

/-- `INSERT … ON CONFLICT (message_id, mailbox_id) DO UPDATE`.  `none` is the
violation of `UNIQUE (mailbox_id, uid)`. -/
def upsertLabel (db : Db) (messageDbId mailboxId uid : Nat)
    (flags : List String) : Option Db :=
  if db.uidTaken messageDbId mailboxId uid then none
  else if db.labels.any fun row =>
      row.messageId = messageDbId ∧ row.mailboxId = mailboxId then
    some { db with
      labels := db.labels.map fun row =>
        if row.messageId = messageDbId ∧ row.mailboxId = mailboxId then
          ⟨messageDbId, mailboxId, uid, flags⟩
        else row }
  else
    some { db with
      labels := db.labels ++ [⟨messageDbId, mailboxId, uid, flags⟩] }

/-- Why a message failed. -/
inductive Failure where
  /-- `UNIQUE (mailbox_id, uid)` -/
  | uidTaken
  /-- one of `db.DB_CONTENTION_ERRORS` -/
  | contention
  | other
deriving Repr, DecidableEq

/-- What raises while one message is handled, beside the parser and the
UID constraint: something before the label is written, something after it, and
the write of the failure itself. -/
structure Faults where
  upsert : Option Fault
  attachments : Option Fault
  record : Option Fault
deriving Repr, DecidableEq

def Faults.none : Faults := ⟨.none, .none, .none⟩

def Failure.ofFault : Fault → Failure
  | .contention => .contention
  | .other => .other

def processOneMessage (parse : Parser) (db : Db) (accountId mailboxId uid : Nat)
    (raw : Bytes) (flags : List String) (internalDate : Option Micros)
    (faults : Faults) : Except Failure (Db × Nat × Bool) :=
  match parse raw, faults.upsert with
  | none, _ => .error .other
  | some _, some fault => .error (.ofFault fault)
  | some parsed, none =>
      let upserted := upsertMessage db accountId parsed internalDate
      match upsertLabel upserted.1 upserted.2.1 mailboxId uid flags,
          faults.attachments with
      | none, _ => .error .uidTaken
      | some _, some fault => .error (.ofFault fault)
      | some linked, none => .ok (linked, upserted.2)

/-- `record_failed_message` on a write that goes through: an upsert on
`(account_id, mailbox_id, uid)`. -/
def recordFailedMessage (sha256 : Bytes → Nat) (db : Db)
    (accountId mailboxId uid : Nat) (raw : Bytes) : Db :=
  if db.failed.any fun row => row.accountId = accountId ∧
      row.mailboxId = mailboxId ∧ row.uid = uid then
    { db with
      failed := db.failed.map fun row =>
        if row.accountId = accountId ∧ row.mailboxId = mailboxId ∧
            row.uid = uid then
          { row with
            rawBytes := raw, rawSha256 := sha256 raw
            retryCount := row.retryCount + 1 }
        else row }
  else
    { db with
      failed := db.failed ++
        [⟨db.nextFailedId, accountId, mailboxId, uid, raw, sha256 raw, 0⟩]
      nextFailedId := db.nextFailedId + 1 }

/-- `DELETE FROM failed_messages WHERE id = %s`. -/
def deleteFailed (db : Db) (id : Nat) : Db :=
  { db with failed := db.failed.filter fun row => row.id ≠ id }

/-! ### `importer/runner.py` -/

structure ImportedMessage where
  mailboxName : String
  raw : Bytes
  receivedDate : Option Micros
deriving Repr, DecidableEq

/-- `ORDER BY uid LIMIT 1` over the rows of these bytes. -/
def failedUid (sha256 : Bytes → Nat) (db : Db) (accountId mailboxId : Nat)
    (raw : Bytes) : Option Nat :=
  ((db.failed.filter fun row => row.accountId = accountId ∧
    row.mailboxId = mailboxId ∧ row.rawSha256 = sha256 raw).map
      FailedRow.uid).min?

/-- A running job: its open transaction and its two dictionaries.
`uidCounters` is read at the names `mailboxIds` has. -/
structure Job where
  accountId : Nat
  work : Db
  mailboxIds : String → Option Nat
  uidCounters : String → Nat

def Job.start (accountId : Nat) (db : Db) : Job :=
  ⟨accountId, db, fun _ => none, fun _ => 0⟩

/-- The job meets a mailbox for the first time, and commits. -/
def Job.openMailbox (job : Job) (name : String) : Job :=
  let opened := upsertMailbox job.work job.accountId name
  { job with
    work := opened.1
    mailboxIds := Function.update job.mailboxIds name (some opened.2)
    uidCounters := Function.update job.uidCounters name
      (maxReservedUid opened.1 job.accountId opened.2) }

/-- The next UID of a mailbox the job has open. -/
def Job.nextUid (job : Job) (name : String) : Nat :=
  job.uidCounters name + 1

def Job.advance (job : Job) (name : String) (work : Db) : Job :=
  { job with
    work := work
    uidCounters := Function.update job.uidCounters name (job.nextUid name) }

/-- What handling a message comes to: the new contents of the transaction, or
an exception that leaves the loop; and the failure it logs, if any. -/
structure Handled where
  work : Option Db
  logged : Option Failure

/-- The exception handler of the loop body, after the rollback to the
savepoint. -/
def recordPill (db : Db) (recorded : Db) (record : Option Fault)
    (failure : Failure) : Handled :=
  match failure, record with
  | .contention, _ => ⟨none, some failure⟩
  | _, none => ⟨some recorded, some failure⟩
  | _, some .contention => ⟨none, some failure⟩
  | _, some .other => ⟨some db, some failure⟩

/-- The loop body for a message whose mailbox is open. -/
def Job.importMessage (sha256 : Bytes → Nat) (parse : Parser) (job : Job)
    (mailboxId : Nat) (message : ImportedMessage) (faults : Faults) : Handled :=
  let uid := job.nextUid message.mailboxName
  match processOneMessage parse job.work job.accountId mailboxId uid
      message.raw [] message.receivedDate faults with
  | .ok (work, _) => ⟨some work, none⟩
  | .error failure =>
      let prior := failedUid sha256 job.work job.accountId mailboxId message.raw
      recordPill job.work
        (recordFailedMessage sha256 job.work job.accountId mailboxId
          (prior.getD uid) message.raw) faults.record failure

/-! ### `sync.py`, the retry -/

/-- The rows `retry_failed_messages` reads, in the order of their ids. -/
def retryRows (db : Db) (scope : Option Nat) : List FailedRow :=
  db.failed.filter fun row => scope.all fun account => row.accountId = account

/-- One row of the retry; every account here is an archive account. -/
def retryRow (sha256 : Bytes → Nat) (parse : Parser) (db : Db)
    (row : FailedRow) (faults : Faults) : Handled :=
  let attemptUid :=
    if shouldReallocateUid .archive then
      nextUidAfter (some (maxLabelUid db row.mailboxId))
    else row.uid
  match processOneMessage parse db row.accountId row.mailboxId attemptUid
      row.rawBytes [] none faults with
  | .ok (work, _) => ⟨some (deleteFailed work row.id), none⟩
  | .error failure =>
      recordPill db
        (recordFailedMessage sha256 db row.accountId row.mailboxId row.uid
          row.rawBytes) faults.record failure

/-! ### The system -/

inductive Phase where
  | idle
  | importing (job : Job)
  | retrying (rows : List FailedRow)

/-- The committed tables, what is running, and every failure logged so far. -/
structure State where
  db : Db
  phase : Phase
  logged : List Failure

/-- One iteration of a loop, or its beginning or end.  The parser is the one
deployed at the time.  `abort` is any exception that leaves the job or the
retry, or the end of the process. -/
inductive Event where
  | startImport (accountId : Nat)
  | message (message : ImportedMessage) (parse : Parser) (faults : Faults)
      (checkpoint : Bool)
  | startRetry (scope : Option Nat)
  | retryNext (parse : Parser) (faults : Faults)
  | finish
  | abort

/-- The job with the mailbox of the message open, and the tables as committed
then. -/
def Job.meet (job : Job) (db : Db) (name : String) : Db × Job :=
  match job.mailboxIds name with
  | some _ => (db, job)
  | none => ((job.openMailbox name).work, job.openMailbox name)

def step (sha256 : Bytes → Nat) (state : State) : Event → Option State
  | .startImport accountId =>
      match state.phase with
      | .idle =>
          some { state with phase := .importing (.start accountId state.db) }
      | _ => none
  | .message message parse faults checkpoint =>
      match state.phase with
      | .importing job =>
          let met := job.meet state.db message.mailboxName
          match met.2.mailboxIds message.mailboxName with
          | none => none
          | some mailboxId =>
              let handled :=
                met.2.importMessage sha256 parse mailboxId message faults
              let logged := state.logged ++ handled.logged.toList
              match handled.work with
              | none => some ⟨met.1, .idle, logged⟩
              | some work =>
                  some
                    ⟨if checkpoint then work else met.1,
                      .importing (met.2.advance message.mailboxName work),
                      logged⟩
      | _ => none
  | .startRetry scope =>
      match state.phase with
      | .idle =>
          some { state with phase := .retrying (retryRows state.db scope) }
      | _ => none
  | .retryNext parse faults =>
      match state.phase with
      | .retrying (row :: rest) =>
          let handled := retryRow sha256 parse state.db row faults
          let logged := state.logged ++ handled.logged.toList
          match handled.work with
          | none => some ⟨state.db, .idle, logged⟩
          | some work => some ⟨work, .retrying rest, logged⟩
      | _ => none
  | .finish =>
      match state.phase with
      | .importing job => some { state with db := job.work, phase := .idle }
      | .retrying [] => some { state with phase := .idle }
      | _ => none
  | .abort => some { state with phase := .idle }

/-- What the running transaction sees. -/
def State.view (state : State) : Db :=
  match state.phase with
  | .importing job => job.work
  | .idle | .retrying _ => state.db

end Archive

end Localmail
