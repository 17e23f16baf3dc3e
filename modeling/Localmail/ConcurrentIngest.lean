/-
`process_one_message` in any number of transactions at once, under READ
COMMITTED: look for the row, insert it unless a unique index has its key, look
again, label it, and let the one that inserted write the attachments.  A
transaction waits for a rival's uncommitted row; it may roll back anywhere.
-/
import Localmail.MailParser
import Localmail.Processes
import Localmail.ReadCommitted

namespace Localmail

namespace Ingest

/-! ### The tables -/

/-- What the two partial unique indexes on `messages` are about: the Message-Id
of a row that has one, the digest of one that has none. -/
inductive MailKey where
  | messageId (value : Text)
  | rawSha256 (digest : Bytes)
deriving Repr, DecidableEq

def mailKey (messageId : Option Text) (rawSha256 : Bytes) : MailKey :=
  match messageId with
  | some value => .messageId value
  | none => .rawSha256 rawSha256

/-- An entry of `messages.attachments`. -/
structure AttachmentEntry where
  filename : Text
  sha256 : Bytes
  contentId : Option Text
deriving Repr, DecidableEq

structure MessageRow where
  messageId : Option Text
  rawSha256 : Bytes
  attachments : List AttachmentEntry
deriving Repr, DecidableEq

def MessageRow.key (row : MessageRow) : MailKey :=
  mailKey row.messageId row.rawSha256

structure LabelRow where
  uid : Nat
  flags : List Text
deriving Repr, DecidableEq

structure BlobRow where
  mimeType : Text
  sizeBytes : Nat
deriving Repr, DecidableEq

inductive RowKey where
  | message (id : Nat)
  | label (messageId mailboxId : Nat)
  | blob (sha256 : Bytes)
deriving Repr, DecidableEq

abbrev IngestRow : RowKey → Type
  | .message _ => MessageRow
  | .label _ _ => LabelRow
  | .blob _ => BlobRow

/-- The rows of one account, and the next value of `messages_id_seq`. -/
structure Tables where
  store : RowStore IngestRow
  nextMessageId : Nat

/-! ### The statements -/

section Statements

variable (tables : Tables) (tx : Nat)

def Tables.put (key : RowKey) (row : IngestRow key) : Tables :=
  { tables with store := tables.store.put tx key (some row) }

/-- `_existing_message_id`. -/
def existingMessageId (key : MailKey) : Option Nat :=
  tables.store.keys.findSome? fun
    | .message id =>
        if (tables.store.view tx (.message id)).any fun row => row.key = key then
          some id
        else none
    | .label _ _ | .blob _ => none

/-- Another transaction has inserted a row with the key and not ended yet. -/
def heldByRival (key : MailKey) : Bool :=
  tables.store.keys.any fun
    | .message id =>
        (tables.store.owner (.message id)).any (fun other => other ≠ tx) &&
          (tables.store.dirty (.message id)).any fun row => row.key = key
    | .label _ _ | .blob _ => false

/-- `INSERT INTO messages … ON CONFLICT DO NOTHING RETURNING id`; it waits for
a rival's row, and draws an id either way. -/
def insertMessage (parsed : ParsedMail) : Option (Tables × Option Nat) :=
  let key := mailKey parsed.messageId parsed.rawSha256
  let id := tables.nextMessageId
  let drawn := { tables with nextMessageId := id + 1 }
  if heldByRival tables tx key then none
  else if (existingMessageId tables tx key).isSome then some (drawn, none)
  else
    some (drawn.put tx (.message id) ⟨parsed.messageId, parsed.rawSha256, []⟩,
      some id)

/-- `upsert_label`; a UID that is taken raises, which rolls back. -/
def upsertLabel (messageDbId mailboxId uid : Nat) (flags : List Text) :
    Option Tables :=
  let key := RowKey.label messageDbId mailboxId
  if tables.store.Free tx key then some (tables.put tx key ⟨uid, flags⟩)
  else none

/-- `INSERT INTO attachment_blobs … ON CONFLICT (sha256) DO NOTHING`. -/
def insertBlob (digest : Bytes → Bytes) (attachment : Attachment) :
    Option Tables :=
  let key := RowKey.blob (digest attachment.payload)
  if tables.store.Free tx key then
    match tables.store.view tx key with
    | some _ => some tables
    | none =>
        some (tables.put tx key
          ⟨attachment.mimeType, attachment.payload.length⟩)
  else none

/-- `set_message_attachments`. -/
def setMessageAttachments (messageDbId : Nat) (rows : List AttachmentEntry) :
    Option Tables :=
  let key := RowKey.message messageDbId
  if tables.store.Free tx key then
    match tables.store.view tx key with
    | some row => some (tables.put tx key { row with attachments := rows })
    | none => some tables
  else none

end Statements

/-! ### `process_one_message` -/

/-- What a call is given, parsed. -/
structure IngestJob where
  parsed : ParsedMail
  mailboxId : Nat
  uid : Nat
  flags : List Text
deriving Repr, DecidableEq

def IngestJob.key (job : IngestJob) : MailKey :=
  mailKey job.parsed.messageId job.parsed.rawSha256

/-- The entry `write_attachments` makes. -/
def attachmentEntry (digest : Bytes → Bytes) (attachment : Attachment) :
    AttachmentEntry :=
  ⟨sanitizeFilename attachment.filename, digest attachment.payload,
    given attachment.contentId⟩

def IngestJob.entries (digest : Bytes → Bytes) (job : IngestJob) :
    List AttachmentEntry :=
  job.parsed.attachments.map (attachmentEntry digest)

/-- A transaction of one call, between two statements. -/
inductive IngestProc where
  | starting (job : IngestJob)
  | inserting (job : IngestJob)
  | rereading (job : IngestJob)
  | labelling (job : IngestJob) (id : Nat) (didInsert : Bool)
  | storing (job : IngestJob) (id : Nat) (remaining : List Attachment)
      (rows : List AttachmentEntry)
  | returned (job : IngestJob) (id : Nat) (didInsert : Bool)
  | committed (job : IngestJob) (id : Nat) (didInsert : Bool)
  | rolledBack
deriving Repr, DecidableEq

def Tables.commit (tables : Tables) (tx : Nat) : Tables :=
  { tables with store := tables.store.commit tx }

def Tables.rollback (tables : Tables) (tx : Nat) : Tables :=
  { tables with store := tables.store.rollback tx }

/-- The next statement of a transaction, if it need not wait. -/
def IngestProc.advance (digest : Bytes → Bytes) (tx : Nat) (tables : Tables) :
    IngestProc → Option (Tables × IngestProc)
  | .starting job =>
      match existingMessageId tables tx job.key with
      | some id => some (tables, .labelling job id false)
      | none => some (tables, .inserting job)
  | .inserting job =>
      (insertMessage tables tx job.parsed).map fun (tables, inserted) =>
        match inserted with
        | some id => (tables, .labelling job id true)
        | none => (tables, .rereading job)
  | .rereading job =>
      match existingMessageId tables tx job.key with
      | some id => some (tables, .labelling job id false)
      | none => some (tables.rollback tx, .rolledBack)
  | .labelling job id didInsert =>
      (upsertLabel tables tx id job.mailboxId job.uid job.flags).map
        fun tables =>
          if didInsert && !job.parsed.attachments.isEmpty then
            (tables, .storing job id job.parsed.attachments [])
          else (tables, .returned job id didInsert)
  | .storing job id (attachment :: remaining) rows =>
      (insertBlob tables tx digest attachment).map fun tables =>
        (tables, .storing job id remaining
          (rows ++ [attachmentEntry digest attachment]))
  | .storing job id [] rows =>
      (setMessageAttachments tables tx id rows).map fun tables =>
        (tables, .returned job id true)
  | .returned job id didInsert =>
      some (tables.commit tx, .committed job id didInsert)
  | .committed _ _ _ | .rolledBack => none

def IngestProc.isStarting : IngestProc → Bool
  | .starting _ => true
  | _ => false

def IngestProc.isFinished : IngestProc → Bool
  | .committed _ _ _ | .rolledBack => true
  | _ => false

/-- A crash is any exception and any rollback of the caller. -/
def ingestRules (digest : Bytes → Bytes) :
    ProcessRules Tables IngestProc Empty where
  advance tx tables proc := proc.advance digest tx tables
  abandon tx tables := tables.rollback tx
  stopped := .rolledBack
  finished := IngestProc.isFinished
  initial := IngestProc.isStarting
  outside := fun _ change => nomatch change

abbrev IngestWorld := World Tables IngestProc

def ingestStep (digest : Bytes → Bytes) :
    IngestWorld → WorldEvent IngestProc Empty → Option IngestWorld :=
  worldStep (ingestRules digest)

/-- An account no transaction writes to, with each key once. -/
structure QuietTables extends Tables where
  idle : ∀ key, store.owner key = none
  fresh : ∀ id, store.committed (.message id) ≠ none → id < nextMessageId
  unique : ∀ left right leftRow rightRow,
    store.committed (.message left) = some leftRow →
    store.committed (.message right) = some rightRow →
    leftRow.key = rightRow.key → left = right

/-- Of each key there is one committed row at most; whoever has committed has
labelled that of its key and returned its id; and one that was inserted has the
attachments of whoever inserted it. -/
structure IngestedOnce (digest : Bytes → Bytes) (world : IngestWorld) :
    Prop where
  unique : ∀ left right leftRow rightRow,
    world.shared.store.committed (.message left) = some leftRow →
    world.shared.store.committed (.message right) = some rightRow →
    leftRow.key = rightRow.key → left = right
  labelled : ∀ (tx : Nat) (job : IngestJob) (id : Nat) (didInsert : Bool),
    world.procs[tx]? = some (.committed job id didInsert) →
    ∃ row, world.shared.store.committed (.message id) = some row ∧
      row.key = job.key ∧
      (world.shared.store.committed (.label id job.mailboxId)).isSome = true ∧
      (didInsert = true → row.attachments = job.entries digest)

end Ingest

end Localmail
