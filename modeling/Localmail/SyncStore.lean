/-
The database slice one mailbox's sync writes: its `mailboxes` row, the
account's `messages`, and the `message_labels`, `failed_messages` and
`transient_fetches` rows of that mailbox.  Every function here is one helper of
`sync.py`, `uids.py` or `fetch_retry.py`, applied to the rows it touches.
-/
import Localmail.KeyedRows
import Mathlib.Data.List.Basic
import Mathlib.Tactic.Common

namespace Localmail

/-- A raw message body. -/
abbrev Bytes := List UInt8

/-- A point or a span of the server clock, in microseconds. -/
abbrev Micros := Int

/-- The fields of `parser.ParsedMessage` that decide which row a message is. -/
structure ParsedMessage where
  messageId : Option String
  rawSha256 : Nat
deriving Repr, DecidableEq

/-- The key of the two partial unique indexes on `messages`: the Message-Id
when there is one, the raw digest otherwise. -/
inductive DedupKey where
  | messageId (value : String)
  | rawSha256 (digest : Nat)
deriving Repr, DecidableEq

def ParsedMessage.dedupKey (parsed : ParsedMessage) : DedupKey :=
  match parsed.messageId with
  | some value => .messageId value
  | none => .rawSha256 parsed.rawSha256

/-- `parser.parse_message`; `none` when it raises. -/
abbrev Parser := Bytes → Option ParsedMessage

structure MailboxRow where
  uidvalidity : Option Nat
  uidnext : Option Nat
deriving Repr, DecidableEq

structure MessageRow where
  id : Nat
  key : DedupKey
  internalDate : Option Micros
deriving Repr, DecidableEq

structure LabelRow where
  messageId : Nat
  uid : Nat
  flags : List String
deriving Repr, DecidableEq

structure FailedRow where
  uid : Nat
  rawBytes : Bytes
  retryCount : Nat
deriving Repr, DecidableEq

/-- A `transient_fetches` row.  With `gaveUpAt` set it is a tombstone. -/
structure TransientFetch where
  uid : Nat
  attemptCount : Nat
  firstSeenAt : Micros
  lastSeenAt : Micros
  gaveUpAt : Option Micros
deriving Repr, DecidableEq

structure SyncDb where
  mailbox : MailboxRow
  messages : List MessageRow
  /-- The next value of `messages_id_seq`. -/
  nextMessageId : Nat
  labels : List LabelRow
  failed : List FailedRow
  holds : List TransientFetch
deriving Repr, DecidableEq

namespace SyncDb

/-- The message with this dedup key is labelled in the mailbox. -/
def Linked (db : SyncDb) (key : DedupKey) : Prop :=
  ∃ message ∈ db.messages, message.key = key ∧
    ∃ label ∈ db.labels, label.messageId = message.id

/-- The UID has a `failed_messages` row in the mailbox. -/
def Failed (db : SyncDb) (uid : Nat) : Prop :=
  ∃ row ∈ db.failed, row.uid = uid

/-- The UID has a give-up tombstone. -/
def Tombstoned (db : SyncDb) (uid : Nat) : Prop :=
  ∃ row ∈ db.holds, row.uid = uid ∧ row.gaveUpAt.isSome

instance (db : SyncDb) (key : DedupKey) : Decidable (db.Linked key) :=
  inferInstanceAs (Decidable (∃ message ∈ db.messages, _))

instance (db : SyncDb) (uid : Nat) : Decidable (db.Failed uid) :=
  inferInstanceAs (Decidable (∃ row ∈ db.failed, _))

instance (db : SyncDb) (uid : Nat) : Decidable (db.Tombstoned uid) :=
  inferInstanceAs (Decidable (∃ row ∈ db.holds, _))

end SyncDb

/-! ### `uids.py` -/

/-- `accounts.auth_method`. -/
inductive AuthMethod where
  | password
  | oauth2
  | archive
deriving Repr, DecidableEq

def nextUidAfter (maxUid : Option Nat) : Nat :=
  maxUid.getD 0 + 1

/-- Only the synthetic UIDs of an archive account may be replaced on retry. -/
def shouldReallocateUid (authMethod : AuthMethod) : Bool :=
  authMethod = .archive

/-- Resume point to checkpoint into `mailboxes.uidnext`: one past the highest
UID processed, clamped to the lowest held one. -/
def checkpointUidnext (highestSeen : Nat) (holdAt : Option Nat) : Nat :=
  match holdAt with
  | none => highestSeen + 1
  | some held => min (highestSeen + 1) held

/-! ### `sync.py` row helpers -/

def existingMessageId (db : SyncDb) (key : DedupKey) : Option Nat :=
  (db.messages.find? fun row => row.key = key).map MessageRow.id

/-- Return the message row's id and whether this call inserted it. -/
def upsertMessage (db : SyncDb) (parsed : ParsedMessage)
    (internalDate : Option Micros) : SyncDb × Nat × Bool :=
  match existingMessageId db parsed.dedupKey with
  | some id => (db, id, false)
  | none =>
      ({ db with
          messages := db.messages ++
            [⟨db.nextMessageId, parsed.dedupKey, internalDate⟩]
          nextMessageId := db.nextMessageId + 1 },
        db.nextMessageId, true)

/-- `INSERT … ON CONFLICT (message_id, mailbox_id) DO UPDATE`.  `none` is the
violation of `UNIQUE (mailbox_id, uid)`: another message holds this UID. -/
def upsertLabel (db : SyncDb) (messageDbId : Nat) (uid : Nat)
    (flags : List String) : Option SyncDb :=
  if db.labels.any fun row => row.uid = uid ∧ row.messageId ≠ messageDbId then
    none
  else if db.labels.any fun row => row.messageId = messageDbId then
    some { db with
      labels := db.labels.map fun row =>
        if row.messageId = messageDbId then ⟨messageDbId, uid, flags⟩ else row }
  else
    some { db with labels := db.labels ++ [⟨messageDbId, uid, flags⟩] }

/-- What an exception inside the per-message savepoint is: one of
`db.DB_CONTENTION_ERRORS`, or anything else. -/
inductive Fault where
  | contention
  | other
deriving Repr, DecidableEq

/-- `process_one_message`.  `fault` is an exception some statement of it
raises (attachment writing included); the caller rolls back to the savepoint
whichever one it was. -/
def processOneMessage (parse : Parser) (db : SyncDb) (uid : Nat) (raw : Bytes)
    (flags : List String) (internalDate : Option Micros)
    (fault : Option Fault) : Except Fault (SyncDb × Bool) :=
  match fault with
  | some raised => .error raised
  | none =>
      match parse raw with
      | none => .error .other
      | some parsed =>
          let upserted := upsertMessage db parsed internalDate
          match upsertLabel upserted.1 upserted.2.1 uid flags with
          | none => .error .other
          | some linked => .ok (linked, upserted.2.2)

/-- `record_failed_message`: upsert on `(account_id, mailbox_id, uid)`. -/
def recordFailedMessage (db : SyncDb) (uid : Nat) (raw : Bytes) : SyncDb :=
  if db.failed.any fun row => row.uid = uid then
    { db with
      failed := db.failed.map fun row =>
        if row.uid = uid then ⟨uid, raw, row.retryCount + 1⟩ else row }
  else
    { db with failed := db.failed ++ [⟨uid, raw, 0⟩] }

def updateMailboxProgress (db : SyncDb) (uidvalidity uidnext : Nat) : SyncDb :=
  { db with mailbox := ⟨some uidvalidity, some uidnext⟩ }

def clearMailboxLabels (db : SyncDb) : SyncDb :=
  { db with labels := [] }

/-! ### `fetch_retry.py` -/

/-- Whether a hold that began at `firstSeenAt` has run out of time.  A
non-positive limit disables holding. -/
def holdExpired (firstSeenAt now maxHold : Micros) : Bool :=
  maxHold ≤ 0 || maxHold ≤ now - firstSeenAt

/-- The UIDs `load_attempts` reads: every row, tombstones included. -/
def loadAttempts (db : SyncDb) : List Nat :=
  db.holds.map TransientFetch.uid

/-- Count one held attempt and return the row's first sighting.  `txNow` is
`now()` of the running transaction. -/
def recordAttempt (db : SyncDb) (uid : Nat) (txNow : Micros) :
    SyncDb × Micros :=
  match db.holds.find? fun row => row.uid = uid with
  | some held =>
      ({ db with
          holds := db.holds.map fun row =>
            if row.uid = uid then
              { row with attemptCount := row.attemptCount + 1, lastSeenAt := txNow }
            else row },
        held.firstSeenAt)
  | none =>
      ({ db with holds := db.holds ++ [⟨uid, 1, txNow, txNow, none⟩] }, txNow)

def clearAttempts (db : SyncDb) (uid : Nat) : SyncDb :=
  { db with holds := db.holds.filter fun row => row.uid ≠ uid }

/-- Drop hold history below the resume point; tombstones are exempt. -/
def reclaimBelow (db : SyncDb) (uid : Nat) : SyncDb :=
  { db with
    holds := db.holds.filter fun row => ¬ (row.uid < uid ∧ row.gaveUpAt = none) }

/-- `fetch_retry.clear_mailbox`: drop all hold history of the mailbox. -/
def clearMailboxHolds (db : SyncDb) : SyncDb :=
  { db with holds := [] }

/-- Tombstone `uid`; a row already stamped keeps its moment. -/
def markGaveUp (db : SyncDb) (uid : Nat) (txNow : Micros) : SyncDb :=
  { db with
    holds := db.holds.map fun row =>
      if row.uid = uid then
        { row with gaveUpAt := some (row.gaveUpAt.getD txNow) }
      else row }

/-! ### What the row helpers preserve -/

/-- `after` still accounts for whatever `before` did, the tombstones of the
UIDs in `exempt` apart. -/
structure SyncDb.KeepsExcept (exempt : Nat → Prop) (before after : SyncDb) :
    Prop where
  linked : ∀ key, before.Linked key → after.Linked key
  failed : ∀ uid, before.Failed uid → after.Failed uid
  tombstoned : ∀ uid, ¬ exempt uid → before.Tombstoned uid →
    after.Tombstoned uid

namespace SyncDb.KeepsExcept

variable {exempt : Nat → Prop} {first second third : SyncDb}

theorem refl (exempt : Nat → Prop) (db : SyncDb) : db.KeepsExcept exempt db :=
  ⟨fun _ h => h, fun _ h => h, fun _ _ h => h⟩

theorem trans (hfirst : first.KeepsExcept exempt second)
    (hsecond : second.KeepsExcept exempt third) :
    first.KeepsExcept exempt third :=
  ⟨fun key h => hsecond.linked key (hfirst.linked key h),
    fun uid h => hsecond.failed uid (hfirst.failed uid h),
    fun uid hout h => hsecond.tombstoned uid hout
      (hfirst.tombstoned uid hout h)⟩

/-- The three predicates read only `messages`, `labels`, `failed` and
`holds`. -/
theorem of_rows_eq (hmessages : second.messages = first.messages)
    (hlabels : second.labels = first.labels)
    (hfailed : second.failed = first.failed)
    (hholds : second.holds = first.holds) :
    first.KeepsExcept exempt second := by
  refine ⟨fun key h => ?_, fun uid h => ?_, fun uid _ h => ?_⟩
  · rwa [SyncDb.Linked, hmessages, hlabels]
  · rwa [SyncDb.Failed, hfailed]
  · rwa [SyncDb.Tombstoned, hholds]

end SyncDb.KeepsExcept

section RowHelpers

variable (exempt : Nat → Prop) (db : SyncDb) (uid : Nat)

theorem updateMailboxProgress_keeps (uidvalidity uidnext : Nat) :
    db.KeepsExcept exempt (updateMailboxProgress db uidvalidity uidnext) :=
  .of_rows_eq rfl rfl rfl rfl

theorem clearAttempts_keeps :
    db.KeepsExcept (fun other => other = uid) (clearAttempts db uid) := by
  refine ⟨fun _ h => h, fun _ h => h, ?_⟩
  rintro other hother ⟨row, hrow, rfl, hgave⟩
  exact ⟨row, List.mem_filter.mpr ⟨hrow, by simpa using hother⟩, rfl, hgave⟩

theorem reclaimBelow_keeps :
    db.KeepsExcept exempt (reclaimBelow db uid) := by
  refine ⟨fun _ h => h, fun _ h => h, ?_⟩
  rintro other - ⟨row, hrow, rfl, hgave⟩
  refine ⟨row, List.mem_filter.mpr ⟨hrow, ?_⟩, rfl, hgave⟩
  have hset : row.gaveUpAt ≠ none := Option.isSome_iff_ne_none.mp hgave
  simp [hset]

/-- Rewriting rows in place keeps a tombstone when the rewrite keeps UIDs and
never clears a give-up moment. -/
theorem mapHolds_keeps (rewrite : TransientFetch → TransientFetch)
    (huid : ∀ row, (rewrite row).uid = row.uid)
    (hgave : ∀ row, row.gaveUpAt.isSome → (rewrite row).gaveUpAt.isSome) :
    db.KeepsExcept exempt { db with holds := db.holds.map rewrite } := by
  refine ⟨fun _ h => h, fun _ h => h, ?_⟩
  rintro other - ⟨row, hrow, rfl, hset⟩
  exact ⟨rewrite row, List.mem_map_of_mem hrow, huid row, hgave row hset⟩

theorem recordAttempt_keeps (txNow : Micros) :
    db.KeepsExcept exempt (recordAttempt db uid txNow).1 := by
  unfold recordAttempt
  split
  · apply mapHolds_keeps
    · intro row
      split <;> rfl
    · intro row hset
      split <;> exact hset
  · refine ⟨fun _ h => h, fun _ h => h, ?_⟩
    rintro other - ⟨row, hrow, rfl, hset⟩
    exact ⟨row, List.mem_append_left _ hrow, rfl, hset⟩

theorem markGaveUp_keeps (txNow : Micros) :
    db.KeepsExcept exempt (markGaveUp db uid txNow) := by
  apply mapHolds_keeps
  · intro row
    split <;> rfl
  · intro row hset
    split
    · rfl
    · exact hset

/-- After `record_attempt` the UID has a row, so `mark_gave_up` leaves a
tombstone. -/
theorem recordAttempt_mem (txNow : Micros) :
    ∃ row ∈ (recordAttempt db uid txNow).1.holds, row.uid = uid := by
  unfold recordAttempt
  split
  · rename_i held hfind
    have hmem : held ∈ db.holds := List.mem_of_find?_eq_some hfind
    have huid : held.uid = uid := key_of_find? hfind
    refine ⟨_, List.mem_map_of_mem hmem, ?_⟩
    simp [huid]
  · exact ⟨_, List.mem_append_right _ (List.mem_singleton.mpr rfl), rfl⟩

theorem markGaveUp_tombstoned {row : TransientFetch} (txNow : Micros)
    (hrow : row ∈ db.holds) (huid : row.uid = uid) :
    (markGaveUp db uid txNow).Tombstoned uid := by
  refine ⟨_, List.mem_map_of_mem hrow, ?_, ?_⟩
  · simp [huid]
  · simp [huid]

theorem recordFailedMessage_keeps (raw : Bytes) :
    db.KeepsExcept exempt (recordFailedMessage db uid raw) := by
  unfold recordFailedMessage
  split
  · refine ⟨fun _ h => h, ?_, fun _ _ h => h⟩
    rintro other ⟨row, hrow, rfl⟩
    refine ⟨_, List.mem_map_of_mem hrow, ?_⟩
    split <;> simp_all
  · refine ⟨fun _ h => h, ?_, fun _ _ h => h⟩
    rintro other ⟨row, hrow, rfl⟩
    exact ⟨row, List.mem_append_left _ hrow, rfl⟩

theorem recordFailedMessage_failed (raw : Bytes) :
    (recordFailedMessage db uid raw).Failed uid := by
  unfold recordFailedMessage
  split
  · rename_i hany
    obtain ⟨row, hrow, huid⟩ := List.any_eq_true.mp hany
    refine ⟨_, List.mem_map_of_mem hrow, ?_⟩
    simp_all
  · exact ⟨_, List.mem_append_right _ (List.mem_singleton.mpr rfl), rfl⟩

theorem upsertMessage_keeps (parsed : ParsedMessage)
    (internalDate : Option Micros) :
    db.KeepsExcept exempt (upsertMessage db parsed internalDate).1 := by
  unfold upsertMessage
  split
  · exact .refl exempt db
  · refine ⟨?_, fun _ h => h, fun _ _ h => h⟩
    rintro key ⟨message, hmessage, hkey, hlabel⟩
    exact ⟨message, List.mem_append_left _ hmessage, hkey, hlabel⟩

/-- The id `upsert_message` returns is a row with the message's dedup key. -/
theorem upsertMessage_mem (parsed : ParsedMessage)
    (internalDate : Option Micros) :
    ∃ message ∈ (upsertMessage db parsed internalDate).1.messages,
      message.key = parsed.dedupKey ∧
        message.id = (upsertMessage db parsed internalDate).2.1 := by
  unfold upsertMessage
  split
  · rename_i id hexisting
    simp only [existingMessageId, Option.map_eq_some_iff] at hexisting
    obtain ⟨message, hfind, hid⟩ := hexisting
    exact ⟨message, List.mem_of_find?_eq_some hfind,
      key_of_find? hfind, hid⟩
  · exact ⟨_, List.mem_append_right _ (List.mem_singleton.mpr rfl), rfl, rfl⟩

variable {exempt db uid}

/-- What a successful `upsert_label` does: the row is there, and a message
already labelled stays labelled. -/
theorem upsertLabel_spec {messageDbId : Nat} {flags : List String}
    {linked : SyncDb} (h : upsertLabel db messageDbId uid flags = some linked) :
    linked.messages = db.messages ∧ linked.failed = db.failed ∧
      linked.holds = db.holds ∧
      (∃ label ∈ linked.labels, label.messageId = messageDbId) ∧
      ∀ label ∈ db.labels, ∃ kept ∈ linked.labels,
        kept.messageId = label.messageId := by
  unfold upsertLabel at h
  split at h
  · cases h
  · split at h
    · rename_i hany
      obtain ⟨row, hrow, hid⟩ := List.any_eq_true.mp hany
      cases h
      refine ⟨rfl, rfl, rfl, ⟨_, List.mem_map_of_mem hrow, ?_⟩, ?_⟩
      · simp_all
      · intro label hlabel
        refine ⟨_, List.mem_map_of_mem hlabel, ?_⟩
        split <;> simp_all
    · cases h
      refine ⟨rfl, rfl, rfl,
        ⟨_, List.mem_append_right _ (List.mem_singleton.mpr rfl), rfl⟩, ?_⟩
      intro label hlabel
      exact ⟨label, List.mem_append_left _ hlabel, rfl⟩

theorem upsertLabel_keeps {messageDbId : Nat} {flags : List String}
    {linked : SyncDb} (h : upsertLabel db messageDbId uid flags = some linked) :
    db.KeepsExcept exempt linked := by
  obtain ⟨hmessages, hfailed, hholds, -, hkept⟩ := upsertLabel_spec h
  refine ⟨?_, fun other hother => ?_, fun other _ hother => ?_⟩
  · rintro key ⟨message, hmessage, hkey, label, hlabel, hid⟩
    obtain ⟨kept, hmem, hsame⟩ := hkept label hlabel
    exact ⟨message, hmessages ▸ hmessage, hkey, kept, hmem, hsame.trans hid⟩
  · rwa [SyncDb.Failed, hfailed]
  · rwa [SyncDb.Tombstoned, hholds]

/-- A processed message is linked under its dedup key, and nothing else is
lost. -/
theorem processOneMessage_spec {parse : Parser} {raw : Bytes}
    {flags : List String} {internalDate : Option Micros}
    {fault : Option Fault} {linked : SyncDb} {inserted : Bool}
    (h : processOneMessage parse db uid raw flags internalDate fault =
      .ok (linked, inserted)) :
    db.KeepsExcept exempt linked ∧
      ∃ parsed, parse raw = some parsed ∧ linked.Linked parsed.dedupKey := by
  unfold processOneMessage at h
  split at h
  · cases h
  · split at h
    · cases h
    · rename_i parsed hparsed
      dsimp only at h
      split at h
      · cases h
      · rename_i labelled hlabel
        cases h
        obtain ⟨message, hmessage, hkey, hid⟩ :=
          upsertMessage_mem db parsed internalDate
        obtain ⟨hmessages, -, -, ⟨label, hlabelMem, hlabelId⟩, -⟩ :=
          upsertLabel_spec hlabel
        refine ⟨(upsertMessage_keeps exempt db parsed internalDate).trans
          (upsertLabel_keeps hlabel), parsed, hparsed, ?_⟩
        exact ⟨message, hmessages ▸ hmessage, hkey, label, hlabelMem,
          hlabelId.trans hid.symm⟩

end RowHelpers

end Localmail
