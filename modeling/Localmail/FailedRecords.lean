/-
The recorded failures of a live account.  One mailbox with its passes, the
server that may renumber it, and `retry_failed_messages` between passes; the
account's other mailboxes only add messages.  A `failed_messages` row is keyed
by a UID, and the reset that follows a renumbering leaves it in place.
-/
import Localmail.SyncNoLoss
import Localmail.KeyedRows

namespace Localmail

/-! ### `retry_failed_messages` -/

/-- The UID a row is retried under. -/
def attemptUid (authMethod : AuthMethod) (db : SyncDb) (row : FailedRow) : Nat :=
  if shouldReallocateUid authMethod then
    nextUidAfter (some (maxOrZero (db.labels.map LabelRow.uid)))
  else row.uid

/-- The row's `DELETE`; its id and its UID name the same row. -/
def deleteFailed (db : SyncDb) (uid : Nat) : SyncDb :=
  { db with failed := db.failed.filter fun row => row.uid ≠ uid }

/-- One row of the retry, committed.  `none` is the re-raised contention
error. -/
def retryFailed (parse : Parser) (authMethod : AuthMethod) (db : SyncDb)
    (row : FailedRow) (fault : Option Fault) : Option SyncDb :=
  match processOneMessage parse db (attemptUid authMethod db row) row.rawBytes
      [] none fault with
  | .ok (linked, _) => some (deleteFailed linked row.uid)
  | .error .contention => none
  | .error .other => some (recordFailedMessage db row.uid row.rawBytes)

/-! ### The system -/

/-- `retrying` is what a running retry still has to do in this mailbox. -/
structure FailState where
  sync : SyncState
  retrying : Option (List FailedRow)
deriving Repr, DecidableEq

/-- A step of a pass or of the server, of the account's other mailboxes, or of
a retry.  A retry may stop at any row. -/
inductive FailEvent where
  | sync (event : SyncEvent)
  | elsewhere (parsed : ParsedMessage) (internalDate : Option Micros)
  | startRetry
  | retryNext (fault : Option Fault)
  | endRetry
deriving Repr, DecidableEq

def SyncEvent.isSelect : SyncEvent → Bool
  | .select .. => true
  | _ => false

def failStep (parse : Parser) (authMethod : AuthMethod) (state : FailState) :
    FailEvent → Option FailState
  -- a pass does not start while a retry runs
  | .sync event =>
      if event.isSelect ∧ state.retrying.isSome then none
      else
        match syncStep parse state.sync event with
        | some next => some { state with sync := next }
        | none => none
  | .elsewhere parsed internalDate =>
      match state.sync.phase with
      | .idle =>
          some { state with
            sync := { state.sync with
              db := (upsertMessage state.sync.db parsed internalDate).1 } }
      | _ => none
  | .startRetry =>
      match state.sync.phase, state.retrying with
      | .idle, none => some { state with retrying := some state.sync.db.failed }
      | _, _ => none
  | .retryNext fault =>
      match state.retrying with
      | some (row :: rest) =>
          match retryFailed parse authMethod state.sync.db row fault with
          | some db =>
              some ⟨{ state.sync with db := db }, some rest⟩
          | none => some { state with retrying := none }
      | _ => none
  | .endRetry => some { state with retrying := none }

/-- A mailbox no pass has run on yet. -/
structure FailState.Unsynced (state : FailState) : Prop where
  fresh : state.sync.Fresh
  labels : state.sync.db.labels = []
  failed : state.sync.db.failed = []
  retrying : state.retrying = none

/-- The bytes are archived: their message is a row of the account. -/
def Archived (parse : Parser) (db : SyncDb) (raw : Bytes) : Prop :=
  ∃ parsed ∈ parse raw, ∃ message ∈ db.messages,
    message.key = parsed.dedupKey

instance (parse : Parser) (db : SyncDb) (raw : Bytes) :
    Decidable (Archived parse db raw) :=
  inferInstanceAs (Decidable (∃ parsed ∈ parse raw, _))

/-- The bytes are in some row, or archived. -/
def StillRecorded (parse : Parser) (db : SyncDb) (raw : Bytes) : Prop :=
  (∃ row ∈ db.failed, row.rawBytes = raw) ∨ Archived parse db raw

instance (parse : Parser) (db : SyncDb) (raw : Bytes) :
    Decidable (StillRecorded parse db raw) :=
  inferInstanceAs (Decidable (_ ∨ _))

/-- The event starts a pass. -/
def FailEvent.startsPass : FailEvent → Bool
  | .sync event => event.isSelect
  | .elsewhere .. | .startRetry | .retryNext _ | .endRetry => false

/-- The condition on a step: no pass resets the mailbox for a new UIDVALIDITY
while failures are recorded in it. -/
def NoPendingReset (state : FailState) (event : FailEvent) : Prop :=
  event.startsPass = true → state.sync.db.failed = [] ∨
    ∀ stored ∈ state.sync.db.mailbox.uidvalidity,
      stored = state.sync.server.uidvalidity

instance (state : FailState) (event : FailEvent) :
    Decidable (NoPendingReset state event) :=
  inferInstanceAs (Decidable (_ → _))

/-! ### What a UID space gives its UIDs -/

/-- `bodyOf` is what the UID space `uidvalidity` has assigned so far; while it
is the server's, it has what is there and nothing above `UIDNEXT`. -/
structure Assigned (server : ImapServer) (uidvalidity : Nat)
    (bodyOf : Nat → Option Bytes) : Prop where
  le : uidvalidity ≤ server.uidvalidity
  serves : uidvalidity = server.uidvalidity →
    ∀ message ∈ server.messages, bodyOf message.uid = some message.body
  lt : uidvalidity = server.uidvalidity →
    ∀ uid body, bodyOf uid = some body → uid < server.uidnext

/-- What was assigned stays so. -/
def Extends (first second : Nat → Option Bytes) : Prop :=
  ∀ uid body, first uid = some body → second uid = some body

theorem Assigned.evolve {before after : ImapServer} {uidvalidity : Nat}
    {bodyOf : Nat → Option Bytes} (hassigned : Assigned before uidvalidity bodyOf)
    (hevolves : before.Evolves after) (hafter : after.WellFormed) :
    ∃ later, Assigned after uidvalidity later ∧ Extends bodyOf later := by
  by_cases hcurrent : uidvalidity = after.uidvalidity
  · have hsame := hevolves.current hassigned.le hcurrent
    have hbefore := hcurrent.trans hsame
    -- the old assignment, and the bodies of the messages above it
    let later : Nat → Option Bytes := fun uid =>
      (bodyOf uid).or
        ((after.messages.find? fun message => message.uid = uid).map
          ServerMessage.body)
    have hextends : Extends bodyOf later := by
      intro uid body hbody
      simp only [later, hbody, Option.some_or]
    refine ⟨later, ⟨hcurrent.le, ?_, ?_⟩, hextends⟩
    · intro _ message hmessage
      rcases hevolves.messages hsame message hmessage with hold | hnew
      · exact hextends _ _ (hassigned.serves hbefore message hold)
      · have hnone : bodyOf message.uid = none := by
          by_contra hsome
          obtain ⟨body, hbody⟩ := Option.ne_none_iff_exists'.mp hsome
          have hlt := hassigned.lt hbefore _ _ hbody
          omega
        have hfind : after.messages.find? (fun other =>
            other.uid = message.uid) = some message :=
          find?_of_mem_nodup hafter.nodup hmessage
        simp only [later, hnone, hfind, Option.map_some, Option.none_or]
    · intro _ uid body hbody
      cases hold : bodyOf uid with
      | some old =>
          have hlt := hassigned.lt hbefore uid old hold
          exact Nat.lt_of_lt_of_le hlt (hevolves.uidnext_le hsame)
      | none =>
          simp only [later, hold, Option.none_or, Option.map_eq_some_iff] at hbody
          obtain ⟨message, hfind, -⟩ := hbody
          rw [← key_of_find? hfind]
          exact hafter.lt _
            (List.mem_map_of_mem (List.mem_of_find?_eq_some hfind))
  · exact ⟨bodyOf, ⟨hassigned.le.trans hevolves.le,
      fun h => absurd h hcurrent, fun h => absurd h hcurrent⟩,
      fun _ _ h => h⟩

/-- A new UID space has assigned what is there. -/
theorem exists_assigned {server : ImapServer} (hserver : server.WellFormed) :
    ∃ bodyOf, Assigned server server.uidvalidity bodyOf := by
  -- the server before anything was delivered
  have hempty : Assigned ⟨server.uidvalidity, 0, []⟩ server.uidvalidity
      fun _ => none :=
    ⟨le_rfl, nofun, nofun⟩
  have hevolves : ImapServer.Evolves ⟨server.uidvalidity, 0, []⟩ server :=
    ⟨le_rfl, fun _ => Nat.zero_le _, fun _ _ _ => .inr (Nat.zero_le _)⟩
  obtain ⟨bodyOf, hassigned, -⟩ := hempty.evolve hevolves hserver
  exact ⟨bodyOf, hassigned⟩

/-- The rows of a mailbox are those of one UID space: a failure has the bytes
its UID stands for, and a label the message these bytes are. -/
structure Agrees (parse : Parser) (bodyOf : Nat → Option Bytes) (db : SyncDb) :
    Prop where
  failed : ∀ row ∈ db.failed, bodyOf row.uid = some row.rawBytes
  labels : ∀ label ∈ db.labels, ∃ raw, bodyOf label.uid = some raw ∧
    ∃ parsed ∈ parse raw,
      existingMessageId db parsed.dedupKey = some label.messageId

section Rows

variable {parse : Parser} {bodyOf : Nat → Option Bytes} {db next : SyncDb}

theorem Agrees.mono {later : Nat → Option Bytes} (hagrees : Agrees parse bodyOf db)
    (hextends : Extends bodyOf later) : Agrees parse later db := by
  refine ⟨fun row hrow => hextends _ _ (hagrees.failed row hrow), ?_⟩
  intro label hlabel
  obtain ⟨raw, hraw, hrest⟩ := hagrees.labels label hlabel
  exact ⟨raw, hextends _ _ hraw, hrest⟩

theorem Agrees.of_empty (hfailed : db.failed = []) (hlabels : db.labels = []) :
    Agrees parse bodyOf db := by
  refine ⟨?_, ?_⟩
  · rw [hfailed]
    exact nofun
  · rw [hlabels]
    exact nofun

theorem Agrees.of_rows_eq (hagrees : Agrees parse bodyOf db)
    (hmessages : next.messages = db.messages) (hlabels : next.labels = db.labels)
    (hfailed : next.failed = db.failed) : Agrees parse bodyOf next := by
  refine ⟨?_, ?_⟩
  · rw [hfailed]
    exact hagrees.failed
  · rw [hlabels]
    intro label hlabel
    obtain ⟨raw, hraw, parsed, hparsed, hmessage⟩ := hagrees.labels label hlabel
    refine ⟨raw, hraw, parsed, hparsed, ?_⟩
    rwa [existingMessageId, hmessages]

/-- `upsert_message` finds the row it leaves, and every row it found before. -/
theorem existingMessageId_upsertMessage (db : SyncDb) (parsed : ParsedMessage)
    (internalDate : Option Micros) :
    existingMessageId (upsertMessage db parsed internalDate).1 parsed.dedupKey =
        some (upsertMessage db parsed internalDate).2.1 ∧
      ∀ key id, existingMessageId db key = some id →
        existingMessageId (upsertMessage db parsed internalDate).1 key =
          some id := by
  unfold upsertMessage
  split
  · rename_i id hexisting
    exact ⟨hexisting, fun _ _ h => h⟩
  · rename_i hnone
    refine ⟨?_, ?_⟩
    · simp only [existingMessageId, Option.map_eq_none_iff] at hnone
      simp [existingMessageId, List.find?_append, hnone]
    · intro key id hid
      simp only [existingMessageId, Option.map_eq_some_iff] at hid ⊢
      obtain ⟨message, hfind, hmessage⟩ := hid
      exact ⟨message, by simp [List.find?_append, hfind], hmessage⟩

theorem upsertMessage_rows (db : SyncDb) (parsed : ParsedMessage)
    (internalDate : Option Micros) :
    (upsertMessage db parsed internalDate).1.labels = db.labels ∧
      (upsertMessage db parsed internalDate).1.failed = db.failed ∧
      (upsertMessage db parsed internalDate).1.mailbox = db.mailbox ∧
      ∀ message ∈ db.messages,
        message ∈ (upsertMessage db parsed internalDate).1.messages := by
  unfold upsertMessage
  split
  · exact ⟨rfl, rfl, rfl, fun _ h => h⟩
  · exact ⟨rfl, rfl, rfl, fun _ h => List.mem_append_left _ h⟩

theorem Agrees.upsertMessage (hagrees : Agrees parse bodyOf db)
    (parsed : ParsedMessage) (internalDate : Option Micros) :
    Agrees parse bodyOf (Localmail.upsertMessage db parsed internalDate).1 := by
  obtain ⟨hlabels, hfailed, -, -⟩ := upsertMessage_rows db parsed internalDate
  refine ⟨?_, ?_⟩
  · rw [hfailed]
    exact hagrees.failed
  · rw [hlabels]
    intro label hlabel
    obtain ⟨raw, hraw, other, hother, hid⟩ := hagrees.labels label hlabel
    exact ⟨raw, hraw, other, hother,
      (existingMessageId_upsertMessage db parsed internalDate).2 _ _ hid⟩

/-- The failures' bytes and the messages are still there. -/
structure RowsKept (db next : SyncDb) : Prop where
  failed : ∀ row ∈ db.failed, ∃ kept ∈ next.failed,
    kept.rawBytes = row.rawBytes
  messages : ∀ message ∈ db.messages, message ∈ next.messages

theorem RowsKept.of_eq (hmessages : next.messages = db.messages)
    (hfailed : next.failed = db.failed) : RowsKept db next :=
  ⟨fun row hrow => ⟨row, hfailed ▸ hrow, rfl⟩,
    fun _ hmessage => hmessages ▸ hmessage⟩

theorem RowsKept.trans {last : SyncDb} (hfirst : RowsKept db next)
    (hsecond : RowsKept next last) : RowsKept db last := by
  refine ⟨?_, fun message h => hsecond.messages _ (hfirst.messages _ h)⟩
  intro row hrow
  obtain ⟨kept, hkept, hbytes⟩ := hfirst.failed row hrow
  obtain ⟨kept', hkept', hbytes'⟩ := hsecond.failed kept hkept
  exact ⟨kept', hkept', hbytes'.trans hbytes⟩

theorem Archived.mono {raw : Bytes} (harchived : Archived parse db raw)
    (hmessages : ∀ message ∈ db.messages, message ∈ next.messages) :
    Archived parse next raw := by
  obtain ⟨parsed, hparsed, message, hmessage, hkey⟩ := harchived
  exact ⟨parsed, hparsed, message, hmessages message hmessage, hkey⟩

theorem StillRecorded.mono {raw : Bytes} (hstill : StillRecorded parse db raw)
    (hkept : RowsKept db next) : StillRecorded parse next raw := by
  rcases hstill with ⟨row, hrow, rfl⟩ | harchived
  · exact .inl (hkept.failed row hrow)
  · exact .inr (harchived.mono hkept.messages)

theorem mem_upsertLabel {messageDbId uid : Nat} {flags : List String}
    (h : upsertLabel db messageDbId uid flags = some next) {label : LabelRow}
    (hlabel : label ∈ next.labels) :
    label = ⟨messageDbId, uid, flags⟩ ∨ label ∈ db.labels := by
  unfold upsertLabel at h
  split at h
  · cases h
  · split at h
    · cases h
      obtain ⟨old, hold, rfl⟩ := List.mem_map.mp hlabel
      split
      · exact .inl rfl
      · exact .inr hold
    · cases h
      rcases List.mem_append.mp hlabel with hold | hnew
      · exact .inr hold
      · exact .inl (List.mem_singleton.mp hnew)

theorem upsertLabel_mailbox {messageDbId uid : Nat} {flags : List String}
    (h : upsertLabel db messageDbId uid flags = some next) :
    next.mailbox = db.mailbox := by
  unfold upsertLabel at h
  split at h
  · cases h
  · split at h <;> cases h <;> rfl

/-- A body archived under the UID it stands for. -/
theorem Agrees.processOneMessage {uid : Nat} {raw : Bytes}
    (hagrees : Agrees parse bodyOf db) (hraw : bodyOf uid = some raw)
    {flags : List String} {internalDate : Option Micros} {fault : Option Fault}
    {inserted : Bool}
    (h : Localmail.processOneMessage parse db uid raw flags internalDate fault =
      .ok (next, inserted)) :
    Agrees parse bodyOf next ∧ next.failed = db.failed ∧
      next.mailbox = db.mailbox ∧
      (∀ message ∈ db.messages, message ∈ next.messages) ∧
      Archived parse next raw := by
  unfold Localmail.processOneMessage at h
  split at h
  · cases h
  · split at h
    · cases h
    · rename_i parsed hparsed
      obtain ⟨hlabels, hfailed, hmailbox, hmessages⟩ :=
        upsertMessage_rows db parsed internalDate
      have hupserted := hagrees.upsertMessage parsed internalDate
      have hid := (existingMessageId_upsertMessage db parsed internalDate).1
      obtain ⟨message, hmessage, hkey, -⟩ :=
        upsertMessage_mem db parsed internalDate
      dsimp only at h
      generalize Localmail.upsertMessage db parsed internalDate = upserted at *
      split at h
      · cases h
      · rename_i linked hlabel
        cases h
        obtain ⟨hlinked, hlinkedFailed, -, -, -⟩ := upsertLabel_spec hlabel
        have hexisting : ∀ key, existingMessageId next key =
            existingMessageId upserted.1 key := by
          intro key
          rw [existingMessageId, hlinked]
          rfl
        refine ⟨⟨?_, ?_⟩, hlinkedFailed.trans hfailed,
          (upsertLabel_mailbox hlabel).trans hmailbox, ?_, ?_⟩
        · rw [hlinkedFailed]
          exact hupserted.failed
        · intro label hmem
          rcases mem_upsertLabel hlabel hmem with rfl | hold
          · exact ⟨raw, hraw, parsed, hparsed, (hexisting _).trans hid⟩
          · obtain ⟨raw', hraw', other, hother, hlabelled⟩ :=
              hupserted.labels label hold
            exact ⟨raw', hraw', other, hother, (hexisting _).trans hlabelled⟩
        · intro old hold
          rw [hlinked]
          exact hmessages old hold
        · exact ⟨parsed, hparsed, message, hlinked ▸ hmessage, hkey⟩

/-- Nothing but the parser or a fault can stop a body whose UID stands for it:
whoever has the UID is the same message. -/
theorem Agrees.processOneMessage_ok {uid : Nat} {raw : Bytes}
    (hagrees : Agrees parse bodyOf db) (hraw : bodyOf uid = some raw)
    {parsed : ParsedMessage} (hparsed : parse raw = some parsed)
    (flags : List String) (internalDate : Option Micros) :
    ∃ result, Localmail.processOneMessage parse db uid raw flags internalDate
      none = .ok result := by
  have hupserted := hagrees.upsertMessage parsed internalDate
  have hid := (existingMessageId_upsertMessage db parsed internalDate).1
  simp only [Localmail.processOneMessage, hparsed]
  generalize Localmail.upsertMessage db parsed internalDate = upserted at *
  have hfree : (upserted.1.labels.any fun row =>
      row.uid = uid ∧ row.messageId ≠ upserted.2.1) = false := by
    apply List.any_eq_false.mpr
    intro label hlabel
    simp only [decide_eq_true_eq, not_and, not_not]
    intro huid
    obtain ⟨raw', hraw', other, hother, hlabelled⟩ :=
      hupserted.labels label hlabel
    rw [huid, hraw] at hraw'
    cases hraw'
    rw [hparsed] at hother
    cases hother
    rw [hid] at hlabelled
    exact (Option.some.inj hlabelled).symm
  simp only [upsertLabel, hfree, Bool.false_eq_true, ↓reduceIte]
  split
  · rename_i hnone
    split at hnone <;> cases hnone
  · exact ⟨_, rfl⟩

theorem Agrees.recordFailedMessage {uid : Nat} {raw : Bytes}
    (hagrees : Agrees parse bodyOf db) (hraw : bodyOf uid = some raw) :
    Agrees parse bodyOf (Localmail.recordFailedMessage db uid raw) ∧
      RowsKept db (Localmail.recordFailedMessage db uid raw) ∧
      (Localmail.recordFailedMessage db uid raw).mailbox = db.mailbox := by
  unfold Localmail.recordFailedMessage
  split
  · refine ⟨⟨?_, hagrees.labels⟩, ⟨?_, fun _ h => h⟩, rfl⟩
    · intro row hrow
      obtain ⟨old, hold, rfl⟩ := List.mem_map.mp hrow
      split
      · exact hraw
      · exact hagrees.failed old hold
    · intro row hrow
      refine ⟨_, List.mem_map_of_mem hrow, ?_⟩
      split
      · rename_i huid
        have hbytes := hagrees.failed row hrow
        rw [huid, hraw] at hbytes
        exact Option.some.inj hbytes
      · rfl
  · refine ⟨⟨?_, hagrees.labels⟩, ⟨?_, fun _ h => h⟩, rfl⟩
    · intro row hrow
      rcases List.mem_append.mp hrow with hold | hnew
      · exact hagrees.failed row hold
      · rw [List.mem_singleton.mp hnew]
        exact hraw
    · exact fun row hrow => ⟨row, List.mem_append_left _ hrow, rfl⟩

end Rows

/-! ### The pass -/

section PassSteps

variable {parse : Parser} {bodyOf : Nat → Option Bytes} {pass next : Pass}

theorem storeBody_agrees {uid : Nat} {data : FetchData} {fault : Option Fault}
    (hagrees : Agrees parse bodyOf pass.work)
    (hbody : bodyOf uid = some data.body)
    (h : storeBody parse pass uid data fault = some next) :
    Agrees parse bodyOf next.work ∧ RowsKept pass.work next.work ∧
      next.serverUidvalidity = pass.serverUidvalidity ∧
      next.batches = pass.batches := by
  unfold storeBody at h
  dsimp only at h
  generalize hcleared : (if uid ∈ pass.heldAttempts then
      { pass with
        work := clearAttempts pass.work uid
        heldAttempts := pass.heldAttempts.filter fun held => held ≠ uid }
    else pass) = cleared at h
  have hsame : cleared.work.messages = pass.work.messages ∧
      cleared.work.labels = pass.work.labels ∧
      cleared.work.failed = pass.work.failed ∧
      cleared.serverUidvalidity = pass.serverUidvalidity ∧
      cleared.batches = pass.batches := by
    rw [← hcleared]
    split
    · exact ⟨rfl, rfl, rfl, rfl, rfl⟩
    · exact ⟨rfl, rfl, rfl, rfl, rfl⟩
  obtain ⟨hmessages, hlabels, hfailed, hvalidity, hbatches⟩ := hsame
  have hagrees' := hagrees.of_rows_eq hmessages hlabels hfailed
  have hkept : RowsKept pass.work cleared.work := .of_eq hmessages hfailed
  split at h
  · rename_i linked inserted hok
    cases h
    obtain ⟨hlinked, hsameFailed, -, hstay, -⟩ :=
      hagrees'.processOneMessage hbody hok
    refine ⟨hlinked, hkept.trans ⟨?_, hstay⟩, hvalidity, hbatches⟩
    exact fun row hrow => ⟨row, hsameFailed ▸ hrow, rfl⟩
  · cases h
  · cases h
    obtain ⟨hrecorded, hstay, -⟩ := hagrees'.recordFailedMessage hbody
    exact ⟨hrecorded, hkept.trans hstay, hvalidity, hbatches⟩

theorem holdOrGiveUp_rows (pass : Pass) (uid : Nat) (txNow : Micros) :
    (holdOrGiveUp pass uid txNow).work.messages = pass.work.messages ∧
      (holdOrGiveUp pass uid txNow).work.labels = pass.work.labels ∧
      (holdOrGiveUp pass uid txNow).work.failed = pass.work.failed ∧
      (holdOrGiveUp pass uid txNow).serverUidvalidity =
        pass.serverUidvalidity := by
  have hrecorded : ∀ db : SyncDb,
      (recordAttempt db uid txNow).1.messages = db.messages ∧
        (recordAttempt db uid txNow).1.labels = db.labels ∧
        (recordAttempt db uid txNow).1.failed = db.failed := by
    intro db
    unfold recordAttempt
    split <;> exact ⟨rfl, rfl, rfl⟩
  obtain ⟨hmessages, hlabels, hfailed⟩ := hrecorded pass.work
  unfold holdOrGiveUp
  dsimp only
  split
  · exact ⟨hmessages, hlabels, hfailed, rfl⟩
  · exact ⟨hmessages, hlabels, hfailed, rfl⟩

theorem checkpointPass_rows (pass : Pass) :
    (checkpointPass pass).messages = pass.work.messages ∧
      (checkpointPass pass).labels = pass.work.labels ∧
      (checkpointPass pass).failed = pass.work.failed ∧
      (checkpointPass pass).mailbox.uidvalidity =
        some pass.serverUidvalidity :=
  ⟨rfl, rfl, rfl, rfl⟩

end PassSteps

/-! ### The invariant -/

/-- The pass works in one UID space, with bodies of that space, and has every
failure that was committed before. -/
def PassAgrees (parse : Parser) (sync : SyncState) (pass : Pass)
    (fetched : List FetchData) : Prop :=
  ∃ bodyOf, Assigned sync.server pass.serverUidvalidity bodyOf ∧
    Agrees parse bodyOf pass.work ∧
    (∀ data ∈ fetched, data.body ≠ [] → bodyOf data.uid = some data.body) ∧
    RowsKept sync.db pass.work

def FailPhase (parse : Parser) (sync : SyncState) : Phase → Prop
  | .idle => True
  | .selected selected => selected.row = sync.db.mailbox ∧
      (selected.fullSync = true → sync.db.failed = [] ∧ sync.db.labels = [])
  | .betweenBatches pass => PassAgrees parse sync pass []
  | .inBatch pass _ fetched => PassAgrees parse sync pass fetched

structure FailInv (parse : Parser) (state : FailState) : Prop where
  server : state.sync.server.WellFormed
  committed : ∃ uidvalidity bodyOf,
    Assigned state.sync.server uidvalidity bodyOf ∧
    Agrees parse bodyOf state.sync.db ∧
    (∀ rows ∈ state.retrying, ∀ row ∈ rows,
      bodyOf row.uid = some row.rawBytes) ∧
    ∀ stored ∈ state.sync.db.mailbox.uidvalidity, stored = uidvalidity
  unsynced : state.sync.db.mailbox.uidvalidity = none →
    state.sync.db.failed = [] ∧ state.sync.db.labels = [] ∧
      ∀ rows ∈ state.retrying, rows = []
  phase : FailPhase parse state.sync state.sync.phase
  retry : state.retrying.isSome → state.sync.phase = .idle

theorem FailState.Unsynced.failInv (parse : Parser) {state : FailState}
    (hstart : state.Unsynced) : FailInv parse state := by
  obtain ⟨bodyOf, hassigned⟩ := exists_assigned hstart.fresh.server
  refine ⟨hstart.fresh.server, ⟨_, bodyOf, hassigned,
    .of_empty hstart.failed hstart.labels, ?_, ?_⟩,
    fun _ => ⟨hstart.failed, hstart.labels, ?_⟩, ?_, ?_⟩
  · rw [hstart.retrying]
    exact nofun
  · rw [hstart.fresh.mailbox]
    exact nofun
  · rw [hstart.retrying]
    exact nofun
  · rw [hstart.fresh.idle]
    trivial
  · rw [hstart.retrying]
    exact nofun

section Steps

variable {parse : Parser} {state : FailState}

theorem PassAgrees.evolve {sync : SyncState} {pass : Pass}
    {fetched : List FetchData} {after : ImapServer}
    (hpass : PassAgrees parse sync pass fetched)
    (hevolves : sync.server.Evolves after) (hafter : after.WellFormed) :
    PassAgrees parse { sync with server := after } pass fetched := by
  obtain ⟨bodyOf, hassigned, hagrees, hfetched, hkept⟩ := hpass
  obtain ⟨later, hlater, hextends⟩ := hassigned.evolve hevolves hafter
  exact ⟨later, hlater, hagrees.mono hextends,
    fun data hdata hbody => hextends _ _ (hfetched data hdata hbody), hkept⟩

/-- The server may do what it does at any time. -/
theorem FailInv.evolve (hinv : FailInv parse state) {after : ImapServer}
    (hevolves : state.sync.server.Evolves after) (hafter : after.WellFormed) :
    FailInv parse { state with sync := { state.sync with server := after } } := by
  obtain ⟨uidvalidity, bodyOf, hassigned, hagrees, hrows, hstored⟩ :=
    hinv.committed
  obtain ⟨later, hlater, hextends⟩ := hassigned.evolve hevolves hafter
  refine ⟨hafter, ⟨uidvalidity, later, hlater, hagrees.mono hextends, ?_,
    hstored⟩, hinv.unsynced, ?_, hinv.retry⟩
  · exact fun rows hmem row hrow => hextends _ _ (hrows rows hmem row hrow)
  · have hphase := hinv.phase
    change FailPhase parse { state.sync with server := after } state.sync.phase
    revert hphase
    cases state.sync.phase with
    | idle => exact id
    | selected selected => exact id
    | betweenBatches pass => exact fun h => PassAgrees.evolve h hevolves hafter
    | inBatch pass chunk fetched =>
        exact fun h => PassAgrees.evolve h hevolves hafter

theorem selectMailbox_db (server : ImapServer) (db : SyncDb) (args : PassArgs)
    (reportsUidnext : Bool) :
    (selectMailbox server db args reportsUidnext).1 = db ∨
      (selectMailbox server db args reportsUidnext).1 =
        clearMailboxHolds (clearMailboxLabels db) := by
  unfold selectMailbox
  dsimp only
  generalize Selected.mk _ _ _ _ = selected
  split
  · exact .inr rfl
  · exact .inl rfl

/-- SELECT: with nothing pending, the new UID space starts empty. -/
theorem FailInv.select (hinv : FailInv parse state) (args : PassArgs)
    (reportsUidnext : Bool) (hretry : state.retrying = none)
    (hguard : state.sync.db.failed = [] ∨
      ∀ stored ∈ state.sync.db.mailbox.uidvalidity,
        stored = state.sync.server.uidvalidity) :
    let outcome := selectMailbox state.sync.server state.sync.db args
      reportsUidnext
    FailInv parse { state with
      sync := { state.sync with
        db := outcome.1, phase := .selected outcome.2 } } ∧
      RowsKept state.sync.db outcome.1 := by
  intro outcome
  have hmailbox := selectMailbox_mailbox state.sync.server state.sync.db args
    reportsUidnext
  have hrows : outcome.1.messages = state.sync.db.messages ∧
      outcome.1.failed = state.sync.db.failed ∧
      (outcome.1.labels = state.sync.db.labels ∨ outcome.1.labels = []) := by
    rcases selectMailbox_db state.sync.server state.sync.db args
      reportsUidnext with hsame | hreset
    · have hdb : outcome.1 = state.sync.db := hsame
      rw [hdb]
      exact ⟨rfl, rfl, .inl rfl⟩
    · have hdb : outcome.1 =
          clearMailboxHolds (clearMailboxLabels state.sync.db) := hreset
      rw [hdb]
      exact ⟨rfl, rfl, .inr rfl⟩
  obtain ⟨hmessages, hfailed, hlabels⟩ := hrows
  obtain ⟨uidvalidity, bodyOf, hassigned, hagrees, -, hstored⟩ := hinv.committed
  refine ⟨⟨hinv.server, ⟨uidvalidity, bodyOf, hassigned, ?_, ?_, ?_⟩, ?_,
    ⟨hmailbox.symm, ?_⟩, ?_⟩, .of_eq hmessages hfailed⟩
  · refine ⟨hfailed ▸ hagrees.failed, ?_⟩
    rcases hlabels with hsame | hnone
    · exact (hagrees.of_rows_eq hmessages hsame hfailed).labels
    · change ∀ label ∈ outcome.1.labels, _
      rw [hnone]
      exact List.forall_mem_nil _
  · rw [hretry]
    rintro _ ⟨⟩
  · intro stored hmem
    change stored ∈ outcome.1.mailbox.uidvalidity at hmem
    rw [hmailbox] at hmem
    exact hstored stored hmem
  · intro hnone
    change outcome.1.mailbox.uidvalidity = none at hnone
    rw [hmailbox] at hnone
    obtain ⟨hfailedNil, hlabelsNil, hrowsNil⟩ := hinv.unsynced hnone
    refine ⟨hfailed.trans hfailedNil, ?_, hrowsNil⟩
    rcases hlabels with hsame | hempty
    · exact hsame.trans hlabelsNil
    · exact hempty
  · -- a full sync: the mailbox is new, or has just been reset
    intro hfull
    cases hvalidity : state.sync.db.mailbox.uidvalidity with
    | none =>
        obtain ⟨hfailedNil, hlabelsNil, -⟩ := hinv.unsynced hvalidity
        refine ⟨hfailed.trans hfailedNil, ?_⟩
        rcases hlabels with hsame | hempty
        · exact hsame.trans hlabelsNil
        · exact hempty
    | some stored =>
        have hne : stored ≠ state.sync.server.uidvalidity := by
          rintro rfl
          simp [outcome, selectMailbox, Selected.fullSync, hvalidity] at hfull
        have hnothing : state.sync.db.failed = [] := by
          refine hguard.resolve_right fun h => hne (h stored ?_)
          rw [hvalidity]
          rfl
        refine ⟨hfailed.trans hnothing, ?_⟩
        have hreset : outcome.1 =
            clearMailboxHolds (clearMailboxLabels state.sync.db) := by
          simp [outcome, selectMailbox, Selected.fullSync, hvalidity, hne]
        change outcome.1.labels = []
        rw [hreset]
        rfl
  · rw [hretry]
    rintro ⟨⟩

/-- The tables a selected pass starts from belong to the UID space it
selected. -/
theorem FailInv.selectedSpace (hinv : FailInv parse state) {selected : Selected}
    (hphase : state.sync.phase = .selected selected)
    (hspace : state.sync.server.uidvalidity = selected.serverUidvalidity) :
    ∃ bodyOf, Assigned state.sync.server selected.serverUidvalidity bodyOf ∧
      Agrees parse bodyOf state.sync.db := by
  have hselected := hinv.phase
  rw [hphase] at hselected
  obtain ⟨hrow, hfresh⟩ := hselected
  cases hfull : selected.fullSync with
  | true =>
      obtain ⟨hfailed, hlabels⟩ := hfresh hfull
      obtain ⟨bodyOf, hassigned⟩ := exists_assigned hinv.server
      exact ⟨bodyOf, hspace ▸ hassigned, .of_empty hfailed hlabels⟩
  | false =>
      obtain ⟨uidvalidity, bodyOf, hassigned, hagrees, -, hstored⟩ :=
        hinv.committed
      have hcurrent : state.sync.db.mailbox.uidvalidity =
          some selected.serverUidvalidity := by
        simpa [Selected.fullSync, hrow] using hfull
      have hsame := hstored _ hcurrent
      exact ⟨bodyOf, hsame ▸ hassigned, hagrees⟩

/-- The committed tables are replaced, and the phase with them. -/
theorem FailInv.commit (hinv : FailInv parse state) (db : SyncDb)
    {uidvalidity : Nat} {bodyOf : Nat → Option Bytes} {phase : Phase}
    (hassigned : Assigned state.sync.server uidvalidity bodyOf)
    (hagrees : Agrees parse bodyOf db)
    (hvalidity : db.mailbox.uidvalidity = some uidvalidity)
    (hphase : FailPhase parse { state.sync with db := db, phase := phase } phase)
    (hretry : state.retrying = none) :
    FailInv parse { state with
      sync := { state.sync with db := db, phase := phase } } := by
  refine ⟨hinv.server, ⟨uidvalidity, bodyOf, hassigned, hagrees, ?_, ?_⟩, ?_,
    hphase, ?_⟩
  · rw [hretry]
    exact nofun
  · intro stored hstored
    change stored ∈ db.mailbox.uidvalidity at hstored
    rw [hvalidity] at hstored
    exact (Option.mem_some_iff.mp hstored).symm
  · intro hnone
    change db.mailbox.uidvalidity = none at hnone
    rw [hvalidity] at hnone
    cases hnone
  · rw [hretry]
    exact nofun

/-- Nothing is committed, only the phase moves. -/
theorem FailInv.movePhase (hinv : FailInv parse state) {phase : Phase}
    {reported : List (Nat × Nat)}
    (hphase : FailPhase parse state.sync phase)
    (hretry : state.retrying = none) :
    FailInv parse { state with
      sync := { state.sync with
        phase := phase, reportedAbsent := reported } } := by
  refine ⟨hinv.server, hinv.committed, hinv.unsynced, ?_, ?_⟩
  · revert hphase
    cases phase with
    | idle => exact id
    | selected selected => exact id
    | betweenBatches pass => exact id
    | inBatch pass chunk fetched => exact id
  · rw [hretry]
    exact nofun

theorem FailInv.not_retrying (hinv : FailInv parse state)
    (hbusy : state.sync.phase ≠ .idle) : state.retrying = none := by
  cases hretrying : state.retrying with
  | none => rfl
  | some rows => exact absurd (hinv.retry (by rw [hretrying]; rfl)) hbusy

/-- A step of the server or of a pass. -/
theorem FailInv.syncStep (hinv : FailInv parse state) {event : SyncEvent}
    {next : SyncState}
    (hidle : event.isSelect = true → state.retrying = none)
    (hguard : event.isSelect = true → state.sync.db.failed = [] ∨
      ∀ stored ∈ state.sync.db.mailbox.uidvalidity,
        stored = state.sync.server.uidvalidity)
    (hstep : Localmail.syncStep parse state.sync event = some next) :
    FailInv parse { state with sync := next } ∧
      RowsKept state.sync.db next.db := by
  have hsame : RowsKept state.sync.db state.sync.db := .of_eq rfl rfl
  cases event with
  | deliver message =>
      simp only [Localmail.syncStep] at hstep
      split at hstep
      · rename_i hfresh
        cases hstep
        exact ⟨hinv.evolve (ImapServer.deliver_evolves hfresh)
          (hinv.server.deliver hfresh), hsame⟩
      · cases hstep
  | expunge uid =>
      cases hstep
      exact ⟨hinv.evolve (ImapServer.expunge_evolves _ uid)
        (hinv.server.expunge uid), hsame⟩
  | renumber uidvalidity =>
      simp only [Localmail.syncStep] at hstep
      split at hstep
      · rename_i hlt
        cases hstep
        exact ⟨hinv.evolve (ImapServer.renumber_evolves hlt)
          (ImapServer.wellFormed_empty uidvalidity), hsame⟩
      · cases hstep
  | select args reportsUidnext =>
      simp only [Localmail.syncStep] at hstep
      split at hstep
      · cases hstep
        exact hinv.select args reportsUidnext (hidle rfl) (hguard rfl)
      · cases hstep
  | search now =>
      simp only [Localmail.syncStep] at hstep
      split at hstep
      · rename_i selected hselected
        have hretry := hinv.not_retrying (by rw [hselected]; rintro ⟨⟩)
        split at hstep
        · rename_i hspace
          obtain ⟨bodyOf, hassigned, hagrees⟩ :=
            hinv.selectedSpace hselected hspace
          split at hstep
          · cases hstep
            refine ⟨hinv.commit (finishEmpty state.sync.db selected)
              hassigned ?_ rfl trivial hretry, .of_eq rfl rfl⟩
            exact hagrees.of_rows_eq rfl rfl rfl
          · cases hstep
            exact ⟨hinv.movePhase ⟨bodyOf, hassigned, hagrees,
              List.forall_mem_nil _, hsame⟩ hretry, hsame⟩
        · cases hstep
      · cases hstep
  | fetch answer =>
      simp only [Localmail.syncStep] at hstep
      split at hstep
      · rename_i pass hpass
        have hretry := hinv.not_retrying (by rw [hpass]; rintro ⟨⟩)
        have hphase := hinv.phase
        rw [hpass] at hphase
        obtain ⟨bodyOf, hassigned, hagrees, -, hkept⟩ := hphase
        split at hstep
        · split at hstep
          · rename_i hserver
            cases hstep
            refine ⟨hinv.movePhase ⟨bodyOf, hassigned, hagrees, ?_, hkept⟩
              hretry, hsame⟩
            intro data hdata hbody
            exact hassigned.serves hserver.1.symm _
              (hserver.2 data hdata hbody)
          · cases hstep
        · cases hstep
      · cases hstep
  | handle stillOnServer fault txNow =>
      simp only [Localmail.syncStep] at hstep
      split at hstep
      · rename_i pass uid chunk fetched hbatch
        have hretry := hinv.not_retrying (by rw [hbatch]; rintro ⟨⟩)
        have hphase := hinv.phase
        rw [hbatch] at hphase
        obtain ⟨bodyOf, hassigned, hagrees, hfetched, hkept⟩ := hphase
        split at hstep
        · rename_i data hdata
          obtain ⟨hmem, rfl, hbody⟩ := fetchedBody_spec hdata
          split at hstep
          · rename_i after hstored
            cases hstep
            obtain ⟨hagrees', hkept', hvalidity, -⟩ :=
              storeBody_agrees hagrees (hfetched data hmem hbody) hstored
            exact ⟨hinv.movePhase ⟨bodyOf, hvalidity ▸ hassigned, hagrees',
              hfetched, hkept.trans hkept'⟩ hretry, hsame⟩
          · cases hstep
            exact ⟨hinv.movePhase trivial hretry, hsame⟩
        · split at hstep
          · cases hstep
            obtain ⟨hmessages, hlabels, hfailed, hvalidity⟩ :=
              holdOrGiveUp_rows pass uid txNow
            refine ⟨hinv.movePhase ⟨bodyOf, hvalidity ▸ hassigned,
              hagrees.of_rows_eq hmessages hlabels hfailed, hfetched,
              hkept.trans (.of_eq hmessages hfailed)⟩ hretry, hsame⟩
          · split at hstep
            · cases hstep
              exact ⟨hinv.movePhase ⟨bodyOf, hassigned, hagrees, hfetched,
                hkept⟩ hretry, hsame⟩
            · cases hstep
      · cases hstep
  | checkpoint =>
      simp only [Localmail.syncStep] at hstep
      split at hstep
      · rename_i pass fetched hbatch
        have hretry := hinv.not_retrying (by rw [hbatch]; rintro ⟨⟩)
        have hphase := hinv.phase
        rw [hbatch] at hphase
        obtain ⟨bodyOf, hassigned, hagrees, -, hkept⟩ := hphase
        obtain ⟨hmessages, hlabels, hfailed, hvalidity⟩ :=
          checkpointPass_rows pass
        have hcommitted := hagrees.of_rows_eq hmessages hlabels hfailed
        cases hstep
        refine ⟨hinv.commit _ hassigned hcommitted hvalidity ?_ hretry,
          hkept.trans (.of_eq hmessages hfailed)⟩
        split
        · trivial
        · exact ⟨bodyOf, hassigned, hcommitted, List.forall_mem_nil _,
            .of_eq rfl rfl⟩
      · cases hstep
  | crash =>
      cases hstep
      refine ⟨⟨hinv.server, hinv.committed, hinv.unsynced, trivial,
        fun _ => rfl⟩, hsame⟩

/-- A retried row is archived and dropped, or filed where it was. -/
theorem retryFailed_spec {authMethod : AuthMethod}
    (hlive : authMethod ≠ .archive) {bodyOf : Nat → Option Bytes}
    {db next : SyncDb} {row : FailedRow} {fault : Option Fault}
    (hagrees : Agrees parse bodyOf db)
    (hrow : bodyOf row.uid = some row.rawBytes)
    (h : retryFailed parse authMethod db row fault = some next) :
    Agrees parse bodyOf next ∧ next.mailbox = db.mailbox ∧
      ∀ raw, StillRecorded parse db raw → StillRecorded parse next raw := by
  have huid : attemptUid authMethod db row = row.uid := by
    simp [attemptUid, shouldReallocateUid, hlive]
  unfold retryFailed at h
  rw [huid] at h
  split at h
  · rename_i linked inserted hok
    cases h
    obtain ⟨hlinked, hfailed, hmailbox, hmessages, harchived⟩ :=
      hagrees.processOneMessage hrow hok
    refine ⟨⟨?_, hlinked.labels⟩, hmailbox, ?_⟩
    · exact fun other hother =>
        hlinked.failed other (List.mem_filter.mp hother).1
    · rintro raw (⟨other, hother, rfl⟩ | hbefore)
      · by_cases hsame : other.uid = row.uid
        · -- the dropped row has the bytes that were archived
          have hbytes := hagrees.failed other hother
          rw [hsame, hrow] at hbytes
          rw [← Option.some.inj hbytes]
          exact .inr harchived
        · refine .inl ⟨other, List.mem_filter.mpr ⟨hfailed ▸ hother, ?_⟩, rfl⟩
          simpa using hsame
      · exact .inr (hbefore.mono hmessages)
  · cases h
  · cases h
    obtain ⟨hrecorded, hkept, hmailbox⟩ := hagrees.recordFailedMessage hrow
    exact ⟨hrecorded, hmailbox, fun raw hraw => hraw.mono hkept⟩

/-- A retry may stop anywhere: each of its rows was committed. -/
theorem FailInv.stopRetry (hinv : FailInv parse state) :
    FailInv parse { state with retrying := none } := by
  obtain ⟨uidvalidity, bodyOf, hassigned, hagrees, -, hstored⟩ := hinv.committed
  refine ⟨hinv.server, ⟨uidvalidity, bodyOf, hassigned, hagrees, nofun,
    hstored⟩, ?_, hinv.phase, nofun⟩
  intro hvalidity
  obtain ⟨hfailed, hlabels, -⟩ := hinv.unsynced hvalidity
  exact ⟨hfailed, hlabels, nofun⟩

/-- Every step keeps the rows in their UID space, and every recorded body
recorded or archived. -/
theorem FailInv.step {authMethod : AuthMethod} (hlive : authMethod ≠ .archive)
    (hinv : FailInv parse state) {event : FailEvent} {next : FailState}
    (hguard : NoPendingReset state event)
    (hstep : failStep parse authMethod state event = some next) :
    FailInv parse next ∧ ∀ raw, StillRecorded parse state.sync.db raw →
      StillRecorded parse next.sync.db raw := by
  have hsame : ∀ raw, StillRecorded parse state.sync.db raw →
      StillRecorded parse state.sync.db raw := fun _ h => h
  cases event with
  | sync event =>
      simp only [failStep] at hstep
      split at hstep
      · cases hstep
      · rename_i hfree
        split at hstep
        · rename_i after hafter
          cases hstep
          have hidle : event.isSelect = true → state.retrying = none := by
            intro hselect
            by_contra hretrying
            exact hfree ⟨hselect, Option.isSome_iff_ne_none.mpr hretrying⟩
          obtain ⟨hnext, hkept⟩ := hinv.syncStep hidle hguard hafter
          exact ⟨hnext, fun raw hraw => hraw.mono hkept⟩
        · cases hstep
  | elsewhere parsed internalDate =>
      simp only [failStep] at hstep
      split at hstep
      · rename_i hidle
        cases hstep
        obtain ⟨hlabels, hfailed, hmailbox, hmessages⟩ :=
          upsertMessage_rows state.sync.db parsed internalDate
        obtain ⟨uidvalidity, bodyOf, hassigned, hagrees, hrows, hstored⟩ :=
          hinv.committed
        refine ⟨⟨hinv.server, ⟨uidvalidity, bodyOf, hassigned,
          hagrees.upsertMessage parsed internalDate, hrows, ?_⟩, ?_, ?_,
          hinv.retry⟩, ?_⟩
        · dsimp only
          rw [hmailbox]
          exact hstored
        · dsimp only
          rw [hmailbox, hfailed, hlabels]
          exact hinv.unsynced
        · dsimp only
          rw [hidle]
          trivial
        · intro raw hraw
          refine hraw.mono ⟨fun row hrow => ⟨row, ?_, rfl⟩, hmessages⟩
          exact hfailed ▸ hrow
      · cases hstep
  | startRetry =>
      simp only [failStep] at hstep
      split at hstep
      · rename_i hidle hnone
        cases hstep
        obtain ⟨uidvalidity, bodyOf, hassigned, hagrees, -, hstored⟩ :=
          hinv.committed
        refine ⟨⟨hinv.server, ⟨uidvalidity, bodyOf, hassigned, hagrees, ?_,
          hstored⟩, ?_, hinv.phase, fun _ => hidle⟩, hsame⟩
        · rintro rows ⟨⟩ row hrow
          exact hagrees.failed row hrow
        · intro hvalidity
          obtain ⟨hfailed, hlabels, -⟩ := hinv.unsynced hvalidity
          refine ⟨hfailed, hlabels, ?_⟩
          rintro rows ⟨⟩
          exact hfailed
      · cases hstep
  | retryNext fault =>
      simp only [failStep] at hstep
      split at hstep
      · rename_i row rest hrows
        have hidle := hinv.retry (by rw [hrows]; rfl)
        split at hstep
        · rename_i db hretried
          cases hstep
          obtain ⟨uidvalidity, bodyOf, hassigned, hagrees, hbodies, hstored⟩ :=
            hinv.committed
          have hagree : ∀ other ∈ row :: rest,
              bodyOf other.uid = some other.rawBytes :=
            fun other hother => hbodies _ hrows other hother
          obtain ⟨hagrees', hmailbox, hstill⟩ := retryFailed_spec hlive hagrees
            (hagree row List.mem_cons_self) hretried
          refine ⟨⟨hinv.server, ⟨uidvalidity, bodyOf, hassigned, hagrees', ?_,
            ?_⟩, ?_, ?_, fun _ => hidle⟩, hstill⟩
          · rintro rows ⟨⟩ other hother
            exact hagree other (List.mem_cons_of_mem _ hother)
          · dsimp only
            rw [hmailbox]
            exact hstored
          · dsimp only
            rw [hmailbox]
            intro hvalidity
            have hnil := (hinv.unsynced hvalidity).2.2 _ hrows
            cases hnil
          · dsimp only
            rw [hidle]
            trivial
        · cases hstep
          exact ⟨hinv.stopRetry, hsame⟩
      · cases hstep
  | endRetry =>
      cases hstep
      exact ⟨hinv.stopRetry, hsame⟩

/-- In a run without such a reset, a recorded body is recorded or archived in
every later state. -/
theorem FailInv.stillRecorded {authMethod : AuthMethod}
    (hlive : authMethod ≠ .archive) (hinv : FailInv parse state) {raw : Bytes}
    (hraw : StillRecorded parse state.sync.db raw) {final : FailState}
    (hrun : GuardedReach (failStep parse authMethod) NoPendingReset state
      final) :
    StillRecorded parse final.sync.db raw := by
  have hboth : FailInv parse final ∧ StillRecorded parse final.sync.db raw := by
    apply hrun.invariant ⟨hinv, hraw⟩
    intro before event after hbefore hguard hstep
    obtain ⟨hafter, hstill⟩ := hbefore.1.step hlive hguard hstep
    exact ⟨hafter, hstill raw hbefore.2⟩
  exact hboth.2

end Steps

/-! ### The law -/

/-- Recorded failures are not lost.  As long as no pass resets the mailbox for
a new UIDVALIDITY while failures are recorded in it: the bytes of a recorded
failure are in some row, or archived, in every later state; and a retry of the
row, when the message parses and nothing else goes wrong, archives it. -/
theorem recorded_failures_survive (parse : Parser) (authMethod : AuthMethod)
    (hlive : authMethod ≠ .archive) {start state : FailState}
    (hstart : start.Unsynced)
    (hreach : GuardedReach (failStep parse authMethod) NoPendingReset start
      state) :
    (∀ row ∈ state.sync.db.failed, ∀ final,
      GuardedReach (failStep parse authMethod) NoPendingReset state final →
      (∃ kept ∈ final.sync.db.failed, kept.rawBytes = row.rawBytes) ∨
        ∃ parsed ∈ parse row.rawBytes, ∃ message ∈ final.sync.db.messages,
          message.key = parsed.dedupKey) ∧
    ∀ row ∈ state.sync.db.failed, ∀ parsed,
      parse row.rawBytes = some parsed →
      ∃ db, retryFailed parse authMethod state.sync.db row none = some db ∧
        (∀ kept ∈ db.failed, kept.uid ≠ row.uid) ∧
        ∃ message ∈ db.messages, message.key = parsed.dedupKey := by
  have hinv : FailInv parse state := by
    apply hreach.invariant (hstart.failInv parse)
    intro before event after hbefore hguard hstep
    exact (hbefore.step hlive hguard hstep).1
  refine ⟨?_, ?_⟩
  · intro row hrow final hrun
    exact hinv.stillRecorded hlive (.inl ⟨row, hrow, rfl⟩) hrun
  · intro row hrow parsed hparsed
    obtain ⟨uidvalidity, bodyOf, -, hagrees, -, -⟩ := hinv.committed
    have hbody := hagrees.failed row hrow
    obtain ⟨⟨linked, inserted⟩, hok⟩ :=
      hagrees.processOneMessage_ok hbody hparsed [] none
    obtain ⟨-, -, -, -, parsed', hparsed', message, hmessage, hkey⟩ :=
      hagrees.processOneMessage hbody hok
    rw [hparsed] at hparsed'
    cases hparsed'
    have huid : attemptUid authMethod state.sync.db row = row.uid := by
      simp [attemptUid, shouldReallocateUid, hlive]
    refine ⟨deleteFailed linked row.uid, ?_, ?_, message, hmessage, hkey⟩
    · simp only [retryFailed, huid, hok]
    · intro kept hkept
      simpa using (List.mem_filter.mp hkept).2

namespace FailedWitness

/-- Two messages, told apart by their bytes. -/
def byBytes : Parser := fun raw => some ⟨none, raw.length⟩

def first : Bytes := [1]

def second : Bytes := [2, 2]

def unsynced : FailState :=
  ⟨⟨⟨1, 1, []⟩, ⟨⟨none, none⟩, [], 1, [], [], []⟩, .idle, []⟩, none⟩

theorem unsynced_start : unsynced.Unsynced :=
  ⟨⟨⟨List.nodup_nil, nofun, nofun, Nat.one_pos⟩, rfl, rfl⟩, rfl, rfl, rfl⟩

/-- UID 5 is delivered, and a pass fails on it. -/
def failsOn (raw : Bytes) : List FailEvent :=
  [.deliver ⟨5, raw⟩, .select ⟨none, 100⟩ true, .search 0,
    .fetch [⟨5, raw, [], none⟩], .handle true (some .other) 0,
    .checkpoint].map FailEvent.sync

/-- The mailbox is renumbered, and the new UID 5 fails too. -/
def renumbered : List FailEvent :=
  .sync (.renumber 2) :: failsOn second

/-- The failure is retried first. -/
def retried : List FailEvent :=
  [.startRetry, .retryNext none, .endRetry] ++ renumbered

end FailedWitness

open FailedWitness in
/-- After a renumbering, the failure of another message under the same UID
overwrites the bytes of the first one: nothing has them any more. -/
theorem recorded_failure_overwritten :
    ¬ ∀ (parse : Parser) (authMethod : AuthMethod) (start state : FailState),
      authMethod ≠ .archive → start.Unsynced →
      Reach (failStep parse authMethod) start state →
      ∀ row ∈ state.sync.db.failed, ∀ final,
        Reach (failStep parse authMethod) state final →
        (∃ kept ∈ final.sync.db.failed, kept.rawBytes = row.rawBytes) ∨
          ∃ parsed ∈ parse row.rawBytes, ∃ message ∈ final.sync.db.messages,
            message.key = parsed.dedupKey := by
  intro hclaim
  have hstill := hclaim byBytes .password unsynced _ (by decide) unsynced_start
    (GuardedReach.of_replay (failsOn first) rfl) ⟨5, first, 0⟩ (by decide) _
    (GuardedReach.of_replay renumbered rfl)
  revert hstill
  decide

open FailedWitness in
theorem recorded_failures_survive_retried :
    ∃ state final,
      replayGuarded (failStep byBytes .password) NoPendingReset unsynced
        (failsOn first) = some state ∧
      state.sync.db.failed = [⟨5, first, 0⟩] ∧
      replayGuarded (failStep byBytes .password) NoPendingReset state
        retried = some final ∧
      final.sync.db.failed = [⟨5, second, 0⟩] ∧
      ∃ message ∈ final.sync.db.messages, message.key = .rawSha256 1 := by
  refine ⟨_, _, rfl, rfl, rfl, rfl, ?_⟩
  have hkept := (recorded_failures_survive byBytes .password (by decide)
    unsynced_start (GuardedReach.of_replay (failsOn first) rfl)).1
    ⟨5, first, 0⟩ (by decide) _ (GuardedReach.of_replay retried rfl)
  obtain ⟨kept, hmem, hbytes⟩ | ⟨parsed, hparsed, hmessage⟩ := hkept
  · revert kept
    decide
  · cases hparsed
    exact hmessage

end Localmail
