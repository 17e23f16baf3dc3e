/-
The rows of the archive tables.  What each helper needs of the UID it writes
under, and what it leaves: a label wants a UID no label of the mailbox has, a
failure one that no other failure has.
-/
import Mathlib.Data.List.Nodup
import Mathlib.Data.Set.Basic
import Localmail.ArchiveImport

namespace Localmail

namespace Archive

/-! ### The allocators -/

theorem uid_le_maxLabelUid {db : Db} {label : LabelRow}
    (hlabel : label ∈ db.labels) :
    label.uid ≤ maxLabelUid db label.mailboxId := by
  apply le_maxOrZero
  apply List.mem_map_of_mem
  exact List.mem_filter.mpr ⟨hlabel, by simp⟩

theorem uid_le_maxReservedUid {db : Db} {row : FailedRow}
    (hrow : row ∈ db.failed) :
    row.uid ≤ maxReservedUid db row.accountId row.mailboxId := by
  apply Nat.le_trans _ (Nat.le_max_right _ _)
  apply le_maxOrZero
  apply List.mem_map_of_mem
  exact List.mem_filter.mpr ⟨hrow, by simp⟩

/-- No label of the mailbox has the UID. -/
def Db.LabelFree (db : Db) (mailboxId uid : Nat) : Prop :=
  ∀ label ∈ db.labels, label.mailboxId = mailboxId → label.uid ≠ uid

theorem labelFree_nextUidAfter (db : Db) (mailboxId : Nat) :
    db.LabelFree mailboxId (nextUidAfter (some (maxLabelUid db mailboxId))) := by
  rintro label hlabel rfl
  have hle := uid_le_maxLabelUid hlabel
  simp only [nextUidAfter, Option.getD_some]
  omega

/-! ### What the tables promise -/

/-- The same failure: nothing but the count of retries differs. -/
def FailedRow.Same (row kept : FailedRow) : Prop :=
  kept = { row with retryCount := kept.retryCount }

theorem FailedRow.Same.refl (row : FailedRow) : row.Same row := rfl

theorem FailedRow.Same.trans {first second third : FailedRow}
    (hfirst : first.Same second) (hsecond : second.Same third) :
    first.Same third := by
  unfold FailedRow.Same at *
  rw [hsecond, hfirst]

section Tables

variable {sha256 : Bytes → Nat} {corpus : Set Bytes}

/-- The constraints of the schema, and what the importer adds to them: a
failure is filed under the account of its mailbox, with the digest of its
bytes, and once. -/
structure Db.Sound (sha256 : Bytes → Nat) (corpus : Set Bytes) (db : Db) :
    Prop where
  mailboxNext : ∀ row ∈ db.mailboxes, row.id < db.nextMailboxId
  mailboxId : ∀ row ∈ db.mailboxes, ∀ other ∈ db.mailboxes,
    row.id = other.id → row = other
  labelUid : ∀ row ∈ db.labels, ∀ other ∈ db.labels,
    row.mailboxId = other.mailboxId → row.uid = other.uid → row = other
  labelKey : ∀ row ∈ db.labels, ∀ other ∈ db.labels,
    row.messageId = other.messageId → row.mailboxId = other.mailboxId →
    row = other
  failedOrder : db.failed.Pairwise fun row later => row.id < later.id
  failedNext : ∀ row ∈ db.failed, row.id < db.nextFailedId
  failedKey : ∀ row ∈ db.failed, ∀ other ∈ db.failed,
    row.mailboxId = other.mailboxId → row.uid = other.uid → row = other
  failedOnce : ∀ row ∈ db.failed, ∀ other ∈ db.failed,
    row.mailboxId = other.mailboxId → row.rawBytes = other.rawBytes →
    row = other
  failedHome : ∀ row ∈ db.failed, ∃ mailbox ∈ db.mailboxes,
    mailbox.id = row.mailboxId ∧ mailbox.accountId = row.accountId
  failedDigest : ∀ row ∈ db.failed, row.rawSha256 = sha256 row.rawBytes
  failedCorpus : ∀ row ∈ db.failed, row.rawBytes ∈ corpus

theorem Db.empty_sound : Db.empty.Sound sha256 corpus where
  mailboxNext := nofun
  mailboxId := nofun
  labelUid := nofun
  labelKey := nofun
  failedOrder := .nil
  failedNext := nofun
  failedKey := nofun
  failedOnce := nofun
  failedHome := nofun
  failedDigest := nofun
  failedCorpus := nofun

theorem Db.Sound.eq_of_failed_id {db : Db} (hsound : db.Sound sha256 corpus)
    {row other : FailedRow} (hrow : row ∈ db.failed) (hother : other ∈ db.failed)
    (hid : row.id = other.id) : row = other := by
  have hnodup : (db.failed.map FailedRow.id).Nodup := by
    rw [List.Nodup, List.pairwise_map]
    exact hsound.failedOrder.imp Nat.ne_of_lt
  exact List.inj_on_of_nodup_map hnodup hrow hother hid

/-- `Sound` reads no messages. -/
theorem Db.Sound.of_rows_eq {db next : Db} (hsound : db.Sound sha256 corpus)
    (hmailboxes : next.mailboxes = db.mailboxes)
    (hmailboxNext : next.nextMailboxId = db.nextMailboxId)
    (hlabels : next.labels = db.labels) (hfailed : next.failed = db.failed)
    (hfailedNext : next.nextFailedId = db.nextFailedId) :
    next.Sound sha256 corpus := by
  obtain ⟨mailboxes, messages, labels, failed, nextMailbox, nextMessage,
    nextFailed⟩ := next
  dsimp only at *
  subst hmailboxes hmailboxNext hlabels hfailed hfailedNext
  exact { hsound with }

/-! ### One spec for each helper -/

/-- Everything but the mailboxes is as it was. -/
structure Db.SameRows (db next : Db) : Prop where
  messages : next.messages = db.messages
  labels : next.labels = db.labels
  failed : next.failed = db.failed
  failedNext : next.nextFailedId = db.nextFailedId

theorem upsertMailbox_spec {db : Db} (hsound : db.Sound sha256 corpus)
    (accountId : Nat) (name : String) :
    (upsertMailbox db accountId name).1.Sound sha256 corpus ∧
      db.SameRows (upsertMailbox db accountId name).1 ∧
      ⟨(upsertMailbox db accountId name).2, accountId, name⟩ ∈
        (upsertMailbox db accountId name).1.mailboxes ∧
      ∀ row ∈ db.mailboxes, row ∈ (upsertMailbox db accountId name).1.mailboxes
    := by
  unfold upsertMailbox
  split
  · rename_i row hfind
    have hmem := List.mem_of_find?_eq_some hfind
    have hrow := List.find?_some hfind
    simp only [decide_eq_true_eq] at hrow
    obtain ⟨rfl, rfl⟩ := hrow
    exact ⟨hsound, ⟨rfl, rfl, rfl, rfl⟩, hmem, fun _ h => h⟩
  · refine ⟨{ hsound with mailboxNext := ?_, mailboxId := ?_, failedHome := ?_ },
      ⟨rfl, rfl, rfl, rfl⟩, ?_, ?_⟩
    · intro row hrow
      rcases List.mem_append.mp hrow with hold | hnew
      · exact Nat.lt_succ_of_lt (hsound.mailboxNext row hold)
      · rw [List.mem_singleton.mp hnew]
        exact Nat.lt_succ_self _
    · intro row hrow other hother hid
      have hbound := hsound.mailboxNext
      rcases List.mem_append.mp hrow with hold | hnew <;>
        rcases List.mem_append.mp hother with hold' | hnew'
      · exact hsound.mailboxId row hold other hold' hid
      · have := hbound row hold
        rw [hid, List.mem_singleton.mp hnew'] at this
        exact absurd this (Nat.lt_irrefl _)
      · have := hbound other hold'
        rw [← hid, List.mem_singleton.mp hnew] at this
        exact absurd this (Nat.lt_irrefl _)
      · rw [List.mem_singleton.mp hnew, List.mem_singleton.mp hnew']
    · intro row hrow
      obtain ⟨mailbox, hmailbox, hhome⟩ := hsound.failedHome row hrow
      exact ⟨mailbox, List.mem_append_left _ hmailbox, hhome⟩
    · exact List.mem_append_right _ (List.mem_singleton.mpr rfl)
    · exact fun _ h => List.mem_append_left _ h

theorem upsertMessage_spec (db : Db) (accountId : Nat) (parsed : ParsedMessage)
    (internalDate : Option Micros) :
    let upserted := upsertMessage db accountId parsed internalDate
    (∃ message ∈ upserted.1.messages, message.accountId = accountId ∧
      message.key = parsed.dedupKey ∧ message.id = upserted.2.1) ∧
    upserted.1 = { db with
      messages := upserted.1.messages
      nextMessageId := upserted.1.nextMessageId } := by
  intro upserted
  simp only [upserted, upsertMessage]
  split
  · rename_i id hexisting
    simp only [existingMessageId, Option.map_eq_some_iff] at hexisting
    obtain ⟨message, hfind, hid⟩ := hexisting
    have hrow := List.find?_some hfind
    simp only [decide_eq_true_eq] at hrow
    exact ⟨⟨message, List.mem_of_find?_eq_some hfind, hrow.1, hrow.2, hid⟩, rfl⟩
  · refine ⟨⟨_, List.mem_append_right _ (List.mem_singleton.mpr rfl), ?_⟩, rfl⟩
    exact ⟨rfl, rfl, rfl⟩

theorem upsertLabel_rows {db next : Db} {messageDbId mailboxId uid : Nat}
    {flags : List String}
    (h : upsertLabel db messageDbId mailboxId uid flags = some next) :
    next = { db with labels := next.labels } ∧
      ∀ label, label ∈ next.labels ↔
        label = ⟨messageDbId, mailboxId, uid, flags⟩ ∨ label ∈ db.labels ∧
          ¬ (label.messageId = messageDbId ∧ label.mailboxId = mailboxId) := by
  unfold upsertLabel at h
  split at h
  · cases h
  · split at h
    · rename_i hany
      obtain ⟨old, hold, hkey⟩ := List.any_eq_true.mp hany
      simp only [decide_eq_true_eq] at hkey
      cases h
      refine ⟨rfl, fun label => ⟨fun hlabel => ?_, ?_⟩⟩
      · obtain ⟨before, hbefore, rfl⟩ := List.mem_map.mp hlabel
        split
        · exact .inl rfl
        · rename_i hne
          exact .inr ⟨hbefore, hne⟩
      · rintro (rfl | ⟨hlabel, hne⟩)
        · refine List.mem_map.mpr ⟨old, hold, ?_⟩
          rw [if_pos hkey]
        · refine List.mem_map.mpr ⟨label, hlabel, ?_⟩
          rw [if_neg hne]
    · rename_i hnone
      cases h
      refine ⟨rfl, fun label => ⟨fun hlabel => ?_, ?_⟩⟩
      · rcases List.mem_append.mp hlabel with hold | hnew
        · refine .inr ⟨hold, fun hkey => hnone ?_⟩
          exact List.any_eq_true.mpr ⟨label, hold, by simpa using hkey⟩
        · exact .inl (List.mem_singleton.mp hnew)
      · rintro (rfl | ⟨hlabel, -⟩)
        · exact List.mem_append_right _ (List.mem_singleton.mpr rfl)
        · exact List.mem_append_left _ hlabel

theorem upsertLabel_free {db : Db} {mailboxId uid : Nat}
    (hfree : db.LabelFree mailboxId uid) (messageDbId : Nat)
    (flags : List String) :
    ∃ next, upsertLabel db messageDbId mailboxId uid flags = some next := by
  have huntaken : db.uidTaken messageDbId mailboxId uid = false := by
    apply List.any_eq_false.mpr
    intro label hlabel
    have hne := hfree label hlabel
    grind
  unfold upsertLabel
  rw [huntaken, if_neg Bool.false_ne_true]
  split
  · exact ⟨_, rfl⟩
  · exact ⟨_, rfl⟩

theorem upsertLabel_sound {db next : Db} {messageDbId mailboxId uid : Nat}
    {flags : List String} (hsound : db.Sound sha256 corpus)
    (hfree : db.LabelFree mailboxId uid)
    (h : upsertLabel db messageDbId mailboxId uid flags = some next) :
    next.Sound sha256 corpus := by
  obtain ⟨hrest, hmem⟩ := upsertLabel_rows h
  have hlabelUid : ∀ row ∈ next.labels, ∀ other ∈ next.labels,
      row.mailboxId = other.mailboxId → row.uid = other.uid → row = other := by
    intro row hrow other hother hmailbox huid
    rcases (hmem row).mp hrow with rfl | ⟨hold, -⟩ <;>
      rcases (hmem other).mp hother with rfl | ⟨hold', -⟩
    · rfl
    · exact absurd huid.symm (hfree other hold' hmailbox.symm)
    · exact absurd huid (hfree row hold hmailbox)
    · exact hsound.labelUid row hold other hold' hmailbox huid
  have hlabelKey : ∀ row ∈ next.labels, ∀ other ∈ next.labels,
      row.messageId = other.messageId → row.mailboxId = other.mailboxId →
      row = other := by
    intro row hrow other hother hmessage hmailbox
    rcases (hmem row).mp hrow with rfl | ⟨hold, hne⟩ <;>
      rcases (hmem other).mp hother with rfl | ⟨hold', hne'⟩
    · rfl
    · exact absurd ⟨hmessage.symm, hmailbox.symm⟩ hne'
    · exact absurd ⟨hmessage, hmailbox⟩ hne
    · exact hsound.labelKey row hold other hold' hmessage hmailbox
  rw [hrest]
  exact { hsound with labelUid := hlabelUid, labelKey := hlabelKey }

/-- What archiving a message under a free UID leaves of the tables. -/
structure Db.Archives (sha256 : Bytes → Nat) (corpus : Set Bytes) (db : Db)
    (mailboxId uid : Nat) (next : Db) : Prop where
  sound : next.Sound sha256 corpus
  mailboxes : next.mailboxes = db.mailboxes
  failed : next.failed = db.failed
  labels : ∀ label ∈ next.labels, label ∈ db.labels ∨
    label.mailboxId = mailboxId ∧ label.uid = uid

/-- Under a free UID a message fails for some other reason, or is archived. -/
theorem processOneMessage_free {db : Db} {mailboxId uid : Nat}
    (hsound : db.Sound sha256 corpus) (hfree : db.LabelFree mailboxId uid)
    (parse : Parser) (accountId : Nat) (raw : Bytes) (flags : List String)
    (internalDate : Option Micros) (faults : Faults) :
    match processOneMessage parse db accountId mailboxId uid raw flags
      internalDate faults with
    | .error failure => failure ≠ .uidTaken
    | .ok (next, _) => db.Archives sha256 corpus mailboxId uid next ∧
        ∃ parsed, parse raw = some parsed ∧
          next.Labelled accountId mailboxId parsed.dedupKey := by
  have hfault : ∀ fault : Fault, Failure.ofFault fault ≠ .uidTaken := by
    rintro (_ | _) <;> nofun
  unfold processOneMessage
  cases hparse : parse raw with
  | none => exact nofun
  | some parsed =>
      cases faults.upsert with
      | some fault => exact hfault fault
      | none =>
          obtain ⟨⟨message, hmessage, haccount, hkey, hid⟩, hrest⟩ :=
            upsertMessage_spec db accountId parsed internalDate
          dsimp only
          generalize upsertMessage db accountId parsed internalDate = upserted
            at hmessage hid hrest
          have hfree' : upserted.1.LabelFree mailboxId uid := by
            rw [hrest]
            exact hfree
          have hsound' : upserted.1.Sound sha256 corpus := by
            rw [hrest]
            exact { hsound with }
          obtain ⟨next, hnext⟩ := upsertLabel_free hfree' upserted.2.1 flags
          rw [hnext]
          cases faults.attachments with
          | some fault => exact hfault fault
          | none =>
              obtain ⟨hsame, hmem⟩ := upsertLabel_rows hnext
              refine ⟨⟨upsertLabel_sound hsound' hfree' hnext, ?_, ?_, ?_⟩,
                parsed, rfl, ?_⟩
              · rw [hsame, hrest]
              · rw [hsame, hrest]
              · intro label hlabel
                rcases (hmem label).mp hlabel with rfl | ⟨hold, -⟩
                · exact .inr ⟨rfl, rfl⟩
                · rw [hrest] at hold
                  exact .inl hold
              · refine ⟨message, ?_, haccount, hkey, _, (hmem _).mpr (.inl rfl),
                  hid.symm, rfl⟩
                rw [hsame]
                exact hmessage

/-- Every failure is still filed, with the same bytes. -/
def Db.FailedKept (db next : Db) : Prop :=
  ∀ row ∈ db.failed, ∃ kept ∈ next.failed, row.Same kept

theorem Db.FailedKept.of_eq {db next : Db} (hfailed : next.failed = db.failed) :
    db.FailedKept next :=
  fun row hrow => ⟨row, hfailed ▸ hrow, .refl row⟩

theorem Db.FailedKept.trans {first second third : Db}
    (hfirst : first.FailedKept second) (hsecond : second.FailedKept third) :
    first.FailedKept third := by
  intro row hrow
  obtain ⟨kept, hkept, hsame⟩ := hfirst row hrow
  obtain ⟨kept', hkept', hsame'⟩ := hsecond kept hkept
  exact ⟨kept', hkept', hsame.trans hsame'⟩

theorem Db.Sound.map_failed {db : Db} (hsound : db.Sound sha256 corpus)
    (bump : FailedRow → FailedRow)
    (hbump : ∀ row ∈ db.failed, row.Same (bump row)) :
    Db.Sound sha256 corpus { db with failed := db.failed.map bump } := by
  have hfields : ∀ row ∈ db.failed, (bump row).id = row.id ∧
      (bump row).accountId = row.accountId ∧
      (bump row).mailboxId = row.mailboxId ∧ (bump row).uid = row.uid ∧
      (bump row).rawBytes = row.rawBytes ∧
      (bump row).rawSha256 = row.rawSha256 := by
    intro row hrow
    rw [hbump row hrow]
    exact ⟨rfl, rfl, rfl, rfl, rfl, rfl⟩
  refine { hsound with
    failedOrder := ?_, failedNext := ?_, failedKey := ?_, failedOnce := ?_
    failedHome := ?_, failedDigest := ?_, failedCorpus := ?_ }
  · refine List.pairwise_map.mpr (hsound.failedOrder.imp_of_mem ?_)
    intro row later hrow hlater hlt
    rwa [(hfields row hrow).1, (hfields later hlater).1]
  · intro row hrow
    obtain ⟨old, hold, rfl⟩ := List.mem_map.mp hrow
    rw [(hfields old hold).1]
    exact hsound.failedNext old hold
  · intro row hrow other hother hmailbox huid
    obtain ⟨old, hold, rfl⟩ := List.mem_map.mp hrow
    obtain ⟨old', hold', rfl⟩ := List.mem_map.mp hother
    obtain ⟨-, -, hmailboxEq, huidEq, -, -⟩ := hfields old hold
    obtain ⟨-, -, hmailboxEq', huidEq', -, -⟩ := hfields old' hold'
    have hsame := hsound.failedKey old hold old' hold'
      (by rw [← hmailboxEq, hmailbox, hmailboxEq'])
      (by rw [← huidEq, huid, huidEq'])
    rw [hsame]
  · intro row hrow other hother hmailbox hbytes
    obtain ⟨old, hold, rfl⟩ := List.mem_map.mp hrow
    obtain ⟨old', hold', rfl⟩ := List.mem_map.mp hother
    obtain ⟨-, -, hmailboxEq, -, hbytesEq, -⟩ := hfields old hold
    obtain ⟨-, -, hmailboxEq', -, hbytesEq', -⟩ := hfields old' hold'
    have hsame := hsound.failedOnce old hold old' hold'
      (by rw [← hmailboxEq, hmailbox, hmailboxEq'])
      (by rw [← hbytesEq, hbytes, hbytesEq'])
    rw [hsame]
  · intro row hrow
    obtain ⟨old, hold, rfl⟩ := List.mem_map.mp hrow
    obtain ⟨-, haccount, hmailbox, -, -, -⟩ := hfields old hold
    rw [haccount, hmailbox]
    exact hsound.failedHome old hold
  · intro row hrow
    obtain ⟨old, hold, rfl⟩ := List.mem_map.mp hrow
    obtain ⟨-, -, -, -, hbytes, hdigest⟩ := hfields old hold
    rw [hdigest, hbytes]
    exact hsound.failedDigest old hold
  · intro row hrow
    obtain ⟨old, hold, rfl⟩ := List.mem_map.mp hrow
    rw [(hfields old hold).2.2.2.2.1]
    exact hsound.failedCorpus old hold

/-- A new failure may be filed where the mailbox has neither its UID nor its
bytes. -/
theorem Db.Sound.append_failed {db : Db} (hsound : db.Sound sha256 corpus)
    {accountId mailboxId uid : Nat} {raw : Bytes} (hraw : raw ∈ corpus)
    (hhome : ∃ mailbox ∈ db.mailboxes,
      mailbox.id = mailboxId ∧ mailbox.accountId = accountId)
    (hnew : ∀ row ∈ db.failed, row.mailboxId = mailboxId →
      row.uid ≠ uid ∧ row.rawBytes ≠ raw) :
    Db.Sound sha256 corpus { db with
      failed := db.failed ++
        [⟨db.nextFailedId, accountId, mailboxId, uid, raw, sha256 raw, 0⟩]
      nextFailedId := db.nextFailedId + 1 } := by
  refine { hsound with
    failedOrder := ?_, failedNext := ?_, failedKey := ?_, failedOnce := ?_
    failedHome := ?_, failedDigest := ?_, failedCorpus := ?_ }
  · refine List.pairwise_append.mpr
      ⟨hsound.failedOrder, List.pairwise_singleton _ _, ?_⟩
    intro row hrow later hlater
    rw [List.mem_singleton.mp hlater]
    exact hsound.failedNext row hrow
  · intro row hrow
    rcases List.mem_append.mp hrow with hold | hlast
    · exact Nat.lt_succ_of_lt (hsound.failedNext row hold)
    · rw [List.mem_singleton.mp hlast]
      exact Nat.lt_succ_self _
  · intro row hrow other hother hmailbox huid
    rcases List.mem_append.mp hrow with hold | hlast <;>
      rcases List.mem_append.mp hother with hold' | hlast'
    · exact hsound.failedKey row hold other hold' hmailbox huid
    · rw [List.mem_singleton.mp hlast'] at hmailbox huid
      exact absurd huid (hnew row hold hmailbox).1
    · rw [List.mem_singleton.mp hlast] at hmailbox huid
      exact absurd huid.symm (hnew other hold' hmailbox.symm).1
    · rw [List.mem_singleton.mp hlast, List.mem_singleton.mp hlast']
  · intro row hrow other hother hmailbox hbytes
    rcases List.mem_append.mp hrow with hold | hlast <;>
      rcases List.mem_append.mp hother with hold' | hlast'
    · exact hsound.failedOnce row hold other hold' hmailbox hbytes
    · rw [List.mem_singleton.mp hlast'] at hmailbox hbytes
      exact absurd hbytes (hnew row hold hmailbox).2
    · rw [List.mem_singleton.mp hlast] at hmailbox hbytes
      exact absurd hbytes.symm (hnew other hold' hmailbox.symm).2
    · rw [List.mem_singleton.mp hlast, List.mem_singleton.mp hlast']
  · intro row hrow
    rcases List.mem_append.mp hrow with hold | hlast
    · exact hsound.failedHome row hold
    · rw [List.mem_singleton.mp hlast]
      exact hhome
  · intro row hrow
    rcases List.mem_append.mp hrow with hold | hlast
    · exact hsound.failedDigest row hold
    · rw [List.mem_singleton.mp hlast]
  · intro row hrow
    rcases List.mem_append.mp hrow with hold | hlast
    · exact hsound.failedCorpus row hold
    · rw [List.mem_singleton.mp hlast]
      exact hraw

/-- The failures of a mailbox are filed under its account. -/
theorem Db.Sound.accountId_eq {db : Db} (hsound : db.Sound sha256 corpus)
    {mailbox : MailboxRow} (hmailbox : mailbox ∈ db.mailboxes)
    {row : FailedRow} (hrow : row ∈ db.failed)
    (hhere : row.mailboxId = mailbox.id) : row.accountId = mailbox.accountId := by
  obtain ⟨home, hmem, hid, haccount⟩ := hsound.failedHome row hrow
  rw [← haccount, hsound.mailboxId home hmem mailbox hmailbox (by omega)]

/-- What filing a failure leaves of the tables. -/
structure Db.Files (sha256 : Bytes → Nat) (corpus : Set Bytes) (db : Db)
    (mailboxId uid : Nat) (next : Db) : Prop where
  sound : next.Sound sha256 corpus
  mailboxes : next.mailboxes = db.mailboxes
  labels : next.labels = db.labels
  kept : db.FailedKept next
  failed : ∀ row ∈ next.failed, (∃ old ∈ db.failed, old.Same row) ∨
    row.mailboxId = mailboxId ∧ row.uid = uid

/-- A failure is filed over a row of its own bytes, or beside all others. -/
theorem recordFailedMessage_files {db : Db} (hsound : db.Sound sha256 corpus)
    {mailbox : MailboxRow} (hmailbox : mailbox ∈ db.mailboxes) {uid : Nat}
    {raw : Bytes} (hraw : raw ∈ corpus)
    (hkey : ∀ row ∈ db.failed, row.mailboxId = mailbox.id →
      (row.uid = uid ↔ row.rawBytes = raw)) :
    db.Files sha256 corpus mailbox.id uid
      (recordFailedMessage sha256 db mailbox.accountId mailbox.id uid raw) := by
  unfold recordFailedMessage
  split
  · have hbump : ∀ row ∈ db.failed, row.Same
        (if row.accountId = mailbox.accountId ∧ row.mailboxId = mailbox.id ∧
            row.uid = uid then
          { row with
            rawBytes := raw, rawSha256 := sha256 raw
            retryCount := row.retryCount + 1 }
        else row) := by
      intro row hrow
      split
      · rename_i hthis
        have hbytes := (hkey row hrow hthis.2.1).mp hthis.2.2
        have hdigest := hsound.failedDigest row hrow
        simp [FailedRow.Same, ← hbytes, hdigest]
      · exact .refl row
    refine ⟨hsound.map_failed _ hbump, rfl, rfl, ?_, ?_⟩
    · exact fun row hrow => ⟨_, List.mem_map_of_mem hrow, hbump row hrow⟩
    · intro row hrow
      obtain ⟨old, hold, rfl⟩ := List.mem_map.mp hrow
      exact .inl ⟨old, hold, hbump old hold⟩
  · rename_i hnone
    have hnew : ∀ row ∈ db.failed, row.mailboxId = mailbox.id →
        row.uid ≠ uid ∧ row.rawBytes ≠ raw := by
      intro row hrow hhere
      have huid : row.uid ≠ uid := by
        intro huid
        refine hnone (List.any_eq_true.mpr ⟨row, hrow, ?_⟩)
        simpa using ⟨hsound.accountId_eq hmailbox hrow hhere, hhere, huid⟩
      exact ⟨huid, fun hbytes => huid ((hkey row hrow hhere).mpr hbytes)⟩
    refine ⟨hsound.append_failed hraw ⟨mailbox, hmailbox, rfl, rfl⟩ hnew,
      rfl, rfl, ?_, ?_⟩
    · exact fun row hrow => ⟨row, List.mem_append_left _ hrow, .refl row⟩
    · intro row hrow
      rcases List.mem_append.mp hrow with hold | hlast
      · exact .inl ⟨row, hold, .refl row⟩
      · rw [List.mem_singleton.mp hlast]
        exact .inr ⟨rfl, rfl⟩

theorem deleteFailed_sound {db : Db} (hsound : db.Sound sha256 corpus)
    (id : Nat) : (deleteFailed db id).Sound sha256 corpus := by
  have hmem : ∀ row ∈ (deleteFailed db id).failed, row ∈ db.failed :=
    fun row hrow => (List.mem_filter.mp hrow).1
  exact { hsound with
    failedOrder := hsound.failedOrder.filter _
    failedNext := fun row hrow => hsound.failedNext row (hmem row hrow)
    failedKey := fun row hrow other hother =>
      hsound.failedKey row (hmem row hrow) other (hmem other hother)
    failedOnce := fun row hrow other hother =>
      hsound.failedOnce row (hmem row hrow) other (hmem other hother)
    failedHome := fun row hrow => hsound.failedHome row (hmem row hrow)
    failedDigest := fun row hrow => hsound.failedDigest row (hmem row hrow)
    failedCorpus := fun row hrow => hsound.failedCorpus row (hmem row hrow) }

end Tables

end Archive

end Localmail
