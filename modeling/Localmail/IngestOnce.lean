/-
Concurrent ingestion keeps one row for each key.  An uncommitted row is held by
its inserter and hides no committed one; every other transaction finds the row
that was committed.
-/
import Localmail.ConcurrentIngest

namespace Localmail

namespace Ingest

/-! ### The rows -/

/-- The version a transaction holds, or the committed one. -/
def latest (store : RowStore IngestRow) (key : RowKey) : Option (IngestRow key) :=
  if store.owner key = none then store.committed key else store.dirty key

/-- Each key once among all versions; a message is written by its inserter
alone, before it is committed; nothing is deleted. -/
structure TablesInv (tables : Tables) : Prop where
  unique : ∀ left right leftRow rightRow,
    latest tables.store (.message left) = some leftRow →
    latest tables.store (.message right) = some rightRow →
    leftRow.key = rightRow.key → left = right
  fresh : ∀ id, tables.store.committed (.message id) ≠ none ∨
    tables.store.owner (.message id) ≠ none → id < tables.nextMessageId
  uncommitted : ∀ id, tables.store.owner (.message id) ≠ none →
    tables.store.committed (.message id) = none
  written : ∀ key, tables.store.owner key ≠ none →
    tables.store.dirty key ≠ none

/-- What others have committed stays, a message as it is. -/
structure Grows (before after : RowStore IngestRow) : Prop where
  message : ∀ id row, before.committed (.message id) = some row →
    after.committed (.message id) = some row
  label : ∀ id mailboxId, before.committed (.label id mailboxId) ≠ none →
    after.committed (.label id mailboxId) ≠ none

section Rows

variable {tables : Tables} {tx : Nat}

theorem Grows.of_committed {before after : RowStore IngestRow}
    (hsame : after.committed = before.committed) : Grows before after :=
  ⟨fun _ _ hrow => hsame ▸ hrow, fun _ _ hrow => hsame ▸ hrow⟩

theorem Grows.trans {before between after : RowStore IngestRow}
    (hfirst : Grows before between) (hsecond : Grows between after) :
    Grows before after :=
  ⟨fun id row hrow => hsecond.message id row (hfirst.message id row hrow),
    fun id mailboxId hrow =>
      hsecond.label id mailboxId (hfirst.label id mailboxId hrow)⟩

theorem grows_commit (hinv : TablesInv tables) (tx : Nat) :
    Grows tables.store (tables.store.commit tx) where
  message := by
    intro id row hrow
    rw [RowStore.committed_commit, RowStore.view_of_not_owner, hrow]
    intro howner
    rw [hinv.uncommitted id (by simp [howner])] at hrow
    cases hrow
  label := by
    intro id mailboxId hrow
    rw [RowStore.committed_commit, RowStore.view]
    split
    · rename_i howner
      exact hinv.written _ (by simp [howner])
    · exact hrow

theorem latest_put_of_ne {key other : RowKey} (hne : other ≠ key)
    (row : IngestRow key) :
    latest (tables.put tx key row).store other = latest tables.store other := by
  simp only [latest, Tables.put, RowStore.owner_put_of_ne hne,
    RowStore.dirty_put_of_ne hne, RowStore.committed_put]

theorem latest_put_self (key : RowKey) (row : IngestRow key) :
    latest (tables.put tx key row).store key = some row := by
  simp [latest, Tables.put]

/-- A row that is no message. -/
theorem TablesInv.put_other (hinv : TablesInv tables) {key : RowKey}
    (hkey : ∀ id, key ≠ .message id) (row : IngestRow key) :
    TablesInv (tables.put tx key row) where
  unique := by
    intro left right leftRow rightRow hleft hright
    rw [latest_put_of_ne (hkey left).symm] at hleft
    rw [latest_put_of_ne (hkey right).symm] at hright
    exact hinv.unique left right leftRow rightRow hleft hright
  fresh := by
    intro id
    simp only [Tables.put, RowStore.committed_put,
      RowStore.owner_put_of_ne (hkey id).symm]
    exact hinv.fresh id
  uncommitted := by
    intro id
    simp only [Tables.put, RowStore.committed_put,
      RowStore.owner_put_of_ne (hkey id).symm]
    exact hinv.uncommitted id
  written := by
    intro other
    by_cases hsame : other = key
    · subst hsame
      simp [Tables.put]
    · simp only [Tables.put, RowStore.owner_put_of_ne hsame,
        RowStore.dirty_put_of_ne hsame]
      exact hinv.written other

/-- A version of a message that nobody else can have a key of. -/
theorem TablesInv.put_message (hinv : TablesInv tables) {id : Nat}
    {row : MessageRow} (hid : id < tables.nextMessageId)
    (hcommitted : tables.store.committed (.message id) = none)
    (hkey : ∀ other otherRow, other ≠ id →
      latest tables.store (.message other) = some otherRow →
      otherRow.key ≠ row.key) :
    TablesInv (tables.put tx (.message id) row) where
  unique := by
    intro left right leftRow rightRow hleft hright hsame
    by_cases hleftId : left = id
    · by_cases hrightId : right = id
      · exact hleftId.trans hrightId.symm
      · subst hleftId
        rw [latest_put_self] at hleft
        obtain rfl := Option.some.inj hleft
        rw [latest_put_of_ne (by simpa using hrightId)] at hright
        exact absurd hsame.symm (hkey right rightRow hrightId hright)
    · rw [latest_put_of_ne (by simpa using hleftId)] at hleft
      by_cases hrightId : right = id
      · subst hrightId
        rw [latest_put_self] at hright
        obtain rfl := Option.some.inj hright
        exact absurd hsame (hkey left leftRow hleftId hleft)
      · rw [latest_put_of_ne (by simpa using hrightId)] at hright
        exact hinv.unique left right leftRow rightRow hleft hright hsame
  fresh := by
    intro other hother
    by_cases hsame : other = id
    · rw [hsame]
      exact hid
    · apply hinv.fresh other
      simpa only [Tables.put, RowStore.committed_put,
        RowStore.owner_put_of_ne (show RowKey.message other ≠ .message id by
          simpa using hsame)] using hother
  uncommitted := by
    intro other howner
    by_cases hsame : other = id
    · rw [hsame]
      exact hcommitted
    · apply hinv.uncommitted other
      simpa only [Tables.put,
        RowStore.owner_put_of_ne (show RowKey.message other ≠ .message id by
          simpa using hsame)] using howner
  written := by
    intro other howner
    by_cases hsame : other = .message id
    · subst hsame
      simp [Tables.put]
    · simp only [Tables.put, RowStore.owner_put_of_ne hsame,
        RowStore.dirty_put_of_ne hsame] at howner ⊢
      exact hinv.written other howner

theorem latest_commit (key : RowKey) :
    latest (tables.commit tx).store key = latest tables.store key := by
  unfold latest Tables.commit RowStore.commit RowStore.released RowStore.view
  by_cases howner : tables.store.owner key = some tx
  · simp [howner]
  · simp [howner]

theorem TablesInv.commit (hinv : TablesInv tables) (tx : Nat) :
    TablesInv (tables.commit tx) where
  unique := by
    intro left right leftRow rightRow
    rw [latest_commit, latest_commit]
    exact hinv.unique left right leftRow rightRow
  fresh := by
    intro id hid
    apply hinv.fresh id
    rcases hid with hview | howner
    · by_cases hown : tables.store.owner (.message id) = some tx
      · exact .inr (by simp [hown])
      · change tables.store.view tx (.message id) ≠ none at hview
        rw [RowStore.view_of_not_owner hown] at hview
        exact .inl hview
    · exact .inr (RowStore.owner_ne_none_of_released howner)
  uncommitted := by
    intro id howner
    obtain ⟨other, hother⟩ := Option.ne_none_iff_exists'.mp howner
    obtain ⟨hne, hbefore⟩ := RowStore.owner_of_released hother
    change tables.store.view tx (.message id) = none
    rw [RowStore.view_of_not_owner]
    · exact hinv.uncommitted id (by simp [hbefore])
    · rw [hbefore]
      exact fun hsame => hne (Option.some.inj hsame)
  written := by
    intro key howner
    exact hinv.written key (RowStore.owner_ne_none_of_released howner)

theorem TablesInv.rollback (hinv : TablesInv tables) (tx : Nat) :
    TablesInv (tables.rollback tx) where
  unique := by
    have hbefore : ∀ id row,
        latest (tables.rollback tx).store (.message id) = some row →
        latest tables.store (.message id) = some row := by
      intro id row
      unfold latest Tables.rollback RowStore.rollback RowStore.released
      by_cases howner : tables.store.owner (.message id) = some tx
      · have hnone := hinv.uncommitted id (by simp [howner])
        simp [howner, hnone]
      · simp [howner]
    intro left right leftRow rightRow hleft hright
    exact hinv.unique left right leftRow rightRow (hbefore left leftRow hleft)
      (hbefore right rightRow hright)
  fresh := by
    intro id hid
    exact hinv.fresh id (hid.imp_right RowStore.owner_ne_none_of_released)
  uncommitted := by
    intro id howner
    exact hinv.uncommitted id (RowStore.owner_ne_none_of_released howner)
  written := by
    intro key howner
    exact hinv.written key (RowStore.owner_ne_none_of_released howner)

end Rows

/-! ### The statements -/

section Statements

variable {tables after : Tables} {tx : Nat} {key : MailKey}

theorem existingMessageId_eq_some {id : Nat}
    (hexisting : existingMessageId tables tx key = some id) :
    ∃ row, tables.store.view tx (.message id) = some row ∧ row.key = key := by
  obtain ⟨found, -, hfound⟩ := List.exists_of_findSome?_eq_some hexisting
  cases found with
  | message other =>
      simp only [Option.ite_none_right_eq_some, Option.any_eq_true,
        decide_eq_true_eq, Option.some.injEq] at hfound
      obtain ⟨⟨row, hrow, hkey⟩, rfl⟩ := hfound
      exact ⟨row, hrow, hkey⟩
  | label => cases hfound
  | blob => cases hfound

theorem existingMessageId_eq_none
    (hexisting : existingMessageId tables tx key = none) {id : Nat}
    {row : MessageRow}
    (hrow : tables.store.view tx (.message id) = some row) : row.key ≠ key := by
  intro hkey
  have hmem : RowKey.message id ∈ tables.store.keys := by
    apply tables.store.covered
    by_cases howner : tables.store.owner (.message id) = some tx
    · exact .inr (by simp [howner])
    · rw [RowStore.view_of_not_owner howner] at hrow
      exact .inl (by simp [hrow])
  have hskipped := List.findSome?_eq_none_iff.mp hexisting _ hmem
  simp [hrow, hkey] at hskipped

theorem not_heldByRival (hrival : heldByRival tables tx key = false)
    {id other : Nat} {row : MessageRow}
    (howner : tables.store.owner (.message id) = some other) (hne : other ≠ tx)
    (hrow : tables.store.dirty (.message id) = some row) : row.key ≠ key := by
  intro hkey
  have hmem : RowKey.message id ∈ tables.store.keys :=
    tables.store.covered _ (.inr (by simp [howner]))
  have hskipped := List.any_eq_false.mp hrival _ hmem
  simp [howner, hne, hrow, hkey] at hskipped

/-- Where no rival holds the key and none of its rows is seen, no version
anywhere has it. -/
theorem latest_key_ne (hrival : heldByRival tables tx key = false)
    (hexisting : existingMessageId tables tx key = none) {id : Nat}
    {row : MessageRow}
    (hrow : latest tables.store (.message id) = some row) : row.key ≠ key := by
  cases howner : tables.store.owner (.message id) with
  | none =>
      rw [latest, if_pos howner] at hrow
      have hother : tables.store.owner (.message id) ≠ some tx := by
        simp [howner]
      exact existingMessageId_eq_none hexisting
        ((RowStore.view_of_not_owner hother).trans hrow)
  | some other =>
      rw [latest, if_neg (by simp [howner])] at hrow
      by_cases hself : other = tx
      · subst hself
        apply existingMessageId_eq_none hexisting
        rw [RowStore.view_of_owner howner]
        exact hrow
      · exact not_heldByRival hrival howner hself hrow

/-- The insert leaves the rows alone, or adds one of its own. -/
theorem insertMessage_eq_some {parsed : ParsedMail} {inserted : Option Nat}
    (hinv : TablesInv tables)
    (hinsert : insertMessage tables tx parsed = some (after, inserted)) :
    TablesInv after ∧
      ((inserted = none ∧ after.store = tables.store) ∨
        ∃ id row, inserted = some id ∧
          row.key = mailKey parsed.messageId parsed.rawSha256 ∧
          row.attachments = [] ∧ tables.store.owner (.message id) = none ∧
          after.store = tables.store.put tx (.message id) (some row)) := by
  have hdrawn : TablesInv
      { tables with nextMessageId := tables.nextMessageId + 1 } :=
    ⟨hinv.unique, fun id hid => Nat.lt_succ_of_lt (hinv.fresh id hid),
      hinv.uncommitted, hinv.written⟩
  unfold insertMessage at hinsert
  dsimp only at hinsert
  split at hinsert
  · cases hinsert
  · rename_i hrival
    split at hinsert
    · cases hinsert
      exact ⟨hdrawn, .inl ⟨rfl, rfl⟩⟩
    · rename_i hexisting
      cases hinsert
      rw [Bool.not_eq_true] at hrival
      rw [Option.not_isSome_iff_eq_none] at hexisting
      have hunused : ¬ (tables.store.committed
          (.message tables.nextMessageId) ≠ none ∨
          tables.store.owner (.message tables.nextMessageId) ≠ none) :=
        fun hid => absurd (hinv.fresh _ hid) (Nat.lt_irrefl _)
      rw [not_or, not_not, not_not] at hunused
      refine ⟨hdrawn.put_message (Nat.lt_succ_self _) hunused.1 ?_,
        .inr ⟨_, _, rfl, rfl, rfl, hunused.2, rfl⟩⟩
      intro other otherRow _ hother
      exact latest_key_ne hrival hexisting hother

end Statements

/-! ### The transactions -/

/-- The transaction has written nothing. -/
def Idle (store : RowStore IngestRow) (tx : Nat) : Prop :=
  ∀ key, store.owner key ≠ some tx

/-- The row of the key: the transaction's own, or one already committed. -/
def MessageHeld (store : RowStore IngestRow) (tx : Nat) (job : IngestJob)
    (id : Nat) (attachments : List AttachmentEntry) : Bool → Prop
  | true => store.owner (.message id) = some tx ∧
      ∃ row, store.dirty (.message id) = some row ∧ row.key = job.key ∧
        row.attachments = attachments
  | false => ∃ row, store.committed (.message id) = some row ∧ row.key = job.key

def LabelHeld (store : RowStore IngestRow) (tx : Nat) (job : IngestJob)
    (id : Nat) : Prop :=
  store.owner (.label id job.mailboxId) = some tx

/-- What a committed transaction leaves. -/
def Labelled (digest : Bytes → Bytes) (store : RowStore IngestRow)
    (job : IngestJob) (id : Nat) (didInsert : Bool) : Prop :=
  ∃ row, store.committed (.message id) = some row ∧ row.key = job.key ∧
    (store.committed (.label id job.mailboxId)).isSome = true ∧
    (didInsert = true → row.attachments = job.entries digest)

/-- Where a transaction stands. -/
def ProcOk (digest : Bytes → Bytes) (store : RowStore IngestRow) (tx : Nat) :
    IngestProc → Prop
  | .starting _ | .inserting _ | .rereading _ | .rolledBack => Idle store tx
  | .labelling job id didInsert => MessageHeld store tx job id [] didInsert
  | .storing job id remaining rows =>
      MessageHeld store tx job id [] true ∧ LabelHeld store tx job id ∧
        rows ++ remaining.map (attachmentEntry digest) = job.entries digest
  | .returned job id didInsert =>
      MessageHeld store tx job id (job.entries digest) didInsert ∧
        LabelHeld store tx job id
  | .committed job id didInsert => Labelled digest store job id didInsert

section Kept

variable {digest : Bytes → Bytes} {before after : RowStore IngestRow} {tx : Nat}

theorem MessageHeld.kept {job : IngestJob} {id : Nat}
    {attachments : List AttachmentEntry} {didInsert : Bool}
    (hundisturbed : RowStore.Undisturbed tx before after)
    (hgrows : Grows before after)
    (hheld : MessageHeld before tx job id attachments didInsert) :
    MessageHeld after tx job id attachments didInsert := by
  cases didInsert with
  | true =>
      obtain ⟨howner, row, hrow, hrest⟩ := hheld
      exact ⟨(hundisturbed.owner _).mpr howner, row,
        (hundisturbed.dirty _ howner).trans hrow, hrest⟩
  | false =>
      obtain ⟨row, hrow, hkey⟩ := hheld
      exact ⟨row, hgrows.message id row hrow, hkey⟩

theorem Labelled.kept {job : IngestJob} {id : Nat} {didInsert : Bool}
    (hgrows : Grows before after)
    (hlabelled : Labelled digest before job id didInsert) :
    Labelled digest after job id didInsert := by
  obtain ⟨row, hrow, hkey, hlabel, hattachments⟩ := hlabelled
  refine ⟨row, hgrows.message id row hrow, hkey, ?_, hattachments⟩
  exact Option.isSome_iff_ne_none.mpr
    (hgrows.label _ _ (Option.isSome_iff_ne_none.mp hlabel))

/-- The others disturb nothing a transaction relies on. -/
theorem ProcOk.kept {proc : IngestProc}
    (hundisturbed : RowStore.Undisturbed tx before after)
    (hgrows : Grows before after) (hok : ProcOk digest before tx proc) :
    ProcOk digest after tx proc := by
  have hidle : Idle before tx → Idle after tx := by
    intro hidle key howner
    exact hidle key ((hundisturbed.owner key).mp howner)
  cases proc with
  | starting | inserting | rereading | rolledBack => exact hidle hok
  | labelling job id didInsert => exact MessageHeld.kept hundisturbed hgrows hok
  | storing job id remaining rows =>
      exact ⟨hok.1.kept hundisturbed hgrows,
        (hundisturbed.owner _).mpr hok.2.1, hok.2.2⟩
  | returned job id didInsert =>
      exact ⟨hok.1.kept hundisturbed hgrows, (hundisturbed.owner _).mpr hok.2⟩
  | committed job id didInsert => exact Labelled.kept hgrows hok

end Kept

/-- A statement of a transaction: it disturbs no other one. -/
structure StepOk (digest : Bytes → Bytes) (tx : Nat) (before after : Tables)
    (next : IngestProc) : Prop where
  inv : TablesInv after
  undisturbed : ∀ other, other ≠ tx →
    RowStore.Undisturbed other before.store after.store
  grows : Grows before.store after.store
  ok : ProcOk digest after.store tx next

section Steps

variable {digest : Bytes → Bytes} {tables after : Tables} {tx : Nat}
  {next : IngestProc}

theorem StepOk.still (hinv : TablesInv tables)
    (hok : ProcOk digest tables.store tx next) :
    StepOk digest tx tables tables next :=
  ⟨hinv, fun other _ => RowStore.Undisturbed.refl other _,
    .of_committed rfl, hok⟩

theorem StepOk.put {key : RowKey} {row : IngestRow key}
    (hfree : tables.store.Free tx key)
    (hinv : TablesInv (tables.put tx key row))
    (hok : ProcOk digest (tables.put tx key row).store tx next) :
    StepOk digest tx tables (tables.put tx key row) next :=
  ⟨hinv, fun _ hother => RowStore.undisturbed_put hother hfree (some row),
    .of_committed rfl, hok⟩

theorem StepOk.rollback (hinv : TablesInv tables) :
    StepOk digest tx tables (tables.rollback tx) .rolledBack :=
  ⟨hinv.rollback tx, fun _ hother => RowStore.undisturbed_rollback hother,
    .of_committed rfl, fun _ => RowStore.released_ne_self⟩

/-- The row found is committed: the transaction has none of its own. -/
theorem messageHeld_of_existing {job : IngestJob} {id : Nat}
    (hidle : Idle tables.store tx)
    (hexisting : existingMessageId tables tx job.key = some id)
    (attachments : List AttachmentEntry) :
    MessageHeld tables.store tx job id attachments false := by
  obtain ⟨row, hrow, hkey⟩ := existingMessageId_eq_some hexisting
  rw [RowStore.view_of_not_owner (hidle _)] at hrow
  exact ⟨row, hrow, hkey⟩

/-- A row that is not the message's leaves the message as it was. -/
theorem MessageHeld.put {job : IngestJob} {id : Nat}
    {attachments : List AttachmentEntry} {didInsert : Bool}
    (hheld : MessageHeld tables.store tx job id attachments didInsert)
    (key : RowKey) (hkey : ∀ id, key ≠ .message id) (row : IngestRow key) :
    MessageHeld (tables.put tx key row).store tx job id attachments
      didInsert := by
  cases didInsert with
  | true =>
      obtain ⟨howner, found, hfound, hrest⟩ := hheld
      refine ⟨?_, found, ?_, hrest⟩
      · exact (RowStore.owner_put_of_ne (hkey id).symm _).trans howner
      · exact (RowStore.dirty_put_of_ne (hkey id).symm _).trans hfound
  | false => exact hheld

theorem upsertLabel_stepOk (digest : Bytes → Bytes) {job : IngestJob}
    {id : Nat} {didInsert : Bool} (hinv : TablesInv tables)
    (hheld : MessageHeld tables.store tx job id [] didInsert)
    (hlabel : upsertLabel tables tx id job.mailboxId job.uid job.flags =
      some after) :
    StepOk digest tx tables after
      (if didInsert && !job.parsed.attachments.isEmpty then
        .storing job id job.parsed.attachments []
      else .returned job id didInsert) := by
  unfold upsertLabel at hlabel
  dsimp only at hlabel
  split at hlabel
  · rename_i hfree
    cases hlabel
    refine .put hfree (hinv.put_other (by simp) _) ?_
    have hmessage := hheld.put (.label id job.mailboxId) (by simp)
      ⟨job.uid, job.flags⟩
    have hlabelled : LabelHeld (tables.put tx (.label id job.mailboxId)
        ⟨job.uid, job.flags⟩).store tx job id := RowStore.owner_put_self _
    cases didInsert with
    | false => exact ⟨hmessage, hlabelled⟩
    | true =>
        cases hattachments : job.parsed.attachments with
        | nil =>
            have hentries : job.entries digest = [] := by
              simp [IngestJob.entries, hattachments]
            rw [← hentries] at hmessage
            exact ⟨hmessage, hlabelled⟩
        | cons attachment rest =>
            refine ⟨hmessage, hlabelled, ?_⟩
            rw [IngestJob.entries, hattachments]
            rfl
  · cases hlabel

theorem insertBlob_stepOk {job : IngestJob} {id : Nat}
    {attachment : Attachment} {remaining : List Attachment}
    {rows : List AttachmentEntry} (hinv : TablesInv tables)
    (hok : ProcOk digest tables.store tx
      (.storing job id (attachment :: remaining) rows))
    (hblob : insertBlob tables tx digest attachment = some after) :
    StepOk digest tx tables after (.storing job id remaining
      (rows ++ [attachmentEntry digest attachment])) := by
  obtain ⟨hmessage, hlabel, hrows⟩ := hok
  have hnext : rows ++ [attachmentEntry digest attachment] ++
      remaining.map (attachmentEntry digest) = job.entries digest := by
    rw [← hrows, List.map_cons, List.append_assoc, List.singleton_append]
  unfold insertBlob at hblob
  dsimp only at hblob
  split at hblob
  · rename_i hfree
    split at hblob
    · cases hblob
      exact .still hinv ⟨hmessage, hlabel, hnext⟩
    · cases hblob
      refine .put hfree (hinv.put_other (by simp) _)
        ⟨hmessage.put _ (by simp) _, ?_, hnext⟩
      exact (RowStore.owner_put_of_ne (by simp) _).trans hlabel
  · cases hblob

theorem setMessageAttachments_stepOk {job : IngestJob} {id : Nat}
    {rows : List AttachmentEntry} (hinv : TablesInv tables)
    (hok : ProcOk digest tables.store tx (.storing job id [] rows))
    (hset : setMessageAttachments tables tx id rows = some after) :
    StepOk digest tx tables after (.returned job id true) := by
  obtain ⟨⟨howner, row, hrow, hkey, -⟩, hlabel, hrows⟩ := hok
  have hview : tables.store.view tx (.message id) = some row :=
    (RowStore.view_of_owner howner).trans hrow
  have hheld : tables.store.owner (.message id) ≠ none := by simp [howner]
  have hlatest : latest tables.store (.message id) = some row := by
    rw [latest, if_neg hheld, hrow]
  unfold setMessageAttachments at hset
  dsimp only at hset
  rw [if_pos (.inr howner), hview] at hset
  cases hset
  refine .put (.inr howner) ?_ ⟨?_, ?_⟩
  · refine hinv.put_message (hinv.fresh id (.inr hheld)) (hinv.uncommitted id hheld)
      ?_
    intro other otherRow hne hother hsame
    exact hne (hinv.unique other id otherRow row hother hlatest hsame)
  · rw [List.map_nil, List.append_nil] at hrows
    exact ⟨RowStore.owner_put_self _, _, RowStore.dirty_put_self _, hkey, hrows⟩
  · exact (RowStore.owner_put_of_ne (by simp) _).trans hlabel

theorem commit_stepOk {job : IngestJob} {id : Nat} {didInsert : Bool}
    (hinv : TablesInv tables)
    (hok : ProcOk digest tables.store tx (.returned job id didInsert)) :
    StepOk digest tx tables (tables.commit tx)
      (.committed job id didInsert) := by
  obtain ⟨hheld, hlabel⟩ := hok
  refine ⟨hinv.commit tx, fun _ hother => RowStore.undisturbed_commit hother,
    grows_commit hinv tx, ?_⟩
  have hlabelled : ((tables.commit tx).store.committed
      (.label id job.mailboxId)).isSome = true := by
    change (tables.store.view tx (.label id job.mailboxId)).isSome = true
    rw [RowStore.view_of_owner hlabel, Option.isSome_iff_ne_none]
    refine hinv.written _ ?_
    rw [show tables.store.owner (.label id job.mailboxId) = some tx from hlabel]
    exact Option.some_ne_none tx
  cases didInsert with
  | true =>
      obtain ⟨howner, row, hrow, hkey, hattachments⟩ := hheld
      exact ⟨row, (RowStore.view_of_owner howner).trans hrow, hkey, hlabelled,
        fun _ => hattachments⟩
  | false =>
      obtain ⟨row, hrow, hkey⟩ := hheld
      exact ⟨row, (grows_commit hinv tx).message id row hrow, hkey, hlabelled,
        nofun⟩

/-- Every statement of a transaction. -/
theorem advance_stepOk {proc : IngestProc} (hinv : TablesInv tables)
    (hok : ProcOk digest tables.store tx proc)
    (hadvance : proc.advance digest tx tables = some (after, next)) :
    StepOk digest tx tables after next := by
  cases proc with
  | starting job =>
      simp only [IngestProc.advance] at hadvance
      split at hadvance
      · rename_i id hexisting
        cases hadvance
        exact .still hinv (messageHeld_of_existing hok hexisting [])
      · cases hadvance
        exact .still hinv hok
  | inserting job =>
      obtain ⟨⟨inserted, found⟩, hinsert, hnext⟩ :=
        Option.map_eq_some_iff.mp hadvance
      obtain ⟨hinv', ⟨rfl, hsame⟩ | ⟨id, row, rfl, hkey, hnone, hfree, hput⟩⟩ :=
        insertMessage_eq_some hinv hinsert
      · cases hnext
        exact ⟨hinv', fun other _ => hsame ▸ RowStore.Undisturbed.refl other _,
          .of_committed (by rw [hsame]), fun key => hsame ▸ hok key⟩
      · cases hnext
        refine ⟨hinv', ?_, .of_committed (by rw [hput]; rfl), ?_⟩
        · intro other hother
          rw [hput]
          exact RowStore.undisturbed_put hother (.inl hfree) _
        · have hheld : MessageHeld after.store tx job id [] true := by
            rw [hput]
            exact ⟨RowStore.owner_put_self _, row, RowStore.dirty_put_self _,
              hkey, hnone⟩
          exact hheld
  | rereading job =>
      simp only [IngestProc.advance] at hadvance
      split at hadvance
      · rename_i id hexisting
        cases hadvance
        exact .still hinv (messageHeld_of_existing hok hexisting [])
      · cases hadvance
        exact .rollback hinv
  | labelling job id didInsert =>
      obtain ⟨labelled, hlabel, hnext⟩ := Option.map_eq_some_iff.mp hadvance
      have hstep := upsertLabel_stepOk digest hinv hok hlabel
      split at hnext
      · rename_i hstores
        rw [if_pos hstores] at hstep
        cases hnext
        exact hstep
      · rename_i hdone
        rw [if_neg hdone] at hstep
        cases hnext
        exact hstep
  | storing job id remaining rows =>
      cases remaining with
      | nil =>
          obtain ⟨written, hset, hnext⟩ := Option.map_eq_some_iff.mp hadvance
          cases hnext
          exact setMessageAttachments_stepOk hinv hok hset
      | cons attachment remaining =>
          obtain ⟨written, hblob, hnext⟩ := Option.map_eq_some_iff.mp hadvance
          cases hnext
          exact insertBlob_stepOk hinv hok hblob
  | returned job id didInsert =>
      cases hadvance
      exact commit_stepOk hinv hok
  | committed | rolledBack => cases hadvance

end Steps

/-! ### Any number of them -/

/-- The tables and every transaction on them. -/
structure IngestInv (digest : Bytes → Bytes) (world : IngestWorld) : Prop where
  tables : TablesInv world.shared
  owners : ∀ key pid, world.shared.store.owner key = some pid →
    pid < world.procs.length
  procs : ∀ (pid : Nat) (proc : IngestProc), world.procs[pid]? = some proc →
    ProcOk digest world.shared.store pid proc

section Worlds

variable {digest : Bytes → Bytes} {world next : IngestWorld}

/-- One transaction takes a step, or is abandoned. -/
theorem IngestInv.acts (hinv : IngestInv digest world) {pid : Nat}
    {proc after : IngestProc} {shared : Tables}
    (hproc : world.procs[pid]? = some proc)
    (hstep : StepOk digest pid world.shared shared after) :
    IngestInv digest ⟨shared, world.procs.set pid after⟩ where
  tables := hstep.inv
  owners := by
    apply owners_set hinv.owners after hproc
    intro key other howner
    by_cases hsame : other = pid
    · exact .inl hsame
    · exact .inr (((hstep.undisturbed other hsame).owner key).mp howner)
  procs := by
    intro other found hfound
    rcases procs_set_cases hfound with ⟨rfl, rfl⟩ | ⟨hne, hbefore⟩
    · exact hstep.ok
    · exact (hinv.procs other found hbefore).kept
        (hstep.undisturbed other hne) hstep.grows

theorem IngestInv.spawn (hinv : IngestInv digest world) {proc : IngestProc}
    (hstarting : proc.isStarting = true) :
    IngestInv digest { world with procs := world.procs ++ [proc] } where
  tables := hinv.tables
  owners := owners_append hinv.owners proc
  procs := by
    intro pid found hfound
    rcases procs_append_cases hfound with ⟨rfl, rfl⟩ | hbefore
    · cases found with
      | starting job =>
          intro key howner
          exact absurd (hinv.owners key _ howner) (Nat.lt_irrefl _)
      | _ => cases hstarting
    · exact hinv.procs pid found hbefore

/-- A step keeps the invariant and everything committed. -/
theorem ingestStep_spec {event : WorldEvent IngestProc Empty}
    (hinv : IngestInv digest world)
    (hstep : ingestStep digest world event = some next) :
    IngestInv digest next ∧ Grows world.shared.store next.shared.store := by
  rcases worldStep_cases hstep with ⟨change, -⟩ | ⟨proc, -, hstarting, rfl⟩ |
    ⟨pid, proc, shared, after, -, hproc, hadvance, rfl⟩ |
    ⟨pid, proc, -, hproc, -, rfl⟩
  · exact change.elim
  · exact ⟨hinv.spawn hstarting, .of_committed rfl⟩
  · have hact := advance_stepOk hinv.tables (hinv.procs pid proc hproc) hadvance
    exact ⟨hinv.acts hproc hact, hact.grows⟩
  · exact ⟨hinv.acts hproc (.rollback hinv.tables), .of_committed rfl⟩

theorem ingestInv_start (digest : Bytes → Bytes) (before : QuietTables) :
    IngestInv digest ⟨before.toTables, []⟩ where
  tables :=
    { unique := by
        intro left right leftRow rightRow
        rw [latest, latest, if_pos (before.idle _), if_pos (before.idle _)]
        exact before.unique left right leftRow rightRow
      fresh := by
        intro id hid
        rcases hid with hcommitted | howner
        · exact before.fresh id hcommitted
        · exact absurd (before.idle _) howner
      uncommitted := fun id howner => absurd (before.idle _) howner
      written := fun key howner => absurd (before.idle key) howner }
  owners := by
    intro key pid howner
    simp [before.idle key] at howner
  procs := by
    intro pid proc hproc
    simp at hproc

/-- Of each key one row is committed, and it is the one everybody labels. -/
theorem IngestInv.ingestedOnce (hinv : IngestInv digest world) :
    IngestedOnce digest world where
  unique := by
    have hlatest : ∀ id row,
        world.shared.store.committed (.message id) = some row →
        latest world.shared.store (.message id) = some row := by
      intro id row hrow
      rw [latest, if_pos]
      · exact hrow
      · by_contra howner
        rw [hinv.tables.uncommitted id howner] at hrow
        cases hrow
    intro left right leftRow rightRow hleft hright
    exact hinv.tables.unique left right leftRow rightRow
      (hlatest left leftRow hleft) (hlatest right rightRow hright)
  labelled := fun tx _ _ _ hproc => hinv.procs tx _ hproc

/-- What is committed stays committed. -/
theorem grows_of_reach {later : IngestWorld} (hinv : IngestInv digest world)
    (hreach : Reach (ingestStep digest) world later) :
    Grows world.shared.store later.shared.store := by
  have hlater : IngestInv digest later ∧
      Grows world.shared.store later.shared.store := by
    induction hreach with
    | refl => exact ⟨hinv, .of_committed rfl⟩
    | tail _ _ hstep ih =>
        obtain ⟨hafter, hgrows⟩ := ingestStep_spec ih.1 hstep
        exact ⟨hafter, ih.2.trans hgrows⟩
  exact hlater.2

end Worlds

/-- Any number of transactions with any jobs, in any order, over any rows:
each key gets one row, which stays. -/
theorem ingested_once (digest : Bytes → Bytes) (before : QuietTables)
    (world : IngestWorld)
    (hreach : Reach (ingestStep digest) ⟨before.toTables, []⟩ world) :
    IngestedOnce digest world ∧
      ∀ later, Reach (ingestStep digest) world later →
        ∀ id row, world.shared.store.committed (.message id) = some row →
          later.shared.store.committed (.message id) = some row := by
  have hinv : IngestInv digest world :=
    hreach.invariant (ingestInv_start digest before)
      fun _ _ _ hbefore _ hstep => (ingestStep_spec hbefore hstep).1
  refine ⟨hinv.ingestedOnce, ?_⟩
  intro later hlater id row hrow
  exact (grows_of_reach hinv hlater).message id row hrow

namespace Race

def quiet : QuietTables where
  store := .empty
  nextMessageId := 1
  idle := fun _ => rfl
  fresh := fun _ hid => absurd rfl hid
  unique := nofun

/-- A message with one attachment, under one of two folders. -/
def job (mailboxId : Nat) : IngestJob :=
  ⟨⟨some (text "<a@b>"), [1], none, [], none, none, none, [], [], [], none, [],
    none, none, [], 0, [⟨text "a.txt", text "text/plain", [7], none⟩]⟩,
    mailboxId, 4, []⟩

/-- The first inserter goes, the second one wins, the third labels its row. -/
def run : List (WorldEvent IngestProc Empty) :=
  [.spawn (.starting (job 1)), .spawn (.starting (job 2)),
    .spawn (.starting (job 3)), .advance 0, .advance 1, .advance 2, .advance 0,
    .crash 0, .advance 1, .advance 1, .advance 1, .advance 1, .advance 1,
    .advance 2, .advance 2, .advance 2, .advance 2]

end Race

open Race in
theorem ingested_once_race : ∃ world,
    replayGuarded (ingestStep id) (fun _ _ => True) ⟨quiet.toTables, []⟩ run =
      some world ∧
    world.procs = [.rolledBack, .committed (job 2) 2 true,
      .committed (job 3) 2 false] ∧
    IngestedOnce id world := by
  have hrun : (replayGuarded (ingestStep id) (fun _ _ => True)
      ⟨quiet.toTables, []⟩ run).map World.procs =
      some [.rolledBack, .committed (job 2) 2 true,
        .committed (job 3) 2 false] := by
    decide +kernel
  obtain ⟨world, hworld, hprocs⟩ := Option.map_eq_some_iff.mp hrun
  exact ⟨world, hworld, hprocs,
    (ingested_once id quiet world (GuardedReach.of_replay run hworld)).1⟩

end Ingest

end Localmail
