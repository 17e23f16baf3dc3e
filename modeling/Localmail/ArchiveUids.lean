/-
The two UID allocators of archive mail stay out of each other's way: over every
sequence of jobs and retries no label meets `UNIQUE (mailbox_id, uid)`, no
failure is filed over another one, and a failure is dropped only for a label.
-/
import Mathlib.Data.Set.Function
import Localmail.ArchiveRows

namespace Localmail

namespace Archive

variable {sha256 : Bytes → Nat} {corpus : Set Bytes}

/-! ### Handling one message -/

/-- What handling a message of a mailbox leaves, whatever came of it: new rows
are in that mailbox and have at most this UID. -/
structure Db.Grows (sha256 : Bytes → Nat) (corpus : Set Bytes) (db : Db)
    (mailboxId uid : Nat) (next : Db) : Prop where
  sound : next.Sound sha256 corpus
  mailboxes : next.mailboxes = db.mailboxes
  kept : db.FailedKept next
  labels : ∀ label ∈ next.labels, label ∈ db.labels ∨
    label.mailboxId = mailboxId ∧ label.uid ≤ uid
  failed : ∀ row ∈ next.failed, (∃ old ∈ db.failed, old.Same row) ∨
    row.mailboxId = mailboxId ∧ row.uid ≤ uid

theorem Db.Grows.refl {db : Db} (hsound : db.Sound sha256 corpus)
    (mailboxId uid : Nat) : db.Grows sha256 corpus mailboxId uid db :=
  ⟨hsound, rfl, .of_eq rfl, fun _ h => .inl h,
    fun row hrow => .inl ⟨row, hrow, .refl row⟩⟩

theorem Db.Archives.grows {db next : Db} {mailboxId uid : Nat}
    (h : db.Archives sha256 corpus mailboxId uid next) :
    db.Grows sha256 corpus mailboxId uid next := by
  refine ⟨h.sound, h.mailboxes, .of_eq h.failed, ?_, ?_⟩
  · intro label hlabel
    exact (h.labels label hlabel).imp_right fun hnew => ⟨hnew.1, hnew.2.le⟩
  · intro row hrow
    exact .inl ⟨row, h.failed ▸ hrow, .refl row⟩

theorem Db.Files.grows {db next : Db} {mailboxId uid bound : Nat}
    (h : db.Files sha256 corpus mailboxId uid next) (hle : uid ≤ bound) :
    db.Grows sha256 corpus mailboxId bound next := by
  refine ⟨h.sound, h.mailboxes, h.kept, ?_, ?_⟩
  · intro label hlabel
    exact .inl (h.labels ▸ hlabel)
  · intro row hrow
    exact (h.failed row hrow).imp_right fun hnew =>
      ⟨hnew.1, hnew.2.le.trans hle⟩

theorem recordPill_cases (db recorded : Db) (record : Option Fault)
    (failure : Failure) :
    (recordPill db recorded record failure).logged = some failure ∧
      ∀ work, (recordPill db recorded record failure).work = some work →
        work = recorded ∨ work = db := by
  unfold recordPill
  split
  · exact ⟨rfl, nofun⟩
  · exact ⟨rfl, fun work h => .inl (Option.some.inj h).symm⟩
  · exact ⟨rfl, nofun⟩
  · exact ⟨rfl, fun work h => .inr (Option.some.inj h).symm⟩

/-- The row `_failed_uid` finds holds these bytes, and it finds it when there
is one. -/
theorem failedUid_spec {db : Db} (hsound : db.Sound sha256 corpus)
    (hsha : Set.InjOn sha256 corpus) {mailbox : MailboxRow}
    (hmailbox : mailbox ∈ db.mailboxes) {raw : Bytes} (hraw : raw ∈ corpus) :
    match failedUid sha256 db mailbox.accountId mailbox.id raw with
    | some uid => ∃ row ∈ db.failed, row.mailboxId = mailbox.id ∧
        row.uid = uid ∧ row.rawBytes = raw
    | none => ∀ row ∈ db.failed, row.mailboxId = mailbox.id →
        row.rawBytes ≠ raw := by
  split
  · rename_i uid hfound
    obtain ⟨row, hrow, huid⟩ := List.mem_map.mp (List.min?_mem hfound)
    obtain ⟨hmem, hthis⟩ := List.mem_filter.mp hrow
    simp only [decide_eq_true_eq] at hthis
    refine ⟨row, hmem, hthis.2.1, huid, ?_⟩
    apply hsha (hsound.failedCorpus row hmem) hraw
    rw [← hsound.failedDigest row hmem]
    exact hthis.2.2
  · rename_i hnone
    intro row hrow hhere hbytes
    have hempty := List.map_eq_nil_iff.mp (List.min?_eq_none_iff.mp hnone)
    have hmem : row ∈ db.failed.filter fun row =>
        row.accountId = mailbox.accountId ∧ row.mailboxId = mailbox.id ∧
          row.rawSha256 = sha256 raw := by
      refine List.mem_filter.mpr ⟨hrow, ?_⟩
      have haccount := hsound.accountId_eq hmailbox hrow hhere
      have hdigest := hsound.failedDigest row hrow
      rw [hbytes] at hdigest
      simpa using ⟨haccount, hhere, hdigest⟩
    rw [hempty] at hmem
    cases hmem

/-! ### A job -/

/-- The counters of a job are past every UID its transaction sees. -/
structure Job.Counts (sha256 : Bytes → Nat) (corpus : Set Bytes) (job : Job) :
    Prop where
  sound : job.work.Sound sha256 corpus
  opened : ∀ name id, job.mailboxIds name = some id →
    (⟨id, job.accountId, name⟩ : MailboxRow) ∈ job.work.mailboxes
  labels : ∀ name id, job.mailboxIds name = some id →
    ∀ label ∈ job.work.labels, label.mailboxId = id →
      label.uid ≤ job.uidCounters name
  failed : ∀ name id, job.mailboxIds name = some id →
    ∀ row ∈ job.work.failed, row.mailboxId = id →
      row.uid ≤ job.uidCounters name

theorem Job.start_counts {db : Db} (hsound : db.Sound sha256 corpus)
    (accountId : Nat) : (Job.start accountId db).Counts sha256 corpus :=
  ⟨hsound, nofun, nofun, nofun⟩

theorem Job.Counts.openMailbox {job : Job}
    (hcounts : job.Counts sha256 corpus) (name : String) :
    (job.openMailbox name).Counts sha256 corpus := by
  obtain ⟨hsound, hsame, hmailbox, hkept⟩ :=
    upsertMailbox_spec hcounts.sound job.accountId name
  -- the other names keep their entries, and their rows are where they were
  refine ⟨hsound, ?_, ?_, ?_⟩
  · intro other id hid
    by_cases hname : other = name
    · subst hname
      simp only [Job.openMailbox, Function.update_self, Option.some.injEq] at hid
      rw [← hid]
      exact hmailbox
    · simp only [Job.openMailbox, Function.update_of_ne hname] at hid
      exact hkept _ (hcounts.opened other id hid)
  · intro other id hid label hlabel hhere
    by_cases hname : other = name
    · subst hname
      simp only [Job.openMailbox, Function.update_self, Option.some.injEq] at hid ⊢
      subst hid
      have hle := uid_le_maxLabelUid hlabel
      rw [hhere] at hle
      exact hle.trans (Nat.le_max_left _ _)
    · simp only [Job.openMailbox, Function.update_of_ne hname] at hid ⊢
      exact hcounts.labels other id hid label (hsame.labels ▸ hlabel) hhere
  · intro other id hid row hrow hhere
    by_cases hname : other = name
    · subst hname
      simp only [Job.openMailbox, Function.update_self, Option.some.injEq] at hid ⊢
      subst hid
      have hle := uid_le_maxReservedUid hrow
      rwa [hhere, hsound.accountId_eq hmailbox hrow hhere] at hle
    · simp only [Job.openMailbox, Function.update_of_ne hname] at hid ⊢
      exact hcounts.failed other id hid row (hsame.failed ▸ hrow) hhere

theorem Job.Counts.advance {job : Job} (hcounts : job.Counts sha256 corpus)
    {name : String} {id : Nat} (hopen : job.mailboxIds name = some id)
    {work : Db}
    (hgrows : job.work.Grows sha256 corpus id (job.nextUid name) work) :
    (job.advance name work).Counts sha256 corpus := by
  have hdistinct : ∀ other, job.mailboxIds other = some id → other = name := by
    intro other hother
    have hsame := hcounts.sound.mailboxId _ (hcounts.opened other id hother) _
      (hcounts.opened name id hopen) rfl
    exact congrArg MailboxRow.name hsame
  have hraised : ∀ other, job.uidCounters other ≤
      (job.advance name work).uidCounters other := by
    intro other
    by_cases hname : other = name
    · subst hname
      simp [Job.advance, Job.nextUid]
    · simp [Job.advance, Function.update_of_ne hname]
  refine ⟨hgrows.sound, ?_, ?_, ?_⟩
  · intro other id' hid
    have hmailbox := hcounts.opened other id' hid
    rwa [← hgrows.mailboxes] at hmailbox
  · intro other id' hid label hlabel hhere
    rcases hgrows.labels label hlabel with hold | ⟨hnew, hle⟩
    · exact (hcounts.labels other id' hid label hold hhere).trans
        (hraised other)
    · have hname := hdistinct other (by rw [← hnew, hhere]; exact hid)
      subst hname
      simpa [Job.advance] using hle
  · intro other id' hid row hrow hhere
    rcases hgrows.failed row hrow with ⟨old, hold, hsame⟩ | ⟨hnew, hle⟩
    · have hbound := hcounts.failed other id' hid old hold
        (by rw [hsame] at hhere; exact hhere)
      rw [hsame]
      exact hbound.trans (hraised other)
    · have hname := hdistinct other (by rw [← hnew, hhere]; exact hid)
      subst hname
      simpa [Job.advance] using hle

theorem Job.Counts.importMessage {job : Job}
    (hcounts : job.Counts sha256 corpus) (hsha : Set.InjOn sha256 corpus)
    (parse : Parser) {message : ImportedMessage} (hraw : message.raw ∈ corpus)
    {id : Nat} (hopen : job.mailboxIds message.mailboxName = some id)
    (faults : Faults) :
    let handled := job.importMessage sha256 parse id message faults
    handled.logged ≠ some .uidTaken ∧ ∀ work, handled.work = some work →
      job.work.Grows sha256 corpus id (job.nextUid message.mailboxName)
        work := by
  have hmailbox := hcounts.opened _ id hopen
  have hfree : job.work.LabelFree id (job.nextUid message.mailboxName) := by
    intro label hlabel hhere
    have hle := hcounts.labels _ id hopen label hlabel hhere
    simp only [Job.nextUid]
    omega
  have hprocessed := processOneMessage_free hcounts.sound hfree parse
    job.accountId message.raw [] message.receivedDate faults
  intro handled
  simp only [handled, Job.importMessage]
  split
  · rename_i work inserted hok
    rw [hok] at hprocessed
    refine ⟨nofun, ?_⟩
    rintro _ ⟨rfl⟩
    exact hprocessed.1.grows
  · rename_i failure herror
    rw [herror] at hprocessed
    obtain ⟨hlogged, hwork⟩ := recordPill_cases job.work
      (recordFailedMessage sha256 job.work job.accountId id
        ((failedUid sha256 job.work job.accountId id message.raw).getD
          (job.nextUid message.mailboxName)) message.raw) faults.record failure
    refine ⟨?_, ?_⟩
    · rw [hlogged]
      exact fun h => hprocessed (Option.some.inj h)
    · intro work hsome
      rcases hwork work hsome with rfl | rfl
      · have hprior := failedUid_spec hcounts.sound hsha hmailbox hraw
        split at hprior
        · -- a row of these bytes is there: the upsert meets it
          rename_i uid hfound
          obtain ⟨row, hrow, hhere, huid, hbytes⟩ := hprior
          rw [hfound, Option.getD_some]
          refine Db.Files.grows (recordFailedMessage_files hcounts.sound
            hmailbox hraw ?_) ?_
          · intro other hother hthere
            constructor
            · intro heq
              rw [hcounts.sound.failedKey other hother row hrow
                (hthere.trans hhere.symm) (heq.trans huid.symm)]
              exact hbytes
            · intro heq
              rw [hcounts.sound.failedOnce other hother row hrow
                (hthere.trans hhere.symm) (heq.trans hbytes.symm)]
              exact huid
          · have hle := hcounts.failed _ id hopen row hrow hhere
            simp only [Job.nextUid]
            omega
        · -- none is, and the fresh UID is no failure's
          rename_i hnone
          rw [hnone, Option.getD_none]
          refine Db.Files.grows (recordFailedMessage_files hcounts.sound
            hmailbox hraw ?_) le_rfl
          intro other hother hthere
          have hle := hcounts.failed _ id hopen other hother hthere
          have hbytes := hprior other hother hthere
          constructor
          · intro heq
            simp only [Job.nextUid] at heq
            omega
          · exact fun heq => absurd heq hbytes
      · exact .refl hcounts.sound _ _

/-! ### A retry -/

/-- One row of a retry either is dropped for a label of its message, or leaves
every failure in place. -/
theorem retryRow_spec {db : Db} (hsound : db.Sound sha256 corpus)
    (parse : Parser) {row : FailedRow}
    (hrow : ∃ kept ∈ db.failed, row.Same kept) (faults : Faults) :
    let handled := retryRow sha256 parse db row faults
    handled.logged ≠ some .uidTaken ∧ ∀ work, handled.work = some work →
      work.Sound sha256 corpus ∧
      (db.FailedKept work ∨
        work.failed = (deleteFailed db row.id).failed ∧
          ∃ parsed, parse row.rawBytes = some parsed ∧
            work.Labelled row.accountId row.mailboxId parsed.dedupKey) := by
  obtain ⟨kept, hkept, hsame⟩ := hrow
  obtain ⟨mailbox, hmailbox, hid, haccount⟩ := hsound.failedHome kept hkept
  have hprocessed := processOneMessage_free hsound
    (labelFree_nextUidAfter db row.mailboxId) parse row.accountId row.rawBytes
    [] none faults
  intro handled
  simp only [handled, retryRow, shouldReallocateUid, decide_true, ↓reduceIte]
  split
  · rename_i work inserted hok
    rw [hok] at hprocessed
    obtain ⟨harchives, hlabelled⟩ := hprocessed
    refine ⟨nofun, ?_⟩
    rintro _ ⟨rfl⟩
    refine ⟨deleteFailed_sound harchives.sound row.id, .inr ⟨?_, hlabelled⟩⟩
    simp only [deleteFailed, harchives.failed]
  · rename_i failure herror
    rw [herror] at hprocessed
    obtain ⟨hlogged, hwork⟩ := recordPill_cases db
      (recordFailedMessage sha256 db row.accountId row.mailboxId row.uid
        row.rawBytes) faults.record failure
    refine ⟨?_, ?_⟩
    · rw [hlogged]
      exact fun h => hprocessed (Option.some.inj h)
    · intro work hsome
      rcases hwork work hsome with rfl | rfl
      · rw [hsame] at hid haccount
        dsimp only at hid haccount
        rw [← hid, ← haccount]
        have hraw : row.rawBytes ∈ corpus := by
          have hmem := hsound.failedCorpus kept hkept
          rwa [hsame] at hmem
        have hkey : ∀ other ∈ db.failed, other.mailboxId = mailbox.id →
            (other.uid = row.uid ↔ other.rawBytes = row.rawBytes) := by
          intro other hother hthere
          have huid : kept.uid = row.uid := by rw [hsame]
          have hbytes : kept.rawBytes = row.rawBytes := by rw [hsame]
          have hhere : other.mailboxId = kept.mailboxId := by
            rw [hthere, hid, hsame]
          constructor
          · intro heq
            rw [hsound.failedKey other hother kept hkept hhere
              (heq.trans huid.symm)]
            exact hbytes
          · intro heq
            rw [hsound.failedOnce other hother kept hkept hhere
              (heq.trans hbytes.symm)]
            exact huid
        have hfiles := recordFailedMessage_files hsound hmailbox hraw hkey
        exact ⟨hfiles.sound, .inl hfiles.kept⟩
      · exact ⟨hsound, .inl (.of_eq rfl)⟩

/-! ### The system -/

/-- No failure changes its bytes. -/
def Db.BytesKept (db next : Db) : Prop :=
  ∀ row ∈ db.failed, ∀ later ∈ next.failed, later.id = row.id →
    later.rawBytes = row.rawBytes

theorem Db.FailedKept.bytesKept {db next : Db}
    (hsound : next.Sound sha256 corpus) (hkept : db.FailedKept next) :
    db.BytesKept next := by
  intro row hrow later hlater hid
  obtain ⟨kept, hmem, hsame⟩ := hkept row hrow
  have hthis : later = kept :=
    hsound.eq_of_failed_id hlater hmem (by rw [hid, hsame])
  rw [hthis, hsame]

/-- A rollback too: what it brings back, the transaction had kept. -/
theorem Db.FailedKept.bytesKept_rollback {db work : Db}
    (hsound : work.Sound sha256 corpus) (hkept : db.FailedKept work) :
    work.BytesKept db := by
  intro row hrow later hlater hid
  have hbytes := hkept.bytesKept hsound later hlater row hrow hid.symm
  exact hbytes.symm

theorem deleteFailed_bytesKept {db next : Db} (hsound : db.Sound sha256 corpus)
    {id : Nat} (hfailed : next.failed = (deleteFailed db id).failed) :
    db.BytesKept next := by
  intro row hrow later hlater hid
  rw [hfailed] at hlater
  have hmem := (List.mem_filter.mp hlater).1
  rw [hsound.eq_of_failed_id hmem hrow hid]

/-- The job's transaction has every failure committed before; a retry's rows
are in the table, each once. -/
def Phase.Sound (sha256 : Bytes → Nat) (corpus : Set Bytes) (db : Db) :
    Phase → Prop
  | .idle => True
  | .importing job => job.Counts sha256 corpus ∧ db.FailedKept job.work
  | .retrying rows => (rows.Pairwise fun row later => row.id ≠ later.id) ∧
      ∀ row ∈ rows, ∃ kept ∈ db.failed, row.Same kept

structure State.Inv (sha256 : Bytes → Nat) (corpus : Set Bytes) (state : State) :
    Prop where
  sound : state.db.Sound sha256 corpus
  logged : .uidTaken ∉ state.logged
  phase : state.phase.Sound sha256 corpus state.db

/-- The message an event brings is one of the corpus. -/
def Event.Within (corpus : Set Bytes) : Event → Prop
  | .message imported _ _ _ => imported.raw ∈ corpus
  | .startImport _ | .startRetry _ | .retryNext .. | .finish | .abort => True

/-- A committed failure stays, or a retry drops it for a label of its
message. -/
def FailedLeaves (next : Db) (event : Event) (row : FailedRow) : Prop :=
  (∃ kept ∈ next.failed, row.Same kept) ∨
  ∃ parse faults parsed, event = .retryNext parse faults ∧
    parse row.rawBytes = some parsed ∧
    next.Labelled row.accountId row.mailboxId parsed.dedupKey

/-- What one event does. -/
structure StepSound (sha256 : Bytes → Nat) (corpus : Set Bytes)
    (state : State) (event : Event) (next : State) : Prop where
  inv : next.Inv sha256 corpus
  bytes : state.view.BytesKept next.view
  leaves : ∀ row ∈ state.db.failed, FailedLeaves next.db event row

theorem not_mem_logged {logged : List Failure} (hlogged : .uidTaken ∉ logged)
    {failure : Option Failure} (hfailure : failure ≠ some .uidTaken) :
    .uidTaken ∉ logged ++ failure.toList := by
  intro hmem
  rcases List.mem_append.mp hmem with hold | hnew
  · exact hlogged hold
  · exact hfailure (Option.mem_toList.mp hnew)

/-- Meeting a mailbox keeps the job's counters right; what it commits then, the
job's transaction already had. -/
theorem Job.Counts.meet {job : Job} (hcounts : job.Counts sha256 corpus)
    {db : Db} (hsound : db.Sound sha256 corpus) (hkept : db.FailedKept job.work)
    (name : String) :
    (job.meet db name).2.Counts sha256 corpus ∧
      (job.meet db name).1.Sound sha256 corpus ∧
      (job.meet db name).1.FailedKept (job.meet db name).2.work ∧
      db.FailedKept (job.meet db name).1 ∧
      (job.meet db name).2.work.failed = job.work.failed := by
  unfold Job.meet
  split
  · exact ⟨hcounts, hsound, hkept, .of_eq rfl, rfl⟩
  · have hopened := hcounts.openMailbox name
    have hfailed : (job.openMailbox name).work.failed = job.work.failed :=
      (upsertMailbox_spec hcounts.sound job.accountId name).2.1.failed
    exact ⟨hopened, hopened.sound, .of_eq rfl, hkept.trans (.of_eq hfailed),
      hfailed⟩

theorem message_sound (hsha : Set.InjOn sha256 corpus) {state next : State}
    (hinv : state.Inv sha256 corpus) {message : ImportedMessage}
    {parse : Parser} {faults : Faults} {checkpoint : Bool}
    (hraw : message.raw ∈ corpus)
    (hstep : step sha256 state (.message message parse faults checkpoint) =
      some next) :
    StepSound sha256 corpus state (.message message parse faults checkpoint)
      next := by
  obtain ⟨db, phase, logged⟩ := state
  simp only [step] at hstep
  split at hstep
  · rename_i job
    obtain ⟨hcounts, hkept⟩ := hinv.phase
    obtain ⟨hmet, hdb, hhere, hbefore, hfailed⟩ :=
      hcounts.meet hinv.sound hkept message.mailboxName
    generalize job.meet db message.mailboxName = met at *
    split at hstep
    · cases hstep
    · rename_i mailboxId hopen
      obtain ⟨hlogged, hgrows⟩ :=
        hmet.importMessage hsha parse hraw hopen faults
      have hview : ∀ other : Db, met.2.work.BytesKept other →
          job.work.BytesKept other := by
        intro other hbytes row hrow
        exact hbytes row (hfailed ▸ hrow)
      split at hstep
      · cases hstep
        refine ⟨⟨hdb, not_mem_logged hinv.logged hlogged, trivial⟩, ?_, ?_⟩
        · exact hview _ (hhere.bytesKept_rollback hmet.sound)
        · exact fun row hrow => .inl (hbefore row hrow)
      · rename_i work hwork
        have hgrown := hgrows work hwork
        have hadvanced := hmet.advance hopen hgrown
        cases hstep
        have hcommitted : ∀ committed : Db,
            committed = (if checkpoint then work else met.1) →
            committed.Sound sha256 corpus ∧ committed.FailedKept work ∧
              db.FailedKept committed := by
          rintro _ rfl
          split
          · exact ⟨hgrown.sound, .of_eq rfl,
              hbefore.trans (hhere.trans hgrown.kept)⟩
          · exact ⟨hdb, hhere.trans hgrown.kept, hbefore⟩
        obtain ⟨hsound', hkept', hleaves⟩ := hcommitted _ rfl
        refine ⟨⟨hsound', not_mem_logged hinv.logged hlogged,
          hadvanced, hkept'⟩, ?_, ?_⟩
        · exact hview _ (hgrown.kept.bytesKept hgrown.sound)
        · exact fun row hrow => .inl (hleaves row hrow)
  · cases hstep

theorem retryNext_sound {state next : State} (hinv : state.Inv sha256 corpus)
    {parse : Parser} {faults : Faults}
    (hstep : step sha256 state (.retryNext parse faults) = some next) :
    StepSound sha256 corpus state (.retryNext parse faults) next := by
  obtain ⟨db, phase, logged⟩ := state
  simp only [step] at hstep
  split at hstep
  · rename_i row rest
    obtain ⟨hdistinct, hrows⟩ := hinv.phase
    obtain ⟨hfirst, hrest⟩ := List.pairwise_cons.mp hdistinct
    have hrow := hrows row List.mem_cons_self
    obtain ⟨hlogged, hwork⟩ :=
      retryRow_spec hinv.sound parse hrow faults
    split at hstep
    · cases hstep
      exact ⟨⟨hinv.sound, not_mem_logged hinv.logged hlogged, trivial⟩,
        Db.FailedKept.bytesKept hinv.sound (.of_eq rfl),
        fun row hrow => .inl ⟨row, hrow, .refl row⟩⟩
    · rename_i work hsome
      cases hstep
      obtain ⟨hsound, hcases⟩ := hwork work hsome
      rcases hcases with hkept | ⟨hfailed, parsed, hparsed, hlabelled⟩
      · refine ⟨⟨hsound, not_mem_logged hinv.logged hlogged, hrest, ?_⟩,
          hkept.bytesKept hsound, fun row hrow => .inl (hkept row hrow)⟩
        intro other hother
        obtain ⟨kept, hmem, hsame⟩ := hrows other (List.mem_cons_of_mem _ hother)
        obtain ⟨later, hlater, hsame'⟩ := hkept kept hmem
        exact ⟨later, hlater, hsame.trans hsame'⟩
      · have hstays : ∀ other ∈ db.failed, other.id ≠ row.id →
            other ∈ work.failed := by
          intro other hother hne
          rw [hfailed]
          exact List.mem_filter.mpr ⟨hother, by simpa using hne⟩
        refine ⟨⟨hsound, not_mem_logged hinv.logged hlogged, hrest, ?_⟩,
          deleteFailed_bytesKept hinv.sound hfailed, ?_⟩
        · intro other hother
          obtain ⟨kept, hmem, hsame⟩ :=
            hrows other (List.mem_cons_of_mem _ hother)
          refine ⟨kept, hstays kept hmem ?_, hsame⟩
          rw [hsame]
          exact (hfirst other hother).symm
        · intro other hother
          by_cases hid : other.id = row.id
          · obtain ⟨kept, hmem, hsame⟩ := hrow
            have hthis : other = kept :=
              hinv.sound.eq_of_failed_id hother hmem (by rw [hid, hsame])
            rw [hthis, hsame]
            exact .inr ⟨parse, faults, parsed, rfl, hparsed, hlabelled⟩
          · exact .inl ⟨other, hstays other hother hid, .refl other⟩
  · cases hstep

/-- One event keeps everything. -/
theorem State.Inv.step (hsha : Set.InjOn sha256 corpus) {state next : State}
    (hinv : state.Inv sha256 corpus) {event : Event}
    (hwithin : event.Within corpus)
    (hstep : step sha256 state event = some next) :
    StepSound sha256 corpus state event next := by
  have hstays : ∀ row ∈ state.db.failed,
      FailedLeaves state.db event row :=
    fun row hrow => .inl ⟨row, hrow, .refl row⟩
  cases event with
  | message message parse faults checkpoint =>
      exact message_sound hsha hinv hwithin hstep
  | retryNext parse faults => exact retryNext_sound hinv hstep
  | startImport accountId =>
      obtain ⟨db, phase, logged⟩ := state
      simp only [Archive.step] at hstep
      split at hstep
      · cases hstep
        exact ⟨⟨hinv.sound, hinv.logged,
          Job.start_counts hinv.sound accountId, .of_eq rfl⟩,
          Db.FailedKept.bytesKept hinv.sound (.of_eq rfl), hstays⟩
      · cases hstep
  | startRetry scope =>
      obtain ⟨db, phase, logged⟩ := state
      simp only [Archive.step] at hstep
      split at hstep
      · cases hstep
        refine ⟨⟨hinv.sound, hinv.logged, ?_, ?_⟩,
          Db.FailedKept.bytesKept hinv.sound (.of_eq rfl), hstays⟩
        · exact (hinv.sound.failedOrder.imp Nat.ne_of_lt).filter _
        · intro row hrow
          exact ⟨row, (List.mem_filter.mp hrow).1, .refl row⟩
      · cases hstep
  | finish =>
      obtain ⟨db, phase, logged⟩ := state
      simp only [Archive.step] at hstep
      split at hstep
      · rename_i job
        obtain ⟨hcounts, hkept⟩ := hinv.phase
        cases hstep
        exact ⟨⟨hcounts.sound, hinv.logged, trivial⟩,
          Db.FailedKept.bytesKept hcounts.sound (.of_eq rfl),
          fun row hrow => .inl (hkept row hrow)⟩
      · cases hstep
        exact ⟨⟨hinv.sound, hinv.logged, trivial⟩,
          Db.FailedKept.bytesKept hinv.sound (.of_eq rfl), hstays⟩
      · cases hstep
  | abort =>
      obtain ⟨db, phase, logged⟩ := state
      cases hstep
      refine ⟨⟨hinv.sound, hinv.logged, trivial⟩, ?_, hstays⟩
      cases phase with
      | idle => exact Db.FailedKept.bytesKept hinv.sound (.of_eq rfl)
      | importing job =>
          exact hinv.phase.2.bytesKept_rollback hinv.phase.1.sound
      | retrying rows =>
          exact Db.FailedKept.bytesKept hinv.sound (.of_eq rfl)

theorem State.Inv.view_sound {state : State} (hinv : state.Inv sha256 corpus) :
    state.view.Sound sha256 corpus := by
  obtain ⟨db, phase, logged⟩ := state
  cases phase with
  | idle => exact hinv.sound
  | importing job => exact hinv.phase.1.sound
  | retrying rows => exact hinv.sound

/-- Nothing runs, nothing was logged yet, and the tables keep their promises;
the empty archive is one of these. -/
structure State.Settled (sha256 : Bytes → Nat) (corpus : Set Bytes)
    (state : State) : Prop where
  sound : state.db.Sound sha256 corpus
  idle : state.phase = .idle
  logged : state.logged = []

theorem State.Settled.inv {state : State}
    (hsettled : state.Settled sha256 corpus) : state.Inv sha256 corpus := by
  refine ⟨hsettled.sound, ?_, ?_⟩
  · rw [hsettled.logged]
    exact List.not_mem_nil
  · rw [hsettled.idle]
    trivial

/-- Archive imports and retries keep every failure.  As long as no two of the
messages share a digest: no message ever failed for its UID; a row of
`failed_messages` is only overwritten by the bytes it has; no mailbox has two
rows of the same bytes; and a committed row leaves only for a label of its
message in that mailbox. -/
theorem imports_keep_failures (sha256 : Bytes → Nat) (corpus : Set Bytes)
    (hsha : Set.InjOn sha256 corpus) {start state : State}
    (hstart : start.Settled sha256 corpus)
    (hreach : GuardedReach (step sha256)
      (fun _ event => event.Within corpus) start state) :
    .uidTaken ∉ state.logged ∧
    (∀ event next, event.Within corpus →
      step sha256 state event = some next →
      ∀ row ∈ state.view.failed, ∀ later ∈ next.view.failed,
        later.id = row.id → later.rawBytes = row.rawBytes) ∧
    (state.view.failed.Pairwise fun row other =>
      row.mailboxId = other.mailboxId → row.rawBytes ≠ other.rawBytes) ∧
    (∀ event next, event.Within corpus →
      step sha256 state event = some next →
      ∀ row ∈ state.db.failed,
        (∃ kept ∈ next.db.failed, kept.id = row.id ∧
          kept.mailboxId = row.mailboxId ∧ kept.rawBytes = row.rawBytes) ∨
        ∃ parse faults parsed, event = .retryNext parse faults ∧
          parse row.rawBytes = some parsed ∧
          next.db.Labelled row.accountId row.mailboxId parsed.dedupKey) := by
  have hinv : state.Inv sha256 corpus := by
    apply hreach.invariant hstart.inv
    intro before event after hbefore hwithin hstep
    exact (hbefore.step hsha hwithin hstep).inv
  refine ⟨hinv.logged, ?_, ?_, ?_⟩
  · intro event next hwithin hstep
    exact (hinv.step hsha hwithin hstep).bytes
  · have hsound := hinv.view_sound
    apply hsound.failedOrder.imp_of_mem
    intro row other hrow hother hlt hmailbox hbytes
    have hsame := hsound.failedOnce row hrow other hother hmailbox hbytes
    rw [hsame] at hlt
    exact Nat.lt_irrefl _ hlt
  · intro event next hwithin hstep row hrow
    rcases (hinv.step hsha hwithin hstep).leaves row hrow with
      ⟨kept, hkept, hsame⟩ | hlabelled
    · refine .inl ⟨kept, hkept, ?_⟩
      rw [hsame]
      exact ⟨rfl, rfl, rfl⟩
    · exact .inr hlabelled

namespace Witness

def letter : Bytes := [1]

def pill : Bytes := [2]

/-- A digest that tells the two messages apart. -/
def digest (raw : Bytes) : Nat :=
  raw.foldl (fun sum byte => 256 * sum + byte.toNat) 1

def parser : Parser := fun raw => some ⟨none, digest raw⟩

/-- The parser before it was mended. -/
def oldParser : Parser := fun raw =>
  if raw = pill then none else parser raw

def both : Set Bytes := {raw | raw ∈ [letter, pill]}

instance (event : Event) : Decidable (event.Within both) :=
  match event with
  | .message imported _ _ _ =>
      inferInstanceAs (Decidable (imported.raw ∈ [letter, pill]))
  | .startImport _ | .startRetry _ | .retryNext .. | .finish | .abort =>
      isTrue trivial

def fresh : State := ⟨.empty, .idle, []⟩

theorem fresh_settled : fresh.Settled digest both :=
  ⟨Db.empty_sound, rfl, rfl⟩

def sent (raw : Bytes) (parse : Parser) (checkpoint : Bool) : Event :=
  .message ⟨"Inbox", raw, none⟩ parse .none checkpoint

/-- Two sources share a mailbox; the pill fails in both, the letter moves its
label. -/
def imported : List Event :=
  [.startImport 7, sent pill oldParser true, sent letter oldParser false,
    .finish, .startImport 7, sent pill oldParser true,
    sent letter oldParser true, .finish]

/-- The parser is mended and the pill retried. -/
def mended : List Event :=
  imported ++ [.startRetry none, .retryNext parser .none]

end Witness

open Witness in
theorem imports_keep_failures_mended :
    ∃ before after,
      replayGuarded (step digest) (fun _ event => event.Within both) fresh
        imported = some before ∧
      before.db.labels = [⟨1, 1, 4, []⟩] ∧
      before.db.failed = [⟨1, 7, 1, 1, pill, digest pill, 1⟩] ∧
      replayGuarded (step digest) (fun _ event => event.Within both) fresh
        mended = some after ∧
      after.db.labels = [⟨1, 1, 4, []⟩, ⟨2, 1, 5, []⟩] ∧
      after.db.failed = [] ∧ .uidTaken ∉ after.logged := by
  refine ⟨_, _, rfl, rfl, rfl, rfl, rfl, rfl, ?_⟩
  refine (imports_keep_failures digest both ?_ fresh_settled
    (GuardedReach.of_replay mended rfl)).1
  rintro raw hraw other hother
  simp only [both, Set.mem_ofPred_eq, List.mem_cons, List.not_mem_nil,
    or_false] at hraw hother
  rcases hraw with rfl | rfl <;> rcases hother with rfl | rfl <;> decide

end Archive

end Localmail
