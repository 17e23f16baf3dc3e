/-
The drain of the extraction queue ends where every planned failure can be
recorded.  A blob without a row has a budget of failures; each blob a sweep
counts spends of its own, and no sweep touches another one's.
-/
import Mathlib.Algebra.Order.BigOperators.Group.List
import Mathlib.Algebra.Order.Group.Nat
import Localmail.ExtractWorker

namespace Localmail

namespace Extract

open AttachmentKind

/-! ### One blob -/

/-- Only the rows of these blobs changed. -/
structure Within (shas : List Bytes) (before after : ArchiveTables) : Prop where
  blobs : after.blobs = before.blobs
  messages : after.messages = before.messages
  texts : ∀ sha256 ∉ shas, after.texts sha256 = before.texts sha256
  failed : ∀ sha256 ∉ shas, after.failed sha256 = before.failed sha256
  transients : ∀ sha256 ∉ shas, after.transients sha256 = before.transients sha256

/-- Neither a row nor a failure of the blob came or changed. -/
def Uncharged (before after : ArchiveTables) (sha256 : Bytes) : Prop :=
  after.texts sha256 = before.texts sha256 ∧
    after.failed sha256 = before.failed sha256

section Frames

variable {shas others : List Bytes} {before between after : ArchiveTables}
  {sha256 : Bytes}

theorem Within.refl (shas : List Bytes) (tables : ArchiveTables) :
    Within shas tables tables :=
  ⟨rfl, rfl, fun _ _ => rfl, fun _ _ => rfl, fun _ _ => rfl⟩

theorem Within.trans (hfirst : Within shas before between)
    (hsecond : Within others between after) :
    Within (shas ++ others) before after := by
  refine ⟨hsecond.blobs.trans hfirst.blobs,
    hsecond.messages.trans hfirst.messages, ?_, ?_, ?_⟩
  · intro sha256 hout
    rw [List.mem_append, not_or] at hout
    exact (hsecond.texts _ hout.2).trans (hfirst.texts _ hout.1)
  · intro sha256 hout
    rw [List.mem_append, not_or] at hout
    exact (hsecond.failed _ hout.2).trans (hfirst.failed _ hout.1)
  · intro sha256 hout
    rw [List.mem_append, not_or] at hout
    exact (hsecond.transients _ hout.2).trans (hfirst.transients _ hout.1)

theorem Within.of_subset (hwithin : Within shas before after)
    (hsubset : ∀ sha256 ∈ shas, sha256 ∈ others) :
    Within others before after :=
  ⟨hwithin.blobs, hwithin.messages,
    fun _ hout => hwithin.texts _ fun hmem => hout (hsubset _ hmem),
    fun _ hout => hwithin.failed _ fun hmem => hout (hsubset _ hmem),
    fun _ hout => hwithin.transients _ fun hmem => hout (hsubset _ hmem)⟩

theorem Uncharged.not_charged (huncharged : Uncharged before after sha256)
    (hcharged : Charged before after sha256) : False := by
  rcases hcharged with ⟨hnone, hsome⟩ | ⟨row, hrow, hraised⟩
  · rw [huncharged.1, hnone] at hsome
    exact hsome rfl
  · rw [huncharged.2] at hrow
    rw [hrow] at hraised
    exact absurd hraised (Int.lt_irrefl _)

end Frames

/-! ### The statements -/

/-- A row written for one blob is none of the others'. -/
theorem update_row {ρ : Type} {sha256 other : Bytes} (rows : Bytes → Option ρ)
    (row : Option ρ) (hother : other ∉ [sha256]) :
    Function.update rows sha256 row other = rows other :=
  Function.update_of_ne (List.ne_of_not_mem_cons hother) row rows

section Statements

variable {tables after : ArchiveTables} {sha256 : Bytes} {raised : Raised}
  {errors : InsertErrors}

theorem recordFailureSafely_within (extractorName : Text) :
    Within [sha256] tables
      (recordFailureSafely tables sha256 extractorName raised).1 := by
  unfold recordFailureSafely
  dsimp only
  split
  · exact ⟨rfl, rfl, fun _ _ => rfl, fun _ hother => update_row _ _ hother,
      fun _ _ => rfl⟩
  · exact .refl _ _

/-- A failure is recorded where it can be, and then its count went up. -/
theorem recordFailureSafely_spec (extractorName : Text) :
    (Recordable tables sha256 raised →
      (recordFailureSafely tables sha256 extractorName raised).2 = true ∧
        Charged tables
          (recordFailureSafely tables sha256 extractorName raised).1 sha256) ∧
    (¬ Recordable tables sha256 raised →
      recordFailureSafely tables sha256 extractorName raised =
        (tables, false)) := by
  constructor
  · intro hrecordable
    unfold Recordable at hrecordable
    unfold recordFailureSafely
    dsimp only
    rw [if_pos hrecordable]
    refine ⟨rfl, .inr ⟨_, Function.update_self .., ?_⟩⟩
    cases hrow : tables.failed sha256 with
    | none => simp [nextRetryCount, hrow]
    | some old =>
        simp only [nextRetryCount, hrow]
        exact Int.lt_succ _
  · intro hunrecordable
    unfold Recordable at hunrecordable
    unfold recordFailureSafely
    dsimp only
    rw [if_neg hunrecordable]

theorem recordTransientSafely_spec :
    Within [sha256] tables (recordTransientSafely tables sha256 raised).1 ∧
      Uncharged tables (recordTransientSafely tables sha256 raised).1 sha256 := by
  unfold recordTransientSafely
  dsimp only
  split
  · exact ⟨⟨rfl, rfl, fun _ _ => rfl, fun _ _ => rfl,
      fun _ hother => update_row _ _ hother⟩, rfl, rfl⟩
  · exact ⟨.refl _ _, rfl, rfl⟩

theorem clearTransient_within :
    Within [sha256] tables (clearTransient tables sha256) :=
  ⟨rfl, rfl, fun _ _ => rfl, fun _ _ => rfl,
    fun _ hother => update_row _ _ hother⟩

theorem charged_clearTransient
    (hcharged : Charged tables after sha256) (other : Bytes) :
    Charged tables (clearTransient after other) sha256 :=
  hcharged

/-- What is inserted is there afterwards. -/
theorem insertAttachmentText_spec {found : ExtractedText}
    (hnone : tables.texts sha256 = none)
    (hinsert : insertAttachmentText tables sha256 errors found = .ok after) :
    Within [sha256] tables after ∧ Charged tables after sha256 := by
  unfold insertAttachmentText at hinsert
  split at hinsert
  · rw [hnone] at hinsert
    cases hinsert
    refine ⟨⟨rfl, rfl, fun _ hother => update_row _ _ hother, fun _ _ => rfl,
      fun _ _ => rfl⟩, .inl ⟨hnone, ?_⟩⟩
    simp
  · cases hinsert

theorem storable_text {literal : String}
    (hnul : '\x00' ∉ literal.toList) : Storable (text literal) := by
  rw [storable_iff]
  refine ⟨encodable_text literal, ?_⟩
  intro hmem
  obtain ⟨char, hchar, hsame⟩ := List.mem_map.mp hmem
  cases hsame
  exact hnul hchar

/-- A sentinel is always inserted. -/
theorem insert_sentinel (errors : InsertErrors) {extractor : String}
    (hnul : '\x00' ∉ extractor.toList) :
    ∃ after, insertAttachmentText tables sha256 errors (sentinel extractor) =
      .ok after := by
  unfold insertAttachmentText
  rw [if_pos]
  · exact ⟨_, rfl⟩
  · refine ⟨.nil, storable_text hnul, ?_⟩
    intro pages hpages
    cases hpages

end Statements

/-! ### `_process_blob` -/

/-- How an attempt at a blob ends: a row is written, a planned failure is
recorded or meant to be, or something is raised. -/
inductive Processed (cfg : ExtractConfig) (tables : ArchiveTables)
    (blob : AttachmentBlob) (pdf : Bool) (attempt : Attempt) :
    Except Raised (ArchiveTables × Bool) → Prop
  | wrote {after : ArchiveTables} (within : Within [blob.sha256] tables after)
      (charged : Charged tables after blob.sha256) :
      Processed cfg tables blob pdf attempt (.ok (after, true))
  | planned {raised : Raised} (extractorName : Text)
      (small : blob.sizeBytes ≤ cfg.maxBlobBytes)
      (failure : PlannedFailure pdf attempt raised) :
      Processed cfg tables blob pdf attempt
        (.ok ((recordFailureSafely tables blob.sha256 extractorName raised).1,
          false))
  | raises (raised : Raised) : Processed cfg tables blob pdf attempt (.error raised)

section Process

variable {lowering : Lowering} {errors : InsertErrors} {cfg : ExtractConfig}
  {tables : ArchiveTables} {blob : AttachmentBlob} {pdf : Bool}
  {attempt : Attempt}

theorem processed_writeText (hnone : tables.texts blob.sha256 = none)
    (found : ExtractedText) :
    Processed cfg tables blob pdf attempt
      (writeText errors tables blob found) := by
  unfold writeText
  cases hinsert : insertAttachmentText tables blob.sha256 errors found with
  | error raised => exact .raises raised
  | ok after =>
      obtain ⟨hwithin, hcharged⟩ := insertAttachmentText_spec hnone hinsert
      exact .wrote hwithin hcharged

theorem processed_recordPlanned (extractorName : String) {raised : Raised}
    (hsmall : blob.sizeBytes ≤ cfg.maxBlobBytes)
    (hplanned : raised.transient = false →
      PlannedFailure pdf attempt raised) :
    Processed cfg tables blob pdf attempt
      (recordPlanned tables blob extractorName raised) := by
  unfold recordPlanned
  split
  · exact .raises raised
  · rename_i hlasting
    exact .planned _ hsmall (hplanned (eq_false_of_ne_true hlasting))

theorem processed_writeEmpty (hnone : tables.texts blob.sha256 = none)
    (hsmall : blob.sizeBytes ≤ cfg.maxBlobBytes) {lwRaised : Option Raised}
    (hplanned : ∀ raised, lwRaised = some raised →
      raised.transient = false → PlannedFailure pdf attempt raised) :
    Processed cfg tables blob pdf attempt
      (writeEmpty errors tables blob lwRaised) := by
  cases lwRaised with
  | none => exact processed_writeText hnone _
  | some raised =>
      exact processed_recordPlanned _ hsmall (hplanned raised rfl)

/-- `lwRaised` is what the lightweight extractor raised, if it did. -/
theorem processed_fallback (hnone : tables.texts blob.sha256 = none)
    (hsmall : blob.sizeBytes ≤ cfg.maxBlobBytes) (filename : Option Text)
    {lwRaised : Option Raised}
    (hnothing : lwRaised = none → ∀ found,
      attempt.lightweight = .ok found → found.text = [])
    (hraised : ∀ raised, lwRaised = some raised →
      attempt.lightweight = .error raised) :
    Processed cfg tables blob (isPdf lowering blob.mimeType filename) attempt
      (processFallback lowering errors tables blob filename attempt
        lwRaised) := by
  have hquiet : ∀ found, attempt.lightweight = .ok found → found.text = [] := by
    intro found hfound
    cases hlw : lwRaised with
    | none => exact hnothing hlw found hfound
    | some raised =>
        rw [hraised raised hlw] at hfound
        cases hfound
  unfold processFallback
  cases hpdf : isPdf lowering blob.mimeType filename with
  | false =>
      rw [if_neg Bool.false_ne_true]
      apply processed_writeEmpty hnone hsmall
      intro raised hlw hlasting
      exact .lightweight (hraised raised hlw) hlasting (.inl rfl)
  | true =>
      rw [if_pos rfl]
      cases hinstall : attempt.doclingInstall with
      | broken message traceback => exact .raises _
      | missing =>
          apply processed_writeEmpty hnone hsmall
          intro raised hlw hlasting
          exact .lightweight (hraised raised hlw) hlasting (.inr (.inl hinstall))
      | installed =>
          cases hdocling : attempt.docling with
          | error raised =>
              exact processed_recordPlanned _ hsmall fun hlasting =>
                .docling rfl hinstall hquiet hdocling hlasting
          | ok found =>
              dsimp only
              split
              · exact processed_writeText hnone found
              · rename_i hempty
                apply processed_writeEmpty hnone hsmall
                intro raised hlw hlasting
                exact .lightweight (hraised raised hlw) hlasting
                  (.inr (.inr ⟨hinstall, found, hdocling, not_not.mp hempty⟩))

theorem processed_processBlob (hnone : tables.texts blob.sha256 = none)
    (filename : Option Text) :
    Processed cfg tables blob (isPdf lowering blob.mimeType filename) attempt
      (processBlob lowering errors cfg tables blob filename attempt) := by
  unfold processBlob
  split
  · exact processed_writeText hnone _
  · rename_i hsize
    have hsmall := Nat.le_of_not_lt hsize
    cases hlw : attempt.lightweight with
    | ok found =>
        dsimp only
        split
        · exact processed_writeText hnone found
        · rename_i hempty
          apply processed_fallback hnone hsmall filename
          · intro _ other hother
            rw [hlw] at hother
            cases hother
            exact not_not.mp hempty
          · intro raised hnever
            cases hnever
    | error raised =>
        apply processed_fallback hnone hsmall filename
        · intro hnever
          cases hnever
        · intro other hother
          rw [hlw, Option.some.inj hother]

/-- Docling has no part in a blob that is no PDF, or without it, or if it
finds nothing. -/
theorem processFallback_unaided {filename : Option Text}
    (hunaided : isPdf lowering blob.mimeType filename = false ∨
      attempt.doclingInstall = .missing ∨
      attempt.doclingInstall = .installed ∧
        ∃ found, attempt.docling = .ok found ∧ found.text = [])
    (lwRaised : Option Raised) :
    processFallback lowering errors tables blob filename attempt lwRaised =
      writeEmpty errors tables blob lwRaised := by
  unfold processFallback
  rcases hunaided with hpdf | hmissing | ⟨hinstalled, found, hfound, hempty⟩
  · rw [hpdf, if_neg Bool.false_ne_true]
  · rw [hmissing]
    split <;> rfl
  · rw [hinstalled, hfound]
    dsimp only
    rw [if_neg (not_not.mpr hempty)]
    split <;> rfl

theorem processBlob_fallback (errors : InsertErrors) (filename : Option Text)
    (hsmall : blob.sizeBytes ≤ cfg.maxBlobBytes)
    (hnothing : ∀ found, attempt.lightweight = .ok found → found.text = []) :
    ∃ lwRaised,
      processBlob lowering errors cfg tables blob filename attempt =
        processFallback lowering errors tables blob filename attempt
          lwRaised := by
  unfold processBlob
  rw [if_neg (Nat.not_lt.mpr hsmall)]
  cases hlw : attempt.lightweight with
  | ok found =>
      dsimp only
      rw [if_neg (not_not.mpr (hnothing found hlw))]
      exact ⟨none, rfl⟩
  | error raised => exact ⟨some raised, rfl⟩

/-- A planned failure is where the blob ends. -/
theorem PlannedFailure.processBlob_eq (errors : InsertErrors) {filename : Option Text}
    {raised : Raised}
    (hplanned : PlannedFailure (isPdf lowering blob.mimeType filename) attempt
      raised) (hsmall : blob.sizeBytes ≤ cfg.maxBlobBytes) :
    ∃ extractorName,
      processBlob lowering errors cfg tables blob filename attempt =
        .ok ((recordFailureSafely tables blob.sha256 extractorName raised).1,
          false) := by
  have hrecord : ∀ extractorName : String, raised.transient = false →
      recordPlanned tables blob extractorName raised =
        .ok ((recordFailureSafely tables blob.sha256 (text extractorName)
          raised).1, false) := by
    intro extractorName hlasting
    rw [recordPlanned, hlasting, if_neg Bool.false_ne_true]
  cases hplanned with
  | docling hpdf hinstalled hnothing hraises hlasting =>
      refine ⟨text "docling", ?_⟩
      obtain ⟨lwRaised, hfallback⟩ :=
        @processBlob_fallback lowering cfg tables blob attempt errors filename
          hsmall hnothing
      rw [← hrecord "docling" hlasting, hfallback, processFallback, if_pos hpdf,
        hinstalled, hraises]
  | lightweight hraises hlasting hunaided =>
      refine ⟨text "lightweight", ?_⟩
      rw [← hrecord "lightweight" hlasting, processBlob,
        if_neg (Nat.not_lt.mpr hsmall), hraises]
      exact processFallback_unaided hunaided (some raised)

end Process

/-! ### One claimed blob -/

/-- A planned failure of the blob that no row can take. -/
def LosesFailure (lowering : Lowering) (cfg : ExtractConfig)
    (tables : ArchiveTables) (blob : AttachmentBlob) (attempt : Attempt) :
    Prop :=
  admits lowering cfg tables.messages blob = true ∧
    blob.sizeBytes ≤ cfg.maxBlobBytes ∧
    ∃ raised, PlannedFailure (isPdf lowering blob.mimeType
        (dispatchName lowering cfg tables.messages blob attempt)) attempt
        raised ∧
      ¬ Recordable tables blob.sha256 raised

/-- What a sweep does with a blob. -/
structure Swept (lowering : Lowering) (cfg : ExtractConfig)
    (tables after : ArchiveTables) (blob : AttachmentBlob) (attempt : Attempt)
    (counted : Bool) : Prop where
  left : counted = false → Uncharged tables after blob.sha256
  charged : counted = true → ¬ LosesFailure lowering cfg tables blob attempt →
    Charged tables after blob.sha256
  lost : LosesFailure lowering cfg tables blob attempt →
    counted = true ∧ Uncharged tables after blob.sha256

section Sweep

variable {lowering : Lowering} {errors : InsertErrors} {cfg : ExtractConfig}
  {tables : ArchiveTables} {attempt : Attempt}

/-- A blob whose planned failure is lost is counted and nothing else. -/
theorem LosesFailure.sweepBlob_eq {row : QueueRow}
    (hloses : LosesFailure lowering cfg tables row.blob attempt) :
    sweepBlob lowering errors cfg tables row attempt = .ok (tables, true) := by
  obtain ⟨hadmits, hsmall, raised, hplanned, hunrecordable⟩ := hloses
  obtain ⟨extractorName, hprocess⟩ := hplanned.processBlob_eq errors hsmall
  unfold sweepBlob
  rw [isAllowlisted_filenames, if_pos hadmits, hprocess,
    (recordFailureSafely_spec extractorName).2 hunrecordable]
  rfl

theorem sweepBlob_spec (row : QueueRow)
    (hnone : tables.texts row.blob.sha256 = none) :
    ∃ after counted,
      sweepBlob lowering errors cfg tables row attempt = .ok (after, counted) ∧
      Within [row.blob.sha256] tables after ∧
      Swept lowering cfg tables after row.blob attempt counted := by
  by_cases hloses : LosesFailure lowering cfg tables row.blob attempt
  · exact ⟨tables, true, hloses.sweepBlob_eq, .refl _ _, nofun,
      fun _ hkept => absurd hloses hkept, fun _ => ⟨rfl, rfl, rfl⟩⟩
  · have hend : ∀ {after : ArchiveTables} {counted : Bool},
        (counted = false → Uncharged tables after row.blob.sha256) →
        (counted = true → Charged tables after row.blob.sha256) →
        Swept lowering cfg tables after row.blob attempt counted :=
      fun hleft hcharged => ⟨hleft, fun hcounted _ => hcharged hcounted,
        fun hlost => absurd hlost hloses⟩
    unfold sweepBlob
    rw [isAllowlisted_filenames]
    split
    · rename_i hadmits
      have hprocessed := @processed_processBlob lowering errors cfg tables
        row.blob attempt hnone
        (dispatchName lowering cfg tables.messages row.blob attempt)
      revert hprocessed
      generalize processBlob lowering errors cfg tables row.blob
        (dispatchName lowering cfg tables.messages row.blob attempt) attempt =
          ended
      intro hprocessed
      cases hprocessed with
      | @wrote after hwithin hcharged =>
          refine ⟨_, true, rfl, ?_, hend nofun fun _ => ?_⟩
          · split
            · exact (hwithin.trans clearTransient_within).of_subset (by simp)
            · exact hwithin
          · split
            · exact charged_clearTransient hcharged _
            · exact hcharged
      | @planned raised extractorName hsmall hplanned =>
          have hrecordable : Recordable tables row.blob.sha256 raised := by
            by_contra hunrecordable
            exact hloses ⟨hadmits, hsmall, raised, hplanned, hunrecordable⟩
          exact ⟨_, true, rfl, recordFailureSafely_within _, hend nofun fun _ =>
            ((recordFailureSafely_spec extractorName).1 hrecordable).2⟩
      | raises raised =>
          dsimp only
          split
          · obtain ⟨hwithin, huncharged⟩ := @recordTransientSafely_spec tables
              row.blob.sha256 raised
            exact ⟨_, false, rfl, hwithin, hend (fun _ => huncharged) nofun⟩
          · by_cases hrecordable : Recordable tables row.blob.sha256 raised
            · have hwithin := @recordFailureSafely_within tables
                row.blob.sha256 raised (text "unexpected")
              obtain ⟨hcounted, hcharged⟩ :=
                (recordFailureSafely_spec (text "unexpected")).1 hrecordable
              revert hwithin hcounted hcharged
              generalize recordFailureSafely tables row.blob.sha256
                (text "unexpected") raised = recorded
              intro hwithin hcounted hcharged
              refine ⟨recorded.1, true, ?_, hwithin, hend nofun fun _ => hcharged⟩
              rw [← hcounted]
            · rw [(recordFailureSafely_spec (text "unexpected")).2 hrecordable]
              exact ⟨tables, false, rfl, .refl _ _, hend (fun _ => ⟨rfl, rfl⟩)
                nofun⟩
    · obtain ⟨after, hinsert⟩ := @insert_sentinel tables row.blob.sha256 errors
        "type-skipped" (by decide)
      rw [hinsert]
      obtain ⟨hwithin, hcharged⟩ := insertAttachmentText_spec hnone hinsert
      exact ⟨after, true, rfl, hwithin, hend nofun fun _ => hcharged⟩

end Sweep

/-! ### A sweep -/

section Batch

variable {lowering : Lowering} {errors : InsertErrors} {cfg : ExtractConfig}
  {first tables after last : ArchiveTables} {blob : AttachmentBlob}

/-- What happened to a blob does not depend on what happened to the others
before and after. -/
theorem Swept.around {earlier later : List Bytes} {attempt : Attempt}
    {counted : Bool} (hearlier : Within earlier first tables)
    (hlater : Within later after last) (hnotEarlier : blob.sha256 ∉ earlier)
    (hnotLater : blob.sha256 ∉ later)
    (hswept : Swept lowering cfg tables after blob attempt counted) :
    Swept lowering cfg first last blob attempt counted := by
  have huncharged : Uncharged tables after blob.sha256 ↔
      Uncharged first last blob.sha256 := by
    unfold Uncharged
    rw [hearlier.texts _ hnotEarlier, hearlier.failed _ hnotEarlier,
      hlater.texts _ hnotLater, hlater.failed _ hnotLater]
  have hcharged : Charged tables after blob.sha256 ↔
      Charged first last blob.sha256 := by
    unfold Charged
    rw [hearlier.texts _ hnotEarlier, hearlier.failed _ hnotEarlier,
      hlater.texts _ hnotLater, hlater.failed _ hnotLater]
  have hloses : LosesFailure lowering cfg tables blob attempt ↔
      LosesFailure lowering cfg first blob attempt := by
    unfold LosesFailure Recordable nextRetryCount
    rw [hearlier.messages, hearlier.failed _ hnotEarlier]
  constructor
  · rw [← huncharged]
    exact hswept.left
  · rw [← hcharged, ← hloses]
    exact hswept.charged
  · rw [← huncharged, ← hloses]
    exact hswept.lost

/-- A sweep comes to its end, having done with each blob what it would have
done with it alone. -/
theorem sweepBatch_spec (attempts : AttachmentBlob → Attempt)
    (rows : List QueueRow)
    (hdistinct : (rows.map fun row => row.blob.sha256).Nodup)
    (hnone : ∀ row ∈ rows, tables.texts row.blob.sha256 = none) :
    ∃ after touched,
      sweepBatch lowering errors cfg attempts tables rows = .ok (after, touched) ∧
      Within (rows.map fun row => row.blob.sha256) tables after ∧
      (∀ blob ∈ touched, ∃ row ∈ rows, row.blob = blob) ∧
      ∀ row ∈ rows, ∃ counted, (counted = true ↔ row.blob ∈ touched) ∧
        Swept lowering cfg tables after row.blob (attempts row.blob) counted := by
  induction rows generalizing tables with
  | nil =>
      exact ⟨tables, [], rfl, .refl _ _, by simp, by simp⟩
  | cons row rest ih =>
      rw [List.map_cons, List.nodup_cons] at hdistinct
      rw [List.forall_mem_cons] at hnone
      have hother : ∀ other ∈ rest, other.blob.sha256 ≠ row.blob.sha256 := by
        intro other hmem hsame
        exact hdistinct.1 (List.mem_map.mpr ⟨other, hmem, hsame⟩)
      obtain ⟨after, counted, hstep, hwithin, hswept⟩ :=
        @sweepBlob_spec lowering errors cfg tables (attempts row.blob) row hnone.1
      have hnoneAfter : ∀ other ∈ rest,
          after.texts other.blob.sha256 = none := by
        intro other hmem
        rw [hwithin.texts _ (by simpa using hother other hmem)]
        exact hnone.2 other hmem
      obtain ⟨final, touched, hrest, hwithinRest, hfrom, hsweptRest⟩ :=
        ih hdistinct.2 hnoneAfter
      have hnotTouched : row.blob ∉ touched := by
        intro hmem
        obtain ⟨other, hotherMem, hsame⟩ := hfrom _ hmem
        exact hother other hotherMem (by rw [hsame])
      refine ⟨final, if counted then row.blob :: touched else touched, ?_,
        hwithin.trans hwithinRest, ?_, ?_⟩
      · rw [sweepBatch, hstep]
        dsimp only
        rw [hrest]
        rfl
      · intro blob hblob
        have hcases : blob = row.blob ∨ blob ∈ touched := by
          cases counted with
          | false => exact .inr hblob
          | true => exact List.mem_cons.mp hblob
        rcases hcases with rfl | hmem
        · exact ⟨row, List.mem_cons_self, rfl⟩
        · obtain ⟨other, hotherMem, hsame⟩ := hfrom blob hmem
          exact ⟨other, List.mem_cons_of_mem _ hotherMem, hsame⟩
      · intro found hfound
        rcases List.mem_cons.mp hfound with rfl | hmem
        · refine ⟨counted, ?_, hswept.around (.refl [] _) hwithinRest
            List.not_mem_nil hdistinct.1⟩
          cases counted <;> simp [hnotTouched]
        · obtain ⟨countedOther, hiff, hsweptOther⟩ := hsweptRest found hmem
          refine ⟨countedOther, ?_, hsweptOther.around hwithin (.refl [] _)
            (by simpa using hother found hmem) List.not_mem_nil⟩
          have hne : found.blob ≠ row.blob := fun hsame =>
            hother found hmem (by rw [hsame])
          rw [hiff]
          cases counted <;> simp [hne]

/-- What is claimed has no row and is under both caps. -/
theorem claimBatch_spec (cfg : ExtractConfig) (tables : ArchiveTables)
    (locked : AttachmentBlob → Bool) :
    ((claimBatch cfg tables locked).map fun row => row.blob.sha256).Nodup ∧
      ∀ row ∈ claimBatch cfg tables locked,
        row.blob ∈ tables.blobs ∧ tables.texts row.blob.sha256 = none ∧
          UnderCaps cfg (queueRow tables row.blob) := by
  constructor
  · have hall : ((queueFrom tables).map fun row => row.blob.sha256).Nodup := by
      rw [queueFrom, List.map_map]
      exact tables.distinct
    have hclaimable := (List.filter_sublist (l := queueFrom tables)
      (p := fun row => claimable cfg row = some true)).map
        fun row => row.blob.sha256
    unfold claimBatch
    apply List.Nodup.sublist (((List.take_sublist _ _).trans
      List.filter_sublist).map _)
    exact ((List.mergeSort_perm _ _).map _).nodup_iff.mpr
      (hall.sublist hclaimable)
  · intro row hrow
    have hclaim := (List.mem_filter.mp (List.mem_of_mem_take hrow)).1
    rw [List.mem_mergeSort, List.mem_filter, decide_eq_true_eq] at hclaim
    obtain ⟨blob, hblob, rfl⟩ := List.mem_map.mp hclaim.1
    have hbucket := (Bucket.holds_iff cfg _ .pending).mp hclaim.2
    unfold bucketOf at hbucket
    split at hbucket
    · split at hbucket <;> cases hbucket
    · rename_i htext
      split at hbucket
      · rename_i hunder
        exact ⟨hblob, htext, hunder⟩
      · cases hbucket

end Batch

/-! ### The budget -/

/-- How often a blob can still be charged. -/
def budget (cfg : ExtractConfig) (tables : ArchiveTables) (sha256 : Bytes) :
    Nat :=
  match tables.texts sha256, tables.failed sha256 with
  | some _, _ => 0
  | none, none => 2 + cfg.maxRetries.toNat
  | none, some row => 1 + (cfg.maxRetries - row.retryCount).toNat

def totalBudget (cfg : ExtractConfig) (tables : ArchiveTables) : Nat :=
  (tables.blobs.map fun blob => budget cfg tables blob.sha256).sum

section Budget

variable {cfg : ExtractConfig} {tables after : ArchiveTables}

theorem Uncharged.budget_eq {sha256 : Bytes}
    (huncharged : Uncharged tables after sha256) :
    budget cfg after sha256 = budget cfg tables sha256 := by
  rw [budget, huncharged.1, huncharged.2]
  rfl

/-- A charge is paid out of the budget. -/
theorem Charged.budget_lt {blob : AttachmentBlob}
    (hnone : tables.texts blob.sha256 = none)
    (hunder : UnderCaps cfg (queueRow tables blob))
    (hcharged : Charged tables after blob.sha256) :
    budget cfg after blob.sha256 < budget cfg tables blob.sha256 := by
  have hpositive : 0 < budget cfg tables blob.sha256 := by
    unfold budget
    rw [hnone]
    cases tables.failed blob.sha256 with
    | none => exact Nat.lt_of_lt_of_le Nat.two_pos (Nat.le_add_right _ _)
    | some row => exact Nat.lt_of_lt_of_le Nat.one_pos (Nat.le_add_right _ _)
  cases htext : after.texts blob.sha256 with
  | some row =>
      have hspent : budget cfg after blob.sha256 = 0 := by
        unfold budget
        rw [htext]
      rwa [hspent]
  | none =>
      rcases hcharged with ⟨-, hsome⟩ | ⟨row, hrow, hraised⟩
      · exact absurd htext hsome
      · unfold budget
        rw [htext, hrow, hnone]
        cases hold : tables.failed blob.sha256 with
        | none =>
            rw [hold] at hraised
            dsimp only at hraised ⊢
            omega
        | some old =>
            have hcap : old.retryCount < cfg.maxRetries := hunder.1 old hold
            rw [hold] at hraised
            dsimp only at hraised ⊢
            omega

end Budget

/-! ### The loop -/

section Drain

variable {inputs : DrainInputs} {tables : ArchiveTables} {number : Nat}

theorem recordsPlanned_iff (henabled : inputs.cfg.runExtractWorker = true) :
    RecordsPlanned inputs number tables ↔
      ∀ row ∈ claimBatch inputs.cfg tables (inputs.locked number),
        ¬ LosesFailure inputs.lowering inputs.cfg tables row.blob
          (inputs.attempts number row.blob) := by
  constructor
  · rintro hrecords row hrow ⟨hadmits, hsmall, raised, hplanned, hlost⟩
    exact hlost (hrecords henabled row hrow hadmits hsmall raised hplanned)
  · intro hkept _ row hrow hadmits hsmall raised hplanned
    by_contra hlost
    exact hkept row hrow ⟨hadmits, hsmall, raised, hplanned, hlost⟩

/-- A sweep that loses no failure charges what it counts and spends of the
budget if it counts anything. -/
theorem sweep_spec (inputs : DrainInputs) (number : Nat)
    (tables : ArchiveTables) :
    ∃ after touched, inputs.sweep number tables = .ok (after, touched) ∧
      (RecordsPlanned inputs number tables →
        (∀ blob ∈ touched, Charged tables after blob.sha256) ∧
          (touched ≠ [] →
            totalBudget inputs.cfg after < totalBudget inputs.cfg tables)) ∧
      (¬ RecordsPlanned inputs number tables →
        ∃ blob ∈ touched, Uncharged tables after blob.sha256) := by
  unfold DrainInputs.sweep runExtractWorkerOnce
  split
  · rename_i henabled
    rw [recordsPlanned_iff henabled]
    obtain ⟨hdistinct, hclaimed⟩ :=
      claimBatch_spec inputs.cfg tables (inputs.locked number)
    obtain ⟨after, touched, hsweep, hwithin, hfrom, hswept⟩ :=
      @sweepBatch_spec inputs.lowering inputs.errors inputs.cfg tables
        (inputs.attempts number) _ hdistinct fun row hrow => (hclaimed row hrow).2.1
    refine ⟨after, touched, hsweep, ?_, ?_⟩
    · intro hkept
      have hcharged : ∀ blob ∈ touched, Charged tables after blob.sha256 := by
        intro blob hblob
        obtain ⟨row, hrow, rfl⟩ := hfrom blob hblob
        obtain ⟨counted, hcounted, hrowSwept⟩ := hswept row hrow
        exact hrowSwept.charged (hcounted.mpr hblob) (hkept row hrow)
      have hspends : ∀ blob ∈ touched,
          budget inputs.cfg after blob.sha256 <
            budget inputs.cfg tables blob.sha256 := by
        intro blob hblob
        obtain ⟨row, hrow, rfl⟩ := hfrom blob hblob
        obtain ⟨-, hnone, hunder⟩ := hclaimed row hrow
        exact (hcharged _ hblob).budget_lt hnone hunder
      refine ⟨hcharged, fun hsome => ?_⟩
      unfold totalBudget
      rw [hwithin.blobs]
      apply List.sum_lt_sum
      · intro blob _
        by_cases hmem : blob.sha256 ∈
            (claimBatch inputs.cfg tables (inputs.locked number)).map
              fun row => row.blob.sha256
        · obtain ⟨row, hrow, hsha⟩ := List.mem_map.mp hmem
          obtain ⟨counted, hcounted, hrowSwept⟩ := hswept row hrow
          rw [← hsha]
          cases counted with
          | true => exact Nat.le_of_lt (hspends _ (hcounted.mp rfl))
          | false => exact Nat.le_of_eq (hrowSwept.left rfl).budget_eq
        · exact Nat.le_of_eq (Uncharged.budget_eq
            ⟨hwithin.texts _ hmem, hwithin.failed _ hmem⟩)
      · obtain ⟨blob, hblob⟩ := List.exists_mem_of_ne_nil touched hsome
        obtain ⟨row, hrow, rfl⟩ := hfrom blob hblob
        exact ⟨row.blob, (hclaimed row hrow).1, hspends _ hblob⟩
    · intro hlost
      push Not at hlost
      obtain ⟨row, hrow, hloses⟩ := hlost
      obtain ⟨counted, hcounted, hrowSwept⟩ := hswept row hrow
      obtain ⟨hyes, huncharged⟩ := hrowSwept.lost hloses
      exact ⟨row.blob, hcounted.mp hyes, huncharged⟩
  · rename_i hdisabled
    refine ⟨tables, [], rfl, fun _ => ⟨by simp, fun hsome => absurd rfl hsome⟩, ?_⟩
    intro hlost
    exact absurd (fun henabled => absurd henabled hdisabled) hlost

/-- A sweep that loses no failure is the last one, or leaves less of the
budget to the next. -/
theorem sweep_ends_or_spends {start : ArchiveTables}
    (hreach : DrainReaches inputs start number tables)
    (hrecords : RecordsPlanned inputs number tables) :
    (∃ after, inputs.sweep number tables = .ok (after, [])) ∨
      ∃ after, DrainReaches inputs start (number + 1) after ∧
        totalBudget inputs.cfg after < totalBudget inputs.cfg tables := by
  obtain ⟨after, touched, hsweep, hkept, -⟩ := sweep_spec inputs number tables
  by_cases hnone : touched = []
  · subst hnone
    exact .inl ⟨after, hsweep⟩
  · exact .inr ⟨after, hreach.next hsweep hnone, (hkept hrecords).2 hnone⟩

/-- While no failure is lost, the budget runs out. -/
theorem drain_ends {start : ArchiveTables}
    (hrecords : ∀ number tables, DrainReaches inputs start number tables →
      RecordsPlanned inputs number tables) (left : Nat) :
    ∀ number tables, DrainReaches inputs start number tables →
      totalBudget inputs.cfg tables ≤ left →
      ∃ last tables after, DrainReaches inputs start last tables ∧
        inputs.sweep last tables = .ok (after, []) := by
  induction left with
  | zero =>
      intro number tables hreach hleft
      rcases sweep_ends_or_spends hreach (hrecords number tables hreach) with
        ⟨after, hends⟩ | ⟨after, -, hspent⟩
      · exact ⟨number, tables, after, hreach, hends⟩
      · rw [Nat.le_zero.mp hleft] at hspent
        exact absurd hspent (Nat.not_lt_zero _)
  | succ left ih =>
      intro number tables hreach hleft
      rcases sweep_ends_or_spends hreach (hrecords number tables hreach) with
        ⟨after, hends⟩ | ⟨after, hnext, hspent⟩
      · exact ⟨number, tables, after, hreach, hends⟩
      · exact ih (number + 1) after hnext
          (Nat.le_of_lt_succ (Nat.lt_of_lt_of_le hspent hleft))

end Drain

/-- For any blobs and any answers of the extractors: the loop ends and charges
what it counts where every planned failure it meets can be recorded, and only
there. -/
theorem drain_settles_iff (inputs : DrainInputs) (start : ArchiveTables) :
    DrainSettles inputs start ↔
      ∀ number tables, DrainReaches inputs start number tables →
        RecordsPlanned inputs number tables := by
  constructor
  · intro hsettles number tables hreach
    by_contra hlost
    obtain ⟨after, touched, hsweep, -, huncharged⟩ :=
      sweep_spec inputs number tables
    obtain ⟨blob, hblob, huncharged⟩ := huncharged hlost
    exact huncharged.not_charged
      (hsettles.charged number tables after touched hreach hsweep blob hblob)
  · intro hrecords
    constructor
    · exact drain_ends hrecords _ 0 start .start (Nat.le_refl _)
    · intro number tables after touched hreach hsweep
      obtain ⟨_, _, hspec, hkept, -⟩ := sweep_spec inputs number tables
      rw [hspec] at hsweep
      cases hsweep
      exact (hkept (hrecords number tables hreach)).1

namespace LoneSurrogate

def blob : AttachmentBlob :=
  ⟨[0], text "blobs/00", some (text "text/plain"), 9, 0⟩

def start : ArchiveTables where
  blobs := [blob]
  distinct := List.nodup_singleton _
  texts := fun _ => none
  failed := fun _ => none
  transients := fun _ => none
  messages := []

/-- An exception whose message holds a byte that was no UTF-8. -/
def raised : Raised :=
  ⟨text "ExtractorError", [.surrogate 0], text "Traceback", false⟩

def inputs : DrainInputs where
  lowering := dottedLowering
  errors :=
    ⟨fun _ => ⟨text "UnicodeEncodeError", text "surrogates not allowed",
      text "Traceback", false⟩, fun _ => by decide, fun _ => rfl⟩
  cfg := ⟨true, [text "text/plain"], [text ".txt"], 3, 5, 20, 52428800⟩
  locked := fun _ _ => false
  attempts := fun _ _ => .inRowOrder (.error raised) .missing (.error raised)

/-- Each sweep counts the blob and changes nothing. -/
theorem sweep_eq (number : Nat) :
    inputs.sweep number start = .ok (start, [blob]) := by
  have hclaim : claimBatch inputs.cfg start (fun _ => false) =
      [queueRow start blob] := by
    decide +kernel
  have hloses : LosesFailure inputs.lowering inputs.cfg start blob
      (inputs.attempts number blob) := by
    refine ⟨by decide +kernel, by decide, raised, ?_, ?_⟩
    · exact .lightweight rfl rfl (.inr (.inl rfl))
    · rintro ⟨⟨-, hmessage, -⟩, -⟩
      exact absurd hmessage (by decide)
  have hblob : sweepBlob inputs.lowering inputs.errors inputs.cfg start
      (queueRow start blob) (inputs.attempts number blob) = .ok (start, true) :=
    @LosesFailure.sweepBlob_eq _ inputs.errors _ _ _ (queueRow start blob) hloses
  change sweepBatch inputs.lowering inputs.errors inputs.cfg
    (inputs.attempts number) start
    (claimBatch inputs.cfg start fun _ => false) = _
  rw [hclaim, sweepBatch, show (queueRow start blob).blob = blob from rfl, hblob]
  rfl

end LoneSurrogate

open LoneSurrogate in
/-- A failure that cannot be recorded is counted in every sweep. -/
theorem lone_surrogate_drains_forever :
    (∀ number, DrainReaches inputs start number start) ∧
      ¬ ∀ inputs start, DrainSettles inputs start := by
  have hforever : ∀ number, DrainReaches inputs start number start := by
    intro number
    induction number with
    | zero => exact .start
    | succ number ih => exact ih.next (sweep_eq number) (List.cons_ne_nil _ _)
  have honly : ∀ number tables,
      DrainReaches inputs start number tables → tables = start := by
    intro number tables hreach
    induction hreach with
    | start => rfl
    | next _ hswept _ ih =>
        subst ih
        rw [sweep_eq] at hswept
        cases hswept
        rfl
  refine ⟨hforever, fun hclaim => ?_⟩
  obtain ⟨number, tables, after, hreach, hends⟩ := (hclaim inputs start).ends
  rw [honly number tables hreach, sweep_eq] at hends
  cases hends

end Extract

end Localmail
