/-
The characters of an extracted text on their way to its row.  The text loses
its NULs when it is built and nothing else is done to it, so the statement
refuses a lone surrogate, and the blob is charged with the refusal.
-/
import Localmail.ExtractDrain

namespace Localmail

namespace Extract

open AttachmentKind

/-! ### What is handed over -/

/-- What `ExtractedText` is built from. -/
structure Extraction where
  raw : Text
  pageCount : Option Int
  extractor : Text
deriving Repr, DecidableEq

def Extraction.built (extraction : Extraction) : ExtractedText :=
  .build extraction.raw extraction.pageCount extraction.extractor

/-- A row that says only why there is no text. -/
def Extraction.sentinel (extractor : String) : Extraction :=
  ⟨[], none, text extractor⟩

/-- The branches of `_process_blob` that store text, each with the extraction
the text comes from. -/
inductive Delivers (cfg : ExtractConfig) (blob : AttachmentBlob) (pdf : Bool)
    (attempt : Attempt) : Extraction → Prop
  | skipped (big : cfg.maxBlobBytes < blob.sizeBytes) :
      Delivers cfg blob pdf attempt (.sentinel "size-skipped")
  | lightweight {extraction : Extraction}
      (small : blob.sizeBytes ≤ cfg.maxBlobBytes)
      (answers : attempt.lightweight = .ok extraction.built)
      (some : extraction.built.text ≠ []) :
      Delivers cfg blob pdf attempt extraction
  | docling {extraction : Extraction}
      (small : blob.sizeBytes ≤ cfg.maxBlobBytes) (isPdf : pdf = true)
      (installed : attempt.doclingInstall = .installed)
      (nothing : ∀ found, attempt.lightweight = .ok found → found.text = [])
      (answers : attempt.docling = .ok extraction.built)
      (some : extraction.built.text ≠ []) :
      Delivers cfg blob pdf attempt extraction
  | lightweightEmpty {extraction : Extraction}
      (small : blob.sizeBytes ≤ cfg.maxBlobBytes)
      (answers : attempt.lightweight = .ok extraction.built)
      (empty : extraction.built.text = [])
      (unaided : pdf = false ∨ attempt.doclingInstall = .missing ∨
        attempt.doclingInstall = .installed ∧
          ∃ found, attempt.docling = .ok found ∧ found.text = []) :
      Delivers cfg blob pdf attempt extraction
  | doclingEmpty {extraction : Extraction} {found : ExtractedText}
      (small : blob.sizeBytes ≤ cfg.maxBlobBytes) (isPdf : pdf = true)
      (installed : attempt.doclingInstall = .installed)
      (nothing : attempt.lightweight = .ok found) (blank : found.text = [])
      (answers : attempt.docling = .ok extraction.built)
      (empty : extraction.built.text = []) :
      Delivers cfg blob pdf attempt extraction

/-! ### What becomes of it -/

/-- A text without the characters no column takes. -/
def withoutUnstorable (raw : Text) : Text :=
  raw.filter CodePoint.isStorable

/-- The text has its row, and the blob is charged with nothing. -/
@[mk_iff kept_iff]
structure Kept (before after : ArchiveTables) (sha256 : Bytes) (raw : Text) :
    Prop where
  stored : ∃ row, after.texts sha256 = some row ∧
    Storable row.extractedText ∧
    (row.extractedText ≠ [] → row.extractedText = withoutUnstorable raw) ∧
    (row.extractedText = [] ↔ isBlank (withoutUnstorable raw) = true)
  failed : after.failed sha256 = before.failed sha256
  transients : after.transients sha256 = before.transients sha256 ∨
    after.transients sha256 = none

/-- `page_count` is an `integer`. -/
def PageCountFits (pageCount : Option Int) : Prop :=
  ∀ pages ∈ pageCount, pages ≤ int4Max ∧ -int4Max ≤ pages + 1

/-- No lone surrogate is in the text, and if there is a text, then its other
two columns can be bound. -/
def Extraction.Fits (extraction : Extraction) : Prop :=
  Encodable extraction.raw ∧
    (isBlank (stripNuls extraction.raw) = false →
      Storable extraction.extractor ∧ PageCountFits extraction.pageCount)

/-! ### Building the text -/

section Build

variable {extraction : Extraction} {raw : Text}

theorem encodable_of_isBlank (hblank : isBlank (stripNuls raw) = true) :
    Encodable raw := by
  intro offset hmem
  have hkept : CodePoint.surrogate offset ∈ stripNuls raw :=
    List.mem_filter.mpr ⟨hmem, rfl⟩
  unfold isBlank at hblank
  rw [Bool.or_eq_true, List.isEmpty_iff, List.all_eq_true] at hblank
  rcases hblank with hempty | hspaces
  · rw [hempty] at hkept
    exact List.not_mem_nil hkept
  · exact Bool.false_ne_true (hspaces _ hkept)

theorem stripNuls_eq_withoutUnstorable (hraw : Encodable raw) :
    stripNuls raw = withoutUnstorable raw := by
  apply List.filter_congr
  intro ch hch
  cases ch with
  | surrogate offset => exact absurd hch (hraw offset)
  | scalar char => simp [CodePoint.isStorable]

theorem Extraction.built_text (extraction : Extraction) :
    extraction.built.text =
      if isBlank (stripNuls extraction.raw) then []
      else stripNuls extraction.raw := by
  unfold built ExtractedText.build
  split
  · rfl
  · rfl

theorem Extraction.built_text_eq_nil :
    extraction.built.text = [] ↔
      isBlank (stripNuls extraction.raw) = true := by
  rw [built_text]
  split
  · rename_i hblank
    exact iff_of_true rfl hblank
  · rename_i hsolid
    refine iff_of_false (fun hempty => hsolid ?_) hsolid
    rw [hempty]
    rfl

theorem Extraction.storable_built_text :
    Storable extraction.built.text ↔ Encodable extraction.raw := by
  rw [built_text]
  split
  · rename_i hblank
    exact iff_of_true .nil (encodable_of_isBlank hblank)
  · exact storable_stripNuls

theorem Extraction.built_columns (extraction : Extraction) :
    extraction.built.pageCount = extraction.pageCount ∧
      extraction.built.extractor = extraction.extractor := by
  unfold built ExtractedText.build
  split
  · exact ⟨rfl, rfl⟩
  · exact ⟨rfl, rfl⟩

end Build

/-! ### Inserting it -/

/-- What the statement can bind. -/
def ExtractedText.Insertable (found : ExtractedText) : Prop :=
  Storable found.text ∧ Storable found.extractor ∧
    PageCountFits found.pageCount

section Insert

variable {extraction : Extraction} {tables : ArchiveTables} {sha256 : Bytes}
  {errors : InsertErrors} {found : ExtractedText}

theorem Extraction.insertable_built (hsome : extraction.built.text ≠ []) :
    extraction.built.Insertable ↔ extraction.Fits := by
  have hsolid : isBlank (stripNuls extraction.raw) = false :=
    eq_false_of_ne_true fun hblank => hsome (built_text_eq_nil.mpr hblank)
  unfold ExtractedText.Insertable Fits
  rw [storable_built_text, extraction.built_columns.1,
    extraction.built_columns.2]
  exact and_congr_right fun _ =>
    ⟨fun hcolumns _ => hcolumns, fun hcolumns => hcolumns hsolid⟩

theorem Extraction.fits_of_empty (hempty : extraction.built.text = []) :
    extraction.Fits := by
  have hblank := built_text_eq_nil.mp hempty
  refine ⟨encodable_of_isBlank hblank, fun hsolid => ?_⟩
  rw [hblank] at hsolid
  cases hsolid

theorem insertable_sentinel {extractor : String}
    (hnul : '\x00' ∉ extractor.toList) :
    (sentinel extractor).Insertable :=
  ⟨.nil, storable_text hnul, nofun⟩

theorem insertAttachmentText_of_insertable (hfound : found.Insertable)
    (hnone : tables.texts sha256 = none) :
    insertAttachmentText tables sha256 errors found =
      .ok { tables with
        texts := Function.update tables.texts sha256 (some
          ⟨found.extractor, found.text, found.pageCount⟩) } := by
  unfold insertAttachmentText
  rw [if_pos ⟨hfound.1, hfound.2.1, hfound.2.2⟩, hnone]

theorem insertAttachmentText_of_not_insertable (hfound : ¬ found.Insertable) :
    insertAttachmentText tables sha256 errors found =
      .error (errors.raised found) := by
  unfold insertAttachmentText
  exact if_neg hfound

end Insert

/-! ### One claimed blob -/

section Blob

variable {lowering : Lowering} {errors : InsertErrors} {cfg : ExtractConfig}
  {tables : ArchiveTables} {blob : AttachmentBlob} {attempt : Attempt}
  {extraction : Extraction}

/-- The branches that store text end in one insert of that text. -/
theorem Delivers.processBlob_eq {filename : Option Text}
    (hdelivers : Delivers cfg blob (isPdf lowering blob.mimeType filename)
      attempt extraction) :
    ∃ found, processBlob lowering errors cfg tables blob filename attempt =
        writeText errors tables blob found ∧
      found.text = extraction.built.text ∧
      (found.Insertable ↔ extraction.Fits) := by
  have hempty : ∀ extractor : String, '\x00' ∉ extractor.toList →
      extraction.built.text = [] →
      (sentinel extractor).text = extraction.built.text ∧
        ((sentinel extractor).Insertable ↔ extraction.Fits) :=
    fun _ hnul hnothing => ⟨hnothing.symm, iff_of_true
      (insertable_sentinel hnul) (Extraction.fits_of_empty hnothing)⟩
  cases hdelivers with
  | skipped hbig =>
      rw [processBlob, if_pos hbig]
      exact ⟨_, rfl, hempty "size-skipped" (by decide) rfl⟩
  | lightweight hsmall hanswers hsome =>
      rw [processBlob, if_neg (Nat.not_lt.mpr hsmall), hanswers]
      dsimp only
      rw [if_pos hsome]
      exact ⟨_, rfl, rfl, Extraction.insertable_built hsome⟩
  | docling hsmall hpdf hinstalled hnothing hanswers hsome =>
      obtain ⟨lwRaised, hfallback⟩ :=
        @processBlob_fallback lowering cfg tables blob attempt errors filename
          hsmall hnothing
      refine ⟨_, ?_, rfl, Extraction.insertable_built hsome⟩
      rw [hfallback, processFallback, if_pos hpdf, hinstalled, hanswers]
      exact if_pos hsome
  | lightweightEmpty hsmall hanswers hnothing hunaided =>
      refine ⟨_, ?_, hempty "lightweight-empty" (by decide) hnothing⟩
      rw [processBlob, if_neg (Nat.not_lt.mpr hsmall), hanswers]
      dsimp only
      rw [if_neg (not_not.mpr hnothing), processFallback_unaided hunaided]
      rfl
  | doclingEmpty hsmall hpdf hinstalled hlw hblank hanswers hnothing =>
      rw [processBlob, if_neg (Nat.not_lt.mpr hsmall), hlw]
      dsimp only
      rw [if_neg (not_not.mpr hblank), processFallback, if_pos hpdf,
        hinstalled, hanswers]
      dsimp only
      rw [if_neg (not_not.mpr hnothing)]
      exact ⟨_, rfl, hempty "lightweight-empty" (by decide) hnothing⟩

/-- A row with the built text is a row as it should be. -/
theorem kept_of_row {before after : ArchiveTables} {sha256 : Bytes}
    {row : TextRow} (hfits : extraction.Fits)
    (hrow : after.texts sha256 = some row)
    (htext : row.extractedText = extraction.built.text)
    (hfailed : after.failed sha256 = before.failed sha256)
    (htransients : after.transients sha256 = before.transients sha256 ∨
      after.transients sha256 = none) :
    Kept before after sha256 extraction.raw := by
  refine ⟨⟨row, hrow, ?_, ?_, ?_⟩, hfailed, htransients⟩
  · rw [htext]
    exact Extraction.storable_built_text.mpr hfits.1
  · intro hsome
    rw [htext] at hsome ⊢
    rw [Ne, Extraction.built_text_eq_nil] at hsome
    rw [Extraction.built_text, if_neg hsome,
      stripNuls_eq_withoutUnstorable hfits.1]
  · rw [htext, Extraction.built_text_eq_nil,
      stripNuls_eq_withoutUnstorable hfits.1]

theorem recordFailureSafely_texts {sha256 : Bytes} {extractorName : Text}
    {raised : Raised} :
    (recordFailureSafely tables sha256 extractorName raised).1.texts =
      tables.texts := by
  unfold recordFailureSafely
  dsimp only
  split
  · rfl
  · rfl

/-- One blob, alone: its text is kept just where it fits. -/
theorem sweepBlob_kept_iff {row : QueueRow} {after : ArchiveTables}
    {counted : Bool} (hnone : tables.texts row.blob.sha256 = none)
    (hadmits : admits lowering cfg tables.messages row.blob = true)
    (hdelivers : Delivers cfg row.blob (isPdf lowering row.blob.mimeType
      (dispatchName lowering cfg tables.messages row.blob attempt)) attempt
      extraction)
    (hswept : sweepBlob lowering errors cfg tables row attempt =
      .ok (after, counted)) :
    Kept tables after row.blob.sha256 extraction.raw ↔ extraction.Fits := by
  obtain ⟨found, hprocess, htext, hinsertable⟩ :=
    @Delivers.processBlob_eq _ errors _ tables _ _ _ _ hdelivers
  unfold sweepBlob at hswept
  rw [isAllowlisted_filenames] at hswept
  rw [if_pos hadmits, hprocess, writeText] at hswept
  by_cases hfits : extraction.Fits
  · refine iff_of_true ?_ hfits
    rw [insertAttachmentText_of_insertable (hinsertable.mpr hfits) hnone]
      at hswept
    cases hswept
    split
    · exact kept_of_row hfits (Function.update_self ..) htext rfl
        (.inr (Function.update_self ..))
    · exact kept_of_row hfits (Function.update_self ..) htext rfl (.inl rfl)
  · refine iff_of_false ?_ hfits
    rintro ⟨⟨stored, hstored, -⟩, -, -⟩
    rw [insertAttachmentText_of_not_insertable
      (mt hinsertable.mp hfits)] at hswept
    simp only [Except.map, errors.lasting, Bool.false_eq_true, ↓reduceIte,
      Except.ok.injEq] at hswept
    have hafter : (recordFailureSafely tables row.blob.sha256
        (text "unexpected") (errors.raised found)).1 = after :=
      congrArg Prod.fst hswept
    rw [← hafter, recordFailureSafely_texts, hnone] at hstored
    cases hstored

end Blob

/-! ### A sweep -/

section Sweep

variable {lowering : Lowering} {errors : InsertErrors} {cfg : ExtractConfig}
  {tables : ArchiveTables}

/-- A sweep takes each blob in its turn, and no other row of the batch touches
its own. -/
theorem sweepBatch_at (attempts : AttachmentBlob → Attempt)
    (rows : List QueueRow)
    (hdistinct : (rows.map fun row => row.blob.sha256).Nodup)
    (hnone : ∀ row ∈ rows, tables.texts row.blob.sha256 = none)
    {row : QueueRow} (hrow : row ∈ rows) :
    ∃ before after counted final touched earlier later,
      sweepBatch lowering errors cfg attempts tables rows =
        .ok (final, touched) ∧
      sweepBlob lowering errors cfg before row (attempts row.blob) =
        .ok (after, counted) ∧
      Within earlier tables before ∧ Within later after final ∧
      row.blob.sha256 ∉ earlier ∧ row.blob.sha256 ∉ later := by
  induction rows generalizing tables with
  | nil => cases hrow
  | cons first rest ih =>
      rw [List.map_cons, List.nodup_cons] at hdistinct
      rw [List.forall_mem_cons] at hnone
      obtain ⟨after, counted, hstep, hwithin, -⟩ :=
        @sweepBlob_spec lowering errors cfg tables (attempts first.blob) first
          hnone.1
      have hne : ∀ other ∈ rest, other.blob.sha256 ∉ [first.blob.sha256] := by
        intro other hmem hsame
        rw [List.mem_singleton] at hsame
        exact hdistinct.1 (List.mem_map.mpr ⟨other, hmem, hsame⟩)
      have hnoneAfter : ∀ other ∈ rest,
          after.texts other.blob.sha256 = none := by
        intro other hmem
        rw [hwithin.texts _ (hne other hmem)]
        exact hnone.2 other hmem
      rcases List.mem_cons.mp hrow with rfl | hmem
      · obtain ⟨final, touched, hrest, hlater, -, -⟩ :=
          @sweepBatch_spec lowering errors cfg after attempts rest hdistinct.2
            hnoneAfter
        refine ⟨tables, after, counted, final,
          if counted then row.blob :: touched else touched, [], _, ?_, hstep,
          .refl _ _, hlater, List.not_mem_nil, hdistinct.1⟩
        rw [sweepBatch, hstep]
        dsimp only
        rw [hrest]
        rfl
      · obtain ⟨before, done, counted', final, touched, earlier, later, hrest,
          hturn, hearlier, hlater, hnotEarlier, hnotLater⟩ :=
          ih hdistinct.2 hnoneAfter hmem
        refine ⟨before, done, counted', final,
          if counted then first.blob :: touched else touched, _, later, ?_,
          hturn, hwithin.trans hearlier, hlater, ?_, hnotLater⟩
        · rw [sweepBatch, hstep]
          dsimp only
          rw [hrest]
          rfl
        · rw [List.mem_append, not_or]
          exact ⟨hne row hmem, hnotEarlier⟩

theorem Kept.around_iff {earlier later : List Bytes}
    {before after last : ArchiveTables} {sha256 : Bytes} {raw : Text}
    (hearlier : Within earlier tables before) (hlater : Within later after last)
    (hnotEarlier : sha256 ∉ earlier) (hnotLater : sha256 ∉ later) :
    Kept tables last sha256 raw ↔ Kept before after sha256 raw := by
  rw [kept_iff, kept_iff, hlater.texts _ hnotLater, hlater.failed _ hnotLater,
    hlater.transients _ hnotLater, hearlier.failed _ hnotEarlier,
    hearlier.transients _ hnotEarlier]

end Sweep

/-- For any text, any blob of the batch and whatever the other blobs come to:
the sweep ends, and it keeps the text just where it fits. -/
theorem extracted_text_kept_iff (lowering : Lowering) (errors : InsertErrors)
    (cfg : ExtractConfig) (tables : ArchiveTables)
    (locked : AttachmentBlob → Bool) (attempts : AttachmentBlob → Attempt)
    (henabled : cfg.runExtractWorker = true) (row : QueueRow)
    (hclaimed : row ∈ claimBatch cfg tables locked)
    (hadmits : admits lowering cfg tables.messages row.blob = true)
    (extraction : Extraction)
    (hdelivers : Delivers cfg row.blob (isPdf lowering row.blob.mimeType
      (dispatchName lowering cfg tables.messages row.blob (attempts row.blob)))
      (attempts row.blob) extraction) :
    ∃ after touched,
      runExtractWorkerOnce lowering errors cfg locked attempts tables =
        .ok (after, touched) ∧
      (Kept tables after row.blob.sha256 extraction.raw ↔ extraction.Fits) := by
  obtain ⟨hdistinct, hfree⟩ := claimBatch_spec cfg tables locked
  obtain ⟨before, after, counted, final, touched, earlier, later, hbatch,
    hturn, hearlier, hlater, hnotEarlier, hnotLater⟩ :=
    @sweepBatch_at lowering errors cfg tables attempts _ hdistinct
      (fun row hrow => (hfree row hrow).2.1) row hclaimed
  refine ⟨final, touched, ?_, ?_⟩
  · unfold runExtractWorkerOnce
    rw [if_pos henabled, hbatch]
  · rw [Kept.around_iff hearlier hlater hnotEarlier hnotLater]
    have hmessages := hearlier.messages
    unfold dispatchName at hdelivers
    apply sweepBlob_kept_iff _ _ _ hturn
    · rw [hearlier.texts _ hnotEarlier]
      exact (hfree row hclaimed).2.1
    · rw [hmessages]
      exact hadmits
    · unfold dispatchName
      rw [hmessages]
      exact hdelivers

namespace BrokenFont

def blob : AttachmentBlob :=
  ⟨[0], text "blobs/00", some (text "application/pdf"), 9, 0⟩

def start : ArchiveTables where
  blobs := [blob]
  distinct := List.nodup_singleton _
  texts := fun _ => none
  failed := fun _ => none
  transients := fun _ => none
  messages := []

def cfg : ExtractConfig :=
  ⟨true, [text "application/pdf"], [text ".pdf"], 3, 5, 20, 52428800⟩

/-- What the one page of a PDF reads as, one glyph of it a lone surrogate. -/
def extraction : Extraction :=
  ⟨[.scalar 'a', .surrogate 0], some 1, text "lightweight@1.0"⟩

/-- The same page with a NUL for that glyph. -/
def mended : Extraction :=
  ⟨[.scalar 'a', .scalar '\x00'], some 1, text "lightweight@1.0"⟩

/-- The lightweight extractor answers. -/
def attempts (extraction : Extraction) : AttachmentBlob → Attempt :=
  fun _ => .inRowOrder (.ok extraction.built) .missing (.ok extraction.built)

def run (extraction : Extraction) :
    Except Raised (ArchiveTables × List AttachmentBlob) :=
  runExtractWorkerOnce dottedLowering LoneSurrogate.inputs.errors cfg
    (fun _ => false) (attempts extraction) start

theorem claimed : queueRow start blob ∈ claimBatch cfg start fun _ => false := by
  decide +kernel

theorem delivered {pdf : Bool} {extraction : Extraction}
    (hsome : extraction.built.text ≠ []) :
    Delivers cfg blob pdf (attempts extraction blob) extraction :=
  .lightweight (by decide) rfl hsome

/-- The text of the PDF is stored nowhere, and its retry count went up. -/
theorem run_charges :
    (run extraction).toOption.map (fun swept =>
      (swept.1.texts [0], (swept.1.failed [0]).map FailedRow.retryCount)) =
      some (none, some 1) := by
  decide +kernel

end BrokenFont

open BrokenFont in
theorem extracted_text_kept_iff_mended :
    ∃ after touched, run mended = .ok (after, touched) ∧
      Kept start after [0] mended.raw := by
  obtain ⟨after, touched, hrun, hkept⟩ := extracted_text_kept_iff dottedLowering
    LoneSurrogate.inputs.errors cfg start (fun _ => false) (attempts mended) rfl
    (queueRow start blob) claimed (by decide +kernel) mended
    (delivered (by decide))
  refine ⟨after, touched, hrun, hkept.mpr ⟨?_, fun _ => ⟨?_, ?_⟩⟩⟩
  · rintro offset hmem
    simp [mended] at hmem
  · decide
  · rintro pages ⟨⟩
    decide

open BrokenFont in
/-- A blob is given up on because of a character in its text. -/
theorem lone_surrogate_given_up :
    ((run extraction).toOption.map fun swept =>
      (swept.1.texts [0], (swept.1.failed [0]).map FailedRow.retryCount)) =
      some (none, some 1) ∧
    ¬ ∀ lowering errors cfg tables locked attempts,
      cfg.runExtractWorker = true →
      ∀ row ∈ claimBatch cfg tables locked,
        admits lowering cfg tables.messages row.blob = true →
        ∀ extraction, Delivers cfg row.blob
          (isPdf lowering row.blob.mimeType
            (dispatchName lowering cfg tables.messages row.blob
              (attempts row.blob)))
          (attempts row.blob) extraction →
        ∃ after touched,
          runExtractWorkerOnce lowering errors cfg locked attempts tables =
            .ok (after, touched) ∧
          Kept tables after row.blob.sha256 extraction.raw := by
  refine ⟨run_charges, fun hclaim => ?_⟩
  obtain ⟨after, touched, hrun, ⟨row, hrow, -⟩, -, -⟩ :=
    hclaim dottedLowering LoneSurrogate.inputs.errors cfg start (fun _ => false)
      (attempts extraction) rfl _ claimed (by decide +kernel) extraction
      (delivered (by decide))
  have hcharges := run_charges
  unfold run at hcharges
  rw [hrun] at hcharges
  have hnone : after.texts [0] = none :=
    congrArg Prod.fst (Option.some.inj hcharges)
  rw [show (queueRow start blob).blob.sha256 = [0] from rfl, hnone] at hrow
  cases hrow

end Extract

end Localmail
