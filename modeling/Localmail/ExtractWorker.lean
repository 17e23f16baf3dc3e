/-
The extraction worker: what it does with one blob, whatever the extractors
answer, one sweep over a batch, and the loop that sweeps until nothing is
touched.
-/
import Localmail.ExtractQueue
import Localmail.MailTexts
import Localmail.TextChunks

namespace Localmail

namespace Extract

open AttachmentKind

/-! ### What the extractors answer -/

/-- `ExtractedText`: free of NULs, and empty if it is blank. -/
structure ExtractedText where
  text : Text
  pageCount : Option Int
  extractor : Text
  clean : CodePoint.scalar '\x00' ∉ text
  solid : text = [] ∨ isBlank text = false

/-- `ExtractedText.__post_init__`. -/
def ExtractedText.build (raw : Text) (pageCount : Option Int)
    (extractor : Text) : ExtractedText :=
  if hblank : isBlank (stripNuls raw) = true then
    ⟨[], pageCount, extractor, List.not_mem_nil, .inl rfl⟩
  else
    ⟨stripNuls raw, pageCount, extractor,
      fun hnul => of_decide_eq_true (List.mem_filter.mp hnul).2 rfl,
      .inr (eq_false_of_ne_true hblank)⟩

/-- An exception; `transient` is what `_is_transient` finds in its chain. -/
structure Raised where
  errorClass : Text
  message : Text
  traceback : Text
  transient : Bool
deriving Repr, DecidableEq

/-- What `_try_import_docling` finds. -/
inductive DoclingInstall where
  | missing
  | broken (message traceback : Text)
  | installed

def extractorConfigurationError (message traceback : Text) : Raised :=
  ⟨text "ExtractorConfigurationError", message, traceback, true⟩

/-- All that can happen when a blob is attempted once; `arrange` is the order
in which `SELECT DISTINCT` gives the names of the blob. -/
structure Attempt where
  lightweight : Except Raised ExtractedText
  doclingInstall : DoclingInstall
  docling : Except Raised ExtractedText
  arrange : List Text → List Text
  arranged : ∀ names, (arrange names).Perm names

/-- An attempt that finds the names in the order the rows have them. -/
def Attempt.inRowOrder (lightweight : Except Raised ExtractedText)
    (doclingInstall : DoclingInstall) (docling : Except Raised ExtractedText) :
    Attempt :=
  ⟨lightweight, doclingInstall, docling, id, fun _ => .refl _⟩

/-! ### The statements -/

def int4Max : Int := 2147483647

/-- The texts of an exception can be bound once their NULs are gone. -/
def Raised.Storable (raised : Raised) : Prop :=
  Localmail.Storable raised.errorClass ∧
    Localmail.Storable (stripNuls raised.message) ∧
    Localmail.Storable (stripNuls raised.traceback)

instance (raised : Raised) : Decidable raised.Storable :=
  inferInstanceAs (Decidable (_ ∧ _))

/-- What the driver or the server raises for a row it cannot take. -/
structure InsertErrors where
  raised : ExtractedText → Raised
  storable : ∀ found, (raised found).Storable
  lasting : ∀ found, (raised found).transient = false

section Statements

variable (tables : ArchiveTables) (sha256 : Bytes)

/-- `retry_count` after one more failure. -/
def nextRetryCount : Int :=
  match tables.failed sha256 with
  | none => 1
  | some row => row.retryCount + 1

def nextTransientCount : Int :=
  match tables.transients sha256 with
  | none => 1
  | some row => row.transientCount + 1

/-- `_record_failure` in its savepoint; whether it could. -/
def recordFailureSafely (extractorName : Text) (raised : Raised) :
    ArchiveTables × Bool :=
  let count := nextRetryCount tables sha256
  if raised.Storable ∧ count ≤ int4Max then
    ({ tables with
        failed := Function.update tables.failed sha256 (some
          ⟨extractorName, raised.errorClass, stripNuls raised.message,
            stripNuls raised.traceback, count⟩) }, true)
  else (tables, false)

/-- `_record_transient` in its savepoint; the new count, if it could. -/
def recordTransientSafely (raised : Raised) : ArchiveTables × Option Int :=
  let count := nextTransientCount tables sha256
  if Storable raised.errorClass ∧ Storable (stripNuls raised.message) ∧
      count ≤ int4Max then
    ({ tables with
        transients := Function.update tables.transients sha256 (some
          ⟨raised.errorClass, stripNuls raised.message, count⟩) }, some count)
  else (tables, none)

def clearTransient : ArchiveTables :=
  { tables with transients := Function.update tables.transients sha256 none }

/-- `_insert_attachment_text`, with `ON CONFLICT DO NOTHING`. -/
def insertAttachmentText (errors : InsertErrors) (found : ExtractedText) :
    Except Raised ArchiveTables :=
  if Storable found.text ∧ Storable found.extractor ∧
      ∀ pages ∈ found.pageCount, pages ≤ int4Max ∧ -int4Max ≤ pages + 1 then
    .ok (match tables.texts sha256 with
      | some _ => tables
      | none =>
          { tables with
            texts := Function.update tables.texts sha256 (some
              ⟨found.extractor, found.text, found.pageCount⟩) })
  else .error (errors.raised found)

end Statements

/-- A row without text that says why there is none. -/
def sentinel (extractor : String) : ExtractedText :=
  .build [] none (text extractor)

/-! ### `_process_blob` -/

section Process

variable (lowering : Lowering) (errors : InsertErrors) (cfg : ExtractConfig)
  (tables : ArchiveTables) (blob : AttachmentBlob)

/-- A row is written. -/
def writeText (found : ExtractedText) : Except Raised (ArchiveTables × Bool) :=
  (insertAttachmentText tables blob.sha256 errors found).map (·, true)

/-- A planned failure; that it could not be recorded goes unnoticed. -/
def recordPlanned (extractorName : String) (raised : Raised) :
    Except Raised (ArchiveTables × Bool) :=
  if raised.transient then .error raised
  else
    .ok ((recordFailureSafely tables blob.sha256 (text extractorName) raised).1,
      false)

/-- Nothing was found: what the lightweight extractor raised decides. -/
def writeEmpty (lwRaised : Option Raised) :
    Except Raised (ArchiveTables × Bool) :=
  match lwRaised with
  | some raised => recordPlanned tables blob "lightweight" raised
  | none => writeText errors tables blob (sentinel "lightweight-empty")

/-- Step 4, after the lightweight extractor found nothing or raised. -/
def processFallback (filename : Option Text) (attempt : Attempt)
    (lwRaised : Option Raised) : Except Raised (ArchiveTables × Bool) :=
  if isPdf lowering blob.mimeType filename then
    match attempt.doclingInstall with
    | .broken message traceback =>
        .error (extractorConfigurationError message traceback)
    | .missing => writeEmpty errors tables blob lwRaised
    | .installed =>
        match attempt.docling with
        | .error raised => recordPlanned tables blob "docling" raised
        | .ok found =>
            if found.text ≠ [] then writeText errors tables blob found
            else writeEmpty errors tables blob lwRaised
  else writeEmpty errors tables blob lwRaised

def processBlob (filename : Option Text) (attempt : Attempt) :
    Except Raised (ArchiveTables × Bool) :=
  if cfg.maxBlobBytes < blob.sizeBytes then
    writeText errors tables blob (sentinel "size-skipped")
  else
    match attempt.lightweight with
    | .ok found =>
        if found.text ≠ [] then writeText errors tables blob found
        else processFallback lowering errors tables blob filename attempt none
    | .error raised =>
        processFallback lowering errors tables blob filename attempt
          (some raised)

end Process

/-! ### `run_extract_worker_once` -/

section Sweep

variable (lowering : Lowering) (errors : InsertErrors) (cfg : ExtractConfig)

/-- `_blob_filenames`, in the order the rows come in. -/
def Attempt.filenames (attempt : Attempt) (messages : List AttachmentsJson)
    (blob : AttachmentBlob) : List Text :=
  attempt.arrange (blobFilenames messages blob.sha256)

/-- The name an extractor is given. -/
def dispatchName (messages : List AttachmentsJson) (blob : AttachmentBlob)
    (attempt : Attempt) : Option Text :=
  preferredFilename lowering (attempt.filenames messages blob)
    cfg.extensionAllowlist

/-- One claimed blob; whether it is counted as touched. -/
def sweepBlob (tables : ArchiveTables) (row : QueueRow) (attempt : Attempt) :
    Except Raised (ArchiveTables × Bool) :=
  if isAllowlisted lowering row.blob.mimeType
      (attempt.filenames tables.messages row.blob) cfg.mimeAllowlist
      cfg.extensionAllowlist then
    match processBlob lowering errors cfg tables row.blob
        (dispatchName lowering cfg tables.messages row.blob attempt) attempt
      with
    | .ok (after, wrote) =>
        .ok (if wrote && row.transient.isSome then
          clearTransient after row.blob.sha256 else after, true)
    | .error raised =>
        if raised.transient then
          .ok ((recordTransientSafely tables row.blob.sha256 raised).1, false)
        else
          .ok (recordFailureSafely tables row.blob.sha256 (text "unexpected")
            raised)
  else
    (insertAttachmentText tables row.blob.sha256 errors
      (sentinel "type-skipped")).map (·, true)

/-- The gate does not look at the order of the names. -/
theorem isAllowlisted_filenames (attempt : Attempt)
    (messages : List AttachmentsJson) (blob : AttachmentBlob) :
    isAllowlisted lowering blob.mimeType (attempt.filenames messages blob)
        cfg.mimeAllowlist cfg.extensionAllowlist =
      admits lowering cfg messages blob := by
  unfold admits isAllowlisted Attempt.filenames
  congr 1
  rw [Bool.eq_iff_iff, List.any_eq_true, List.any_eq_true]
  simp only [(attempt.arranged _).mem_iff]

/-- The loop over the batch, with the blobs counted as touched. -/
def sweepBatch (attempts : AttachmentBlob → Attempt) :
    ArchiveTables → List QueueRow →
      Except Raised (ArchiveTables × List AttachmentBlob)
  | tables, [] => .ok (tables, [])
  | tables, row :: rest =>
      match sweepBlob lowering errors cfg tables row (attempts row.blob) with
      | .error raised => .error raised
      | .ok (after, counted) =>
          (sweepBatch attempts after rest).map fun (final, touched) =>
            (final, if counted then row.blob :: touched else touched)

/-- The blobs touched; the source returns their number. -/
def runExtractWorkerOnce (locked : AttachmentBlob → Bool)
    (attempts : AttachmentBlob → Attempt) (tables : ArchiveTables) :
    Except Raised (ArchiveTables × List AttachmentBlob) :=
  if cfg.runExtractWorker then
    sweepBatch lowering errors cfg attempts tables
      (claimBatch cfg tables locked)
  else .ok (tables, [])

end Sweep

/-! ### The drain loop -/

/-- What a drain meets: in each sweep the blobs other workers hold, and what
the extractors do with each blob. -/
structure DrainInputs where
  lowering : Lowering
  errors : InsertErrors
  cfg : ExtractConfig
  locked : Nat → AttachmentBlob → Bool
  attempts : Nat → AttachmentBlob → Attempt

/-- The sweep with a number. -/
def DrainInputs.sweep (inputs : DrainInputs) (number : Nat) :
    ArchiveTables → Except Raised (ArchiveTables × List AttachmentBlob) :=
  runExtractWorkerOnce inputs.lowering inputs.errors inputs.cfg
    (inputs.locked number) (inputs.attempts number)

/-- After a number of sweeps the loop goes on, with these tables. -/
inductive DrainReaches (inputs : DrainInputs) (start : ArchiveTables) :
    Nat → ArchiveTables → Prop
  | start : DrainReaches inputs start 0 start
  | next {number : Nat} {tables after : ArchiveTables}
      {touched : List AttachmentBlob}
      (before : DrainReaches inputs start number tables)
      (swept : inputs.sweep number tables = .ok (after, touched))
      (goesOn : touched ≠ []) :
      DrainReaches inputs start (number + 1) after

/-- The blob has gained a row, or its retry count was raised. -/
def Charged (before after : ArchiveTables) (sha256 : Bytes) : Prop :=
  (before.texts sha256 = none ∧ after.texts sha256 ≠ none) ∨
    ∃ row, after.failed sha256 = some row ∧
      match before.failed sha256 with
      | none => 0 < row.retryCount
      | some old => old.retryCount < row.retryCount

/-- The loop ends, and whatever it counts it has charged. -/
structure DrainSettles (inputs : DrainInputs) (start : ArchiveTables) :
    Prop where
  ends : ∃ number tables after, DrainReaches inputs start number tables ∧
    inputs.sweep number tables = .ok (after, [])
  charged : ∀ number tables after touched,
    DrainReaches inputs start number tables →
    inputs.sweep number tables = .ok (after, touched) →
    ∀ blob ∈ touched, Charged tables after blob.sha256

/-! ### Failures that are planned for -/

/-- What `_process_blob` means to record of an attempt. -/
inductive PlannedFailure (pdf : Bool) (attempt : Attempt) : Raised → Prop
  | docling {raised : Raised} (isPdf : pdf = true)
      (installed : attempt.doclingInstall = .installed)
      (nothing : ∀ found, attempt.lightweight = .ok found → found.text = [])
      (raises : attempt.docling = .error raised)
      (lasting : raised.transient = false) : PlannedFailure pdf attempt raised
  | lightweight {raised : Raised}
      (raises : attempt.lightweight = .error raised)
      (lasting : raised.transient = false)
      (unaided : pdf = false ∨ attempt.doclingInstall = .missing ∨
        attempt.doclingInstall = .installed ∧
          ∃ found, attempt.docling = .ok found ∧ found.text = []) :
      PlannedFailure pdf attempt raised

/-- A failure that a `failed_extractions` row can take. -/
def Recordable (tables : ArchiveTables) (sha256 : Bytes) (raised : Raised) :
    Prop :=
  raised.Storable ∧ nextRetryCount tables sha256 ≤ int4Max

/-- Every planned failure of a sweep can be recorded. -/
def RecordsPlanned (inputs : DrainInputs) (number : Nat)
    (tables : ArchiveTables) : Prop :=
  inputs.cfg.runExtractWorker = true →
  ∀ row ∈ claimBatch inputs.cfg tables (inputs.locked number),
    admits inputs.lowering inputs.cfg tables.messages row.blob = true →
    row.blob.sizeBytes ≤ inputs.cfg.maxBlobBytes →
    ∀ raised, PlannedFailure
      (isPdf inputs.lowering row.blob.mimeType
        (dispatchName inputs.lowering inputs.cfg tables.messages row.blob
          (inputs.attempts number row.blob)))
      (inputs.attempts number row.blob) raised →
    Recordable tables row.blob.sha256 raised

end Extract

end Localmail
