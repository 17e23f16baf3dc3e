/-
The queue of the extraction worker: the tables it is made of, what the worker
may claim, and the report that divides it into four buckets.
-/
import Localmail.AttachmentKind
import Localmail.OuterJoin
import Localmail.SubstringFilters

namespace Localmail

namespace Extract

open AttachmentKind

/-! ### The tables -/

structure AttachmentBlob where
  sha256 : Bytes
  path : Text
  mimeType : Option Text
  sizeBytes : Nat
  firstSeenAt : Int
deriving Repr, DecidableEq

/-- A row of `attachment_text`. -/
structure TextRow where
  extractor : Text
  extractedText : Text
  pageCount : Option Int
deriving Repr, DecidableEq

/-- A row of `failed_extractions`. -/
structure FailedRow where
  extractor : Text
  errorClass : Text
  errorMessage : Text
  traceback : Text
  retryCount : Int
deriving Repr, DecidableEq

/-- A row of `transient_extractions`. -/
structure TransientRow where
  errorClass : Text
  errorMessage : Text
  transientCount : Int
deriving Repr, DecidableEq

/-- A name as it is stored. -/
abbrev StoredName := { name : Text // ∃ raw, name = sanitizeFilename raw }

structure MessageAttachment where
  sha256 : Option Text
  filename : Option StoredName
deriving DecidableEq

/-- A value of `messages.attachments`. -/
inductive AttachmentsJson where
  | array (elements : List MessageAttachment)
  | other
deriving DecidableEq

structure ArchiveTables where
  blobs : List AttachmentBlob
  distinct : (blobs.map AttachmentBlob.sha256).Nodup
  texts : Bytes → Option TextRow
  failed : Bytes → Option FailedRow
  transients : Bytes → Option TransientRow
  messages : List AttachmentsJson

structure ExtractConfig where
  runExtractWorker : Bool
  mimeAllowlist : List Text
  extensionAllowlist : List Text
  maxRetries : Int
  maxTransientRetries : Int
  batchSize : Nat
  maxBlobBytes : Nat
deriving Repr, DecidableEq

def hexDigit (nibble : Nat) : CodePoint :=
  .scalar (Nat.digitChar nibble)

/-- `encode(sha256, 'hex')` and `bytes.hex`. -/
def hex (bytes : Bytes) : Text :=
  bytes.flatMap fun byte =>
    [hexDigit (byte.toNat / 16), hexDigit (byte.toNat % 16)]

/-! ### The gate of the worker -/

/-- `_blob_filenames`. -/
def blobFilenames (messages : List AttachmentsJson) (sha256 : Bytes) :
    List Text :=
  (messages.flatMap fun attachments =>
    match attachments with
    | .other => []
    | .array elements =>
        if elements.any fun element => element.sha256 = some (hex sha256) then
          elements.filterMap fun element =>
            if element.sha256 = some (hex sha256) then
              element.filename.map Subtype.val
            else none
        else []).dedup

/-- `_is_allowlisted` on a claimed blob. -/
def admits (lowering : Lowering) (cfg : ExtractConfig)
    (messages : List AttachmentsJson) (blob : AttachmentBlob) : Bool :=
  isAllowlisted lowering blob.mimeType (blobFilenames messages blob.sha256)
    cfg.mimeAllowlist cfg.extensionAllowlist

/-! ### `QUEUE_FROM_SQL` and the predicates on it -/

structure QueueRow where
  blob : AttachmentBlob
  text : Option TextRow
  failed : Option FailedRow
  transient : Option TransientRow
deriving Repr, DecidableEq

def queueRow (tables : ArchiveTables) (blob : AttachmentBlob) : QueueRow where
  blob := blob
  text := tables.texts blob.sha256
  failed := tables.failed blob.sha256
  transient := tables.transients blob.sha256

def queueFrom (tables : ArchiveTables) : List QueueRow :=
  tables.blobs.map (queueRow tables)

section Predicates

variable (cfg : ExtractConfig) (row : QueueRow)

def underRetryCaps : Option Bool :=
  sqlAnd
    (sqlOr (some row.failed.isNone)
      (row.failed.map fun found => found.retryCount < cfg.maxRetries))
    (sqlOr (some row.transient.isNone)
      (row.transient.map fun found =>
        found.transientCount < cfg.maxTransientRetries))

def claimable : Option Bool :=
  sqlAnd (some row.text.isNone) (underRetryCaps cfg row)

def gaveUp : Option Bool :=
  sqlAnd (some row.text.isNone) (sqlNot (underRetryCaps cfg row))

def extracted : Option Bool :=
  sqlAnd (some row.text.isSome)
    (row.text.map fun found => found.extractedText ≠ [])

def noText : Option Bool :=
  sqlAnd (some row.text.isSome)
    (row.text.map fun found => found.extractedText = [])

end Predicates

/-- `_claim_batch`, while other workers hold the `locked` blobs. -/
def claimBatch (cfg : ExtractConfig) (tables : ArchiveTables)
    (locked : AttachmentBlob → Bool) : List QueueRow :=
  ((((queueFrom tables).filter fun row => claimable cfg row = some true).mergeSort
    fun left right => left.blob.firstSeenAt ≤ right.blob.firstSeenAt).filter
      fun row => !locked row.blob).take cfg.batchSize

/-! ### The report -/

/-- The keys of `BUCKET_WHERE_SQL`. -/
inductive Bucket where
  | extracted
  | noText
  | gaveUp
  | pending
deriving Repr, DecidableEq

def Bucket.all : List Bucket := [.extracted, .noText, .gaveUp, .pending]

def Bucket.holds (cfg : ExtractConfig) (row : QueueRow) : Bucket → Option Bool
  | extracted => Extract.extracted row
  | noText => Extract.noText row
  | gaveUp => Extract.gaveUp cfg row
  | pending => claimable cfg row

section Report

variable (lowering : Lowering) (sqlLower : Text → Text) (cfg : ExtractConfig)
  (tables : ArchiveTables)

/-- The subquery `ext`. -/
def extensionMatches : List (Option Text) :=
  (tables.messages.flatMap fun attachments =>
    match attachments with
    | .other => []
    | .array elements =>
        (elements.filter fun element =>
          sqlAny (element.filename.bind fun name =>
              (substringExtension name.val).map sqlLower)
            (cfg.extensionAllowlist.map lowering.lower) = some true).map
          MessageAttachment.sha256).dedup

/-- `ALLOWLISTED_WHERE_SQL`, on a row and what `ext` joined to it. -/
def allowlisted (joined : QueueRow × Option (Option Text)) : Option Bool :=
  sqlOr (sqlAny (joined.1.blob.mimeType.map sqlLower)
      (cfg.mimeAllowlist.map lowering.lower))
    (some joined.2.join.isSome)

/-- The rows `QUEUE_COUNTS_SQL` aggregates. -/
def eligibleRows : List QueueRow :=
  ((leftJoin
      (fun row sha256Hex => sha256Hex = some (hex row.blob.sha256))
      (queueFrom tables)
      (extensionMatches lowering sqlLower cfg tables)).filter fun joined =>
    allowlisted lowering sqlLower cfg joined = some true).map Prod.fst

def bucketRows (bucket : Bucket) : List QueueRow :=
  (eligibleRows lowering sqlLower cfg tables).filter fun row =>
    bucket.holds cfg row = some true

structure QueueCounts where
  eligible : Nat
  buckets : Bucket → Nat
  claimable : Nat
  misfiled : Nat

/-- The predicates as integers, added; `NULL` if one of them is. -/
def bucketTotal (row : QueueRow) : Option Nat :=
  (Bucket.all.mapM fun bucket : Bucket => bucket.holds cfg row).map fun held =>
    (held.map Bool.toNat).sum

/-- `fetch_queue_counts`; `none` is `QueueCountsInconsistent`. -/
def fetchQueueCounts : Option QueueCounts :=
  let rows := eligibleRows lowering sqlLower cfg tables
  let counts : QueueCounts :=
    { eligible := rows.length
      buckets := fun bucket =>
        rows.countP fun row => bucket.holds cfg row = some true
      claimable :=
        (queueFrom tables).countP fun row => claimable cfg row = some true
      misfiled := rows.countP fun row => bucketTotal cfg row ≠ some 1 }
  if counts.misfiled ≠ 0 then none
  else if (Bucket.all.map counts.buckets).sum ≠ counts.eligible then none
  else some counts

end Report

/-! ### Each row in its bucket -/

section Partition

variable (cfg : ExtractConfig) (row : QueueRow)

/-- Both budgets of a blob have room. -/
def UnderCaps : Prop :=
  (∀ found, row.failed = some found → found.retryCount < cfg.maxRetries) ∧
    ∀ found, row.transient = some found →
      found.transientCount < cfg.maxTransientRetries

instance : Decidable (UnderCaps cfg row) :=
  inferInstanceAs (Decidable (_ ∧ _))

/-- Where a blob stands. -/
def bucketOf : Bucket :=
  match row.text with
  | some found => if found.extractedText ≠ [] then .extracted else .noText
  | none => if UnderCaps cfg row then .pending else .gaveUp

/-- The condition is never `NULL`. -/
theorem underRetryCaps_eq :
    underRetryCaps cfg row = some (decide (UnderCaps cfg row)) := by
  have hside : ∀ {R : Type} (found : Option R) (under : R → Bool),
      sqlOr (some found.isNone) (found.map under) =
        some (decide (∀ row, found = some row → under row = true)) := by
    intro R found under
    cases found with
    | none => simp [sqlOr]
    | some row => cases hunder : under row <;> simp [sqlOr, hunder]
  rw [underRetryCaps, hside, hside, sqlAnd_some]
  simp only [decide_eq_true_eq]
  split
  · rename_i hfailed
    exact congrArg some (decide_eq_decide.mpr (and_iff_right hfailed).symm)
  · rename_i hfailed
    exact congrArg some (decide_eq_false fun hunder => hfailed hunder.1).symm

/-- A row is in its bucket and in no other. -/
theorem Bucket.holds_eq (bucket : Bucket) :
    bucket.holds cfg row = some (decide (bucketOf cfg row = bucket)) := by
  cases htext : row.text with
  | none =>
      by_cases hunder : UnderCaps cfg row
      · cases bucket <;>
          simp [Bucket.holds, Extract.extracted, Extract.noText, Extract.gaveUp,
            claimable, bucketOf, underRetryCaps_eq, sqlAnd_some, sqlNot, htext,
            hunder]
      · cases bucket <;>
          simp [Bucket.holds, Extract.extracted, Extract.noText, Extract.gaveUp,
            claimable, bucketOf, underRetryCaps_eq, sqlAnd_some, sqlNot, htext,
            hunder]
  | some found =>
      by_cases hempty : found.extractedText = []
      · cases bucket <;>
          simp [Bucket.holds, Extract.extracted, Extract.noText, Extract.gaveUp,
            claimable, bucketOf, sqlAnd_some, htext, hempty]
      · cases bucket <;>
          simp [Bucket.holds, Extract.extracted, Extract.noText, Extract.gaveUp,
            claimable, bucketOf, sqlAnd_some, htext, hempty]

theorem Bucket.holds_iff (bucket : Bucket) :
    bucket.holds cfg row = some true ↔ bucketOf cfg row = bucket := by
  rw [Bucket.holds_eq, Option.some.injEq, decide_eq_true_eq]

theorem bucketTotal_eq : bucketTotal cfg row = some 1 := by
  unfold bucketTotal Bucket.all
  simp only [List.mapM_cons, List.mapM_nil, Bucket.holds_eq]
  cases bucketOf cfg row <;> rfl

end Partition

/-- Every row is counted once among the buckets. -/
theorem sum_countP_buckets (cfg : ExtractConfig) (rows : List QueueRow) :
    (Bucket.all.map fun bucket =>
      rows.countP fun row => bucket.holds cfg row = some true).sum =
      rows.length := by
  simp only [Bucket.holds_iff, Bucket.all, List.map_cons, List.map_nil,
    List.sum_cons, List.sum_nil]
  induction rows with
  | nil => rfl
  | cons row rest ih =>
      simp only [List.countP_cons, List.length_cons]
      cases bucketOf cfg row <;> simp <;> omega

end Extract

end Localmail
