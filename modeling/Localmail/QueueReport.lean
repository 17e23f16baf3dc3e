/-
The report of the extraction queue against the gate of the worker.  The join,
the duplicate names and the `NULL`s of the outer joins lose nothing; what is
left between the two is how each folds letters.
-/
import Localmail.AsciiText
import Localmail.ExtractQueue

namespace Localmail

namespace Extract

open AttachmentKind

/-! ### What each side admits -/

section Admission

variable (lowering : Lowering) (cfg : ExtractConfig) (tables : ArchiveTables)

/-- Some type or extension of the blob, in the given lower case, is among the
allowed ones. -/
def AdmittedBy (lower : Text → Text) (blob : AttachmentBlob) : Prop :=
  (∃ mimeType, blob.mimeType = some mimeType ∧
    lower mimeType ∈ cfg.mimeAllowlist.map lowering.lower) ∨
  ∃ name ∈ blobFilenames tables.messages blob.sha256, nameSuffix name ≠ [] ∧
    lower (nameSuffix name) ∈ cfg.extensionAllowlist.map lowering.lower

/-- The two lower cases find the same blobs. -/
def FoldAlike (sqlLower : Text → Text) : Prop :=
  ∀ blob ∈ tables.blobs, AdmittedBy lowering cfg tables lowering.lower blob ↔
    AdmittedBy lowering cfg tables sqlLower blob

/-- The texts of a blob that the two fold: its type, and the suffixes of its
stored names. -/
def Spelling (blob : AttachmentBlob) (spelling : Text) : Prop :=
  blob.mimeType = some spelling ∨
    ∃ name ∈ blobFilenames tables.messages blob.sha256,
      nameSuffix name = spelling

/-- No entry of an allowlist is empty. -/
def ExtractConfig.NonEmptyEntries : Prop :=
  [] ∉ cfg.mimeAllowlist ∧ [] ∉ cfg.extensionAllowlist

/-- The report counts what the worker admits. -/
structure ReportAgrees (sqlLower : Text → Text) : Prop where
  eligible : ∀ blob ∈ tables.blobs,
    (eligibleRows lowering sqlLower cfg tables).countP
        (fun row => row.blob = blob) =
      if admits lowering cfg tables.messages blob then 1 else 0
  buckets : ∀ blob ∈ tables.blobs,
    admits lowering cfg tables.messages blob = true →
    ∃ own, ∀ bucket, (bucketRows lowering sqlLower cfg tables bucket).countP
      (fun row => row.blob = blob) = if bucket = own then 1 else 0
  outside : ∀ blob, admits lowering cfg tables.messages blob = false →
    ∀ bucket, ∀ row ∈ bucketRows lowering sqlLower cfg tables bucket,
      row.blob ≠ blob
  pending : ∀ blob,
    (∃ row ∈ bucketRows lowering sqlLower cfg tables .pending,
      row.blob = blob) ↔
    admits lowering cfg tables.messages blob = true ∧
      ∃ batchSize locked,
        ∃ row ∈ claimBatch { cfg with batchSize := batchSize } tables locked,
          row.blob = blob
  counts : ∃ counts, fetchQueueCounts lowering sqlLower cfg tables = some counts ∧
    counts.eligible = tables.blobs.countP (admits lowering cfg tables.messages) ∧
    ∀ bucket, counts.buckets bucket =
      (bucketRows lowering sqlLower cfg tables bucket).length

variable {lowering cfg tables} {sqlLower : Text → Text}

theorem foldAlike_of_spellings (hsame : ∀ blob ∈ tables.blobs, ∀ spelling,
    Spelling tables blob spelling →
      lowering.lower spelling = sqlLower spelling) :
    FoldAlike lowering cfg tables sqlLower := by
  intro blob hblob
  have hfold := hsame blob hblob
  refine or_congr (exists_congr fun mimeType => and_congr_right fun htype => ?_)
    (exists_congr fun name => and_congr_right fun hname => ?_)
  · rw [hfold mimeType (.inl htype)]
  · rw [hfold (nameSuffix name) (.inr ⟨name, hname, rfl⟩)]

/-- Whatever else the two fold, they agree where every spelling is ASCII. -/
theorem foldAlike_of_ascii
    (hlower : ∀ value : Text, value.all CodePoint.isAscii = true →
      lowering.lower value = lowerAscii value)
    (hsql : ∀ value : Text, value.all CodePoint.isAscii = true →
      sqlLower value = lowerAscii value)
    (hascii : ∀ blob ∈ tables.blobs, ∀ spelling, Spelling tables blob spelling →
      spelling.all CodePoint.isAscii = true) :
    FoldAlike lowering cfg tables sqlLower := by
  apply foldAlike_of_spellings
  intro blob hblob spelling hspelling
  have hplain := hascii blob hblob spelling hspelling
  rw [hlower spelling hplain, hsql spelling hplain]

theorem lower_eq_nil_iff {value : Text} :
    lowering.lower value = [] ↔ value = [] := by
  constructor
  · intro hlower
    by_contra hvalue
    exact lowering.lower_ne_nil hvalue hlower
  · rintro rfl
    have hpieces := lowering.length_pieces []
    rw [List.length_nil, List.length_eq_zero_iff] at hpieces
    rw [Lowering.lower, hpieces, List.flatten_nil]

theorem mem_blobFilenames {messages : List AttachmentsJson} {sha256 : Bytes}
    {name : Text} :
    name ∈ blobFilenames messages sha256 ↔
      ∃ elements, .array elements ∈ messages ∧
        ∃ element ∈ elements, element.sha256 = some (hex sha256) ∧
          ∃ stored, element.filename = some stored ∧ stored.val = name := by
  unfold blobFilenames
  rw [List.mem_dedup, List.mem_flatMap]
  constructor
  · rintro ⟨attachments, hmem, hname⟩
    cases attachments with
    | other => cases hname
    | array elements =>
        dsimp only at hname
        split at hname
        · obtain ⟨element, helement, hfound⟩ := List.mem_filterMap.mp hname
          rw [Option.ite_none_right_eq_some, Option.map_eq_some_iff] at hfound
          exact ⟨elements, hmem, element, helement, hfound⟩
        · cases hname
  · rintro ⟨elements, hmem, element, helement, hsha, stored, hstored, hname⟩
    refine ⟨_, hmem, ?_⟩
    dsimp only
    rw [if_pos, List.mem_filterMap]
    · exact ⟨element, helement, by rw [if_pos hsha, hstored, Option.map_some, hname]⟩
    · exact List.any_eq_true.mpr ⟨element, helement, by simp [hsha]⟩

theorem extensionOf_stored (stored : StoredName) :
    extensionOf lowering (some stored.val) =
      lowering.lower (nameSuffix stored.val) := by
  obtain ⟨name, raw, rfl⟩ := stored
  unfold extensionOf
  split
  · contradiction
  · rename_i hempty
    exact absurd (Option.some.inj hempty) (sanitizeFilename_ne_nil raw)
  · rename_i name hname
    rw [← Option.some.inj hname, pathName_sanitizeFilename]

theorem lower_mem_map {value : Text} {entries : List Text}
    (hentries : [] ∉ entries)
    (hmem : lowering.lower value ∈ entries.map lowering.lower) : value ≠ [] := by
  rintro rfl
  obtain ⟨entry, hentry, hlower⟩ := List.mem_map.mp hmem
  rw [lower_eq_nil_iff.mpr rfl, lower_eq_nil_iff] at hlower
  exact hentries (hlower ▸ hentry)

/-- The gate, in terms of the suffixes. -/
theorem admits_iff (hentries : cfg.NonEmptyEntries) (blob : AttachmentBlob) :
    admits lowering cfg tables.messages blob = true ↔
      AdmittedBy lowering cfg tables lowering.lower blob := by
  rw [admits, isAllowlisted, Bool.or_eq_true, decide_eq_true_eq,
    List.any_eq_true]
  apply or_congr
  · constructor
    · intro hmem
      cases hmime : blob.mimeType with
      | none =>
          rw [hmime] at hmem
          exact absurd rfl (lower_mem_map hentries.1 hmem)
      | some mimeType =>
          rw [hmime] at hmem
          exact ⟨mimeType, rfl, hmem⟩
    · rintro ⟨mimeType, hmime, hmem⟩
      rw [hmime]
      exact hmem
  · apply exists_congr
    intro name
    rw [decide_eq_true_eq]
    apply and_congr_right
    intro hname
    obtain ⟨-, -, -, -, -, stored, -, rfl⟩ := mem_blobFilenames.mp hname
    rw [extensionOf_stored]
    exact ⟨fun hmem => ⟨lower_mem_map hentries.2 hmem, hmem⟩, fun hmem => hmem.2⟩

theorem mem_extensionMatches {sha256 : Option Text} :
    sha256 ∈ extensionMatches lowering sqlLower cfg tables ↔
      ∃ elements, .array elements ∈ tables.messages ∧
        ∃ element ∈ elements, element.sha256 = sha256 ∧
          ∃ stored, element.filename = some stored ∧
            nameSuffix stored.val ≠ [] ∧
            sqlLower (nameSuffix stored.val) ∈
              cfg.extensionAllowlist.map lowering.lower := by
  unfold extensionMatches
  rw [List.mem_dedup, List.mem_flatMap]
  constructor
  · rintro ⟨attachments, hmem, hfound⟩
    cases attachments with
    | other => cases hfound
    | array elements =>
        obtain ⟨element, helement, hsha⟩ := List.mem_map.mp hfound
        rw [List.mem_filter, decide_eq_true_eq, sqlAny_eq_true_iff] at helement
        obtain ⟨helement, extension, hextension, hallowed⟩ := helement
        obtain ⟨stored, hstored, hlower⟩ := Option.bind_eq_some_iff.mp hextension
        rw [substringExtension_eq, Option.map_eq_some_iff] at hlower
        obtain ⟨suffix, hsuffix, rfl⟩ := hlower
        rw [Option.ite_none_left_eq_some, Option.some.injEq] at hsuffix
        obtain ⟨hsuffix, rfl⟩ := hsuffix
        exact ⟨elements, hmem, element, helement, hsha, stored, hstored, hsuffix,
          hallowed⟩
  · rintro ⟨elements, hmem, element, helement, hsha, stored, hstored, hsuffix,
      hallowed⟩
    refine ⟨_, hmem, List.mem_map.mpr ⟨element, ?_, hsha⟩⟩
    rw [List.mem_filter, decide_eq_true_eq, sqlAny_eq_true_iff]
    refine ⟨helement, _, ?_, hallowed⟩
    rw [hstored, Option.bind_some, substringExtension_eq, if_neg hsuffix]
    rfl

end Admission

/-! ### What the report counts -/

section Rows

variable {lowering : Lowering} {cfg : ExtractConfig} {tables : ArchiveTables}
  {sqlLower : Text → Text}

/-- The condition of the report on a blob. -/
def reported (lowering : Lowering) (sqlLower : Text → Text)
    (cfg : ExtractConfig) (tables : ArchiveTables) (blob : AttachmentBlob) :
    Bool :=
  allowlisted lowering sqlLower cfg (queueRow tables blob,
    (extensionMatches lowering sqlLower cfg tables).find? fun sha256Hex =>
      sha256Hex = some (hex blob.sha256)) = some true

theorem reported_iff (blob : AttachmentBlob) :
    reported lowering sqlLower cfg tables blob = true ↔
      AdmittedBy lowering cfg tables sqlLower blob := by
  have hjoined : ((extensionMatches lowering sqlLower cfg tables).find?
      fun sha256Hex => sha256Hex = some (hex blob.sha256)).join.isSome = true ↔
      some (hex blob.sha256) ∈
        extensionMatches lowering sqlLower cfg tables := by
    constructor
    · intro hsome
      obtain ⟨found, hfound⟩ := Option.isSome_iff_exists.mp hsome
      rw [Option.join_eq_some_iff] at hfound
      have hsame := List.find?_some hfound
      rw [decide_eq_true_eq] at hsame
      rw [← hsame]
      exact List.mem_of_find?_eq_some hfound
    · intro hmem
      have hsome : ((extensionMatches lowering sqlLower cfg tables).find?
          fun sha256Hex => sha256Hex = some (hex blob.sha256)).isSome = true := by
        rw [List.find?_isSome]
        exact ⟨_, hmem, by simp⟩
      obtain ⟨found, hfound⟩ := Option.isSome_iff_exists.mp hsome
      have hsame := List.find?_some hfound
      rw [decide_eq_true_eq] at hsame
      rw [hfound, hsame]
      rfl
  rw [reported, decide_eq_true_eq, allowlisted, sqlOr_eq_true_iff,
    sqlAny_eq_true_iff, Option.some.injEq, hjoined, mem_extensionMatches]
  apply or_congr
  · simp only [queueRow, Option.map_eq_some_iff]
    constructor
    · rintro ⟨-, ⟨mimeType, hmime, rfl⟩, hallowed⟩
      exact ⟨mimeType, hmime, hallowed⟩
    · rintro ⟨mimeType, hmime, hallowed⟩
      exact ⟨_, ⟨mimeType, hmime, rfl⟩, hallowed⟩
  · constructor
    · rintro ⟨elements, hmem, element, helement, hsha, stored, hstored, hsuffix,
        hallowed⟩
      exact ⟨stored.val, mem_blobFilenames.mpr
        ⟨elements, hmem, element, helement, hsha, stored, hstored, rfl⟩, hsuffix,
        hallowed⟩
    · rintro ⟨name, hname, hsuffix, hallowed⟩
      obtain ⟨elements, hmem, element, helement, hsha, stored, hstored, rfl⟩ :=
        mem_blobFilenames.mp hname
      exact ⟨elements, hmem, element, helement, hsha, stored, hstored, hsuffix,
        hallowed⟩

/-- The join gives each blob one row, whatever its names. -/
theorem eligibleRows_eq :
    eligibleRows lowering sqlLower cfg tables =
      (tables.blobs.filter (reported lowering sqlLower cfg tables)).map
        (queueRow tables) := by
  unfold eligibleRows
  rw [leftJoin_eq_map, queueFrom, List.map_map, List.filter_map, List.map_map]
  · rfl
  · intro row _
    apply length_filter_eq_le_one
    exact List.nodup_dedup _

/-- Each blob is counted once at most. -/
theorem countP_rows (chosen : AttachmentBlob → Bool) {blob : AttachmentBlob}
    (hblob : blob ∈ tables.blobs) :
    ((tables.blobs.filter chosen).map (queueRow tables)).countP
        (fun row => row.blob = blob) = if chosen blob then 1 else 0 := by
  have hdistinct : tables.blobs.Nodup := tables.distinct.of_map _
  rw [List.countP_map]
  refine (countP_eq_of_nodup (hdistinct.filter chosen) blob).trans ?_
  simp [List.mem_filter, hblob]

theorem bucketRows_eq (bucket : Bucket) :
    bucketRows lowering sqlLower cfg tables bucket =
      (tables.blobs.filter fun blob =>
        reported lowering sqlLower cfg tables blob &&
          decide (bucketOf cfg (queueRow tables blob) = bucket)).map
        (queueRow tables) := by
  unfold bucketRows
  rw [eligibleRows_eq, List.filter_map, List.filter_filter]
  congr 1
  apply List.filter_congr
  intro blob _
  simp only [Function.comp_apply, Bucket.holds_iff]
  rw [Bool.and_comm]

theorem mem_bucketRows {bucket : Bucket} {row : QueueRow} :
    row ∈ bucketRows lowering sqlLower cfg tables bucket ↔
      ∃ blob ∈ tables.blobs, reported lowering sqlLower cfg tables blob = true ∧
        bucketOf cfg (queueRow tables blob) = bucket ∧
        queueRow tables blob = row := by
  rw [bucketRows_eq, List.mem_map]
  simp only [List.mem_filter, Bool.and_eq_true, decide_eq_true_eq, and_assoc]

/-- What some claim hands out is what is pending. -/
theorem claimed_iff (blob : AttachmentBlob) :
    (∃ batchSize locked,
      ∃ row ∈ claimBatch { cfg with batchSize := batchSize } tables locked,
        row.blob = blob) ↔
      blob ∈ tables.blobs ∧
        bucketOf cfg (queueRow tables blob) = .pending := by
  have hpending : ∀ batchSize row,
      claimable { cfg with batchSize := batchSize } row = some true ↔
        bucketOf cfg row = .pending :=
    fun _ row => Bucket.holds_iff cfg row .pending
  constructor
  · rintro ⟨batchSize, locked, row, hrow, rfl⟩
    have hclaim := (List.mem_filter.mp (List.mem_of_mem_take hrow)).1
    rw [List.mem_mergeSort, List.mem_filter, decide_eq_true_eq, hpending]
      at hclaim
    obtain ⟨blob, hblob, rfl⟩ := List.mem_map.mp hclaim.1
    exact ⟨hblob, hclaim.2⟩
  · rintro ⟨hblob, hbucket⟩
    refine ⟨tables.blobs.length, fun _ => false, queueRow tables blob, ?_, rfl⟩
    unfold claimBatch
    rw [List.take_of_length_le, List.mem_filter, List.mem_mergeSort,
      List.mem_filter, decide_eq_true_eq, hpending]
    · exact ⟨⟨List.mem_map_of_mem hblob, hbucket⟩, rfl⟩
    · refine (List.length_filter_le _ _).trans ?_
      rw [List.length_mergeSort]
      exact (List.length_filter_le _ _).trans (Nat.le_of_eq (List.length_map _))

/-- The check of `QueueCounts` passes. -/
theorem fetchQueueCounts_eq :
    ∃ counts, fetchQueueCounts lowering sqlLower cfg tables = some counts ∧
      counts.eligible = (eligibleRows lowering sqlLower cfg tables).length ∧
      ∀ bucket, counts.buckets bucket =
        (bucketRows lowering sqlLower cfg tables bucket).length := by
  have hmisfiled : (eligibleRows lowering sqlLower cfg tables).countP
      (fun row => bucketTotal cfg row ≠ some 1) = 0 := by
    rw [List.countP_eq_zero]
    intro row _
    simp [bucketTotal_eq]
  unfold fetchQueueCounts
  rw [if_neg (by simpa using hmisfiled), if_neg (not_not.mpr
    (sum_countP_buckets cfg (eligibleRows lowering sqlLower cfg tables)))]
  refine ⟨_, rfl, rfl, ?_⟩
  intro bucket
  exact List.countP_eq_length_filter

end Rows

/-! ### Agreement -/

/-- For any tables, names, caps and allowlists: the report agrees with the
worker where the two lower cases do, and only there. -/
theorem queue_report_agrees_iff (lowering : Lowering) (sqlLower : Text → Text)
    (cfg : ExtractConfig) (tables : ArchiveTables)
    (hentries : cfg.NonEmptyEntries) :
    ReportAgrees lowering cfg tables sqlLower ↔
      FoldAlike lowering cfg tables sqlLower := by
  constructor
  · intro hagrees blob hblob
    have hcount := hagrees.eligible blob hblob
    rw [eligibleRows_eq, countP_rows _ hblob] at hcount
    rw [← admits_iff hentries, ← reported_iff]
    revert hcount
    cases admits lowering cfg tables.messages blob <;>
      cases reported lowering sqlLower cfg tables blob <;> simp
  · intro halike
    have hsame : ∀ blob ∈ tables.blobs,
        reported lowering sqlLower cfg tables blob =
          admits lowering cfg tables.messages blob := by
      intro blob hblob
      rw [Bool.eq_iff_iff, reported_iff, admits_iff hentries]
      exact (halike blob hblob).symm
    refine ⟨?_, ?_, ?_, ?_, ?_⟩
    · intro blob hblob
      rw [eligibleRows_eq, countP_rows _ hblob, hsame blob hblob]
    · intro blob hblob hadmits
      refine ⟨bucketOf cfg (queueRow tables blob), ?_⟩
      intro bucket
      rw [bucketRows_eq, countP_rows _ hblob, hsame blob hblob, hadmits]
      simp [eq_comm]
    · intro blob hrejects bucket row hrow hsameBlob
      obtain ⟨other, hother, hreported, -, rfl⟩ := mem_bucketRows.mp hrow
      rw [hsame other hother, show other = blob from hsameBlob, hrejects]
        at hreported
      cases hreported
    · intro blob
      rw [claimed_iff]
      constructor
      · rintro ⟨row, hrow, rfl⟩
        obtain ⟨blob, hblob, hreported, hbucket, rfl⟩ := mem_bucketRows.mp hrow
        rw [hsame blob hblob] at hreported
        exact ⟨hreported, hblob, hbucket⟩
      · rintro ⟨hadmits, hblob, hbucket⟩
        rw [← hsame blob hblob] at hadmits
        exact ⟨_, mem_bucketRows.mpr ⟨blob, hblob, hadmits, hbucket, rfl⟩, rfl⟩
    · obtain ⟨counts, hcounts, heligible, hbuckets⟩ :=
        @fetchQueueCounts_eq lowering cfg tables sqlLower
      refine ⟨counts, hcounts, ?_, hbuckets⟩
      rw [heligible, eligibleRows_eq, List.length_map,
        ← List.countP_eq_length_filter]
      exact List.countP_congr fun blob hblob => by rw [hsame blob hblob]

namespace DottedName

def cfg : ExtractConfig where
  runExtractWorker := true
  mimeAllowlist := [text "application/pdf", text "text/plain"]
  extensionAllowlist := [text ".pdf", text ".ics"]
  maxRetries := 3
  maxTransientRetries := 5
  batchSize := 20
  maxBlobBytes := 52428800

def blob : AttachmentBlob :=
  ⟨[0], text "blobs/00", some (text "application/octet-stream"), 9, 0⟩

/-- One blob that one message names. -/
def tables (raw : Text) : ArchiveTables where
  blobs := [blob]
  distinct := List.nodup_singleton _
  texts := fun _ => none
  failed := fun _ => none
  transients := fun _ => none
  messages := [.array [⟨some (text "00"), some ⟨sanitizeFilename raw, raw, rfl⟩⟩]]

/-- `lower` letter by letter, as the C library has it: `İ` becomes `i`. -/
def lowerEach (value : Text) : Text :=
  value.map fun char =>
    if char = .scalar 'İ' then .scalar 'i' else char.lowerAscii

theorem ne_dotted {value : Text} (hascii : value.all CodePoint.isAscii = true) :
    ∀ char ∈ value, char ≠ .scalar 'İ' := by
  rintro char hchar rfl
  exact absurd (List.all_eq_true.mp hascii _ hchar) (by decide)

theorem lowerEach_ascii {value : Text}
    (hascii : value.all CodePoint.isAscii = true) :
    lowerEach value = lowerAscii value :=
  List.map_congr_left fun char hchar => if_neg (ne_dotted hascii char hchar)

theorem dottedLowering_ascii {value : Text}
    (hascii : value.all CodePoint.isAscii = true) :
    dottedLowering.lower value = lowerAscii value := by
  have hpieces : dottedLowering.pieces value =
      value.map fun char => [char.lowerAscii] :=
    List.map_congr_left fun char hchar => if_neg (ne_dotted hascii char hchar)
  rw [Lowering.lower, hpieces, ← List.flatMap_def, lowerAscii,
    List.map_eq_flatMap]

theorem ascii_of_spelling {blob : AttachmentBlob} {spelling : Text}
    (hblob : blob ∈ (tables (text "day.ICS")).blobs)
    (hspelling : Spelling (tables (text "day.ICS")) blob spelling) :
    spelling.all CodePoint.isAscii = true := by
  obtain rfl := List.mem_singleton.mp hblob
  have hnames : blobFilenames (tables (text "day.ICS")).messages [0] =
      [text "day.ICS"] := by
    decide +kernel
  rcases hspelling with htype | ⟨name, hname, rfl⟩
  · obtain rfl := Option.some.inj htype
    decide
  · rw [show DottedName.blob.sha256 = [0] from rfl, hnames] at hname
    obtain rfl := List.mem_singleton.mp hname
    decide

end DottedName

open DottedName in
theorem queue_report_agrees_plain :
    ReportAgrees dottedLowering cfg (tables (text "day.ICS")) lowerEach := by
  apply (queue_report_agrees_iff dottedLowering lowerEach cfg
    (tables (text "day.ICS"))
    (by unfold ExtractConfig.NonEmptyEntries; decide)).mpr
  exact foldAlike_of_ascii (fun _ => dottedLowering_ascii)
    (fun _ => lowerEach_ascii) fun _ hblob _ => ascii_of_spelling hblob

open DottedName in
/-- The report counts a blob that the worker rejects. -/
theorem dotted_extension_is_reported :
    ¬ ∀ (lowering : Lowering) (sqlLower : Text → Text) (cfg : ExtractConfig)
      (tables : ArchiveTables), cfg.NonEmptyEntries →
        ReportAgrees lowering cfg tables sqlLower := by
  intro hclaim
  have hagrees := hclaim dottedLowering lowerEach cfg (tables (text "day.İCS"))
    (by unfold ExtractConfig.NonEmptyEntries; decide)
  have hcount := hagrees.eligible blob (List.mem_singleton_self _)
  have hrejects : admits dottedLowering cfg (tables (text "day.İCS")).messages
      blob = false := by
    decide +kernel
  have hcounted : (eligibleRows dottedLowering lowerEach cfg
      (tables (text "day.İCS"))).countP (fun row => row.blob = blob) = 1 := by
    decide +kernel
  rw [hrejects, hcounted] at hcount
  cases hcount

end Extract

end Localmail
