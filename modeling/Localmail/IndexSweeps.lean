/-
The two chunking passes of `search/embed_worker.py`, iterated.  A pass claims
the first rows without chunks in a fixed order and skips those that raise; a
message that raised often enough is claimed no more, an attachment always is.
A claim that fetches a date `psycopg` cannot load fails, and the sweep with it.
-/
import Mathlib.Logic.Function.Iterate
import Localmail.TextChunks

namespace Localmail

/-- A row of `messages` as it is stored; `dateSent` is an instant. -/
structure MessageRecord where
  id : Nat
  subject : Option Text
  fromAddr : Option Text
  fromName : Option Text
  toAddrs : Option (List Text)
  dateSent : Option Int
  bodyText : Option Text
deriving Repr, DecidableEq

/-- The row as it is fetched, given how `psycopg` loads a `timestamptz` and
prints it; `none` is the `DataError` of an instant outside its range. -/
def MessageRecord.load (loadDate : Int → Option Text) (row : MessageRecord) :
    Option MessageText :=
  (row.dateSent.mapM loadDate).map fun date =>
    { id := row.id
      subject := row.subject
      fromAddr := row.fromAddr
      fromName := row.fromName
      toAddrs := row.toAddrs
      dateSent := date
      bodyText := row.bodyText }

structure AttachmentText where
  sha256 : Nat
  extractedText : Text
deriving Repr, DecidableEq

/-- The tables the two passes read and write.  A chunk row is its owner's key
with the chunk; a `failed_chunkings` row is the message's id with its count of
retries. -/
structure IndexDb where
  messages : List MessageRecord
  attachments : List AttachmentText
  messageChunks : List (Nat × ChunkSpec)
  failedChunkings : List (Nat × Nat)
  attachmentChunks : List (Nat × ChunkSpec)
deriving Repr, DecidableEq

/-- `INSERT … ON CONFLICT (owner, kind, chunk_idx) DO NOTHING`. -/
def insertChunk (owner : Nat) (rows : List (Nat × ChunkSpec))
    (spec : ChunkSpec) : List (Nat × ChunkSpec) :=
  if rows.any fun row => row.1 = owner ∧ row.2.kind = spec.kind ∧
      row.2.chunkIdx = spec.chunkIdx then rows
  else rows ++ [(owner, spec)]

def insertChunks (owner : Nat) (rows : List (Nat × ChunkSpec))
    (specs : List ChunkSpec) : List (Nat × ChunkSpec) :=
  specs.foldl (insertChunk owner) rows

/-- Some chunk row has this owner. -/
def chunked (rows : List (Nat × ChunkSpec)) (owner : Nat) : Bool :=
  rows.any fun row => row.1 = owner

/-- `record_failed_chunking`. -/
def recordFailedChunking (db : IndexDb) (messageId : Nat) : IndexDb :=
  if db.failedChunkings.any fun row => row.1 = messageId then
    { db with
      failedChunkings := db.failedChunkings.map fun row =>
        if row.1 = messageId then (row.1, row.2 + 1) else row }
  else { db with failedChunkings := db.failedChunkings ++ [(messageId, 0)] }

/-- The batch of both passes. -/
def ChunkingConfig.chunkBatch (cfg : ChunkingConfig) : Int :=
  max cfg.embedWorkerBatchSize cfg.embedWorkerChunkBatchSize

def messageClaimable (cfg : ChunkingConfig) (db : IndexDb)
    (message : MessageRecord) : Bool :=
  !chunked db.messageChunks message.id &&
    !db.failedChunkings.any fun row => row.1 = message.id ∧
      cfg.embedWorkerMaxChunkRetries ≤ row.2

/-- The rows a pass claims; a `LIMIT` below zero is an error, and claims
nothing either. -/
def claimedRows (cfg : ChunkingConfig) (db : IndexDb) : List MessageRecord :=
  orderLimit (fun row later => row.id ≤ later.id) cfg.chunkBatch.toNat
    (db.messages.filter (messageClaimable cfg db))

/-- The claimed messages as `fetchall` returns them; one row that does not load
fails the claim, before any savepoint. -/
def claimMessages (loadDate : Int → Option Text) (cfg : ChunkingConfig)
    (db : IndexDb) : Option (List MessageText) :=
  (claimedRows cfg db).mapM (MessageRecord.load loadDate)

def attachmentClaimable (db : IndexDb) (row : AttachmentText) : Bool :=
  row.extractedText ≠ [] && !chunked db.attachmentChunks row.sha256

def claimAttachments (cfg : ChunkingConfig) (db : IndexDb) :
    List AttachmentText :=
  orderLimit (fun row later => row.sha256 ≤ later.sha256) cfg.chunkBatch.toNat
    (db.attachments.filter (attachmentClaimable db))

/-- The heal to the empty sentinel. -/
def healAttachment (db : IndexDb) (sha256 : Nat) : IndexDb :=
  { db with
    attachments := db.attachments.map fun row =>
      if row.sha256 = sha256 then { row with extractedText := [] } else row }

section Passes

variable (loadDate : Int → Option Text) (enc : Encoding)
  (stripQuotedReplies stripSignature : Text → Text) (cfg : ChunkingConfig)

def chunkOneMessage (db : IndexDb) (message : MessageText) : IndexDb :=
  match chunkMessage enc stripQuotedReplies stripSignature cfg message with
  | .ok specs =>
      { db with
        messageChunks := insertChunks message.id db.messageChunks specs }
  | .error _ => recordFailedChunking db message.id

def chunkMessagesLazily (db : IndexDb) : Option IndexDb :=
  (claimMessages loadDate cfg db).map fun messages =>
    messages.foldl (chunkOneMessage enc stripQuotedReplies stripSignature cfg) db

/-- A blob that raises is logged and skipped. -/
def chunkOneAttachment (db : IndexDb) (row : AttachmentText) : IndexDb :=
  match chunkAttachmentText enc cfg row.extractedText with
  | .error _ => db
  | .ok specs =>
      if specs = [] ∧ isBlank row.extractedText then
        healAttachment db row.sha256
      else
        { db with
          attachmentChunks := insertChunks row.sha256 db.attachmentChunks specs }

def chunkAttachmentsLazily (db : IndexDb) : IndexDb :=
  (claimAttachments cfg db).foldl (chunkOneAttachment enc cfg) db

/-- The chunking half of `run_embed_worker_once`; when the claim of the messages
raises, the attachments are not come to. -/
def sweep (db : IndexDb) : IndexDb :=
  match chunkMessagesLazily loadDate enc stripQuotedReplies stripSignature cfg
      db with
  | none => db
  | some next => chunkAttachmentsLazily enc cfg next

end Passes

/-- What is to be indexed: messages and extracted texts, keyed. -/
structure TextArchive where
  messages : List MessageRecord
  attachments : List AttachmentText
  ids : (messages.map MessageRecord.id).Nodup
  digests : (attachments.map AttachmentText.sha256).Nodup

/-- Nothing is chunked yet. -/
def TextArchive.start (archive : TextArchive) : IndexDb :=
  ⟨archive.messages, archive.attachments, [], [], []⟩

/-- Every message has its header chunk, and every text that is not blank all
its chunks. -/
def Indexed (enc : Encoding) (cfg : ChunkingConfig) (archive : TextArchive)
    (db : IndexDb) : Prop :=
  (∀ message ∈ archive.messages, ∃ spec,
    (message.id, spec) ∈ db.messageChunks ∧ spec.kind = .header) ∧
  ∀ row ∈ archive.attachments, isBlank row.extractedText = false →
    ∃ specs, chunkAttachmentText enc cfg row.extractedText = .ok specs ∧
      specs ≠ [] ∧ ∀ spec ∈ specs, (row.sha256, spec) ∈ db.attachmentChunks

/-! ### Chunk rows -/

section Rows

variable {owner : Nat} {rows : List (Nat × ChunkSpec)}

theorem chunked_iff {rows : List (Nat × ChunkSpec)} {owner : Nat} :
    chunked rows owner = true ↔ ∃ spec, (owner, spec) ∈ rows := by
  simp only [chunked, List.any_eq_true, decide_eq_true_eq]
  constructor
  · rintro ⟨⟨_, spec⟩, hrow, rfl⟩
    exact ⟨spec, hrow⟩
  · rintro ⟨spec, hrow⟩
    exact ⟨_, hrow, rfl⟩

theorem insertChunks_cons (owner : Nat) (rows : List (Nat × ChunkSpec))
    (spec : ChunkSpec) (rest : List ChunkSpec) :
    insertChunks owner rows (spec :: rest) =
      insertChunks owner (insertChunk owner rows spec) rest :=
  rfl

theorem mem_insertChunk_of_mem {row : Nat × ChunkSpec} {spec : ChunkSpec}
    (hrow : row ∈ rows) : row ∈ insertChunk owner rows spec := by
  unfold insertChunk
  split
  · exact hrow
  · exact List.mem_append_left _ hrow

theorem mem_insertChunks_of_mem {row : Nat × ChunkSpec} {specs : List ChunkSpec}
    (hrow : row ∈ rows) : row ∈ insertChunks owner rows specs := by
  induction specs generalizing rows with
  | nil => exact hrow
  | cons spec rest ih => exact ih (mem_insertChunk_of_mem hrow)

theorem mem_insertChunk {row : Nat × ChunkSpec} {spec : ChunkSpec}
    (hrow : row ∈ insertChunk owner rows spec) :
    row ∈ rows ∨ row = (owner, spec) := by
  unfold insertChunk at hrow
  split at hrow
  · exact .inl hrow
  · exact (List.mem_append.mp hrow).imp_right List.mem_singleton.mp

theorem mem_insertChunks {row : Nat × ChunkSpec} {specs : List ChunkSpec}
    (hrow : row ∈ insertChunks owner rows specs) :
    row ∈ rows ∨ row.1 = owner ∧ row.2 ∈ specs := by
  induction specs generalizing rows with
  | nil => exact .inl hrow
  | cons spec rest ih =>
      rcases ih hrow with hmem | ⟨howner, hspec⟩
      · rcases mem_insertChunk hmem with hold | rfl
        · exact .inl hold
        · exact .inr ⟨rfl, List.mem_cons_self⟩
      · exact .inr ⟨howner, List.mem_cons_of_mem _ hspec⟩

/-- The chunk inserted first is there, or one of its kind was. -/
theorem exists_kind_insertChunks (owner : Nat)
    (rows : List (Nat × ChunkSpec)) (spec : ChunkSpec) (rest : List ChunkSpec) :
    ∃ kept, (owner, kept) ∈ insertChunks owner rows (spec :: rest) ∧
      kept.kind = spec.kind := by
  have hfirst : ∃ kept, (owner, kept) ∈ insertChunk owner rows spec ∧
      kept.kind = spec.kind := by
    unfold insertChunk
    split
    · rename_i hany
      obtain ⟨⟨_, kept⟩, hmem, hkey⟩ := List.any_eq_true.mp hany
      simp only [decide_eq_true_eq] at hkey
      obtain ⟨rfl, hkind, -⟩ := hkey
      exact ⟨kept, hmem, hkind⟩
    · exact ⟨spec, List.mem_append_right _ (List.mem_singleton.mpr rfl), rfl⟩
  obtain ⟨kept, hmem, hkind⟩ := hfirst
  rw [insertChunks_cons]
  exact ⟨kept, mem_insertChunks_of_mem hmem, hkind⟩

/-- With distinct indices and none of them taken, every chunk goes in. -/
theorem insertChunks_complete {specs : List ChunkSpec}
    (hsorted : specs.Pairwise fun spec later => spec.chunkIdx < later.chunkIdx)
    (hfree : ∀ spec ∈ specs, ∀ taken, (owner, taken) ∈ rows →
      taken.chunkIdx ≠ spec.chunkIdx) :
    ∀ spec ∈ specs, (owner, spec) ∈ insertChunks owner rows specs := by
  induction specs generalizing rows with
  | nil => exact nofun
  | cons head rest ih =>
      obtain ⟨hhead, hrest⟩ := List.pairwise_cons.mp hsorted
      have hput : insertChunk owner rows head = rows ++ [(owner, head)] := by
        unfold insertChunk
        rw [if_neg]
        intro hany
        obtain ⟨⟨_, taken⟩, hmem, hkey⟩ := List.any_eq_true.mp hany
        simp only [decide_eq_true_eq] at hkey
        obtain ⟨rfl, -, hidx⟩ := hkey
        exact hfree head List.mem_cons_self taken hmem hidx
      have hnext : ∀ spec ∈ rest, ∀ taken,
          (owner, taken) ∈ insertChunk owner rows head →
          taken.chunkIdx ≠ spec.chunkIdx := by
        intro spec hspec taken htaken
        rcases mem_insertChunk htaken with hold | hnew
        · exact hfree spec (List.mem_cons_of_mem _ hspec) taken hold
        · cases hnew
          exact Nat.ne_of_lt (hhead spec hspec)
      intro spec hspec
      rw [insertChunks_cons]
      rcases List.mem_cons.mp hspec with rfl | hlater
      · apply mem_insertChunks_of_mem
        rw [hput]
        exact List.mem_append_right _ (List.mem_singleton.mpr rfl)
      · exact ih hrest hnext spec hlater

end Rows

/-! ### What a pass keeps -/

section Sweeps

variable {loadDate : Int → Option Text} {enc : Encoding}
  {stripQuotedReplies stripSignature : Text → Text} {cfg : ChunkingConfig}
  {archive : TextArchive} {db : IndexDb}

/-- A stored message loads and can be chunked. -/
def MessageRecord.Chunks (loadDate : Int → Option Text) (enc : Encoding)
    (stripQuotedReplies stripSignature : Text → Text) (cfg : ChunkingConfig)
    (row : MessageRecord) : Prop :=
  ∃ message, row.load loadDate = some message ∧
    MessageChunks enc stripQuotedReplies stripSignature cfg message

/-- Chunk rows belong to rows of the archive that can be chunked, and a row that
has some has what it should; a text is as it was, or was blank. -/
structure IndexInv (loadDate : Int → Option Text) (enc : Encoding)
    (stripQuotedReplies stripSignature : Text → Text) (cfg : ChunkingConfig)
    (archive : TextArchive) (db : IndexDb) : Prop where
  messages : db.messages = archive.messages
  chunkOf : ∀ row ∈ archive.messages, chunked db.messageChunks row.id = true →
    row.Chunks loadDate enc stripQuotedReplies stripSignature cfg ∧
    ∃ spec, (row.id, spec) ∈ db.messageChunks ∧ spec.kind = .header
  texts : ∀ row ∈ archive.attachments, ∃ kept ∈ db.attachments,
    kept.sha256 = row.sha256 ∧
      (isBlank row.extractedText = false →
        kept.extractedText = row.extractedText)
  textOf : ∀ kept ∈ db.attachments, kept.extractedText ≠ [] →
    kept ∈ archive.attachments
  blobOf : ∀ row ∈ archive.attachments,
    chunked db.attachmentChunks row.sha256 = true →
    isBlank row.extractedText = false ∧
    ∃ specs, chunkAttachmentText enc cfg row.extractedText = .ok specs ∧
      specs ≠ [] ∧ ∀ spec ∈ specs, (row.sha256, spec) ∈ db.attachmentChunks

theorem TextArchive.start_inv (archive : TextArchive) :
    IndexInv loadDate enc stripQuotedReplies stripSignature cfg archive
      archive.start where
  messages := rfl
  chunkOf := nofun
  texts := fun row hrow => ⟨row, hrow, rfl, fun _ => rfl⟩
  textOf := fun _ hkept _ => hkept
  blobOf := nofun

theorem TextArchive.message_eq {row other : MessageRecord}
    (hrow : row ∈ archive.messages) (hother : other ∈ archive.messages)
    (hid : row.id = other.id) : row = other :=
  List.inj_on_of_nodup_map archive.ids hrow hother hid

theorem MessageRecord.load_id {row : MessageRecord} {message : MessageText}
    (hload : row.load loadDate = some message) : message.id = row.id := by
  obtain ⟨date, -, rfl⟩ := Option.map_eq_some_iff.mp hload
  rfl

/-- The message is some row of the archive, loaded. -/
def TextArchive.Loads (loadDate : Int → Option Text) (archive : TextArchive)
    (message : MessageText) : Prop :=
  ∃ row ∈ archive.messages, row.load loadDate = some message

/-- When every row can be chunked, a loaded message can. -/
theorem TextArchive.Loads.chunks {message : MessageText}
    (hloads : archive.Loads loadDate message)
    (hchunks : ∀ row ∈ archive.messages,
      row.Chunks loadDate enc stripQuotedReplies stripSignature cfg) :
    MessageChunks enc stripQuotedReplies stripSignature cfg message := by
  obtain ⟨row, hrow, hload⟩ := hloads
  obtain ⟨loaded, hloaded, hmessage⟩ := hchunks row hrow
  rw [hload] at hloaded
  cases hloaded
  exact hmessage

theorem TextArchive.attachment_eq {row other : AttachmentText}
    (hrow : row ∈ archive.attachments) (hother : other ∈ archive.attachments)
    (hsha : row.sha256 = other.sha256) : row = other :=
  List.inj_on_of_nodup_map archive.digests hrow hother hsha

theorem recordFailedChunking_rows (db : IndexDb) (messageId : Nat) :
    recordFailedChunking db messageId =
      { db with
        failedChunkings :=
          (recordFailedChunking db messageId).failedChunkings } := by
  unfold recordFailedChunking
  split <;> rfl

/-- What handling one message does. -/
structure MessageHandled (loadDate : Int → Option Text) (enc : Encoding)
    (stripQuotedReplies stripSignature : Text → Text) (cfg : ChunkingConfig)
    (archive : TextArchive) (message : MessageText) (db next : IndexDb) :
    Prop where
  inv : IndexInv loadDate enc stripQuotedReplies stripSignature cfg archive next
  grows : ∀ row ∈ db.messageChunks, row ∈ next.messageChunks
  attachments : next.attachments = db.attachments
  attachmentChunks : next.attachmentChunks = db.attachmentChunks
  handled : MessageChunks enc stripQuotedReplies stripSignature cfg message →
    chunked next.messageChunks message.id = true ∧
      next.failedChunkings = db.failedChunkings

theorem IndexInv.chunkOneMessage
    (hinv : IndexInv loadDate enc stripQuotedReplies stripSignature cfg archive
      db)
    {message : MessageText} (hloads : archive.Loads loadDate message) :
    MessageHandled loadDate enc stripQuotedReplies stripSignature cfg archive
      message db (Localmail.chunkOneMessage enc stripQuotedReplies stripSignature
        cfg db message) := by
  unfold Localmail.chunkOneMessage
  split
  · rename_i specs hspecs
    obtain ⟨header, rest, rfl, hkind⟩ := chunkMessage_header hspecs
    obtain ⟨kept, hkept, hkeptKind⟩ :=
      exists_kind_insertChunks message.id db.messageChunks header rest
    refine ⟨{ hinv with chunkOf := ?_ }, fun row hrow =>
      mem_insertChunks_of_mem hrow, rfl, rfl, fun _ =>
        ⟨chunked_iff.mpr ⟨kept, hkept⟩, rfl⟩⟩
    intro other hother hchunked
    by_cases hid : other.id = message.id
    · obtain ⟨row, hrow, hload⟩ := hloads
      rw [TextArchive.message_eq hother hrow
        (hid.trans (MessageRecord.load_id hload))]
      refine ⟨⟨message, hload, chunkMessage_ok_iff.mp ⟨_, hspecs⟩⟩, kept, ?_,
        hkeptKind.trans hkind⟩
      rwa [← MessageRecord.load_id hload]
    · obtain ⟨spec, hspec⟩ := chunked_iff.mp hchunked
      have hold : (other.id, spec) ∈ db.messageChunks :=
        (mem_insertChunks hspec).resolve_right fun h => hid h.1
      obtain ⟨hok, spec', hspec', hkind'⟩ :=
        hinv.chunkOf other hother (chunked_iff.mpr ⟨spec, hold⟩)
      exact ⟨hok, spec', mem_insertChunks_of_mem hspec', hkind'⟩
  · rename_i error herror
    have hrows := recordFailedChunking_rows db message.id
    refine ⟨?_, ?_, ?_, ?_, ?_⟩
    · rw [hrows]
      exact { hinv with }
    · intro row hrow
      rw [hrows]
      exact hrow
    · rw [hrows]
    · rw [hrows]
    · intro hchunks
      obtain ⟨specs, hspecs⟩ := chunkMessage_ok_iff.mpr hchunks
      rw [hspecs] at herror
      cases herror

theorem chunked_mono {rows next : List (Nat × ChunkSpec)}
    (hgrows : ∀ row ∈ rows, row ∈ next) {owner : Nat}
    (hchunked : chunked rows owner = true) : chunked next owner = true := by
  obtain ⟨spec, hspec⟩ := chunked_iff.mp hchunked
  exact chunked_iff.mpr ⟨spec, hgrows _ hspec⟩

/-- What handling a list of messages does. -/
structure MessagesHandled (loadDate : Int → Option Text) (enc : Encoding)
    (stripQuotedReplies stripSignature : Text → Text) (cfg : ChunkingConfig)
    (archive : TextArchive) (rows : List MessageText) (db next : IndexDb) :
    Prop where
  inv : IndexInv loadDate enc stripQuotedReplies stripSignature cfg archive next
  grows : ∀ row ∈ db.messageChunks, row ∈ next.messageChunks
  attachments : next.attachments = db.attachments
  attachmentChunks : next.attachmentChunks = db.attachmentChunks
  handled : (∀ row ∈ archive.messages,
      row.Chunks loadDate enc stripQuotedReplies stripSignature cfg) →
    next.failedChunkings = db.failedChunkings ∧
      ∀ message ∈ rows, chunked next.messageChunks message.id = true

theorem IndexInv.foldMessages {rows : List MessageText}
    (hrows : ∀ message ∈ rows, archive.Loads loadDate message)
    (hinv : IndexInv loadDate enc stripQuotedReplies stripSignature cfg archive
      db) :
    MessagesHandled loadDate enc stripQuotedReplies stripSignature cfg archive
      rows db (rows.foldl (Localmail.chunkOneMessage enc stripQuotedReplies
        stripSignature cfg) db) := by
  induction rows generalizing db with
  | nil => exact ⟨hinv, fun _ h => h, rfl, rfl, fun _ => ⟨rfl, nofun⟩⟩
  | cons head rest ih =>
      have hhead := hrows head List.mem_cons_self
      have hone := hinv.chunkOneMessage hhead
      have hrest :=
        ih (fun message h => hrows message (List.mem_cons_of_mem _ h)) hone.inv
      refine ⟨hrest.inv, fun row hrow => hrest.grows row (hone.grows row hrow),
        hrest.attachments.trans hone.attachments,
        hrest.attachmentChunks.trans hone.attachmentChunks, fun hchunks => ?_⟩
      obtain ⟨hfailed, hlater⟩ := hrest.handled hchunks
      obtain ⟨hchunked, hsame⟩ := hone.handled (hhead.chunks hchunks)
      refine ⟨hfailed.trans hsame, ?_⟩
      intro message hmessage
      rcases List.mem_cons.mp hmessage with rfl | hmem
      · exact chunked_mono hrest.grows hchunked
      · exact hlater message hmem

/-- The texts of `next` are those of `db`, some of them emptied. -/
def Emptied (db next : IndexDb) : Prop :=
  ∃ heal : AttachmentText → AttachmentText,
    next.attachments = db.attachments.map heal ∧
    ∀ row, (heal row).sha256 = row.sha256 ∧
      ((heal row).extractedText = row.extractedText ∨
        (heal row).extractedText = [])

theorem Emptied.refl (db : IndexDb) : Emptied db db :=
  ⟨id, (List.map_id _).symm, fun _ => ⟨rfl, .inl rfl⟩⟩

theorem Emptied.trans {second third : IndexDb} (hfirst : Emptied db second)
    (hsecond : Emptied second third) : Emptied db third := by
  obtain ⟨heal, hmap, hheal⟩ := hfirst
  obtain ⟨heal', hmap', hheal'⟩ := hsecond
  refine ⟨heal' ∘ heal, by rw [hmap', hmap, List.map_map], ?_⟩
  intro row
  obtain ⟨hsha, htext⟩ := hheal row
  obtain ⟨hsha', htext'⟩ := hheal' (heal row)
  refine ⟨hsha'.trans hsha, ?_⟩
  rcases htext' with hsame | hnil
  · rcases htext with hsame' | hnil'
    · exact .inl (hsame.trans hsame')
    · exact .inr (hsame.trans hnil')
  · exact .inr hnil

/-- The blob needs no further pass: it has chunks, or its text is empty. -/
def BlobDone (db : IndexDb) (sha256 : Nat) : Prop :=
  chunked db.attachmentChunks sha256 = true ∨
    ∀ kept ∈ db.attachments, kept.sha256 = sha256 → kept.extractedText = []

theorem BlobDone.mono {next : IndexDb} {sha256 : Nat}
    (hdone : BlobDone db sha256) (hemptied : Emptied db next)
    (hgrows : ∀ row ∈ db.attachmentChunks, row ∈ next.attachmentChunks) :
    BlobDone next sha256 := by
  rcases hdone with hchunked | hempty
  · exact .inl (chunked_mono hgrows hchunked)
  · right
    obtain ⟨heal, hmap, hheal⟩ := hemptied
    intro kept hkept hsha
    rw [hmap] at hkept
    obtain ⟨row, hrow, rfl⟩ := List.mem_map.mp hkept
    obtain ⟨hsame, htext⟩ := hheal row
    rcases htext with htext | hnil
    · rw [htext]
      exact hempty row hrow (hsame.symm.trans hsha)
    · exact hnil

/-- What handling a list of blobs does. -/
structure BlobsHandled (loadDate : Int → Option Text) (enc : Encoding)
    (stripQuotedReplies stripSignature : Text → Text) (cfg : ChunkingConfig)
    (archive : TextArchive) (rows : List AttachmentText) (db next : IndexDb) :
    Prop where
  inv : IndexInv loadDate enc stripQuotedReplies stripSignature cfg archive next
  messageChunks : next.messageChunks = db.messageChunks
  failedChunkings : next.failedChunkings = db.failedChunkings
  grows : ∀ row ∈ db.attachmentChunks, row ∈ next.attachmentChunks
  emptied : Emptied db next
  handled : (∀ row ∈ archive.attachments, isBlank row.extractedText = false →
      AttachmentChunks cfg row.extractedText) →
    ∀ row ∈ rows, BlobDone next row.sha256

theorem BlobsHandled.refl
    (hinv : IndexInv loadDate enc stripQuotedReplies stripSignature cfg archive
      db) :
    BlobsHandled loadDate enc stripQuotedReplies stripSignature cfg archive []
      db db :=
  ⟨hinv, rfl, rfl, fun _ h => h, .refl db, nofun⟩

/-- A text that was not blank is still there. -/
theorem IndexInv.heal
    (hinv : IndexInv loadDate enc stripQuotedReplies stripSignature cfg archive
      db)
    {row : AttachmentText} (hrow : row ∈ archive.attachments)
    (hblank : isBlank row.extractedText = true) :
    BlobsHandled loadDate enc stripQuotedReplies stripSignature cfg archive
      [row] db
      (healAttachment db row.sha256) := by
  refine ⟨{ hinv with texts := ?_, textOf := ?_ }, rfl, rfl, fun _ h => h,
    ⟨_, rfl, ?_⟩, fun _ other hother => .inr ?_⟩
  · intro other hother
    obtain ⟨kept, hkept, hsha, htext⟩ := hinv.texts other hother
    refine ⟨_, List.mem_map_of_mem hkept, ?_⟩
    by_cases hthis : kept.sha256 = row.sha256
    · rw [if_pos hthis]
      refine ⟨hsha, fun hsolid => ?_⟩
      rw [TextArchive.attachment_eq hother hrow (hsha.symm.trans hthis)] at hsolid
      rw [hblank] at hsolid
      cases hsolid
    · rw [if_neg hthis]
      exact ⟨hsha, htext⟩
  · intro kept hkept hne
    obtain ⟨old, hold, rfl⟩ := List.mem_map.mp hkept
    by_cases hthis : old.sha256 = row.sha256
    · rw [if_pos hthis] at hne
      exact absurd rfl hne
    · rw [if_neg hthis] at hne ⊢
      exact hinv.textOf old hold hne
  · intro other
    by_cases hthis : other.sha256 = row.sha256
    · rw [if_pos hthis]
      exact ⟨rfl, .inr rfl⟩
    · rw [if_neg hthis]
      exact ⟨rfl, .inl rfl⟩
  · rw [List.mem_singleton.mp hother]
    intro kept hkept hsha
    obtain ⟨old, -, rfl⟩ := List.mem_map.mp hkept
    by_cases hthis : old.sha256 = row.sha256
    · rw [if_pos hthis]
    · rw [if_neg hthis] at hsha
      exact absurd hsha hthis

theorem IndexInv.insertBlob
    (hinv : IndexInv loadDate enc stripQuotedReplies stripSignature cfg archive
      db)
    {row : AttachmentText} (hrow : row ∈ archive.attachments)
    {specs : List ChunkSpec}
    (hspecs : chunkAttachmentText enc cfg row.extractedText = .ok specs)
    (hsolid : isBlank row.extractedText = false) :
    BlobsHandled loadDate enc stripQuotedReplies stripSignature cfg archive
      [row] db
      { db with
        attachmentChunks :=
          insertChunks row.sha256 db.attachmentChunks specs } := by
  obtain ⟨hsome, -, hsorted⟩ := chunkAttachmentText_specs hspecs
  refine ⟨{ hinv with blobOf := ?_ }, rfl, rfl,
    fun _ h => mem_insertChunks_of_mem h, .refl _,
    fun _ other hother => .inl ?_⟩
  rotate_left
  · rw [List.mem_singleton.mp hother]
    obtain ⟨spec, rest, rfl⟩ := List.exists_cons_of_ne_nil (hsome hsolid)
    obtain ⟨kept, hkept, -⟩ :=
      exists_kind_insertChunks row.sha256 db.attachmentChunks spec rest
    exact chunked_iff.mpr ⟨kept, hkept⟩
  intro other hother hchunked
  by_cases hsha : other.sha256 = row.sha256
  · rw [TextArchive.attachment_eq hother hrow hsha]
    by_cases hbefore : chunked db.attachmentChunks row.sha256 = true
    · obtain ⟨-, specs', hspecs', hsome', hall⟩ := hinv.blobOf row hrow hbefore
      exact ⟨hsolid, specs', hspecs', hsome',
        fun spec hspec => mem_insertChunks_of_mem (hall spec hspec)⟩
    · refine ⟨hsolid, specs, hspecs, hsome hsolid,
        insertChunks_complete hsorted ?_⟩
      intro spec _ taken htaken
      exact absurd (chunked_iff.mpr ⟨taken, htaken⟩) hbefore
  · obtain ⟨spec, hspec⟩ := chunked_iff.mp hchunked
    have hold : (other.sha256, spec) ∈ db.attachmentChunks :=
      (mem_insertChunks hspec).resolve_right fun h => hsha h.1
    obtain ⟨hsolid', specs', hspecs', hsome', hall⟩ :=
      hinv.blobOf other hother (chunked_iff.mpr ⟨spec, hold⟩)
    exact ⟨hsolid', specs', hspecs', hsome',
      fun spec hspec => mem_insertChunks_of_mem (hall spec hspec)⟩

theorem IndexInv.chunkOneAttachment
    (hinv : IndexInv loadDate enc stripQuotedReplies stripSignature cfg archive
      db)
    {row : AttachmentText} (hrow : row ∈ archive.attachments) :
    BlobsHandled loadDate enc stripQuotedReplies stripSignature cfg archive
      [row] db
      (Localmail.chunkOneAttachment enc cfg db row) := by
  unfold Localmail.chunkOneAttachment
  split
  · rename_i error herror
    refine ⟨hinv, rfl, rfl, fun _ h => h, .refl db, fun hchunks => ?_⟩
    exfalso
    cases hblank : isBlank row.extractedText with
    | true =>
        have hnil := (normalizeWhitespace_eq_nil_iff _).mpr hblank
        rw [chunkAttachmentText, if_pos hnil] at herror
        cases herror
    | false =>
        obtain ⟨specs, hspecs⟩ :=
          (chunkAttachmentText_ok_iff hblank).mpr (hchunks row hrow hblank)
        rw [hspecs] at herror
        cases herror
  · rename_i specs hspecs
    obtain ⟨-, hnone, -⟩ := chunkAttachmentText_specs hspecs
    split
    · rename_i hheal
      exact hinv.heal hrow hheal.2
    · rename_i hkeep
      have hsolid : isBlank row.extractedText = false := by
        by_contra hblank
        simp only [Bool.not_eq_false] at hblank
        exact hkeep ⟨hnone hblank, hblank⟩
      exact hinv.insertBlob hrow hspecs hsolid

theorem IndexInv.foldAttachments {rows : List AttachmentText}
    (hrows : ∀ row ∈ rows, row ∈ archive.attachments)
    (hinv : IndexInv loadDate enc stripQuotedReplies stripSignature cfg archive
      db) :
    BlobsHandled loadDate enc stripQuotedReplies stripSignature cfg archive
      rows db
      (rows.foldl (Localmail.chunkOneAttachment enc cfg) db) := by
  induction rows generalizing db with
  | nil => exact .refl hinv
  | cons head rest ih =>
      have hhead := hrows head List.mem_cons_self
      have hone := hinv.chunkOneAttachment hhead
      have hrest :=
        ih (fun row h => hrows row (List.mem_cons_of_mem _ h)) hone.inv
      refine ⟨hrest.inv, hrest.messageChunks.trans hone.messageChunks,
        hrest.failedChunkings.trans hone.failedChunkings,
        fun row hrow => hrest.grows row (hone.grows row hrow),
        hone.emptied.trans hrest.emptied, fun hchunks row hrow => ?_⟩
      rcases List.mem_cons.mp hrow with rfl | hmem
      · have hdone := hone.handled hchunks row (List.mem_singleton.mpr rfl)
        exact hdone.mono hrest.emptied hrest.grows
      · exact hrest.handled hchunks row hmem

/-! ### A sweep -/

theorem IndexInv.mem_of_claimedRows
    (hinv : IndexInv loadDate enc stripQuotedReplies stripSignature cfg archive
      db)
    {row : MessageRecord} (hrow : row ∈ claimedRows cfg db) :
    row ∈ archive.messages := by
  have hmem := (List.mem_filter.mp (mem_of_mem_orderLimit hrow)).1
  rwa [hinv.messages] at hmem

theorem IndexInv.loads_of_claimMessages
    (hinv : IndexInv loadDate enc stripQuotedReplies stripSignature cfg archive
      db)
    {messages : List MessageText}
    (hclaim : claimMessages loadDate cfg db = some messages)
    {message : MessageText} (hmessage : message ∈ messages) :
    archive.Loads loadDate message := by
  obtain ⟨row, hrow, hload⟩ := exists_of_mem_mapM hclaim hmessage
  exact ⟨row, hinv.mem_of_claimedRows hrow, hload⟩

theorem IndexInv.mem_of_claimAttachments
    (hinv : IndexInv loadDate enc stripQuotedReplies stripSignature cfg archive
      db)
    {row : AttachmentText} (hrow : row ∈ claimAttachments cfg db) :
    row ∈ archive.attachments := by
  obtain ⟨hmem, hclaimable⟩ :=
    List.mem_filter.mp (mem_of_mem_orderLimit hrow)
  simp only [attachmentClaimable, ne_eq, Bool.and_eq_true,
    decide_eq_true_eq] at hclaimable
  exact hinv.textOf row hmem hclaimable.1

theorem IndexInv.messagePass
    (hinv : IndexInv loadDate enc stripQuotedReplies stripSignature cfg archive
      db)
    {next : IndexDb}
    (hpass : chunkMessagesLazily loadDate enc stripQuotedReplies stripSignature
      cfg db = some next) :
    ∃ messages, claimMessages loadDate cfg db = some messages ∧
      MessagesHandled loadDate enc stripQuotedReplies stripSignature cfg archive
        messages db next := by
  obtain ⟨messages, hclaim, rfl⟩ := Option.map_eq_some_iff.mp hpass
  exact ⟨messages, hclaim,
    hinv.foldMessages fun _ h => hinv.loads_of_claimMessages hclaim h⟩

theorem IndexInv.attachmentPass
    (hinv : IndexInv loadDate enc stripQuotedReplies stripSignature cfg archive
      db) :
    BlobsHandled loadDate enc stripQuotedReplies stripSignature cfg archive
      (claimAttachments cfg db) db (chunkAttachmentsLazily enc cfg db) :=
  hinv.foldAttachments fun _ h => hinv.mem_of_claimAttachments h

theorem IndexInv.sweep
    (hinv : IndexInv loadDate enc stripQuotedReplies stripSignature cfg archive
      db) :
    IndexInv loadDate enc stripQuotedReplies stripSignature cfg archive
      (Localmail.sweep loadDate enc stripQuotedReplies stripSignature cfg db) := by
  unfold Localmail.sweep
  split
  · exact hinv
  · rename_i next hpass
    obtain ⟨_, -, hmessages⟩ := hinv.messagePass hpass
    exact hmessages.inv.attachmentPass.inv

theorem iterate_inv (sweeps : Nat) :
    IndexInv loadDate enc stripQuotedReplies stripSignature cfg archive
      ((Localmail.sweep loadDate enc stripQuotedReplies stripSignature cfg)^[sweeps]
        archive.start) := by
  induction sweeps with
  | zero => exact archive.start_inv
  | succ sweeps ih =>
      rw [Function.iterate_succ_apply']
      exact ih.sweep

/-- What is still to be chunked. -/
def pendingMessages (db : IndexDb) : Nat :=
  db.messages.countP fun row => !chunked db.messageChunks row.id

def pendingAttachments (db : IndexDb) : Nat :=
  db.attachments.countP (attachmentClaimable db)

theorem countP_lt_countP {α : Type} {rows : List α} {first second : α → Bool}
    (hle : ∀ row ∈ rows, first row = true → second row = true) {row : α}
    (hrow : row ∈ rows) (hfirst : first row = false)
    (hsecond : second row = true) :
    rows.countP first < rows.countP second := by
  induction rows with
  | nil => cases hrow
  | cons head rest ih =>
      have hmono : rest.countP first ≤ rest.countP second :=
        List.countP_mono_left fun other h =>
          hle other (List.mem_cons_of_mem _ h)
      have hhead := hle head List.mem_cons_self
      simp only [List.countP_cons]
      rcases List.mem_cons.mp hrow with rfl | hrest
      · simp only [hfirst, hsecond, Bool.false_eq_true, ↓reduceIte]
        omega
      · have hlt := ih (fun other h => hle other (List.mem_cons_of_mem _ h))
          hrest
        by_cases hcase : first head = true
        · simp only [hcase, hhead hcase, ↓reduceIte]
          omega
        · split <;> split <;> first | omega | contradiction

/-- Every message loads and can be chunked, as can every text that is not
blank. -/
structure TextArchive.Chunks (loadDate : Int → Option Text) (enc : Encoding)
    (stripQuotedReplies stripSignature : Text → Text) (cfg : ChunkingConfig)
    (archive : TextArchive) : Prop where
  messages : ∀ row ∈ archive.messages,
    row.Chunks loadDate enc stripQuotedReplies stripSignature cfg
  attachments : ∀ row ∈ archive.attachments,
    isBlank row.extractedText = false → AttachmentChunks cfg row.extractedText

theorem pendingMessages_lt
    (hinv : IndexInv loadDate enc stripQuotedReplies stripSignature cfg archive
      db)
    (hchunks : archive.Chunks loadDate enc stripQuotedReplies stripSignature
      cfg)
    (hbatch : 0 < cfg.chunkBatch) (hfailed : db.failedChunkings = [])
    {messages : List MessageText}
    (hclaim : claimMessages loadDate cfg db = some messages) {next : IndexDb}
    (hpass : MessagesHandled loadDate enc stripQuotedReplies stripSignature cfg
      archive messages db next) :
    pendingMessages next < pendingMessages db ∨
      pendingMessages next = 0 ∧ pendingMessages db = 0 := by
  have hle : ∀ message ∈ db.messages,
      (!chunked next.messageChunks message.id) = true →
      (!chunked db.messageChunks message.id) = true := by
    intro message _ hafter
    by_contra hbefore
    simp only [Bool.not_eq_true', Bool.not_eq_false] at hafter hbefore
    rw [chunked_mono hpass.grows hbefore] at hafter
    cases hafter
  simp only [pendingMessages, hpass.inv.messages, ← hinv.messages]
  rcases Nat.eq_zero_or_pos (pendingMessages db) with hzero | hpos
  · have hbound := List.countP_mono_left hle
    simp only [pendingMessages] at hzero
    exact .inr ⟨by omega, hzero⟩
  · left
    obtain ⟨message, hmessage, hpending⟩ := List.countP_pos_iff.mp hpos
    have hclaimable : message ∈ db.messages.filter (messageClaimable cfg db) := by
      refine List.mem_filter.mpr ⟨hmessage, ?_⟩
      simpa [messageClaimable, hfailed] using hpending
    obtain ⟨first, hfirst⟩ : ∃ first, first ∈ claimedRows cfg db :=
      exists_mem_orderLimit (by omega) hclaimable
    obtain ⟨hmem, hfirstClaimable⟩ :=
      List.mem_filter.mp (mem_of_mem_orderLimit hfirst)
    obtain ⟨loaded, hload, -⟩ :=
      hchunks.messages first (hinv.mem_of_claimedRows hfirst)
    have hchunked := (hpass.handled hchunks.messages).2 loaded
      (mem_of_mapM hclaim hfirst hload)
    rw [MessageRecord.load_id hload] at hchunked
    refine countP_lt_countP hle hmem ?_ ?_
    · simpa using hchunked
    · simp only [messageClaimable, Bool.and_eq_true] at hfirstClaimable
      exact hfirstClaimable.1

theorem pendingAttachments_lt
    (hchunks : archive.Chunks loadDate enc stripQuotedReplies stripSignature
      cfg)
    (hbatch : 0 < cfg.chunkBatch) {next : IndexDb}
    (hpass : BlobsHandled loadDate enc stripQuotedReplies stripSignature cfg
      archive (claimAttachments cfg db) db next) :
    pendingAttachments next < pendingAttachments db ∨
      pendingAttachments next = 0 ∧ pendingAttachments db = 0 := by
  obtain ⟨heal, hmap, hheal⟩ := hpass.emptied
  have hle : ∀ row ∈ db.attachments,
      (attachmentClaimable next ∘ heal) row = true →
      attachmentClaimable db row = true := by
    intro row _ hafter
    obtain ⟨hsha, htext⟩ := hheal row
    simp only [Function.comp, attachmentClaimable, ne_eq, Bool.and_eq_true,
      decide_eq_true_eq, Bool.not_eq_true', hsha] at hafter ⊢
    refine ⟨?_, ?_⟩
    · have hsame := htext.resolve_right hafter.1
      rw [← hsame]
      exact hafter.1
    · by_contra hbefore
      simp only [Bool.not_eq_false] at hbefore
      rw [chunked_mono hpass.grows hbefore] at hafter
      cases hafter.2
  simp only [pendingAttachments, hmap, List.countP_map]
  rcases Nat.eq_zero_or_pos (pendingAttachments db) with hzero | hpos
  · have hbound := List.countP_mono_left hle
    simp only [pendingAttachments] at hzero
    exact .inr ⟨by omega, hzero⟩
  · left
    obtain ⟨row, hrow, hpending⟩ := List.countP_pos_iff.mp hpos
    obtain ⟨first, hfirst⟩ : ∃ first, first ∈ claimAttachments cfg db :=
      exists_mem_orderLimit (by omega)
        (List.mem_filter.mpr ⟨hrow, hpending⟩)
    obtain ⟨hmem, hfirstClaimable⟩ :=
      List.mem_filter.mp (mem_of_mem_orderLimit hfirst)
    refine countP_lt_countP hle hmem ?_ hfirstClaimable
    obtain ⟨hsha, -⟩ := hheal first
    simp only [Function.comp, attachmentClaimable, ne_eq, hsha]
    rcases hpass.handled hchunks.attachments first hfirst with hchunked | hempty
    · simp [hchunked]
    · have hnil := hempty (heal first)
        (by rw [hmap]; exact List.mem_map_of_mem hmem) hsha
      simp [hnil]

/-- When every row loads, the claim does not fail. -/
theorem IndexInv.exists_messagePass
    (hinv : IndexInv loadDate enc stripQuotedReplies stripSignature cfg archive
      db)
    (hchunks : archive.Chunks loadDate enc stripQuotedReplies stripSignature
      cfg) :
    ∃ next, chunkMessagesLazily loadDate enc stripQuotedReplies stripSignature
      cfg db = some next := by
  have hloads : (claimMessages loadDate cfg db).isSome := by
    refine mapM_isSome_iff.mpr fun row hrow => ?_
    obtain ⟨message, hload, -⟩ :=
      hchunks.messages row (hinv.mem_of_claimedRows hrow)
    rw [hload]
    rfl
  obtain ⟨messages, hclaim⟩ := Option.isSome_iff_exists.mp hloads
  exact ⟨_, Option.map_eq_some_iff.mpr ⟨messages, hclaim, rfl⟩⟩

/-- One sweep makes progress while anything is pending. -/
theorem sweep_progress
    (hinv : IndexInv loadDate enc stripQuotedReplies stripSignature cfg archive
      db)
    (hchunks : archive.Chunks loadDate enc stripQuotedReplies stripSignature
      cfg)
    (hbatch : 0 < cfg.chunkBatch) (hfailed : db.failedChunkings = []) :
    let next := Localmail.sweep loadDate enc stripQuotedReplies stripSignature
      cfg db
    next.failedChunkings = [] ∧
      (pendingMessages next + pendingAttachments next <
          pendingMessages db + pendingAttachments db ∨
        pendingMessages next + pendingAttachments next = 0) := by
  obtain ⟨middle, hpass⟩ := hinv.exists_messagePass hchunks
  obtain ⟨messages, hclaim, hfirst⟩ := hinv.messagePass hpass
  have hsecond := hfirst.inv.attachmentPass
  have hmessages :=
    pendingMessages_lt hinv hchunks hbatch hfailed hclaim hfirst
  have hattachments := pendingAttachments_lt hchunks hbatch hsecond
  have hsweep : Localmail.sweep loadDate enc stripQuotedReplies stripSignature
      cfg db = chunkAttachmentsLazily enc cfg middle := by
    simp only [Localmail.sweep, hpass]
  have hsameMessages : pendingMessages (chunkAttachmentsLazily enc cfg middle) =
      pendingMessages middle := by
    simp only [pendingMessages]
    rw [hsecond.inv.messages, hfirst.inv.messages, hsecond.messageChunks]
  have hsameAttachments :
      pendingAttachments middle = pendingAttachments db := by
    unfold pendingAttachments attachmentClaimable
    rw [hfirst.attachments, hfirst.attachmentChunks]
  have hnone := (hfirst.handled hchunks.messages).1.trans hfailed
  rw [hsweep]
  refine ⟨hsecond.failedChunkings.trans hnone, ?_⟩
  rw [hsameAttachments] at hattachments
  rw [hsameMessages]
  omega

/-- Enough sweeps leave nothing pending. -/
theorem exists_sweeps
    (hinv : IndexInv loadDate enc stripQuotedReplies stripSignature cfg archive
      db)
    (hchunks : archive.Chunks loadDate enc stripQuotedReplies stripSignature
      cfg)
    (hbatch : 0 < cfg.chunkBatch) (hfailed : db.failedChunkings = [])
    (bound : Nat) (hbound : pendingMessages db + pendingAttachments db ≤ bound) :
    ∃ sweeps, pendingMessages
        ((Localmail.sweep loadDate enc stripQuotedReplies stripSignature
          cfg)^[sweeps] db)
      + pendingAttachments
        ((Localmail.sweep loadDate enc stripQuotedReplies stripSignature
          cfg)^[sweeps] db)
      = 0 := by
  induction bound generalizing db with
  | zero => exact ⟨0, Nat.le_zero.mp hbound⟩
  | succ bound ih =>
      obtain ⟨hnone, hprogress⟩ :=
        sweep_progress hinv hchunks hbatch hfailed
      obtain ⟨sweeps, hsweeps⟩ := ih hinv.sweep hnone (by omega)
      exact ⟨sweeps + 1, hsweeps⟩

/-- With nothing pending, everything is indexed. -/
theorem IndexInv.indexed
    (hinv : IndexInv loadDate enc stripQuotedReplies stripSignature cfg archive
      db)
    (hnone : pendingMessages db + pendingAttachments db = 0) :
    Indexed enc cfg archive db := by
  obtain ⟨hmessages, hattachments⟩ := Nat.add_eq_zero_iff.mp hnone
  constructor
  · intro message hmessage
    have hmem : message ∈ db.messages := hinv.messages ▸ hmessage
    have hnot := List.countP_eq_zero.mp hmessages message hmem
    exact (hinv.chunkOf message hmessage (by simpa using hnot)).2
  · intro row hrow hsolid
    obtain ⟨kept, hkept, hsha, htext⟩ := hinv.texts row hrow
    have hnot := List.countP_eq_zero.mp hattachments kept hkept
    have hne : kept.extractedText ≠ [] := by
      rw [htext hsolid]
      rintro hnil
      rw [hnil] at hsolid
      cases hsolid
    have hchunked : chunked db.attachmentChunks row.sha256 = true := by
      simpa [attachmentClaimable, hne, hsha] using hnot
    exact (hinv.blobOf row hrow hchunked).2

/-- What is indexed could be chunked. -/
theorem IndexInv.chunks
    (hinv : IndexInv loadDate enc stripQuotedReplies stripSignature cfg archive
      db)
    (hindexed : Indexed enc cfg archive db) :
    archive.Chunks loadDate enc stripQuotedReplies stripSignature cfg := by
  constructor
  · intro message hmessage
    obtain ⟨spec, hspec, -⟩ := hindexed.1 message hmessage
    exact (hinv.chunkOf message hmessage (chunked_iff.mpr ⟨spec, hspec⟩)).1
  · intro row hrow hsolid
    obtain ⟨specs, hspecs, -, -⟩ := hindexed.2 row hrow hsolid
    exact (chunkAttachmentText_ok_iff hsolid).mp ⟨specs, hspecs⟩

/-- A batch of nothing claims nothing. -/
theorem sweep_eq_self (hbatch : ¬ 0 < cfg.chunkBatch) (db : IndexDb) :
    Localmail.sweep loadDate enc stripQuotedReplies stripSignature cfg db = db := by
  have hzero : cfg.chunkBatch.toNat = 0 := by omega
  have hmessages : ∀ db, claimMessages loadDate cfg db = some [] := by
    intro db
    simp [claimMessages, claimedRows, orderLimit, hzero]
  have hattachments : ∀ db, claimAttachments cfg db = [] := by
    intro db
    simp [claimAttachments, orderLimit, hzero]
  simp [Localmail.sweep, chunkMessagesLazily, chunkAttachmentsLazily, hmessages,
    hattachments]

/-- While a claimed row does not load, no sweep does anything. -/
theorem iterate_sweep_eq_self {row : MessageRecord}
    (hrow : row ∈ claimedRows cfg db) (hload : row.load loadDate = none)
    (sweeps : Nat) :
    (Localmail.sweep loadDate enc stripQuotedReplies stripSignature cfg)^[sweeps]
      db = db := by
  have hclaim : claimMessages loadDate cfg db = none := by
    rw [← Option.not_isSome_iff_eq_none]
    intro hsome
    have hloads := mapM_isSome_iff.mp hsome row hrow
    rw [hload] at hloads
    cases hloads
  apply Function.iterate_fixed
  simp only [Localmail.sweep, chunkMessagesLazily, hclaim, Option.map_none]

end Sweeps

/-! ### The law -/

/-- Nothing is to be indexed. -/
def TextArchive.Bare (archive : TextArchive) : Prop :=
  archive.messages = [] ∧
    ∀ row ∈ archive.attachments, isBlank row.extractedText = true

/-- Some number of sweeps indexes every text of an archive exactly when every
message loads and every text can be chunked, and the batch is not empty where
something is to be indexed. -/
theorem every_text_indexed_iff (loadDate : Int → Option Text) (enc : Encoding)
    (stripQuotedReplies stripSignature : Text → Text) (cfg : ChunkingConfig)
    (archive : TextArchive) :
    (∃ sweeps, Indexed enc cfg archive
      ((sweep loadDate enc stripQuotedReplies stripSignature cfg)^[sweeps]
        archive.start)) ↔
      archive.Chunks loadDate enc stripQuotedReplies stripSignature cfg ∧
        (0 < cfg.chunkBatch ∨ archive.Bare) := by
  constructor
  · rintro ⟨sweeps, hindexed⟩
    refine ⟨(iterate_inv sweeps).chunks hindexed, ?_⟩
    by_cases hbatch : 0 < cfg.chunkBatch
    · exact .inl hbatch
    · right
      have hstill : (sweep loadDate enc stripQuotedReplies stripSignature
          cfg)^[sweeps] archive.start = archive.start :=
        Function.iterate_fixed (sweep_eq_self hbatch _) sweeps
      rw [hstill] at hindexed
      constructor
      · apply List.eq_nil_iff_forall_not_mem.mpr
        intro message hmessage
        obtain ⟨spec, hspec, -⟩ := hindexed.1 message hmessage
        cases hspec
      · intro row hrow
        by_contra hblank
        simp only [Bool.not_eq_true] at hblank
        obtain ⟨specs, -, hsome, hall⟩ := hindexed.2 row hrow hblank
        obtain ⟨spec, rest, rfl⟩ := List.exists_cons_of_ne_nil hsome
        cases hall spec List.mem_cons_self
  · rintro ⟨hchunks, hbatch | ⟨hmessages, hblank⟩⟩
    · obtain ⟨sweeps, hnone⟩ :=
        exists_sweeps archive.start_inv hchunks hbatch rfl _ le_rfl
      exact ⟨sweeps, (iterate_inv sweeps).indexed hnone⟩
    · refine ⟨0, ?_, ?_⟩
      · rw [hmessages]
        exact nofun
      · intro row hrow hsolid
        rw [hblank row hrow] at hsolid
        cases hsolid

namespace SweepWitness

/-- One token a code point. -/
def byChar : Encoding where
  Token := CodePoint
  encode := fun text =>
    if HasSpecialToken text then .error .disallowedSpecialToken else .ok text
  decode := id
  encode_special := fun _ hspecial => if_pos hspecial
  encode_total := fun text hclean => ⟨text, if_neg hclean⟩
  decode_window := by
    intro text tokens window htokens hwindow hspecial
    split at htokens
    · cases htokens
    · rename_i hclean
      cases htokens
      obtain ⟨token, htoken, hinfix⟩ := hspecial
      exact hclean ⟨token, htoken, hinfix.trans hwindow⟩

/-- The defaults. -/
def defaults : ChunkingConfig :=
  ⟨512, 64, true, true, 1000000, 100, 50, 3⟩

/-- One message, whose subject quotes a special token. -/
def quoting : TextArchive where
  messages :=
    [⟨1, some (text "<|endoftext|>"), none, none, none, none, none⟩]
  attachments := []
  ids := by decide
  digests := by decide

end SweepWitness

open SweepWitness in
/-- No number of sweeps gives a message its header chunk when its subject has a
special token. -/
theorem message_never_indexed :
    ¬ ∀ (loadDate : Int → Option Text) (enc : Encoding)
      (stripQuotedReplies stripSignature : Text → Text) (cfg : ChunkingConfig)
      (archive : TextArchive), cfg.WindowsOk →
      0 < cfg.chunkBatch → ∃ sweeps, Indexed enc cfg archive
        ((sweep loadDate enc stripQuotedReplies stripSignature cfg)^[sweeps]
          archive.start) := by
  intro hclaim
  obtain ⟨sweeps, hindexed⟩ :=
    hclaim (fun _ => none) byChar id id defaults quoting
      ⟨by decide, by decide, by decide⟩ (by decide)
  obtain ⟨message, hload, hchunks⟩ :=
    ((iterate_inv sweeps).chunks hindexed).messages _ List.mem_cons_self
  cases hload
  exact hchunks.header ⟨"<|endoftext|>", by decide, by decide⟩

end Localmail
