/-
What the blob store promises over whole runs: the blobs are intact and whoever
reads one reads it to its end, nothing but an expired temp is ever swept away,
and a writer that keeps within the age gate never loses its temp to a sweep.
-/
import Localmail.BlobRuns

namespace Localmail

namespace Blobs

open Extract (hex)
open Ingest (AttachmentEntry attachmentEntry)

variable {digest : Bytes → Bytes} {root : DiskPath}

/-! ### Intact blobs -/

theorem BlobInv.read_of_hasBlob {world : BlobWorld}
    (hinv : BlobInv digest root world) {sha256 : Bytes}
    (hblob : HasBlob root world.shared.tree sha256) :
    ∃ file, world.shared.tree.read (blobPath root (hex sha256)) = some file ∧
      digest file.bytes = sha256 := by
  obtain ⟨node, hnode⟩ := Option.isSome_iff_exists.mp hblob
  obtain ⟨file, hfile, hsame⟩ := hinv.intact sha256 node hnode
  exact ⟨file, Option.bind_eq_some_iff.mpr ⟨node, hnode, hfile⟩, hsame⟩

/-- However writers, sweeps and kills interleave, a file at the path of a blob
has the digest in its name, a row tells of such a file, and a call that returned
has one for every attachment it was given. -/
theorem stored_attachments_intact (start : StoreAtRest digest root)
    {world : BlobWorld} (hrun : BlobRun digest root start.world world) :
    (∀ sha256 file,
      world.shared.tree.read (blobPath root (hex sha256)) = some file →
      digest file.bytes = sha256) ∧
    (∀ record ∈ world.shared.records,
      record.path = blobPath root (hex record.sha256) ∧
      ∃ file, world.shared.tree.read record.path = some file ∧
        digest file.bytes = record.sha256) ∧
    ∀ writer ∈ world.writers, writer.point = .returned →
      writer.rows = writer.attachments.map (attachmentEntry digest) ∧
      ∀ attachment ∈ writer.attachments, ∃ file,
        world.shared.tree.read (canonical digest root attachment) = some file ∧
        digest file.bytes = digest attachment.payload := by
  have hinv := reach_blobInv hrun
  refine ⟨?_, ?_, ?_⟩
  · intro sha256 file hread
    obtain ⟨node, hnode, hfile⟩ := Option.bind_eq_some_iff.mp hread
    obtain ⟨found, hfound, hsame⟩ := hinv.intact sha256 node hnode
    rw [hfile] at hfound
    exact Option.some.inj hfound ▸ hsame
  · intro record hrecord
    obtain ⟨hblob, hpath, -⟩ := hinv.records record hrecord
    exact ⟨hpath, hpath ▸ hinv.read_of_hasBlob hblob⟩
  · intro writer hmem hreturned
    have hrows := (hinv.writers writer hmem).rowsOk
    have hall : writer.attachments.take writer.rows.length =
        writer.attachments := by
      rw [hrows.complete hreturned, List.take_length]
    refine ⟨?_, ?_⟩
    · conv_lhs => rw [hrows.rows, hall]
    · intro attachment hattachment
      exact hinv.read_of_hasBlob
        (hrows.stored attachment (by rw [hall]; exact hattachment))

namespace StoredTwice

/-- A digest of the right length. -/
def zeroFilled (payload : Bytes) : Bytes :=
  (payload ++ List.replicate 32 0).take 32

def empty : StoreAtRest zeroFilled [] where
  world := ⟨⟨⟨[], []⟩, [], []⟩, [], [], 0⟩
  idle := rfl
  unswept := rfl
  held := nofun
  intact := nofun
  recorded := nofun
  known := nofun

def token (digit : Text) : Text := (List.replicate 32 digit).flatten

def note : Attachment :=
  ⟨text "note.txt", text "text/plain", [7, 8], none⟩

/-- Two calls stage one payload, the first is killed with its byte half
written, and a sweep takes the temp that it left. -/
def run : List BlobEvent :=
  [.call [note], .call [note], .writer 0 .advance, .writer 1 .advance,
    .writer 0 (.mint 3 (token (text "a"))), .writer 1 (.mint 4 (token (text "b"))),
    .writer 0 .advance, .writer 0 .kill, .tick 5, .writer 1 .advance,
    .writer 1 .advance, .writer 1 .advance, .tick 6, .sweep 10 false,
    .sweeper 0 (.list (([] : DiskPath) ++ [text "blobs"] ++
      [text "07", text "08"])),
    .sweeper 0 .advance, .sweeper 0 .advance, .writer 1 .advance,
    .sweeper 0 .advance, .writer 1 .advance, .writer 1 .advance]

end StoredTwice

open StoredTwice in
theorem stored_attachments_intact_twice : ∃ world,
    BlobRun zeroFilled [] empty.world world ∧
    world.writers.map BlobWriter.point = [.killed, .returned] ∧
    (world.shared.tree.links.map Prod.fst =
      [canonical zeroFilled [] note]) ∧
    ∀ writer ∈ world.writers, writer.point = .returned →
      ∀ attachment ∈ writer.attachments, ∃ file,
        world.shared.tree.read (canonical zeroFilled [] attachment) = some file ∧
        zeroFilled file.bytes = zeroFilled attachment.payload := by
  have hreplay : (replayGuarded (blobStep zeroFilled []) (FreshToken zeroFilled [])
      empty.world run).map (fun world => (world.writers.map BlobWriter.point,
        world.shared.tree.links.map Prod.fst)) =
      some ([.killed, .returned], [canonical zeroFilled [] note]) := by
    decide +kernel
  obtain ⟨world, hworld, hends⟩ := Option.map_eq_some_iff.mp hreplay
  obtain ⟨hpoints, hpaths⟩ := Prod.mk.inj hends
  have hrun := GuardedReach.of_replay run hworld
  refine ⟨world, hrun, hpoints, hpaths, ?_⟩
  intro writer hmem hreturned
  exact ((stored_attachments_intact empty hrun).2.2 writer hmem hreturned).2

/-! ### Readers -/

/-- Nobody has the node open to write. -/
structure Settled (world : BlobWorld) (node : Nat) : Prop where
  lt : node < world.shared.tree.nodes.length
  closed : ∀ writer ∈ world.writers, writer.point.node? ≠ some node

section Steps

variable {world next : BlobWorld} (hinv : BlobInv digest root world)
  {event : BlobEvent} (hfresh : FreshToken digest root world event)
  (hstep : blobStep digest root world event = some next)

include hinv hfresh hstep

/-- What a step does to the tree. -/
theorem BlobInv.treeChange :
    ∃ stage, TreeChange digest root stage world.shared.tree next.shared.tree := by
  rcases blobStep_cases hstep with ⟨attachments, rfl, rfl⟩ |
    ⟨id, move, writer, shared, after, rfl, hwriter, hmove, rfl⟩ |
    ⟨gone, rfl, rfl⟩ | ⟨maxAge, dryRun, rfl, rfl⟩ |
    ⟨id, move, sweeper, tree, after, rfl, hsweeper, hmove, rfl⟩ |
    ⟨passed, rfl, rfl⟩
  · exact ⟨⟨[], 0⟩, .none rfl⟩
  · obtain ⟨stage, hchange, -⟩ :=
      (hinv.writerStep hwriter hfresh hmove).change
    exact ⟨stage, hchange⟩
  · exact ⟨⟨[], 0⟩, .none rfl⟩
  · exact ⟨⟨[], 0⟩, .none rfl⟩
  · rcases (sweeperStep_effect hmove).change with rfl | ⟨path, size, hpath, rfl⟩
    · exact ⟨⟨[], 0⟩, .none rfl⟩
    · have htemp := hinv.judged sweeper (List.mem_of_getElem? hsweeper) path
        size hpath
      exact ⟨⟨path, 0⟩, .dropped (Or.inr htemp) rfl⟩
  · exact ⟨⟨[], 0⟩, .none rfl⟩

/-- A settled node holds what it held and stays settled. -/
theorem BlobInv.settled {node : Nat} (hsettled : Settled world node) :
    Settled next node ∧
      next.shared.tree.nodes[node]? = world.shared.tree.nodes[node]? := by
  rcases blobStep_cases hstep with ⟨attachments, rfl, rfl⟩ |
    ⟨id, move, writer, shared, after, rfl, hwriter, hmove, rfl⟩ |
    ⟨gone, rfl, rfl⟩ | ⟨maxAge, dryRun, rfl, rfl⟩ |
    ⟨id, move, sweeper, tree, after, rfl, hsweeper, hmove, rfl⟩ |
    ⟨passed, rfl, rfl⟩
  · refine ⟨⟨hsettled.lt, ?_⟩, rfl⟩
    intro writer hmem
    rcases List.mem_append.mp hmem with hmem | hmem
    · exact hsettled.closed writer hmem
    · obtain rfl := List.mem_singleton.mp hmem
      nofun
  · have heffect := hinv.writerStep hwriter hfresh hmove
    obtain ⟨stage, hchange, -, hstage⟩ := heffect.change
    have hclosed := hsettled.closed writer (List.mem_of_getElem? hwriter)
    have hne : node ≠ stage.node := by
      rintro rfl
      rcases hstage with hmine | hnew
      · exact hclosed hmine
      · exact absurd hsettled.lt (Nat.not_lt.mpr hnew)
    obtain ⟨hlt, hsame⟩ := hchange.nodes hsettled.lt
    refine ⟨⟨hlt, ?_⟩, hsame hne⟩
    intro other hmem hother
    rcases List.mem_or_eq_of_mem_set hmem with hmem | rfl
    · exact hsettled.closed other hmem hother
    · rcases heffect.node node hother with hmine | hnew
      · exact hclosed hmine
      · exact absurd hsettled.lt (Nat.not_lt.mpr hnew)
  · exact ⟨⟨hsettled.lt, hsettled.closed⟩, rfl⟩
  · exact ⟨⟨hsettled.lt, hsettled.closed⟩, rfl⟩
  · rcases (sweeperStep_effect hmove).change with rfl | ⟨path, size, hpath, rfl⟩
    · exact ⟨⟨hsettled.lt, hsettled.closed⟩, rfl⟩
    · exact ⟨⟨hsettled.lt, hsettled.closed⟩, rfl⟩
  · exact ⟨⟨hsettled.lt, hsettled.closed⟩, rfl⟩

end Steps

/-- What is at a path that is no temp's, nobody is writing. -/
theorem BlobInv.settled_of_plain {world : BlobWorld}
    (hinv : BlobInv digest root world)
    (hdigest : ∀ payload, (digest payload).length = 32) {path : DiskPath}
    {node : Nat} (hplain : isWriterTemp (path.getLastD []) = false)
    (hnode : world.shared.tree.lookup path = some node) :
    Settled world node := by
  refine ⟨hinv.held path node hnode, ?_⟩
  intro writer hmem hwriter
  obtain ⟨⟨current, stage, unwritten⟩, hstaged, rfl⟩ :=
    Option.map_eq_some_iff.mp hwriter
  have hok := hinv.writers writer hmem
  have hsame := (hok.staged current stage unwritten hstaged).alone path hnode
  have htemp := (hok.temp _ (temp?_of_staged hstaged).1).1.isWriterTemp hdigest
  rw [← hsame, hplain] at htemp
  cases htemp

/-- What later states keep of the file that a path led to. -/
structure KeptFile (digest : Bytes → Bytes) (root : DiskPath)
    (world : BlobWorld) (path : DiskPath) (node : Nat) (later : BlobWorld) :
    Prop where
  inv : BlobInv digest root later
  settled : Settled later node
  same : later.shared.tree.nodes[node]? = world.shared.tree.nodes[node]?
  there : (later.shared.tree.lookup path).isSome = true
  leads : (∀ sha256, path ≠ blobPath root (hex sha256)) →
    later.shared.tree.lookup path = some node

theorem KeptFile.step {world before after : BlobWorld} {path : DiskPath}
    {node : Nat} (hkept : KeptFile digest root world path node before)
    (hdigest : ∀ payload, (digest payload).length = 32)
    (hplain : isWriterTemp (path.getLastD []) = false) {event : BlobEvent}
    (hfresh : FreshToken digest root before event)
    (hstep : blobStep digest root before event = some after) :
    KeptFile digest root world path node after := by
  obtain ⟨stage, hchange⟩ := hkept.inv.treeChange hfresh hstep
  obtain ⟨hsettled, hnodes⟩ := hkept.inv.settled hfresh hstep hkept.settled
  refine ⟨hkept.inv.step hfresh hstep, hsettled, hnodes.trans hkept.same, ?_, ?_⟩
  · by_cases hblob : ∃ sha256, path = blobPath root (hex sha256)
    · obtain ⟨sha256, rfl⟩ := hblob
      exact hchange.hasBlob hkept.there
    · rw [hchange.lookup_bystander hdigest hplain (not_exists.mp hblob)]
      exact hkept.there
  · intro hblob
    rw [hchange.lookup_bystander hdigest hplain hblob]
    exact hkept.leads hblob

/-- A file whose name is no temp's is read to its end as it was when it was
opened, its path is never without a file again, and if it is not the path of a
blob it leads to that file for good. -/
theorem plain_file_is_kept (start : StoreAtRest digest root)
    (hdigest : ∀ payload, (digest payload).length = 32)
    {world later : BlobWorld} (hrun : BlobRun digest root start.world world)
    (hlater : BlobRun digest root world later) {path : DiskPath} {node : Nat}
    (hplain : isWriterTemp (path.getLastD []) = false)
    (hnode : world.shared.tree.lookup path = some node) :
    later.shared.tree.nodes[node]? = world.shared.tree.nodes[node]? ∧
      (later.shared.tree.lookup path).isSome = true ∧
      ((∀ sha256, path ≠ blobPath root (hex sha256)) →
        later.shared.tree.lookup path = some node) := by
  have hinv := reach_blobInv hrun
  have hnow : KeptFile digest root world path node world :=
    ⟨hinv, hinv.settled_of_plain hdigest hplain hnode, rfl,
      by rw [hnode]; rfl, fun _ => hnode⟩
  have hkept : KeptFile digest root world path node later :=
    hlater.invariant hnow fun _ _ _ hkept hfresh hstep =>
      hkept.step hdigest hplain hfresh hstep
  exact ⟨hkept.same, hkept.there, hkept.leads⟩

namespace StoredTwice

theorem length_zeroFilled (payload : Bytes) : (zeroFilled payload).length = 32 := by
  rw [zeroFilled, List.length_take, List.length_append, List.length_replicate]
  omega

/-- Both have seen no blob, and the first one moves its temp into place. -/
def opened : List BlobEvent :=
  [.call [note], .call [note], .writer 0 .advance, .writer 1 .advance,
    .writer 0 (.mint 3 (token (text "a"))),
    .writer 1 (.mint 4 (token (text "b")))] ++
    List.replicate 4 (.writer 0 .advance)

/-- The second one moves its own over it. -/
def replaced : List BlobEvent := List.replicate 4 (.writer 1 .advance)

end StoredTwice

open StoredTwice in
theorem plain_file_is_kept_replaced : ∃ world later,
    BlobRun zeroFilled [] empty.world world ∧ BlobRun zeroFilled [] world later ∧
    world.shared.tree.lookup (canonical zeroFilled [] note) = some 0 ∧
    later.shared.tree.lookup (canonical zeroFilled [] note) = some 1 ∧
    later.shared.tree.nodes[0]? = world.shared.tree.nodes[0]? := by
  have hfirst : (replayGuarded (blobStep zeroFilled []) (FreshToken zeroFilled [])
      empty.world opened).map (fun world =>
        (world.shared.tree.lookup (canonical zeroFilled [] note),
          (replayGuarded (blobStep zeroFilled []) (FreshToken zeroFilled []) world
            replaced).map fun later =>
              later.shared.tree.lookup (canonical zeroFilled [] note))) =
      some (some 0, some (some 1)) := by
    decide +kernel
  obtain ⟨world, hworld, hends⟩ := Option.map_eq_some_iff.mp hfirst
  obtain ⟨hnode, hsecond⟩ := Prod.mk.inj hends
  obtain ⟨later, hlater, hother⟩ := Option.map_eq_some_iff.mp hsecond
  have hrun := GuardedReach.of_replay opened hworld
  have hthen := GuardedReach.of_replay replaced hlater
  refine ⟨world, later, hrun, hthen, hnode, hother, ?_⟩
  exact (plain_file_is_kept empty length_zeroFilled hrun hthen (by decide +kernel)
    hnode).1

end Blobs

end Localmail
