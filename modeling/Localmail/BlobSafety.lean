/-
What every run of the writers and the sweeps keeps: whatever stands at the path
of a blob has the digest the path names, because a payload is written under a
name nobody else has and is moved only when it is whole.
-/
import Localmail.BlobStore
import Localmail.Processes

namespace Localmail

namespace Blobs

open Extract (hex)
open Ingest (AttachmentEntry attachmentEntry)

/-! ### What a writer holds -/

/-- The payload a writer has open or has just closed, with what is still to be
written of it. -/
def WriterPoint.staged? : WriterPoint → Option (Attachment × Stage × Bytes)
  | .writing current stage unwritten => some (current, stage, unwritten)
  | .replacing current stage => some (current, stage, [])
  | _ => none

def WriterPoint.node? (point : WriterPoint) : Option Nat :=
  point.staged?.map fun staged => staged.2.1.node

/-- The temp a writer has still to move or to remove. -/
def WriterPoint.temp? : WriterPoint → Option DiskPath
  | .writing _ stage _ | .replacing _ stage => some stage.temp
  | .unwinding temp => some temp
  | _ => none

/-- The attachment a writer is at. -/
def WriterPoint.current? : WriterPoint → Option Attachment
  | .staging current | .writing current _ _ | .replacing current _
  | .recording current => some current
  | _ => none

theorem temp?_of_staged {point : WriterPoint} {current : Attachment}
    {stage : Stage} {unwritten : Bytes}
    (hstaged : point.staged? = some (current, stage, unwritten)) :
    point.temp? = some stage.temp ∧ point.node? = some stage.node ∧
      point.current? = some current := by
  cases point <;> cases hstaged <;> exact ⟨rfl, rfl, rfl⟩

section Invariant

variable (digest : Bytes → Bytes) (root : DiskPath)

/-- A name that a writer has minted for a payload. -/
def IsTempPath (path : DiskPath) : Prop :=
  ∃ payload pid token, IsHexOf 32 token ∧
    path.getLastD [] = tempName (hex (digest payload)) pid token

/-- A name that a writer has minted, or that the sweep takes for one. -/
def TempNamed (path : DiskPath) : Prop :=
  IsTempPath digest path ∨ isWriterTemp (path.getLastD []) = true

/-- The file of a digest is where its name says. -/
def HasBlob (tree : BlobTree) (sha256 : Bytes) : Prop :=
  (tree.lookup (blobPath root (hex sha256))).isSome = true

/-- Whatever stands at the path of a blob has the digest the path names. -/
def Intact (tree : BlobTree) : Prop :=
  ∀ sha256 node, tree.lookup (blobPath root (hex sha256)) = some node →
    ∃ file, tree.nodes[node]? = some file ∧ digest file.bytes = sha256

/-- A row tells of a file that is there. -/
def RecordOk (tree : BlobTree) (record : BlobRecord) : Prop :=
  HasBlob root tree record.sha256 ∧
    record.path = blobPath root (hex record.sha256) ∧
    ∃ payload : Bytes, digest payload = record.sha256 ∧
      record.sizeBytes = payload.length

/-- A staged payload: the node holds what is written of it, no other path leads
there, and the temp leads nowhere else. -/
structure StageOk (shared : BlobShared) (current : Attachment) (stage : Stage)
    (unwritten : Bytes) : Prop where
  written : ∃ file, shared.tree.nodes[stage.node]? = some file ∧
    file.bytes ++ unwritten = current.payload
  alone : ∀ path, shared.tree.lookup path = some stage.node → path = stage.temp
  own : ∀ node, shared.tree.lookup stage.temp = some node → node = stage.node

/-- The rows of a writer are those of the attachments it is done with. -/
structure RowsOk (tree : BlobTree) (writer : BlobWriter) : Prop where
  within : writer.rows.length ≤ writer.attachments.length
  rows : writer.rows = (writer.attachments.take writer.rows.length).map
    (attachmentEntry digest)
  stored : ∀ attachment ∈ writer.attachments.take writer.rows.length,
    HasBlob root tree (digest attachment.payload)
  current : ∀ attachment, writer.point.current? = some attachment →
    writer.attachments[writer.rows.length]? = some attachment
  complete : writer.point = .returned →
    writer.rows.length = writer.attachments.length

structure WriterOk (shared : BlobShared) (writer : BlobWriter) : Prop where
  rowsOk : RowsOk digest root shared.tree writer
  temp : ∀ temp, writer.point.temp? = some temp →
    IsTempPath digest temp ∧ temp ∈ shared.minted
  staged : ∀ current stage unwritten,
    writer.point.staged? = some (current, stage, unwritten) →
    StageOk shared current stage unwritten
  recording : ∀ current, writer.point = .recording current →
    HasBlob root shared.tree (digest current.payload)

/-- Two writers share neither temp nor node. -/
structure Apart (writer other : BlobWriter) : Prop where
  temp : ∀ temp, writer.point.temp? = some temp →
    other.point.temp? ≠ some temp
  node : ∀ node, writer.point.node? = some node →
    other.point.node? ≠ some node

structure BlobInv (world : BlobWorld) : Prop where
  held : world.shared.tree.Held
  intact : Intact digest root world.shared.tree
  records : ∀ record ∈ world.shared.records,
    RecordOk digest root world.shared.tree record
  writers : ∀ writer ∈ world.writers, WriterOk digest root world.shared writer
  apart : ∀ (id other : Nat) (writer rival : BlobWriter), id ≠ other →
    world.writers[id]? = some writer → world.writers[other]? = some rival →
    Apart writer rival
  judged : ∀ sweeper ∈ world.sweepers, ∀ path size,
    sweeper.judged = some (path, size) →
    isWriterTemp (path.getLastD []) = true

/-- An install at rest whose tree is intact, a fresh one being one; the temps
that earlier processes left in it count as minted. -/
structure StoreAtRest where
  world : BlobWorld
  idle : world.writers = []
  unswept : world.sweepers = []
  held : world.shared.tree.Held
  intact : Intact digest root world.shared.tree
  recorded : ∀ record ∈ world.shared.records,
    RecordOk digest root world.shared.tree record
  known : ∀ path node, world.shared.tree.lookup path = some node →
    isWriterTemp (path.getLastD []) = true → path ∈ world.shared.minted

end Invariant

variable {digest : Bytes → Bytes} {root : DiskPath}

theorem StoreAtRest.inv (start : StoreAtRest digest root) :
    BlobInv digest root start.world where
  held := start.held
  intact := start.intact
  records := start.recorded
  writers := by
    rw [start.idle]
    exact fun _ hmem => absurd hmem List.not_mem_nil
  apart := by
    rw [start.idle]
    intro id other writer rival _ hwriter
    cases hwriter
  judged := by
    rw [start.unswept]
    exact fun _ hmem => absurd hmem List.not_mem_nil

theorem IsTempPath.ne_nil {path : DiskPath} (htemp : IsTempPath digest path) :
    path ≠ [] := by
  obtain ⟨payload, pid, token, -, hname⟩ := htemp
  rintro rfl
  exact List.ne_nil_of_mem (dot_mem_tempName _ pid token) hname.symm

theorem IsTempPath.ne_blobPath {path : DiskPath}
    (htemp : IsTempPath digest path) (sha256 : Bytes) :
    path ≠ blobPath root (hex sha256) := by
  obtain ⟨payload, pid, token, -, hname⟩ := htemp
  rintro rfl
  rw [getLastD_blobPath] at hname
  exact dot_not_mem_hex sha256 (hname ▸ dot_mem_tempName _ pid token)

/-- The sweep takes what a writer mints for a temp. -/
theorem IsTempPath.isWriterTemp {path : DiskPath}
    (htemp : IsTempPath digest path)
    (hdigest : ∀ payload, (digest payload).length = 32) :
    isWriterTemp (path.getLastD []) = true := by
  obtain ⟨payload, pid, token, htoken, hname⟩ := htemp
  rw [hname]
  exact isWriterTemp_tempName (hdigest payload) pid htoken

theorem TempNamed.ne_blobPath {path : DiskPath} (hnamed : TempNamed digest path)
    (sha256 : Bytes) : path ≠ blobPath root (hex sha256) := by
  rcases hnamed with htemp | htemp
  · exact htemp.ne_blobPath sha256
  · rintro rfl
    rw [getLastD_blobPath, isWriterTemp_hex] at htemp
    cases htemp

/-! ### What can happen to the tree -/

/-- What one step may do to the tree; `stage` is that of whoever takes it. -/
inductive TreeChange (digest : Bytes → Bytes) (root : DiskPath) (stage : Stage)
    (tree next : BlobTree) : Prop where
  | none (same : next = tree)
  | opened (empty : BlobFile) (isTemp : IsTempPath digest stage.temp)
      (missing : tree.lookup stage.temp = .none)
      (made : next = (tree.create stage.temp empty).1)
  | wrote (change : BlobFile → BlobFile)
      (unlinked : ∀ sha256,
        tree.lookup (blobPath root (hex sha256)) ≠ some stage.node)
      (made : next = tree.modify stage.node change)
  | moved (sha256 : Bytes) (file : BlobFile) (isTemp : IsTempPath digest stage.temp)
      (linked : tree.lookup stage.temp = some stage.node)
      (whole : tree.nodes[stage.node]? = some file ∧ digest file.bytes = sha256)
      (made : tree.rename stage.temp (blobPath root (hex sha256)) = some next)
  | dropped (named : TempNamed digest stage.temp)
      (made : next = tree.unlink stage.temp)

section Changes

variable {stage : Stage} {tree next : BlobTree}
  (hchange : TreeChange digest root stage tree next)

include hchange

theorem TreeChange.held (hheld : tree.Held) : next.Held := by
  cases hchange with
  | none same => exact same ▸ hheld
  | opened empty isTemp missing made => exact made ▸ hheld.create _ empty
  | wrote change unlinked made => exact made ▸ hheld.modify _ change
  | moved sha256 file isTemp linked whole made => exact hheld.rename made
  | dropped named made => exact made ▸ hheld.unlink _

/-- Once there, the file of a digest is there for good. -/
theorem TreeChange.hasBlob {sha256 : Bytes} (hblob : HasBlob root tree sha256) :
    HasBlob root next sha256 := by
  unfold HasBlob at hblob ⊢
  cases hchange with
  | none same => exact same ▸ hblob
  | opened empty isTemp missing made =>
      rw [made, FileTree.lookup_create, if_neg (isTemp.ne_blobPath sha256).symm]
      exact hblob
  | wrote change unlinked made => exact made ▸ hblob
  | moved moved file isTemp linked whole made =>
      rw [FileTree.lookup_rename made, linked,
        if_neg (isTemp.ne_blobPath sha256).symm]
      split
      · rfl
      · exact hblob
  | dropped named made =>
      rw [made, FileTree.lookup_unlink, if_neg (named.ne_blobPath sha256).symm]
      exact hblob

/-- The nodes stay, and only the one that is open is written. -/
theorem TreeChange.nodes {node : Nat} (hnode : node < tree.nodes.length) :
    node < next.nodes.length ∧ (node ≠ stage.node →
      next.nodes[node]? = tree.nodes[node]?) := by
  cases hchange with
  | none same =>
      subst same
      exact ⟨hnode, fun _ => rfl⟩
  | opened empty isTemp missing made =>
      rw [made, FileTree.create_of_missing empty missing]
      refine ⟨?_, fun _ => List.getElem?_append_left hnode⟩
      rw [FileTree.nodes_link, List.length_append]
      exact Nat.lt_add_right 1 hnode
  | wrote change unlinked made =>
      rw [made, FileTree.length_modify]
      refine ⟨hnode, fun hne => ?_⟩
      rw [FileTree.getElem?_modify, if_neg hne]
  | moved sha256 file isTemp linked whole made =>
      rw [FileTree.nodes_rename made]
      exact ⟨hnode, fun _ => rfl⟩
  | dropped named made =>
      rw [made, FileTree.nodes_unlink]
      exact ⟨hnode, fun _ => rfl⟩

/-- A node that a path of a blob leads to holds what it held. -/
theorem TreeChange.sealed (hheld : tree.Held) {sha256 : Bytes} {node : Nat}
    (hnode : tree.lookup (blobPath root (hex sha256)) = some node) :
    next.nodes[node]? = tree.nodes[node]? := by
  have hlt := hheld _ _ hnode
  by_cases hsame : node = stage.node
  · cases hchange with
    | none same => rw [same]
    | opened empty isTemp missing made =>
        rw [made, FileTree.create_of_missing empty missing]
        exact List.getElem?_append_left hlt
    | wrote change unlinked made => exact absurd (hsame ▸ hnode) (unlinked sha256)
    | moved moved file isTemp linked whole made =>
        rw [FileTree.nodes_rename made]
    | dropped named made => rw [made, FileTree.nodes_unlink]
  · exact (hchange.nodes hlt).2 hsame

theorem TreeChange.intact (hheld : tree.Held)
    (hintact : Intact digest root tree) : Intact digest root next := by
  intro sha256 node hnode
  have hkept (hold : tree.lookup (blobPath root (hex sha256)) = some node) :
      ∃ file, next.nodes[node]? = some file ∧ digest file.bytes = sha256 := by
    rw [hchange.sealed hheld hold]
    exact hintact sha256 node hold
  cases hchange with
  | none same => exact hkept (same ▸ hnode)
  | opened empty isTemp missing made =>
      rw [made, FileTree.lookup_create,
        if_neg (isTemp.ne_blobPath sha256).symm] at hnode
      exact hkept hnode
  | wrote change unlinked made =>
      rw [made] at hnode
      exact hkept hnode
  | moved moved file isTemp linked whole made =>
      rw [FileTree.lookup_rename made, linked,
        if_neg (isTemp.ne_blobPath sha256).symm] at hnode
      split at hnode
      · rename_i hsame
        obtain rfl := Option.some.inj hnode
        rw [hex_injective (blobPath_injective root hsame),
          FileTree.nodes_rename made]
        exact ⟨file, whole⟩
      · exact hkept hnode
  | dropped named made =>
      rw [made, FileTree.lookup_unlink, if_neg (named.ne_blobPath sha256).symm] at hnode
      exact hkept hnode

/-- A path that is neither of a blob nor the temp at hand leads where it led. -/
theorem TreeChange.lookup_other {path : DiskPath} (hne : path ≠ stage.temp)
    (hblob : ∀ sha256, path ≠ blobPath root (hex sha256)) :
    next.lookup path = tree.lookup path := by
  cases hchange with
  | none same => rw [same]
  | opened empty isTemp missing made =>
      rw [made, FileTree.lookup_create, if_neg hne]
  | wrote change unlinked made => rw [made, FileTree.lookup_modify]
  | moved sha256 file isTemp linked whole made =>
      rw [FileTree.lookup_rename made, if_neg (hblob sha256), if_neg hne]
  | dropped named made => rw [made, FileTree.lookup_unlink, if_neg hne]

/-- A path that is neither of a blob nor of a temp leads where it led. -/
theorem TreeChange.lookup_bystander
    (hdigest : ∀ payload, (digest payload).length = 32) {path : DiskPath}
    (hplain : isWriterTemp (path.getLastD []) = false)
    (hblob : ∀ sha256, path ≠ blobPath root (hex sha256)) :
    next.lookup path = tree.lookup path := by
  have hne (hnamed : TempNamed digest stage.temp) : path ≠ stage.temp := by
    have htemp : isWriterTemp (stage.temp.getLastD []) = true :=
      hnamed.elim (fun htemp => htemp.isWriterTemp hdigest) id
    rintro rfl
    rw [hplain] at htemp
    cases htemp
  by_cases hsame : path = stage.temp
  · cases hchange with
    | none same => rw [same]
    | wrote change unlinked made => rw [made, FileTree.lookup_modify]
    | opened empty isTemp missing made => exact absurd hsame (hne (Or.inl isTemp))
    | moved sha256 file isTemp linked whole made =>
        exact absurd hsame (hne (Or.inl isTemp))
    | dropped named made => exact absurd hsame (hne named)
  · exact hchange.lookup_other hsame hblob

theorem TreeChange.recordOk {record : BlobRecord}
    (hrecord : RecordOk digest root tree record) :
    RecordOk digest root next record :=
  ⟨hchange.hasBlob hrecord.1, hrecord.2⟩

theorem TreeChange.rowsOk {writer : BlobWriter}
    (hrows : RowsOk digest root tree writer) :
    RowsOk digest root next writer where
  within := hrows.within
  rows := hrows.rows
  stored := fun attachment hmem => hchange.hasBlob (hrows.stored attachment hmem)
  current := hrows.current
  complete := hrows.complete

end Changes

/-! ### What a writer holds is its own -/

theorem StageOk.lt {shared : BlobShared} {current : Attachment} {stage : Stage}
    {unwritten : Bytes} (hstage : StageOk shared current stage unwritten) :
    stage.node < shared.tree.nodes.length := by
  obtain ⟨file, hfile, -⟩ := hstage.written
  exact (List.getElem?_eq_some_iff.mp hfile).1

theorem StageOk.unlink {shared after : BlobShared} {current : Attachment}
    {stage : Stage} {unwritten : Bytes} {path : DiskPath}
    (hstage : StageOk shared current stage unwritten)
    (hafter : after.tree = shared.tree.unlink path) :
    StageOk after current stage unwritten where
  written := by
    rw [hafter, FileTree.nodes_unlink]
    exact hstage.written
  alone := by
    intro other hother
    rw [hafter, FileTree.lookup_unlink] at hother
    split at hother
    · cases hother
    · exact hstage.alone other hother
  own := by
    intro node hnode
    rw [hafter, FileTree.lookup_unlink] at hnode
    split at hnode
    · cases hnode
    · exact hstage.own node hnode

/-- A step of another writer leaves it alone. -/
theorem StageOk.frame {shared after : BlobShared} {current : Attachment}
    {stage actor : Stage} {unwritten : Bytes}
    (hstage : StageOk shared current stage unwritten)
    (hchange : TreeChange digest root actor shared.tree after.tree)
    (htemp : stage.temp ≠ actor.temp) (hnode : stage.node ≠ actor.node)
    (hisTemp : IsTempPath digest stage.temp) :
    StageOk after current stage unwritten := by
  cases hchange with
  | none same =>
      exact ⟨same ▸ hstage.written, same ▸ hstage.alone, same ▸ hstage.own⟩
  | opened empty isTemp missing made =>
      have hnodes : after.tree.nodes[stage.node]? =
          shared.tree.nodes[stage.node]? := by
        rw [made, FileTree.create_of_missing empty missing]
        exact List.getElem?_append_left hstage.lt
      refine ⟨hnodes ▸ hstage.written, ?_, ?_⟩
      · intro path hpath
        rw [made, FileTree.lookup_create] at hpath
        split at hpath
        · rw [FileTree.create_of_missing empty missing] at hpath
          exact absurd (Option.some.inj hpath).symm (Nat.ne_of_lt hstage.lt)
        · exact hstage.alone path hpath
      · intro node hnode
        rw [made, FileTree.lookup_create, if_neg htemp] at hnode
        exact hstage.own node hnode
  | wrote change unlinked made =>
      refine ⟨?_, ?_, ?_⟩
      · rw [made, FileTree.getElem?_modify, if_neg hnode]
        exact hstage.written
      · rw [made]
        exact hstage.alone
      · rw [made]
        exact hstage.own
  | moved sha256 file isTemp linked whole made =>
      refine ⟨?_, ?_, ?_⟩
      · rw [FileTree.nodes_rename made]
        exact hstage.written
      · intro path hpath
        rw [FileTree.lookup_rename made, linked] at hpath
        split at hpath
        · exact absurd (Option.some.inj hpath).symm hnode
        · split at hpath
          · cases hpath
          · exact hstage.alone path hpath
      · intro node hnode
        rw [FileTree.lookup_rename made, if_neg (hisTemp.ne_blobPath sha256),
          if_neg htemp] at hnode
        exact hstage.own node hnode
  | dropped named made => exact hstage.unlink made

theorem WriterOk.of_point {shared : BlobShared} {writer : BlobWriter}
    (hrows : RowsOk digest root shared.tree writer)
    (htemp : writer.point.temp? = none)
    (hrecording : ∀ current, writer.point = .recording current →
      HasBlob root shared.tree (digest current.payload)) :
    WriterOk digest root shared writer where
  rowsOk := hrows
  temp := by
    intro temp hsome
    rw [htemp] at hsome
    cases hsome
  staged := by
    intro current stage unwritten hstaged
    rw [(temp?_of_staged hstaged).1] at htemp
    cases htemp
  recording := hrecording

theorem WriterOk.frame {shared after : BlobShared} {writer : BlobWriter}
    {actor : Stage} (hok : WriterOk digest root shared writer)
    (hchange : TreeChange digest root actor shared.tree after.tree)
    (hminted : ∀ temp ∈ shared.minted, temp ∈ after.minted)
    (hspared : ∀ current stage unwritten,
      writer.point.staged? = some (current, stage, unwritten) →
      stage.temp ≠ actor.temp ∧ stage.node ≠ actor.node) :
    WriterOk digest root after writer where
  rowsOk := hchange.rowsOk hok.rowsOk
  temp := fun temp htemp =>
    (hok.temp temp htemp).imp_right fun hmem => hminted temp hmem
  staged := by
    intro current stage unwritten hstaged
    obtain ⟨htemp, hnode⟩ := hspared current stage unwritten hstaged
    exact (hok.staged current stage unwritten hstaged).frame hchange htemp hnode
      (hok.temp stage.temp (temp?_of_staged hstaged).1).1
  recording := fun current hpoint =>
    hchange.hasBlob (hok.recording current hpoint)

theorem WriterOk.unlink {shared after : BlobShared} {writer : BlobWriter}
    {path : DiskPath} (hok : WriterOk digest root shared writer)
    (hafter : after.tree = shared.tree.unlink path)
    (hnamed : TempNamed digest path) (hminted : after.minted = shared.minted) :
    WriterOk digest root after writer := by
  have hchange : TreeChange digest root ⟨path, 0⟩ shared.tree after.tree :=
    .dropped hnamed hafter
  refine ⟨hchange.rowsOk hok.rowsOk, hminted ▸ hok.temp, ?_, ?_⟩
  · intro current stage unwritten hstaged
    exact (hok.staged current stage unwritten hstaged).unlink hafter
  · intro current hpoint
    exact hchange.hasBlob (hok.recording current hpoint)

theorem Apart.symm {writer other : BlobWriter} (hapart : Apart writer other) :
    Apart other writer where
  temp := fun temp hother hwriter => hapart.temp temp hwriter hother
  node := fun node hother hwriter => hapart.node node hwriter hother

/-- Whoever holds no more than before is as far apart as before. -/
theorem Apart.of_fewer {writer after other : BlobWriter}
    (hapart : Apart writer other)
    (htemp : ∀ temp, after.point.temp? = some temp →
      writer.point.temp? = some temp)
    (hnode : ∀ node, after.point.node? = some node →
      writer.point.node? = some node) : Apart after other where
  temp := fun temp hafter => hapart.temp temp (htemp temp hafter)
  node := fun node hafter => hapart.node node (hnode node hafter)

end Blobs

end Localmail
