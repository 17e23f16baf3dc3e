/-
Runs of the blob store: each operation of a writer and of a sweep keeps the
invariant, so in every run the blobs are intact, a row tells of a file that is
there, and a file that is there stays for whoever reads it.
-/
import Localmail.BlobSafety

namespace Localmail

namespace Blobs

open Extract (hex)
open Ingest (AttachmentEntry attachmentEntry)

variable {digest : Bytes → Bytes} {root : DiskPath}

/-! ### One operation of a writer -/

/-- What an operation of writer `id` leaves, seen by itself and by the rest. -/
structure WriterEffect (digest : Bytes → Bytes) (root : DiskPath)
    (world : BlobWorld) (id : Nat) (writer : BlobWriter) (shared : BlobShared)
    (after : BlobWriter) : Prop where
  change : ∃ stage, TreeChange digest root stage world.shared.tree shared.tree ∧
    (∀ (other : Nat) (rival : BlobWriter), other ≠ id →
      world.writers[other]? = some rival → ∀ current mine unwritten,
      rival.point.staged? = some (current, mine, unwritten) →
      mine.temp ≠ stage.temp ∧ mine.node ≠ stage.node) ∧
    (writer.point.node? = some stage.node ∨
      world.shared.tree.nodes.length ≤ stage.node)
  minted : ∀ temp ∈ world.shared.minted, temp ∈ shared.minted
  records : ∀ record ∈ shared.records, RecordOk digest root shared.tree record
  ok : WriterOk digest root shared after
  node : ∀ node, after.point.node? = some node →
    writer.point.node? = some node ∨ world.shared.tree.nodes.length ≤ node
  apart : ∀ (other : Nat) (rival : BlobWriter), other ≠ id →
    world.writers[other]? = some rival → Apart after rival

section Moves

variable {world : BlobWorld} {id : Nat} {writer : BlobWriter}
  (hinv : BlobInv digest root world)
  (hwriter : world.writers[id]? = some writer)

include hinv

theorem BlobInv.writerOk (hwriter : world.writers[id]? = some writer) :
    WriterOk digest root world.shared writer :=
  hinv.writers writer (List.mem_of_getElem? hwriter)

/-- What nobody uses, everybody spares. -/
theorem BlobInv.spare (other : Nat) (rival : BlobWriter)
    (hrival : world.writers[other]? = some rival) (current : Attachment)
    (mine : Stage) (unwritten : Bytes)
    (hstaged : rival.point.staged? = some (current, mine, unwritten)) :
    mine.temp ≠ [] ∧ mine.node ≠ world.shared.tree.nodes.length := by
  have hok := hinv.writerOk hrival
  have htemp := (hok.temp mine.temp (temp?_of_staged hstaged).1).1
  exact ⟨htemp.ne_nil,
    Nat.ne_of_lt (hok.staged current mine unwritten hstaged).lt⟩

include hwriter

/-- The others are apart from what the writer has staged. -/
theorem BlobInv.spare_staged {current : Attachment} {stage : Stage}
    {unwritten : Bytes}
    (hstaged : writer.point.staged? = some (current, stage, unwritten))
    (other : Nat) (rival : BlobWriter) (hne : other ≠ id)
    (hrival : world.writers[other]? = some rival) (theirs : Attachment)
    (mine : Stage) (left : Bytes)
    (hmine : rival.point.staged? = some (theirs, mine, left)) :
    mine.temp ≠ stage.temp ∧ mine.node ≠ stage.node := by
  have hapart := hinv.apart other id rival writer hne hrival hwriter
  obtain ⟨htemp, hnode, -⟩ := temp?_of_staged hstaged
  obtain ⟨hmineTemp, hmineNode, -⟩ := temp?_of_staged hmine
  constructor
  · intro hsame
    exact hapart.temp _ hmineTemp (hsame ▸ htemp)
  · intro hsame
    exact hapart.node _ hmineNode (hsame ▸ hnode)

/-- Going on without touching what is shared. -/
theorem BlobInv.goto {point : WriterPoint}
    (hok : WriterOk digest root world.shared (writer.goto point))
    (htemp : ∀ temp, point.temp? = some temp → writer.point.temp? = some temp)
    (hnode : ∀ node, point.node? = some node →
      writer.point.node? = some node) :
    WriterEffect digest root world id writer world.shared (writer.goto point) where
  change := ⟨⟨[], world.shared.tree.nodes.length⟩, .none rfl,
    fun other rival _ hrival => hinv.spare other rival hrival,
    Or.inr (Nat.le_refl _)⟩
  minted := fun _ hmem => hmem
  records := hinv.records
  ok := hok
  node := fun node hsome => Or.inl (hnode node hsome)
  apart := fun other rival hne hrival =>
    (hinv.apart id other writer rival hne.symm hwriter hrival).of_fewer
      htemp hnode

end Moves

theorem RowsOk.goto {tree : BlobTree} {writer : BlobWriter} {point : WriterPoint}
    (hrows : RowsOk digest root tree writer)
    (hcurrent : ∀ attachment, point.current? = some attachment →
      writer.attachments[writer.rows.length]? = some attachment)
    (hcomplete : point = .returned →
      writer.rows.length = writer.attachments.length) :
    RowsOk digest root tree (writer.goto point) where
  within := hrows.within
  rows := hrows.rows
  stored := hrows.stored
  current := hcurrent
  complete := hcomplete

section Opening

variable {world : BlobWorld} {id : Nat} {writer : BlobWriter}
  (hinv : BlobInv digest root world)
  (hwriter : world.writers[id]? = some writer)
  {current : Attachment} (hpoint : writer.point = .staging current)
  {pid : Nat} {token : Text}

include hinv hwriter hpoint

/-- A fresh temp is the writer's own. -/
theorem BlobInv.openTemp (htoken : IsHexOf 32 token)
    (hunminted : newTempPath (canonical digest root current) pid token ∉
      world.shared.minted)
    (hmissing : world.shared.tree.lookup
      (newTempPath (canonical digest root current) pid token) = none)
    {shared : BlobShared} {after : BlobWriter}
    (hopen : openTemp digest root world.clock world.shared writer current pid
      token = (shared, after)) :
    WriterEffect digest root world id writer shared after := by
  generalize htempPath :
    newTempPath (canonical digest root current) pid token = temp at *
  have hisTemp : IsTempPath digest temp := by
    refine ⟨current.payload, pid, token, htoken, ?_⟩
    rw [← htempPath, canonical, getLastD_newTempPath]
  have hcreate := FileTree.create_of_missing
    (⟨[], world.clock⟩ : BlobFile) hmissing
  simp only [Blobs.openTemp, htempPath, Prod.mk.injEq] at hopen
  obtain ⟨rfl, rfl⟩ := hopen
  have hnode : (world.shared.tree.create temp ⟨[], world.clock⟩).2 =
      world.shared.tree.nodes.length := by
    rw [hcreate]
  have hchange : TreeChange digest root ⟨temp, world.shared.tree.nodes.length⟩
      world.shared.tree
      (world.shared.tree.create temp ⟨[], world.clock⟩).1 :=
    .opened ⟨[], world.clock⟩ hisTemp hmissing rfl
  have hold := hinv.writerOk hwriter
  rw [hnode]
  refine ⟨⟨_, hchange, ?_, Or.inr (Nat.le_refl _)⟩,
    fun _ => List.mem_cons_of_mem temp,
    fun record hrecord => hchange.recordOk (hinv.records record hrecord),
    ⟨(hchange.rowsOk hold.rowsOk).goto ?_ nofun, ?_, ?_, nofun⟩, ?_, ?_⟩
  · intro other rival hne hrival theirs mine left hmine
    have hspare := hinv.spare other rival hrival theirs mine left hmine
    have hminted := (hinv.writerOk hrival).temp mine.temp
      (temp?_of_staged hmine).1
    refine ⟨?_, hspare.2⟩
    rintro (hsame : mine.temp = temp)
    exact hunminted (hsame ▸ hminted.2)
  · intro attachment hcurrent
    refine hold.rowsOk.current attachment ?_
    rw [hpoint]
    exact hcurrent
  · intro found hfound
    obtain rfl := Option.some.inj hfound
    exact ⟨hisTemp, List.mem_cons_self⟩
  · intro attachment stage unwritten hstaged
    cases hstaged
    refine ⟨⟨⟨[], world.clock⟩, ?_, rfl⟩, ?_, ?_⟩
    · rw [hcreate]
      exact List.getElem?_concat_length ..
    · intro path hpath
      rw [FileTree.lookup_create] at hpath
      split at hpath
      · assumption
      · exact absurd (hinv.held path _ hpath) (Nat.lt_irrefl _)
    · intro node hlookup
      rw [FileTree.lookup_create, if_pos rfl, hnode] at hlookup
      exact (Option.some.inj hlookup).symm
  · intro found hfound
    exact Or.inr (Nat.le_of_eq (Option.some.inj hfound))
  · intro other rival hne hrival
    have hrivalOk := hinv.writerOk hrival
    constructor
    · intro found hfound hrivalTemp
      obtain rfl := Option.some.inj hfound
      exact hunminted (hrivalOk.temp _ hrivalTemp).2
    · intro found hfound hrivalNode
      obtain rfl := Option.some.inj hfound
      obtain ⟨⟨theirs, mine, left⟩, hmine, hsame⟩ :=
        Option.map_eq_some_iff.mp hrivalNode
      exact absurd hsame (hinv.spare other rival hrival theirs mine left hmine).2

end Opening

section Staged

variable {world : BlobWorld} {id : Nat} {writer : BlobWriter}
  (hinv : BlobInv digest root world)
  (hwriter : world.writers[id]? = some writer)
  {current : Attachment} {stage : Stage}

include hinv hwriter

/-- Writing one byte more. -/
theorem BlobInv.writeByte {byte : UInt8} {rest : Bytes}
    (hpoint : writer.point = .writing current stage (byte :: rest))
    {shared : BlobShared}
    (hshared : shared = { world.shared with
      tree := world.shared.tree.modify stage.node fun file =>
        ⟨file.bytes ++ [byte], world.clock⟩ }) :
    WriterEffect digest root world id writer shared
      (writer.goto (.writing current stage rest)) := by
  have hold := hinv.writerOk hwriter
  have hstaged : writer.point.staged? = some (current, stage, byte :: rest) := by
    rw [hpoint]
    rfl
  have hstage := hold.staged _ _ _ hstaged
  have hisTemp := (hold.temp _ (temp?_of_staged hstaged).1).1
  have hchange : TreeChange digest root stage world.shared.tree shared.tree := by
    rw [hshared]
    refine .wrote _ ?_ rfl
    intro sha256 hlinked
    exact hisTemp.ne_blobPath sha256 (hstage.alone _ hlinked).symm
  have htree : shared.tree = world.shared.tree.modify stage.node fun file =>
      ⟨file.bytes ++ [byte], world.clock⟩ := by
    rw [hshared]
  have hminted : shared.minted = world.shared.minted := by rw [hshared]
  refine ⟨⟨stage, hchange, hinv.spare_staged hwriter hstaged,
      Or.inl (temp?_of_staged hstaged).2.1⟩, ?_, ?_,
    ⟨(hchange.rowsOk hold.rowsOk).goto ?_ nofun, ?_, ?_, nofun⟩, ?_, ?_⟩
  · exact fun _ hmem => hminted ▸ hmem
  · rw [hshared]
    exact fun record hrecord =>
      (hshared ▸ hchange).recordOk (hinv.records record hrecord)
  · intro attachment hcurrent
    refine hold.rowsOk.current attachment ?_
    rw [hpoint]
    exact hcurrent
  · rw [hminted]
    intro temp htemp
    refine hold.temp temp ?_
    rw [hpoint]
    exact htemp
  · intro attachment mine unwritten hmine
    cases hmine
    obtain ⟨file, hfile, hpayload⟩ := hstage.written
    refine ⟨⟨⟨file.bytes ++ [byte], world.clock⟩, ?_, ?_⟩, ?_, ?_⟩
    · rw [htree, FileTree.getElem?_modify, if_pos rfl, hfile]
      rfl
    · simpa using hpayload
    · rw [htree]
      exact hstage.alone
    · rw [htree]
      exact hstage.own
  · intro node hnode
    refine Or.inl ?_
    rw [hpoint]
    exact hnode
  · intro other rival hne hrival
    refine (hinv.apart id other writer rival hne.symm hwriter hrival).of_fewer
      ?_ ?_
    · intro temp htemp
      rw [hpoint]
      exact htemp
    · intro node hnode
      rw [hpoint]
      exact hnode

/-- Moving the whole payload to where its digest says. -/
theorem BlobInv.replace (hpoint : writer.point = .replacing current stage)
    {tree : BlobTree}
    (hrename : world.shared.tree.rename stage.temp
      (canonical digest root current) = some tree) :
    WriterEffect digest root world id writer { world.shared with tree := tree }
      (writer.goto (.recording current)) := by
  have hold := hinv.writerOk hwriter
  have hstaged : writer.point.staged? = some (current, stage, []) := by
    rw [hpoint]
    rfl
  have hstage := hold.staged _ _ _ hstaged
  have hisTemp := (hold.temp _ (temp?_of_staged hstaged).1).1
  obtain ⟨node, hnode, -⟩ := FileTree.rename_eq_some_iff.mp hrename
  obtain rfl := hstage.own node hnode
  obtain ⟨file, hfile, hpayload⟩ := hstage.written
  rw [List.append_nil] at hpayload
  have hchange : TreeChange digest root stage world.shared.tree tree :=
    .moved (digest current.payload) file hisTemp hnode ⟨hfile, hpayload ▸ rfl⟩
      hrename
  refine ⟨⟨stage, hchange, hinv.spare_staged hwriter hstaged,
      Or.inl (temp?_of_staged hstaged).2.1⟩, fun _ hmem => hmem,
    fun record hrecord => hchange.recordOk (hinv.records record hrecord),
    .of_point ((hchange.rowsOk hold.rowsOk).goto ?_ nofun) rfl ?_, nofun, ?_⟩
  · intro attachment hcurrent
    refine hold.rowsOk.current attachment ?_
    rw [hpoint]
    exact hcurrent
  · intro attachment hrecording
    cases hrecording
    show (tree.lookup _).isSome = true
    rw [FileTree.lookup_rename hrename, canonical, if_pos rfl, hnode]
    rfl
  · intro other rival hne hrival
    exact (hinv.apart id other writer rival hne.symm hwriter hrival).of_fewer
      nofun nofun

/-- The cleanup of an exception. -/
theorem BlobInv.unwind {temp : DiskPath}
    (hpoint : writer.point = .unwinding temp) :
    WriterEffect digest root world id writer
      { world.shared with tree := world.shared.tree.unlink temp }
      (writer.goto .raised) := by
  have hold := hinv.writerOk hwriter
  have hisTemp : IsTempPath digest temp := by
    refine (hold.temp temp ?_).1
    rw [hpoint]
    rfl
  have hchange : TreeChange digest root
      ⟨temp, world.shared.tree.nodes.length⟩ world.shared.tree
      (world.shared.tree.unlink temp) :=
    .dropped (Or.inl hisTemp) rfl
  refine ⟨⟨_, hchange, ?_, Or.inr (Nat.le_refl _)⟩, fun _ hmem => hmem,
    fun record hrecord => hchange.recordOk (hinv.records record hrecord),
    .of_point ((hchange.rowsOk hold.rowsOk).goto nofun nofun) rfl nofun, nofun,
    ?_⟩
  · intro other rival hne hrival theirs mine left hmine
    have hspare := hinv.spare other rival hrival theirs mine left hmine
    refine ⟨?_, hspare.2⟩
    rintro (hsame : mine.temp = temp)
    refine (hinv.apart other id rival writer hne hrival hwriter).temp mine.temp
      (temp?_of_staged hmine).1 ?_
    rw [hpoint, hsame]
    rfl
  · intro other rival hne hrival
    exact (hinv.apart id other writer rival hne.symm hwriter hrival).of_fewer
      nofun nofun

/-- The row of an attachment, and the entry that goes into the message. -/
theorem BlobInv.record (hpoint : writer.point = .recording current) :
    WriterEffect digest root world id writer
      { world.shared with
        records := insertRecord world.shared.records
          (recordOf digest root current) }
      ⟨writer.attachments, writer.rows ++ [attachmentEntry digest current],
        .checking⟩ := by
  have hold := hinv.writerOk hwriter
  have hblob := hold.recording current hpoint
  have hcurrent : writer.attachments[writer.rows.length]? = some current := by
    refine hold.rowsOk.current current ?_
    rw [hpoint]
    rfl
  have htake : writer.attachments.take (writer.rows.length + 1) =
      writer.attachments.take writer.rows.length ++ [current] := by
    rw [List.take_add_one, hcurrent]
    rfl
  refine ⟨⟨⟨[], world.shared.tree.nodes.length⟩, .none rfl,
      fun other rival _ hrival => hinv.spare other rival hrival,
      Or.inr (Nat.le_refl _)⟩,
    fun _ hmem => hmem, ?_, .of_point ⟨?_, ?_, ?_, nofun, nofun⟩ rfl nofun,
    nofun, ?_⟩
  · intro record hrecord
    simp only [insertRecord] at hrecord
    split at hrecord
    · exact hinv.records record hrecord
    · rcases List.mem_append.mp hrecord with hmem | hmem
      · exact hinv.records record hmem
      · obtain rfl := List.mem_singleton.mp hmem
        exact ⟨hblob, rfl, current.payload, rfl, rfl⟩
  · rw [List.length_append]
    exact (List.getElem?_eq_some_iff.mp hcurrent).1
  · rw [List.length_append, List.length_singleton, htake, List.map_append,
      ← hold.rowsOk.rows]
    rfl
  · rw [List.length_append, List.length_singleton, htake]
    intro attachment hmem
    rcases List.mem_append.mp hmem with hmem | hmem
    · exact hold.rowsOk.stored attachment hmem
    · obtain rfl := List.mem_singleton.mp hmem
      exact hblob
  · intro other rival hne hrival
    exact (hinv.apart id other writer rival hne.symm hwriter hrival).of_fewer
      nofun nofun

/-- Going on to a point that holds no temp. -/
theorem BlobInv.goto_bare {point : WriterPoint}
    (hrows : RowsOk digest root world.shared.tree (writer.goto point))
    (htemp : point.temp? = none) (hnode : point.node? = none)
    (hrecording : ∀ current, point = .recording current →
      HasBlob root world.shared.tree (digest current.payload)) :
    WriterEffect digest root world id writer world.shared
      (writer.goto point) :=
  hinv.goto hwriter (.of_point hrows htemp hrecording)
    (by simp [htemp]) (by simp [hnode])

/-- A temp that is not moved into place is still to be removed. -/
theorem BlobInv.goto_unwinding {temp : DiskPath}
    (htemp : writer.point.temp? = some temp) :
    WriterEffect digest root world id writer world.shared
      (writer.goto (.unwinding temp)) := by
  have hold := hinv.writerOk hwriter
  refine hinv.goto hwriter ⟨hold.rowsOk.goto ?_ ?_, ?_, ?_, ?_⟩
    (fun mine hsome => htemp.trans hsome) ?_
  · simp [WriterPoint.current?]
  · simp
  · exact fun mine hsome => hold.temp mine (htemp.trans hsome)
  · simp [BlobWriter.goto, WriterPoint.staged?]
  · simp [BlobWriter.goto]
  · simp [WriterPoint.node?, WriterPoint.staged?]

/-- Deciding whether the payload has to be written. -/
theorem BlobInv.check {shared : BlobShared} {after : BlobWriter}
    (hstep : advanceWriter digest root world.clock world.shared writer .checking =
      some (shared, after)) :
    WriterEffect digest root world id writer shared after := by
  have hold := hinv.writerOk hwriter
  simp only [advanceWriter] at hstep
  split at hstep
  · rename_i hnone
    cases hstep
    refine hinv.goto_bare hwriter (hold.rowsOk.goto ?_ fun _ => ?_) rfl rfl
      (by simp)
    · simp [WriterPoint.current?]
    exact Nat.le_antisymm hold.rowsOk.within (List.getElem?_eq_none_iff.mp hnone)
  · rename_i current hcurrent
    have hrows {point : WriterPoint} (hpoint : point.current? = some current)
        (hrunning : point ≠ .returned) :
        RowsOk digest root world.shared.tree (writer.goto point) := by
      refine hold.rowsOk.goto ?_ fun hreturned => absurd hreturned hrunning
      intro attachment hattachment
      rw [hpoint] at hattachment
      exact Option.some.inj hattachment ▸ hcurrent
    split at hstep
    · rename_i hexists
      cases hstep
      refine hinv.goto_bare hwriter (hrows rfl (by simp)) rfl rfl ?_
      intro attachment hrecording
      cases hrecording
      exact hexists
    · cases hstep
      exact hinv.goto_bare hwriter (hrows rfl (by simp)) rfl rfl (by simp)

/-- An exception or a kill leaves what is shared as it is. -/
theorem BlobInv.interrupt {move : WriterMove}
    (hmove : move = .raise ∨ move = .kill) {shared : BlobShared}
    {after : BlobWriter}
    (hstep : writerStep digest root world.clock world.shared writer move =
      some (shared, after)) :
    WriterEffect digest root world id writer shared after := by
  have hold := hinv.writerOk hwriter
  have hstopped {point : WriterPoint} (hcurrent : point.current? = none)
      (htemp : point.temp? = none) (hnode : point.node? = none)
      (hrunning : point ≠ .returned) :
      WriterEffect digest root world id writer world.shared (writer.goto point) := by
    refine hinv.goto_bare hwriter (hold.rowsOk.goto ?_ ?_) htemp hnode ?_
    · simp [hcurrent]
    · exact fun hreturned => absurd hreturned hrunning
    · rintro current (rfl : point = _)
      cases hcurrent
  rcases hmove with rfl | rfl
  · obtain ⟨_, hraise, hpair⟩ := Option.map_eq_some_iff.mp hstep
    obtain ⟨rfl, rfl⟩ := Prod.mk.inj hpair
    unfold raiseWriter at hraise
    split at hraise
    · rename_i current stage unwritten hpoint
      exact Option.some.inj hraise ▸
        hinv.goto_unwinding hwriter (by rw [hpoint]; rfl)
    · rename_i current stage hpoint
      exact Option.some.inj hraise ▸
        hinv.goto_unwinding hwriter (by rw [hpoint]; rfl)
    all_goals
      first
        | exact Option.some.inj hraise ▸ hstopped rfl rfl rfl nofun
        | cases hraise
  · obtain ⟨_, hkill, hpair⟩ := Option.map_eq_some_iff.mp hstep
    obtain ⟨rfl, rfl⟩ := Prod.mk.inj hpair
    unfold killWriter at hkill
    split at hkill
    all_goals
      first
        | exact Option.some.inj hkill ▸ hstopped rfl rfl rfl nofun
        | cases hkill

/-- Every operation of a writer. -/
theorem BlobInv.writerStep {move : WriterMove}
    (hfresh : FreshToken digest root world (.writer id move))
    {shared : BlobShared} {after : BlobWriter}
    (hstep : writerStep digest root world.clock world.shared writer move =
      some (shared, after)) :
    WriterEffect digest root world id writer shared after := by
  have hold := hinv.writerOk hwriter
  cases move with
  | raise => exact hinv.interrupt hwriter (Or.inl rfl) hstep
  | kill => exact hinv.interrupt hwriter (Or.inr rfl) hstep
  | mint pid token =>
      simp only [Blobs.writerStep] at hstep
      split at hstep
      · rename_i current hpoint
        simp only [FreshToken, freshToken, hwriter, Option.map_some, hpoint,
          Bool.and_eq_true, decide_eq_true_eq, Option.isNone_iff_eq_none]
          at hfresh
        exact hinv.openTemp hwriter hpoint hfresh.1.1 hfresh.1.2 hfresh.2
          (Option.some.inj hstep)
      · cases hstep
  | advance =>
      rw [Blobs.writerStep] at hstep
      cases hpoint : writer.point with
      | checking => exact hinv.check hwriter (hpoint ▸ hstep)
      | staging current => rw [hpoint] at hstep; cases hstep
      | writing current stage unwritten =>
          rw [hpoint] at hstep
          cases unwritten with
          | nil =>
              obtain ⟨rfl, rfl⟩ := Prod.mk.inj (Option.some.inj hstep)
              refine hinv.goto hwriter
                ⟨hold.rowsOk.goto ?_ (by simp), ?_, ?_, ?_⟩ ?_ ?_
              · intro attachment hcurrent
                exact hold.rowsOk.current attachment (by rw [hpoint]; exact hcurrent)
              · intro temp htemp
                exact hold.temp temp (by rw [hpoint]; exact htemp)
              · intro attachment mine left hmine
                exact hold.staged attachment mine left (by rw [hpoint]; exact hmine)
              · simp [BlobWriter.goto]
              · intro temp htemp
                rw [hpoint]
                exact htemp
              · intro node hnode
                rw [hpoint]
                exact hnode
          | cons byte rest =>
              obtain ⟨hshared, rfl⟩ := Prod.mk.inj (Option.some.inj hstep)
              exact hinv.writeByte hwriter hpoint hshared.symm
      | replacing current stage =>
          rw [hpoint] at hstep
          simp only [advanceWriter] at hstep
          split at hstep
          · rename_i tree hrename
            obtain ⟨rfl, rfl⟩ := Prod.mk.inj (Option.some.inj hstep)
            exact hinv.replace hwriter hpoint hrename
          · obtain ⟨rfl, rfl⟩ := Prod.mk.inj (Option.some.inj hstep)
            exact hinv.goto_unwinding hwriter (by rw [hpoint]; rfl)
      | recording current =>
          rw [hpoint] at hstep
          obtain ⟨rfl, rfl⟩ := Prod.mk.inj (Option.some.inj hstep)
          exact hinv.record hwriter hpoint
      | unwinding temp =>
          rw [hpoint] at hstep
          obtain ⟨rfl, rfl⟩ := Prod.mk.inj (Option.some.inj hstep)
          exact hinv.unwind hwriter hpoint
      | returned => rw [hpoint] at hstep; cases hstep
      | raised => rw [hpoint] at hstep; cases hstep
      | killed => rw [hpoint] at hstep; cases hstep

end Staged

/-! ### One operation of a sweep -/

/-- What a sweep decided when it judged a file. -/
structure Judged (tree : BlobTree) (sweeper : Sweeper) (path : DiskPath)
    (size : Nat) : Prop where
  isTemp : isWriterTemp (path.getLastD []) = true
  wet : sweeper.dryRun = false
  expired : ∃ file, tree.read path = some file ∧ size = file.bytes.length ∧
    sweeper.maxAge < sweeper.now - file.mtime

/-- What an operation of a sweep can be: it unlinks what it has judged, or it
leaves the tree alone, and then it may judge one file more. -/
structure SweeperEffect (tree next : BlobTree) (sweeper after : Sweeper) :
    Prop where
  change : next = tree ∨ ∃ path size, sweeper.judged = some (path, size) ∧
    next = tree.unlink path
  judged : ∀ path size, after.judged = some (path, size) →
    next = tree ∧
      (sweeper.judged = some (path, size) ∨ Judged tree sweeper path size)
  same : after.maxAge = sweeper.maxAge ∧ after.now = sweeper.now ∧
    after.dryRun = sweeper.dryRun

theorem unlinkJudged_effect {tree : BlobTree} {sweeper : Sweeper}
    {path : DiskPath} {size : Nat} (hjudged : sweeper.judged = some (path, size)) :
    SweeperEffect tree (unlinkJudged tree sweeper path size).1 sweeper
      (unlinkJudged tree sweeper path size).2 := by
  unfold unlinkJudged
  split
  · exact ⟨Or.inl rfl, by simp, rfl, rfl, rfl⟩
  · exact ⟨Or.inr ⟨path, size, hjudged, rfl⟩, by simp, rfl, rfl, rfl⟩

theorem judgeFile_effect {tree : BlobTree} {sweeper : Sweeper} (path : DiskPath)
    (rest : List DiskPath) (hjudged : sweeper.judged = none) :
    SweeperEffect tree tree sweeper (judgeFile tree sweeper path rest) := by
  have hquiet {after : Sweeper} (hafter : after.judged = none)
      (hsame : after.maxAge = sweeper.maxAge ∧ after.now = sweeper.now ∧
        after.dryRun = sweeper.dryRun) :
      SweeperEffect tree tree sweeper after := by
    refine ⟨Or.inl rfl, fun other size hother => ?_, hsame⟩
    rw [hafter] at hother
    cases hother
  unfold judgeFile
  dsimp only
  split
  · rename_i htemp
    split
    · exact hquiet hjudged ⟨rfl, rfl, rfl⟩
    · rename_i file hfile
      split
      · rename_i hexpired
        split
        · exact hquiet hjudged ⟨rfl, rfl, rfl⟩
        · rename_i hwet
          refine ⟨Or.inl rfl, ?_, rfl, rfl, rfl⟩
          rintro _ _ ⟨⟩
          exact ⟨rfl, Or.inr ⟨htemp, eq_false_of_ne_true hwet, file, hfile, rfl,
            of_decide_eq_true hexpired⟩⟩
      · exact hquiet hjudged ⟨rfl, rfl, rfl⟩
  · exact hquiet hjudged ⟨rfl, rfl, rfl⟩

theorem sweeperStep_effect {tree next : BlobTree} {sweeper after : Sweeper}
    {move : SweepMove}
    (hstep : sweeperStep root tree sweeper move = some (next, after)) :
    SweeperEffect tree next sweeper after := by
  cases move with
  | list directory =>
      simp only [sweeperStep] at hstep
      split at hstep
      · cases hstep
        exact ⟨Or.inl rfl, fun _ _ hjudged => ⟨rfl, Or.inl hjudged⟩,
          rfl, rfl, rfl⟩
      · cases hstep
  | advance =>
      simp only [sweeperStep, advanceSweeper] at hstep
      split at hstep
      · rename_i path size hjudged
        have heffect := @unlinkJudged_effect tree _ _ _ hjudged
        rw [Option.some.inj hstep] at heffect
        exact heffect
      · rename_i path rest hjudged hpending
        obtain ⟨rfl, rfl⟩ := Prod.mk.inj (Option.some.inj hstep)
        exact judgeFile_effect path rest hjudged
      · cases hstep
  | osError =>
      obtain ⟨_, hfail, hpair⟩ := Option.map_eq_some_iff.mp hstep
      obtain ⟨rfl, rfl⟩ := Prod.mk.inj hpair
      unfold failSweeper at hfail
      split at hfail
      · cases hfail
        exact ⟨Or.inl rfl, nofun, rfl, rfl, rfl⟩
      · split at hfail
        · cases hfail
          exact ⟨Or.inl rfl, fun _ _ hjudged => ⟨rfl, Or.inl hjudged⟩,
            rfl, rfl, rfl⟩
        · cases hfail
      · cases hfail
  | finish =>
      simp only [sweeperStep] at hstep
      split at hstep
      · cases hstep
        exact ⟨Or.inl rfl, fun _ _ hjudged => ⟨rfl, Or.inl hjudged⟩,
          rfl, rfl, rfl⟩
      · cases hstep

/-! ### Runs -/

section Steps

variable {world next : BlobWorld}

theorem BlobInv.of_writer (hinv : BlobInv digest root world) {id : Nat}
    {writer after : BlobWriter} {shared : BlobShared}
    (hwriter : world.writers[id]? = some writer)
    (heffect : WriterEffect digest root world id writer shared after) :
    BlobInv digest root
      { world with shared := shared, writers := world.writers.set id after } := by
  obtain ⟨stage, hchange, hspared, -⟩ := heffect.change
  refine ⟨hchange.held hinv.held, hchange.intact hinv.held hinv.intact,
    heffect.records, ?_, ?_, hinv.judged⟩
  · intro other hmem
    obtain ⟨place, hplace⟩ := List.getElem?_of_mem hmem
    rcases procs_set_cases hplace with ⟨-, rfl⟩ | ⟨hne, hold⟩
    · exact heffect.ok
    · exact (hinv.writerOk hold).frame hchange heffect.minted
        (hspared place other hne hold)
  · intro first second left right hne hleft hright
    rcases procs_set_cases hleft with ⟨rfl, rfl⟩ | ⟨hfirst, hbefore⟩
    · rcases procs_set_cases hright with ⟨rfl, -⟩ | ⟨hsecond, hthere⟩
      · exact absurd rfl hne
      · exact heffect.apart second right hsecond hthere
    · rcases procs_set_cases hright with ⟨rfl, rfl⟩ | ⟨hsecond, hthere⟩
      · exact (heffect.apart first left hfirst hbefore).symm
      · exact hinv.apart first second left right hne hbefore hthere

theorem BlobInv.call (hinv : BlobInv digest root world)
    (attachments : List Attachment) :
    BlobInv digest root { world with
      writers := world.writers ++ [⟨attachments, [], .checking⟩] } := by
  have hnew : WriterOk digest root world.shared ⟨attachments, [], .checking⟩ :=
    .of_point ⟨Nat.zero_le _, rfl, fun _ hmem => absurd hmem List.not_mem_nil,
      nofun, nofun⟩ rfl nofun
  refine ⟨hinv.held, hinv.intact, hinv.records, ?_, ?_, hinv.judged⟩
  · intro writer hmem
    rcases List.mem_append.mp hmem with hmem | hmem
    · exact hinv.writers writer hmem
    · exact List.mem_singleton.mp hmem ▸ hnew
  · intro first second left right hne hleft hright
    rcases procs_append_cases hleft with ⟨rfl, rfl⟩ | hleft
    · exact ⟨nofun, nofun⟩
    · rcases procs_append_cases hright with ⟨rfl, rfl⟩ | hright
      · exact ⟨fun _ _ => nofun, fun _ _ => nofun⟩
      · exact hinv.apart first second left right hne hleft hright

theorem BlobInv.of_sweeper (hinv : BlobInv digest root world) {id : Nat}
    {sweeper after : Sweeper} {tree : BlobTree}
    (hsweeper : world.sweepers[id]? = some sweeper)
    (heffect : SweeperEffect world.shared.tree tree sweeper after) :
    BlobInv digest root { world with
      shared := { world.shared with tree := tree }
      sweepers := world.sweepers.set id after } := by
  have hjudged : ∀ other ∈ world.sweepers.set id after, ∀ path size,
      other.judged = some (path, size) →
      isWriterTemp (path.getLastD []) = true := by
    intro other hmem path size hother
    rcases List.mem_or_eq_of_mem_set hmem with hmem | rfl
    · exact hinv.judged other hmem path size hother
    · rcases (heffect.judged path size hother).2 with hold | hnew
      · exact hinv.judged sweeper (List.mem_of_getElem? hsweeper) path size hold
      · exact hnew.isTemp
  rcases heffect.change with rfl | ⟨path, size, hpath, rfl⟩
  · exact ⟨hinv.held, hinv.intact, hinv.records, hinv.writers, hinv.apart,
      hjudged⟩
  · have htemp := hinv.judged sweeper (List.mem_of_getElem? hsweeper) path size
      hpath
    have hchange : TreeChange digest root ⟨path, 0⟩ world.shared.tree
        (world.shared.tree.unlink path) := .dropped (Or.inr htemp) rfl
    refine ⟨hchange.held hinv.held, hchange.intact hinv.held hinv.intact,
      fun record hrecord => hchange.recordOk (hinv.records record hrecord), ?_,
      hinv.apart, hjudged⟩
    intro writer hmem
    exact (hinv.writers writer hmem).unlink rfl (Or.inr htemp) rfl

/-- What a step can be. -/
theorem blobStep_cases {event : BlobEvent}
    (hstep : blobStep digest root world event = some next) :
    (∃ attachments, event = .call attachments ∧ next = { world with
      writers := world.writers ++ [⟨attachments, [], .checking⟩] }) ∨
    (∃ id move writer shared after, event = .writer id move ∧
      world.writers[id]? = some writer ∧
      writerStep digest root world.clock world.shared writer move =
        some (shared, after) ∧
      next = { world with
        shared := shared, writers := world.writers.set id after }) ∨
    (∃ gone, event = .rollback gone ∧ next = { world with
      shared := { world.shared with
        records := world.shared.records.filter fun record =>
          record.sha256 ∉ gone } }) ∨
    (∃ maxAge dryRun, event = .sweep maxAge dryRun ∧ next = { world with
      sweepers := world.sweepers ++ [newSweeper maxAge world.clock dryRun] }) ∨
    (∃ id move sweeper tree after, event = .sweeper id move ∧
      world.sweepers[id]? = some sweeper ∧
      sweeperStep root world.shared.tree sweeper move = some (tree, after) ∧
      next = { world with
        shared := { world.shared with tree := tree }
        sweepers := world.sweepers.set id after }) ∨
    ∃ passed, event = .tick passed ∧
      next = { world with clock := world.clock + (passed : Nat) } := by
  cases event with
  | call attachments => exact Or.inl ⟨attachments, rfl, (Option.some.inj hstep).symm⟩
  | writer id move =>
      obtain ⟨writer, hwriter, hmap⟩ := Option.bind_eq_some_iff.mp hstep
      obtain ⟨⟨shared, after⟩, hmove, rfl⟩ := Option.map_eq_some_iff.mp hmap
      exact Or.inr (Or.inl ⟨id, move, writer, shared, after, rfl, hwriter, hmove,
        rfl⟩)
  | rollback gone =>
      exact Or.inr (Or.inr (Or.inl ⟨gone, rfl, (Option.some.inj hstep).symm⟩))
  | sweep maxAge dryRun =>
      exact Or.inr (Or.inr (Or.inr (Or.inl
        ⟨maxAge, dryRun, rfl, (Option.some.inj hstep).symm⟩)))
  | sweeper id move =>
      obtain ⟨sweeper, hsweeper, hmap⟩ := Option.bind_eq_some_iff.mp hstep
      obtain ⟨⟨tree, after⟩, hmove, rfl⟩ := Option.map_eq_some_iff.mp hmap
      exact Or.inr (Or.inr (Or.inr (Or.inr (Or.inl
        ⟨id, move, sweeper, tree, after, rfl, hsweeper, hmove, rfl⟩))))
  | tick passed =>
      exact Or.inr (Or.inr (Or.inr (Or.inr (Or.inr
        ⟨passed, rfl, (Option.some.inj hstep).symm⟩))))

/-- Every step keeps the invariant. -/
theorem BlobInv.step (hinv : BlobInv digest root world) {event : BlobEvent}
    (hfresh : FreshToken digest root world event)
    (hstep : blobStep digest root world event = some next) :
    BlobInv digest root next := by
  rcases blobStep_cases hstep with ⟨attachments, rfl, rfl⟩ |
    ⟨id, move, writer, shared, after, rfl, hwriter, hmove, rfl⟩ |
    ⟨gone, rfl, rfl⟩ | ⟨maxAge, dryRun, rfl, rfl⟩ |
    ⟨id, move, sweeper, tree, after, rfl, hsweeper, hmove, rfl⟩ |
    ⟨passed, rfl, rfl⟩
  · exact hinv.call attachments
  · exact hinv.of_writer hwriter (hinv.writerStep hwriter hfresh hmove)
  · refine ⟨hinv.held, hinv.intact, ?_, ?_, hinv.apart, hinv.judged⟩
    · intro record hrecord
      exact hinv.records record (List.mem_filter.mp hrecord).1
    · intro writer hmem
      have hok := hinv.writers writer hmem
      refine ⟨hok.rowsOk, hok.temp, ?_, hok.recording⟩
      intro current stage unwritten hstaged
      have hstage := hok.staged current stage unwritten hstaged
      exact ⟨hstage.written, hstage.alone, hstage.own⟩
  · refine ⟨hinv.held, hinv.intact, hinv.records, hinv.writers, hinv.apart, ?_⟩
    intro sweeper hmem
    rcases List.mem_append.mp hmem with hmem | hmem
    · exact hinv.judged sweeper hmem
    · obtain rfl := List.mem_singleton.mp hmem
      exact nofun
  · exact hinv.of_sweeper hsweeper (sweeperStep_effect hmove)
  · exact ⟨hinv.held, hinv.intact, hinv.records, hinv.writers, hinv.apart,
      hinv.judged⟩

end Steps

abbrev BlobRun (digest : Bytes → Bytes) (root : DiskPath) :
    BlobWorld → BlobWorld → Prop :=
  GuardedReach (blobStep digest root) (FreshToken digest root)

theorem reach_blobInv {start : StoreAtRest digest root} {world : BlobWorld}
    (hrun : BlobRun digest root start.world world) :
    BlobInv digest root world :=
  hrun.invariant start.inv fun _ _ _ hinv hfresh hstep =>
    hinv.step hfresh hstep

end Blobs

end Localmail
