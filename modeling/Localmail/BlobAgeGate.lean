/-
The age gate of the sweep.  What a sweep unlinks was older than its gate when it
was judged, and a writer that never lets its temp grow older than every gate
finds it where it left it: judging and unlinking are two steps, but a temp that
was judged belongs to a writer that is late already.
-/
import Localmail.BlobGuarantees

namespace Localmail

namespace Blobs

open Extract (hex)

variable {digest : Bytes → Bytes} {root : DiskPath} {gate : Int}

/-! ### What a writer's operation does to the links and to its own temp -/

section WriterStep

variable {now : Int} {shared next : BlobShared} {writer after : BlobWriter}
  {move : WriterMove}

/-- A path that leads somewhere did so before, is a temp that was minted, or is
the path of a blob. -/
theorem writerStep_links
    (hstep : writerStep digest root now shared writer move = some (next, after))
    {path : DiskPath} {node : Nat} (hnode : next.tree.lookup path = some node) :
    (∃ before, shared.tree.lookup path = some before) ∨ path ∈ next.minted ∨
      ∃ sha256, path = blobPath root (hex sha256) := by
  cases move with
  | raise =>
      obtain ⟨_, -, hpair⟩ := Option.map_eq_some_iff.mp hstep
      obtain ⟨rfl, -⟩ := Prod.mk.inj hpair
      exact Or.inl ⟨node, hnode⟩
  | kill =>
      obtain ⟨_, -, hpair⟩ := Option.map_eq_some_iff.mp hstep
      obtain ⟨rfl, -⟩ := Prod.mk.inj hpair
      exact Or.inl ⟨node, hnode⟩
  | mint pid token =>
      simp only [writerStep] at hstep
      split at hstep
      · obtain ⟨rfl, -⟩ := Prod.mk.inj (Option.some.inj hstep)
        simp only [FileTree.lookup_create] at hnode
        split at hnode
        · rename_i hsame
          exact Or.inr (Or.inl (hsame ▸ List.mem_cons_self))
        · exact Or.inl ⟨node, hnode⟩
      · cases hstep
  | advance =>
      rw [writerStep] at hstep
      unfold advanceWriter at hstep
      split at hstep
      · split at hstep
        · cases hstep
          exact Or.inl ⟨node, hnode⟩
        · split at hstep <;> cases hstep <;> exact Or.inl ⟨node, hnode⟩
      · cases hstep
        exact Or.inl ⟨node, hnode⟩
      · cases hstep
        exact Or.inl ⟨node, hnode⟩
      · split at hstep
        · rename_i tree hrename
          cases hstep
          rw [FileTree.lookup_rename hrename] at hnode
          split at hnode
          · rename_i hsame
            exact Or.inr (Or.inr ⟨_, hsame⟩)
          · split at hnode
            · cases hnode
            · exact Or.inl ⟨node, hnode⟩
        · cases hstep
          exact Or.inl ⟨node, hnode⟩
      · cases hstep
        exact Or.inl ⟨node, hnode⟩
      · cases hstep
        rw [FileTree.lookup_unlink] at hnode
        split at hnode
        · cases hnode
        · exact Or.inl ⟨node, hnode⟩
      all_goals cases hstep

/-- A temp that a writer has after an operation it had before and has just used,
or it has opened it just now. -/
theorem writerStep_staged
    (hstep : writerStep digest root now shared writer move = some (next, after))
    {current : Attachment} {stage : Stage} {unwritten : Bytes}
    (hstaged : after.point.staged? = some (current, stage, unwritten)) :
    (∃ left, writer.point.staged? = some (current, stage, left) ∧
      move = .advance ∧
      ∀ path, next.tree.lookup path = shared.tree.lookup path) ∨
    (∃ pid token, move = .mint pid token ∧ writer.point = .staging current ∧
      stage.temp = newTempPath (canonical digest root current) pid token ∧
      next.tree.lookup stage.temp = some stage.node) := by
  cases move with
  | raise =>
      obtain ⟨_, hraise, hpair⟩ := Option.map_eq_some_iff.mp hstep
      obtain ⟨rfl, rfl⟩ := Prod.mk.inj hpair
      unfold raiseWriter at hraise
      split at hraise <;> cases hraise <;> cases hstaged
  | kill =>
      obtain ⟨_, hkill, hpair⟩ := Option.map_eq_some_iff.mp hstep
      obtain ⟨rfl, rfl⟩ := Prod.mk.inj hpair
      unfold killWriter at hkill
      split at hkill <;> cases hkill
      cases hstaged
  | mint pid token =>
      simp only [writerStep] at hstep
      split at hstep
      · rename_i minting hpoint
        obtain ⟨rfl, rfl⟩ := Prod.mk.inj (Option.some.inj hstep)
        cases hstaged
        refine Or.inr ⟨pid, token, rfl, hpoint, rfl, ?_⟩
        rw [FileTree.lookup_create, if_pos rfl]
      · cases hstep
  | advance =>
      rw [writerStep] at hstep
      generalize hpoint : writer.point = point at hstep
      unfold advanceWriter at hstep
      split at hstep
      · split at hstep
        · cases hstep
          cases hstaged
        · split at hstep <;> cases hstep <;> cases hstaged
      · cases hstep
        cases hstaged
        exact Or.inl ⟨_, rfl, rfl, fun _ => rfl⟩
      · cases hstep
        cases hstaged
        exact Or.inl ⟨_, rfl, rfl, fun _ => rfl⟩
      · split at hstep <;> cases hstep <;> cases hstaged
      · cases hstep
        cases hstaged
      · cases hstep
        cases hstaged
      all_goals cases hstep

end WriterStep

/-! ### Keeping within the gate -/

/-- The node was last written longer ago than the gate. -/
def Stale (gate : Int) (world : BlobWorld) (node : Nat) : Prop :=
  ∃ file, world.shared.tree.nodes[node]? = some file ∧
    gate < world.clock - file.mtime

/-- No sweep runs with a smaller gate, and no writer goes on with a temp that
it has left alone for longer. -/
def OnTime (gate : Int) (world : BlobWorld) : BlobEvent → Prop
  | .sweep maxAge _ => gate ≤ maxAge
  | .writer id .advance => ∀ writer, world.writers[id]? = some writer →
      ∀ node, writer.point.node? = some node → ¬ Stale gate world node
  | _ => True

def InTime (digest : Bytes → Bytes) (root : DiskPath) (gate : Int)
    (world : BlobWorld) (event : BlobEvent) : Prop :=
  FreshToken digest root world event ∧ OnTime gate world event

/-- A temp that has lost its path is stale, and so is one that was judged. -/
structure GateInv (gate : Int) (world : BlobWorld) : Prop where
  known : ∀ path node, world.shared.tree.lookup path = some node →
    isWriterTemp (path.getLastD []) = true → path ∈ world.shared.minted
  sweepers : ∀ sweeper ∈ world.sweepers,
    gate ≤ sweeper.maxAge ∧ sweeper.now ≤ world.clock
  minted : ∀ sweeper ∈ world.sweepers, ∀ path size,
    sweeper.judged = some (path, size) → path ∈ world.shared.minted
  held : ∀ writer ∈ world.writers, ∀ current stage unwritten,
    writer.point.staged? = some (current, stage, unwritten) →
    world.shared.tree.lookup stage.temp = some stage.node ∨
      Stale gate world stage.node
  judged : ∀ sweeper ∈ world.sweepers, ∀ path size,
    sweeper.judged = some (path, size) →
    ∀ writer ∈ world.writers, ∀ current stage unwritten,
    writer.point.staged? = some (current, stage, unwritten) →
    stage.temp = path → Stale gate world stage.node

theorem StoreAtRest.gateInv (start : StoreAtRest digest root) (gate : Int) :
    GateInv gate start.world := by
  refine ⟨start.known, ?_, ?_, ?_, ?_⟩
  · rw [start.unswept]
    exact fun _ hmem => absurd hmem List.not_mem_nil
  · rw [start.unswept]
    exact fun _ hmem => absurd hmem List.not_mem_nil
  · rw [start.idle]
    exact fun _ hmem => absurd hmem List.not_mem_nil
  · rw [start.unswept]
    exact fun _ hmem => absurd hmem List.not_mem_nil

section Steps

variable {world : BlobWorld} (hinv : BlobInv digest root world)
  (hgate : GateInv gate world)

include hinv hgate

theorem GateInv.writerStep {id : Nat} {writer after : BlobWriter}
    {shared : BlobShared} {move : WriterMove}
    (hwriter : world.writers[id]? = some writer)
    (hfresh : FreshToken digest root world (.writer id move))
    (htime : OnTime gate world (.writer id move))
    (hstep : writerStep digest root world.clock world.shared writer move =
      some (shared, after)) :
    GateInv gate
      { world with shared := shared, writers := world.writers.set id after } := by
  have heffect := hinv.writerStep hwriter hfresh hstep
  obtain ⟨actor, hchange, hspared, -⟩ := heffect.change
  have hrival (place : Nat) (rival : BlobWriter) (hne : place ≠ id)
      (hthere : world.writers[place]? = some rival) (current : Attachment)
      (stage : Stage) (unwritten : Bytes)
      (hstaged : rival.point.staged? = some (current, stage, unwritten)) :
      shared.tree.lookup stage.temp = world.shared.tree.lookup stage.temp ∧
        shared.tree.nodes[stage.node]? =
          world.shared.tree.nodes[stage.node]? := by
    have hok := hinv.writerOk hthere
    obtain ⟨htemp, hnode⟩ :=
      hspared place rival hne hthere current stage unwritten hstaged
    have hisTemp := (hok.temp _ (temp?_of_staged hstaged).1).1
    exact ⟨hchange.lookup_other htemp hisTemp.ne_blobPath,
      (hchange.nodes (hok.staged _ _ _ hstaged).lt).2 hnode⟩
  have hintime (current : Attachment) (stage : Stage) (left : Bytes)
      (hadvance : move = .advance)
      (hstaged : writer.point.staged? = some (current, stage, left)) :
      ¬ Stale gate world stage.node := by
    subst hadvance
    exact htime writer hwriter stage.node (temp?_of_staged hstaged).2.1
  refine ⟨?_, hgate.sweepers, ?_, ?_, ?_⟩
  · intro path node hnode hname
    rcases writerStep_links hstep hnode with ⟨before, hbefore⟩ | hminted |
      ⟨sha256, rfl⟩
    · exact heffect.minted path (hgate.known path before hbefore hname)
    · exact hminted
    · rw [getLastD_blobPath, isWriterTemp_hex] at hname
      cases hname
  · intro sweeper hmem path size hjudged
    exact heffect.minted path (hgate.minted sweeper hmem path size hjudged)
  · intro other hmem current stage unwritten hstaged
    obtain ⟨place, hplace⟩ := List.getElem?_of_mem hmem
    rcases procs_set_cases hplace with ⟨-, rfl⟩ | ⟨hne, hthere⟩
    · rcases writerStep_staged hstep hstaged with
        ⟨left, hleft, hadvance, hlookup⟩ | ⟨pid, token, -, -, -, hlinked⟩
      · have hlinked := (hgate.held writer (List.mem_of_getElem? hwriter) current
          stage left hleft).resolve_right
            (hintime current stage left hadvance hleft)
        exact Or.inl ((hlookup stage.temp).trans hlinked)
      · exact Or.inl hlinked
    · obtain ⟨hlookup, hnodes⟩ :=
        hrival place other hne hthere current stage unwritten hstaged
      rcases hgate.held other (List.mem_of_getElem? hthere) current stage
        unwritten hstaged with hlinked | ⟨file, hfile, hold⟩
      · exact Or.inl (hlookup.trans hlinked)
      · exact Or.inr ⟨file, hnodes.trans hfile, hold⟩
  · intro sweeper hmem path size hjudged other hother current stage unwritten
      hstaged htemp
    obtain ⟨place, hplace⟩ := List.getElem?_of_mem hother
    rcases procs_set_cases hplace with ⟨-, rfl⟩ | ⟨hne, hthere⟩
    · rcases writerStep_staged hstep hstaged with
        ⟨left, hleft, hadvance, -⟩ | ⟨pid, token, rfl, hpoint, hminted, -⟩
      · have hstale := hgate.judged sweeper hmem path size hjudged writer
          (List.mem_of_getElem? hwriter) current stage left hleft htemp
        exact absurd hstale (hintime current stage left hadvance hleft)
      · have hknown := hgate.minted sweeper hmem path size hjudged
        simp only [FreshToken, freshToken, hwriter, Option.map_some, hpoint,
          Bool.and_eq_true, decide_eq_true_eq] at hfresh
        rw [← htemp, hminted] at hknown
        exact absurd hknown hfresh.1.2
    · obtain ⟨-, hnodes⟩ :=
        hrival place other hne hthere current stage unwritten hstaged
      obtain ⟨file, hfile, hold⟩ := hgate.judged sweeper hmem path size hjudged
        other (List.mem_of_getElem? hthere) current stage unwritten hstaged htemp
      exact ⟨file, hnodes.trans hfile, hold⟩

theorem GateInv.sweeperStep {id : Nat} {sweeper after : Sweeper}
    {tree : BlobTree} {move : SweepMove}
    (hsweeper : world.sweepers[id]? = some sweeper)
    (hstep : sweeperStep root world.shared.tree sweeper move =
      some (tree, after)) :
    GateInv gate { world with
      shared := { world.shared with tree := tree }
      sweepers := world.sweepers.set id after } := by
  have heffect := sweeperStep_effect hstep
  have hmem := List.mem_of_getElem? hsweeper
  obtain ⟨hmaxAge, hnow⟩ := hgate.sweepers sweeper hmem
  obtain ⟨hsameAge, hsameNow, -⟩ := heffect.same
  have hnodes : tree.nodes = world.shared.tree.nodes := by
    rcases heffect.change with rfl | ⟨path, size, -, rfl⟩ <;> rfl
  have hstale {node : Nat} (hold : Stale gate world node) :
      Stale gate { world with
        shared := { world.shared with tree := tree }
        sweepers := world.sweepers.set id after } node := by
    obtain ⟨file, hfile, hage⟩ := hold
    exact ⟨file, by rw [hnodes]; exact hfile, hage⟩
  refine ⟨?_, ?_, ?_, ?_, ?_⟩
  · intro path node hnode
    rcases heffect.change with rfl | ⟨other, size, -, rfl⟩
    · exact hgate.known path node hnode
    · rw [FileTree.lookup_unlink] at hnode
      split at hnode
      · cases hnode
      · exact hgate.known path node hnode
  · intro other hother
    rcases List.mem_or_eq_of_mem_set hother with hother | rfl
    · exact hgate.sweepers other hother
    · rw [hsameAge, hsameNow]
      exact ⟨hmaxAge, hnow⟩
  · intro other hother path size hjudged
    rcases List.mem_or_eq_of_mem_set hother with hother | rfl
    · exact hgate.minted other hother path size hjudged
    · rcases (heffect.judged path size hjudged).2 with hold | hnew
      · exact hgate.minted sweeper hmem path size hold
      · obtain ⟨file, hread, -⟩ := hnew.expired
        obtain ⟨node, hnode, -⟩ := Option.bind_eq_some_iff.mp hread
        exact hgate.known path node hnode hnew.isTemp
  · intro writer hwriter current stage unwritten hstaged
    rcases hgate.held writer hwriter current stage unwritten hstaged with
      hlinked | hold
    · rcases heffect.change with rfl | ⟨path, size, hjudged, rfl⟩
      · exact Or.inl hlinked
      · by_cases htemp : stage.temp = path
        · exact Or.inr (hstale (hgate.judged sweeper hmem path size hjudged writer
            hwriter current stage unwritten hstaged htemp))
        · refine Or.inl ?_
          rw [FileTree.lookup_unlink, if_neg htemp]
          exact hlinked
    · exact Or.inr (hstale hold)
  · intro other hother path size hjudged writer hwriter current stage unwritten
      hstaged htemp
    rcases List.mem_or_eq_of_mem_set hother with hother | rfl
    · exact hstale (hgate.judged other hother path size hjudged writer hwriter
        current stage unwritten hstaged htemp)
    · rcases (heffect.judged path size hjudged).2 with hold | hnew
      · exact hstale (hgate.judged sweeper hmem path size hold writer hwriter
          current stage unwritten hstaged htemp)
      · obtain ⟨file, hread, -, hage⟩ := hnew.expired
        obtain ⟨node, hnode, hfile⟩ := Option.bind_eq_some_iff.mp hread
        have hstage := (hinv.writers writer hwriter).staged _ _ _ hstaged
        rw [← htemp] at hnode
        obtain rfl := hstage.own node hnode
        refine hstale ⟨file, hfile, ?_⟩
        omega

/-- Every step in time keeps it. -/
theorem GateInv.step {event : BlobEvent} {next : BlobWorld}
    (hfresh : FreshToken digest root world event)
    (htime : OnTime gate world event)
    (hstep : blobStep digest root world event = some next) :
    GateInv gate next := by
  rcases blobStep_cases hstep with ⟨attachments, rfl, rfl⟩ |
    ⟨id, move, writer, shared, after, rfl, hwriter, hmove, rfl⟩ |
    ⟨gone, rfl, rfl⟩ | ⟨maxAge, dryRun, rfl, rfl⟩ |
    ⟨id, move, sweeper, tree, after, rfl, hsweeper, hmove, rfl⟩ |
    ⟨passed, rfl, rfl⟩
  · have hold : ∀ writer ∈ world.writers ++ [⟨attachments, [], .checking⟩],
        ∀ current stage unwritten,
        writer.point.staged? = some (current, stage, unwritten) →
        writer ∈ world.writers := by
      intro writer hmem current stage unwritten hstaged
      rcases List.mem_append.mp hmem with hmem | hmem
      · exact hmem
      · obtain rfl := List.mem_singleton.mp hmem
        cases hstaged
    refine ⟨hgate.known, hgate.sweepers, hgate.minted, ?_, ?_⟩
    · intro writer hmem current stage unwritten hstaged
      exact hgate.held writer (hold writer hmem _ _ _ hstaged) _ _ _ hstaged
    · intro sweeper hsweeper path size hjudged writer hmem current stage
        unwritten hstaged
      exact hgate.judged sweeper hsweeper path size hjudged writer
        (hold writer hmem _ _ _ hstaged) _ _ _ hstaged
  · exact hgate.writerStep hinv hwriter hfresh htime hmove
  · exact ⟨hgate.known, hgate.sweepers, hgate.minted, hgate.held, hgate.judged⟩
  · have hjudged : ∀ sweeper ∈ world.sweepers ++
        [newSweeper maxAge world.clock dryRun], ∀ path size,
        sweeper.judged = some (path, size) → sweeper ∈ world.sweepers := by
      intro sweeper hmem path size hjudged
      rcases List.mem_append.mp hmem with hmem | hmem
      · exact hmem
      · obtain rfl := List.mem_singleton.mp hmem
        cases hjudged
    refine ⟨hgate.known, ?_, ?_, hgate.held, ?_⟩
    · intro sweeper hmem
      rcases List.mem_append.mp hmem with hmem | hmem
      · exact hgate.sweepers sweeper hmem
      · obtain rfl := List.mem_singleton.mp hmem
        exact ⟨htime, Int.le_refl _⟩
    · intro sweeper hmem path size hsome
      exact hgate.minted sweeper (hjudged sweeper hmem path size hsome) path size
        hsome
    · intro sweeper hmem path size hsome
      exact hgate.judged sweeper (hjudged sweeper hmem path size hsome) path size
        hsome
  · exact hgate.sweeperStep hinv hsweeper hmove
  · have hstale {node : Nat} (hold : Stale gate world node) :
        Stale gate { world with clock := world.clock + (passed : Nat) } node := by
      obtain ⟨file, hfile, hage⟩ := hold
      refine ⟨file, hfile, ?_⟩
      dsimp only
      omega
    refine ⟨hgate.known, ?_, hgate.minted, ?_, ?_⟩
    · intro sweeper hmem
      obtain ⟨hmaxAge, hnow⟩ := hgate.sweepers sweeper hmem
      refine ⟨hmaxAge, ?_⟩
      dsimp only
      omega
    · intro writer hmem current stage unwritten hstaged
      exact (hgate.held writer hmem current stage unwritten hstaged).imp_right
        hstale
    · intro sweeper hmem path size hjudged writer hwriter current stage unwritten
        hstaged htemp
      exact hstale (hgate.judged sweeper hmem path size hjudged writer hwriter
        current stage unwritten hstaged htemp)

end Steps

/-- In a run in time, a writer that is not late itself finds its temp where it
left it, however the sweeps go: moving it into place does not fail. -/
theorem sweep_spares_live_writers (start : StoreAtRest digest root)
    {world : BlobWorld}
    (hrun : GuardedReach (blobStep digest root) (InTime digest root gate)
      start.world world)
    {writer : BlobWriter} (hwriter : writer ∈ world.writers)
    {current : Attachment} {stage : Stage} {unwritten : Bytes}
    (hstaged : writer.point.staged? = some (current, stage, unwritten))
    (hlive : ¬ Stale gate world stage.node) :
    world.shared.tree.lookup stage.temp = some stage.node ∧
      (world.shared.tree.rename stage.temp
        (canonical digest root current)).isSome = true := by
  have hstart : BlobInv digest root start.world ∧ GateInv gate start.world :=
    ⟨start.inv, start.gateInv gate⟩
  have hboth : BlobInv digest root world ∧ GateInv gate world := by
    refine @GuardedReach.invariant _ _ _ _
      (fun world => BlobInv digest root world ∧ GateInv gate world)
      _ _ hrun hstart ?_
    rintro before event after ⟨hinv, hgate⟩ ⟨hfresh, htime⟩ hstep
    exact ⟨hinv.step hfresh hstep, hgate.step hinv hfresh htime hstep⟩
  have hlinked := (hboth.2.held writer hwriter current stage unwritten
    hstaged).resolve_right hlive
  refine ⟨hlinked, ?_⟩
  rw [FileTree.rename, hlinked]
  rfl

instance decideStale (gate : Int) (world : BlobWorld) (node : Nat) :
    Decidable (Stale gate world node) :=
  decidable_of_iff (∃ file ∈ world.shared.tree.nodes[node]?,
    gate < world.clock - file.mtime) Iff.rfl

instance decideOnTime (gate : Int) (world : BlobWorld) :
    (event : BlobEvent) → Decidable (OnTime gate world event)
  | .sweep maxAge _ => inferInstanceAs (Decidable (gate ≤ maxAge))
  | .writer id .advance =>
      inferInstanceAs (Decidable (∀ writer ∈ world.writers[id]?,
        ∀ node ∈ writer.point.node?, ¬ Stale gate world node))
  | .writer _ (.mint _ _) | .writer _ .raise | .writer _ .kill | .call _
  | .rollback _ | .sweeper _ _ | .tick _ => inferInstanceAs (Decidable True)

instance decideInTime (digest : Bytes → Bytes) (root : DiskPath) (gate : Int)
    (world : BlobWorld) (event : BlobEvent) :
    Decidable (InTime digest root gate world event) :=
  inferInstanceAs (Decidable (_ ∧ _))

open StoredTwice in
theorem sweep_spares_live_writers_beside_killed : ∃ world writer stage unwritten,
    GuardedReach (blobStep zeroFilled []) (InTime zeroFilled [] 10) empty.world world ∧
    writer ∈ world.writers ∧
    writer.point.staged? = some (note, stage, unwritten) ∧
    (world.shared.tree.rename stage.temp (canonical zeroFilled [] note)).isSome =
      true := by
  have hreplay : (replayGuarded (blobStep zeroFilled []) (InTime zeroFilled [] 10)
      empty.world (run.take 17)).map (fun world =>
        (world.writers.map BlobWriter.point, decide (Stale 10 world 1))) =
      some ([.killed, .replacing note ⟨newTempPath (canonical zeroFilled [] note) 4
        (token (text "b")), 1⟩], false) := by
    decide +kernel
  obtain ⟨world, hworld, hends⟩ := Option.map_eq_some_iff.mp hreplay
  obtain ⟨hpoints, hlive⟩ := Prod.mk.inj hends
  obtain ⟨writer, hmem, hpoint⟩ := List.mem_map.mp
    (hpoints ▸ List.mem_cons_of_mem _ (List.mem_singleton_self _) :
      WriterPoint.replacing note ⟨newTempPath (canonical zeroFilled [] note) 4
        (token (text "b")), 1⟩ ∈ world.writers.map BlobWriter.point)
  have hrun := GuardedReach.of_replay (run.take 17) hworld
  have hstaged : writer.point.staged? = some (note,
      ⟨newTempPath (canonical zeroFilled [] note) 4 (token (text "b")), 1⟩, []) := by
    rw [hpoint]
    rfl
  exact ⟨world, writer, _, _, hrun, hmem, hstaged,
    (sweep_spares_live_writers empty hrun hmem hstaged
      (of_decide_eq_false hlive)).2⟩

end Blobs

end Localmail
