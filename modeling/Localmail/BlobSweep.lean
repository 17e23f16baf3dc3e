/-
The sweep of the blob tree: in any run it unlinks only what it found expired,
and a sweep that nothing interferes with removes exactly the expired temps of
the directories it lists and reports exactly that, a dry run included.
-/
import Localmail.BlobGuarantees

namespace Localmail

namespace Blobs

variable {digest : Bytes → Bytes} {root : DiskPath}

/-! ### Among others -/

theorem Judged.of_same {tree : BlobTree} {sweeper after : Sweeper}
    {path : DiskPath} {size : Nat} (hjudged : Judged tree sweeper path size)
    (hsame : after.maxAge = sweeper.maxAge ∧ after.now = sweeper.now ∧
      after.dryRun = sweeper.dryRun) : Judged tree after path size where
  isTemp := hjudged.isTemp
  wet := hsame.2.2.trans hjudged.wet
  expired := by
    rw [hsame.1, hsame.2.1]
    exact hjudged.expired

/-- What a sweep has judged, it judged in a state the run has been through. -/
theorem judged_in_the_past {start : BlobWorld} {world : BlobWorld}
    (hrun : BlobRun digest root start world)
    (hstart : start.sweepers = []) : ∀ sweeper ∈ world.sweepers,
      ∀ path size, sweeper.judged = some (path, size) →
      ∃ before, BlobRun digest root start before ∧
        BlobRun digest root before world ∧
        Judged before.shared.tree sweeper path size := by
  induction hrun with
  | refl =>
      rw [hstart]
      exact fun _ hmem => absurd hmem List.not_mem_nil
  | @tail world next event hbefore hfresh hstep ih =>
      have hpast {sweeper : Sweeper} (hmem : sweeper ∈ world.sweepers)
          {path : DiskPath} {size : Nat}
          (hjudged : sweeper.judged = some (path, size)) :
          ∃ before, BlobRun digest root start before ∧
            BlobRun digest root before next ∧
            Judged before.shared.tree sweeper path size := by
        obtain ⟨before, hto, hsince, hpast⟩ := ih sweeper hmem path size hjudged
        exact ⟨before, hto, hsince.tail hfresh hstep, hpast⟩
      intro sweeper hmem path size hjudged
      rcases blobStep_cases hstep with ⟨attachments, rfl, rfl⟩ |
        ⟨id, move, writer, shared, after, rfl, hwriter, hmove, rfl⟩ |
        ⟨gone, rfl, rfl⟩ | ⟨maxAge, dryRun, rfl, rfl⟩ |
        ⟨id, move, acting, tree, after, rfl, hacting, hmove, rfl⟩ |
        ⟨passed, rfl, rfl⟩
      · exact hpast hmem hjudged
      · exact hpast hmem hjudged
      · exact hpast hmem hjudged
      · rcases List.mem_append.mp hmem with hmem | hmem
        · exact hpast hmem hjudged
        · obtain rfl := List.mem_singleton.mp hmem
          cases hjudged
      · have heffect := sweeperStep_effect hmove
        rcases List.mem_or_eq_of_mem_set hmem with hmem | rfl
        · exact hpast hmem hjudged
        · rcases (heffect.judged path size hjudged).2 with hold | hnew
          · obtain ⟨before, hto, hsince, hthen⟩ :=
              hpast (List.mem_of_getElem? hacting) hold
            exact ⟨before, hto, hsince, hthen.of_same heffect.same⟩
          · exact ⟨world, hbefore, GuardedReach.refl.tail hfresh hstep,
              hnew.of_same heffect.same⟩
      · exact hpast hmem hjudged

/-- In every run, a path that a sweep's step leaves without a file had a
writer's temp name and was older than the gate when that sweep, no dry run,
read its age. -/
theorem sweep_unlinks_only_expired (start : StoreAtRest digest root)
    {world next : BlobWorld} (hrun : BlobRun digest root start.world world)
    {id : Nat} {move : SweepMove}
    (hstep : blobStep digest root world (.sweeper id move) = some next)
    {path : DiskPath} (hthere : (world.shared.tree.lookup path).isSome = true)
    (hgone : next.shared.tree.lookup path = none) :
    ∃ sweeper before file, world.sweepers[id]? = some sweeper ∧
      sweeper.dryRun = false ∧ isWriterTemp (path.getLastD []) = true ∧
      BlobRun digest root start.world before ∧
      BlobRun digest root before world ∧
      before.shared.tree.read path = some file ∧
      sweeper.maxAge < sweeper.now - file.mtime := by
  obtain ⟨sweeper, hsweeper, hmap⟩ := Option.bind_eq_some_iff.mp hstep
  obtain ⟨⟨tree, after⟩, hmove, rfl⟩ := Option.map_eq_some_iff.mp hmap
  have heffect := sweeperStep_effect hmove
  rcases heffect.change with rfl | ⟨other, size, hjudged, rfl⟩
  · rw [show world.shared.tree.lookup path = none from hgone] at hthere
    cases hthere
  · rw [FileTree.lookup_unlink] at hgone
    split at hgone
    · rename_i hsame
      subst hsame
      obtain ⟨before, hto, hsince, hpast⟩ := judged_in_the_past hrun start.unswept
        sweeper (List.mem_of_getElem? hsweeper) path size hjudged
      obtain ⟨file, hfile, -, hage⟩ := hpast.expired
      exact ⟨sweeper, before, file, hsweeper, hpast.wet, hpast.isTemp, hto,
        hsince, hfile, hage⟩
    · rw [hgone] at hthere
      cases hthere

open StoredTwice in
theorem sweep_unlinks_only_expired_killed : ∃ world next path,
    BlobRun zeroFilled [] empty.world world ∧
    blobStep zeroFilled [] world (.sweeper 0 .advance) = some next ∧
    (world.shared.tree.lookup path).isSome = true ∧
    next.shared.tree.lookup path = none ∧
    ∃ sweeper before file, world.sweepers[0]? = some sweeper ∧
      BlobRun zeroFilled [] before world ∧
      before.shared.tree.read path = some file ∧
      sweeper.maxAge < sweeper.now - file.mtime := by
  have hreplay : (replayGuarded (blobStep zeroFilled []) (FreshToken zeroFilled [])
      empty.world (run.take 18)).map (fun world =>
        ((world.shared.tree.lookup (newTempPath (canonical zeroFilled [] note) 3
            (token (text "a")))).isSome,
          (blobStep zeroFilled [] world (.sweeper 0 .advance)).map fun next =>
            next.shared.tree.lookup (newTempPath (canonical zeroFilled [] note) 3
              (token (text "a"))))) =
      some (true, some none) := by
    decide +kernel
  obtain ⟨world, hworld, hends⟩ := Option.map_eq_some_iff.mp hreplay
  obtain ⟨hthere, hnext⟩ := Prod.mk.inj hends
  obtain ⟨next, hstep, hgone⟩ := Option.map_eq_some_iff.mp hnext
  have hrun := GuardedReach.of_replay (run.take 18) hworld
  obtain ⟨sweeper, before, file, hsweeper, -, -, -, hsince, hread, hage⟩ :=
    sweep_unlinks_only_expired empty hrun hstep hthere hgone
  exact ⟨world, next, _, hrun, hstep, hthere, hgone, sweeper, before, file,
    hsweeper, hsince, hread, hage⟩

/-! ### Alone -/

/-- The operations of one sweep, one after the other. -/
def runSweeper (root : DiskPath) (state : BlobTree × Sweeper)
    (moves : List SweepMove) : Option (BlobTree × Sweeper) :=
  moves.foldlM (fun state move => sweeperStep root state.1 state.2 move) state

def SweepMove.listed? : SweepMove → Option DiskPath
  | .list directory => some directory
  | _ => none

section Alone

variable (tree : BlobTree) (first : Sweeper)

def namedTemp (path : DiskPath) : Bool :=
  isWriterTemp (path.getLastD [])

def expiredIn (path : DiskPath) : Bool :=
  namedTemp path && (tree.read path).any fun file =>
    isExpired file.mtime first.now first.maxAge

def sizeIn (path : DiskPath) : Nat :=
  ((tree.read path).map fun file => file.bytes.length).getD 0

/-- What is to be reported of the files: each that was seen, each that was
recognised, and each that was expired with its size. -/
def reportOf (walked handled seen : List DiskPath) : SweepResult where
  walked := walked.length
  scanned := seen.countP namedTemp
  removed := handled.countP (expiredIn tree first)
  bytesReclaimed := ((handled.filter (expiredIn tree first)).map
    (sizeIn tree)).sum
  errors := 0

/-- The tree without the expired ones of the files, a dry run apart. -/
def sweptTree (handled : List DiskPath) : BlobTree :=
  if first.dryRun then tree
  else { tree with
    links := tree.links.filter fun link =>
      ¬ (link.1 ∈ handled ∧ expiredIn tree first link.1 = true) }

/-- A sweep under way: of the files of the directories it has listed, the
first have been dealt with, one may be in hand, and the rest is pending. -/
structure SweptSoFar (listed handled : List DiskPath)
    (state : BlobTree × Sweeper) : Prop where
  parts : listed.flatMap (filesIn tree) =
    handled ++ (state.2.judged.map Prod.fst).toList ++ state.2.pending
  swept : state.1 = sweptTree tree first handled
  result : state.2.result = reportOf tree first
    (listed.flatMap (filesIn tree)) handled
    (handled ++ (state.2.judged.map Prod.fst).toList)
  inHand : ∀ path size, state.2.judged = some (path, size) →
    expiredIn tree first path = true ∧ size = sizeIn tree path ∧
      first.dryRun = false
  same : state.2.maxAge = first.maxAge ∧ state.2.now = first.now ∧
    state.2.dryRun = first.dryRun
  stopped : state.2.finished = true →
    state.2.pending = [] ∧ state.2.judged = none

end Alone

variable {tree : BlobTree} {first : Sweeper}

theorem mem_filesIn {directory path : DiskPath} :
    path ∈ filesIn tree directory ↔
      path ∈ tree.links.map Prod.fst ∧ path ≠ [] ∧ path.dropLast = directory := by
  rw [filesIn, List.mem_filter, decide_eq_true_eq]

theorem nodup_flatMap_filesIn (hdistinct : (tree.links.map Prod.fst).Nodup)
    {listed : List DiskPath} (hlisted : listed.Nodup) :
    (listed.flatMap (filesIn tree)).Nodup := by
  refine List.nodup_flatMap.mpr ⟨fun _ _ => hdistinct.filter _, ?_⟩
  refine hlisted.imp ?_
  intro left right hne path hleft hright
  exact hne ((mem_filesIn.mp hleft).2.2.symm.trans (mem_filesIn.mp hright).2.2)

theorem lookup_sweptTree (handled : List DiskPath) (path : DiskPath) :
    (sweptTree tree first handled).lookup path =
      if first.dryRun = false ∧ path ∈ handled ∧
          expiredIn tree first path = true then none
      else tree.lookup path := by
  unfold sweptTree
  by_cases hdry : first.dryRun = true
  · simp [hdry]
  · rw [if_neg hdry]
    simp only [eq_false_of_ne_true hdry, true_and]
    rw [FileTree.lookup, List.find?_filter]
    split
    · rename_i hgone
      rw [Option.map_eq_none_iff, List.find?_eq_none]
      intro link _
      by_cases hsame : link.1 = path
      · simp [hsame, hgone]
      · simp [hsame]
    · rename_i hkept
      rw [FileTree.lookup]
      congr 2
      funext link
      by_cases hsame : link.1 = path
      · simp [hsame, hkept]
      · simp [hsame]

/-- A file that has not been dealt with is as it was. -/
theorem read_sweptTree {handled : List DiskPath} {path : DiskPath}
    (hpath : path ∉ handled) :
    (sweptTree tree first handled).read path = tree.read path := by
  have hnodes : (sweptTree tree first handled).nodes = tree.nodes := by
    unfold sweptTree
    split <;> rfl
  rw [FileTree.read, FileTree.read, lookup_sweptTree, hnodes]
  simp [hpath]

/-- Dealing with one file more. -/
theorem sweptTree_append (handled : List DiskPath) (path : DiskPath) :
    sweptTree tree first (handled ++ [path]) =
      if first.dryRun = false ∧ expiredIn tree first path = true then
        (sweptTree tree first handled).unlink path
      else sweptTree tree first handled := by
  unfold sweptTree
  by_cases hdry : first.dryRun = true
  · simp [hdry]
  · simp only [hdry, Bool.false_eq_true, ↓reduceIte, true_and]
    split
    · rename_i hexpired
      rw [FileTree.unlink, List.filter_filter]
      congr 1
      refine List.filter_congr fun link _ => ?_
      by_cases hsame : link.1 = path
      · simp [hsame, hexpired]
      · simp [hsame]
    · rename_i hfresh
      congr 1
      refine List.filter_congr fun link _ => ?_
      by_cases hsame : link.1 = path
      · simp [hsame, hfresh]
      · simp [hsame]

/-- Sweeping other directories leaves the files of this one. -/
theorem filesIn_sweptTree {handled : List DiskPath} {directory : DiskPath}
    (hother : ∀ path ∈ handled, path.dropLast ≠ directory) :
    filesIn (sweptTree tree first handled) directory =
      filesIn tree directory := by
  unfold sweptTree
  split
  · rfl
  · rw [filesIn, filesIn, List.filter_map, List.filter_map, List.filter_filter]
    congr 1
    refine List.filter_congr fun link _ => ?_
    by_cases hdirectory : link.1.dropLast = directory
    · have hnot : link.1 ∉ handled := fun hmem => hother _ hmem hdirectory
      simp [hnot]
    · simp [hdirectory]

theorem reportOf_append (walked handled seen : List DiskPath) (path : DiskPath) :
    reportOf tree first walked (handled ++ [path]) seen =
      if expiredIn tree first path = true then
        (reportOf tree first walked handled seen).countRemoved (sizeIn tree path)
      else reportOf tree first walked handled seen := by
  simp only [reportOf, List.countP_append, List.countP_singleton,
    List.filter_append, List.map_append, List.sum_append]
  split
  · rename_i hexpired
    simp [SweepResult.countRemoved, hexpired]
  · rename_i hfresh
    simp [hfresh]

theorem reportOf_seen (walked handled seen : List DiskPath) (path : DiskPath) :
    reportOf tree first walked handled (seen ++ [path]) =
      if namedTemp path = true then
        (reportOf tree first walked handled seen).countScanned
      else reportOf tree first walked handled seen := by
  simp only [reportOf, List.countP_append, List.countP_singleton]
  split <;> rfl

section Steps

variable (hdistinct : (tree.links.map Prod.fst).Nodup)
  {listed handled : List DiskPath} {state next : BlobTree × Sweeper}
  (hsofar : SweptSoFar tree first listed handled state)

include hsofar

theorem SweptSoFar.list {directory : DiskPath}
    (hnew : directory ∉ listed)
    (hstep : sweeperStep root state.1 state.2 (.list directory) = some next) :
    SweptSoFar tree first (listed ++ [directory]) handled next := by
  simp only [sweeperStep] at hstep
  split at hstep
  · rename_i hbetween
    have hpause := hbetween.1
    simp only [Sweeper.betweenFiles, decide_eq_true_eq] at hpause
    obtain ⟨hpending, hjudged, hrunning⟩ := hpause
    obtain rfl := Option.some.inj hstep
    have hparts := hsofar.parts
    rw [hjudged, hpending] at hparts
    simp only [Option.map_none, Option.toList_none, List.append_nil] at hparts
    have hfiles : filesIn state.1 directory = filesIn tree directory := by
      rw [hsofar.swept]
      refine filesIn_sweptTree fun path hpath hsame => ?_
      rw [← hparts] at hpath
      obtain ⟨other, hother, hmem⟩ := List.mem_flatMap.mp hpath
      exact hnew (hsame ▸ (mem_filesIn.mp hmem).2.2 ▸ hother)
    refine ⟨?_, hsofar.swept, ?_, ?_, hsofar.same, ?_⟩
    · simp only [List.flatMap_append, List.flatMap_cons, List.flatMap_nil,
        List.append_nil, hjudged, Option.map_none, Option.toList_none, hparts,
        hfiles]
    · simp only [List.flatMap_append, List.flatMap_cons, List.flatMap_nil,
        List.append_nil, hsofar.result, hfiles, reportOf, List.length_append]
    · intro path size hsome
      exact hsofar.inHand path size hsome
    · intro hfinished
      simp only [hrunning] at hfinished
      cases hfinished
  · cases hstep

include hdistinct

/-- Unlinking the file in hand. -/
theorem SweptSoFar.unlink (hlisted : listed.Nodup) {path : DiskPath} {size : Nat}
    (hjudged : state.2.judged = some (path, size)) :
    SweptSoFar tree first listed (handled ++ [path])
      (unlinkJudged state.1 state.2 path size) := by
  obtain ⟨hexpired, hsize, hwet⟩ := hsofar.inHand path size hjudged
  have hparts := hsofar.parts
  simp only [hjudged, Option.map_some, Option.toList_some] at hparts
  have hnodup := nodup_flatMap_filesIn hdistinct hlisted
  rw [hparts, List.append_assoc] at hnodup
  have hnot : path ∉ handled := by
    intro hmem
    exact (List.nodup_append.mp hnodup).2.2 path hmem path
      (List.mem_append_left _ (List.mem_singleton_self path)) rfl
  have hread : state.1.read path = tree.read path := by
    rw [hsofar.swept, read_sweptTree hnot]
  have hthere : ∃ node, state.1.lookup path = some node := by
    rw [expiredIn, Bool.and_eq_true, ← hread, Option.any_eq_true] at hexpired
    obtain ⟨-, file, hfile, -⟩ := hexpired
    obtain ⟨node, hnode, -⟩ := Option.bind_eq_some_iff.mp hfile
    exact ⟨node, hnode⟩
  obtain ⟨node, hnode⟩ := hthere
  rw [unlinkJudged, hnode]
  have hrunning : state.2.finished ≠ true := by
    intro hfinished
    rw [(hsofar.stopped hfinished).2] at hjudged
    cases hjudged
  refine ⟨?_, ?_, ?_, nofun, hsofar.same,
    fun hfinished => absurd hfinished hrunning⟩
  · simpa using hparts
  · rw [sweptTree_append, if_pos ⟨hwet, hexpired⟩, ← hsofar.swept]
  · simp only [Option.map_none, Option.toList_none, List.append_nil]
    rw [reportOf_append, if_pos hexpired, hsofar.result, hjudged, hsize]
    rfl

/-- Judging the next file. -/
theorem SweptSoFar.judge (hlisted : listed.Nodup) {path : DiskPath}
    {rest : List DiskPath} (hjudged : state.2.judged = none)
    (hpending : state.2.pending = path :: rest) :
    ∃ after, SweptSoFar tree first listed after
      (state.1, judgeFile state.1 state.2 path rest) := by
  have hparts := hsofar.parts
  simp only [hjudged, hpending, Option.map_none, Option.toList_none,
    List.append_nil] at hparts
  have hnodup := nodup_flatMap_filesIn hdistinct hlisted
  rw [hparts] at hnodup
  have hnot : path ∉ handled := by
    intro hmem
    exact (List.nodup_append.mp hnodup).2.2 path hmem path List.mem_cons_self rfl
  have hread : state.1.read path = tree.read path := by
    rw [hsofar.swept, read_sweptTree hnot]
  have hresult := hsofar.result
  simp only [hjudged, Option.map_none, Option.toList_none,
    List.append_nil] at hresult
  have hmoved : listed.flatMap (filesIn tree) =
      handled ++ [path] ++ [] ++ rest := by
    rw [hparts]
    simp
  have hrunning : state.2.finished ≠ true := by
    intro hfinished
    rw [(hsofar.stopped hfinished).1] at hpending
    cases hpending
  obtain ⟨hmaxAge, hnow, hdry⟩ := hsofar.same
  have hspared (hfresh : expiredIn tree first path ≠ true)
      {after : Sweeper} (hafter : after.judged = none)
      (hrest : after.pending = rest)
      (hcount : after.result = if namedTemp path = true then
        state.2.result.countScanned else state.2.result)
      (hsame : after.maxAge = first.maxAge ∧ after.now = first.now ∧
        after.dryRun = first.dryRun)
      (hfinished : after.finished = state.2.finished) :
      SweptSoFar tree first listed (handled ++ [path]) (state.1, after) := by
    refine ⟨?_, ?_, ?_, ?_, hsame, fun hstopped =>
      absurd (hfinished.symm.trans hstopped) hrunning⟩
    · rw [hafter, hrest]
      exact hmoved
    · rw [sweptTree_append, if_neg (fun hboth => hfresh hboth.2)]
      exact hsofar.swept
    · simp only [hafter, Option.map_none, Option.toList_none, List.append_nil]
      rw [hcount, reportOf_append, if_neg hfresh, reportOf_seen, ← hresult]
    · intro other size hsome
      rw [hafter] at hsome
      cases hsome
  unfold judgeFile
  dsimp only
  split
  · rename_i hname
    have htemp : namedTemp path = true := hname
    rw [hread]
    split
    · rename_i hmissing
      refine ⟨_, hspared ?_ hjudged rfl ?_ ⟨hmaxAge, hnow, hdry⟩ rfl⟩
      · simp [expiredIn, hmissing]
      · rw [if_pos htemp]
    · rename_i file hfile
      split
      · rename_i hold
        rw [hmaxAge, hnow] at hold
        have hexpired : expiredIn tree first path = true := by
          simp [expiredIn, htemp, hfile, hold]
        have hsize : sizeIn tree path = file.bytes.length := by
          simp [sizeIn, hfile]
        split
        · rename_i hdryRun
          refine ⟨handled ++ [path], ?_, ?_, ?_, ?_, ⟨hmaxAge, hnow, hdry⟩,
            fun hfinished => absurd hfinished hrunning⟩
          · simp only [hjudged]
            exact hmoved
          · rw [sweptTree_append, if_neg]
            · exact hsofar.swept
            · rw [← hdry, hdryRun]
              exact fun hboth => Bool.noConfusion hboth.1
          · simp only [hjudged, Option.map_none, Option.toList_none,
              List.append_nil]
            rw [reportOf_append, if_pos hexpired, reportOf_seen, if_pos htemp,
              ← hresult, hsize]
          · intro other size hsome
            simp only [hjudged] at hsome
            cases hsome
        · rename_i hwet
          refine ⟨handled, ?_, hsofar.swept, ?_, ?_, ⟨hmaxAge, hnow, hdry⟩,
            fun hfinished => absurd hfinished hrunning⟩
          · simp only [Option.map_some, Option.toList_some]
            rw [hparts]
            simp
          · simp only [Option.map_some, Option.toList_some]
            rw [reportOf_seen, if_pos htemp, ← hresult]
          · rintro other size ⟨⟩
            refine ⟨hexpired, hsize.symm, ?_⟩
            rw [← hdry]
            exact eq_false_of_ne_true hwet
      · rename_i hyoung
        refine ⟨_, hspared ?_ hjudged rfl ?_ ⟨hmaxAge, hnow, hdry⟩ rfl⟩
        · rw [hmaxAge, hnow] at hyoung
          simp [expiredIn, hfile, hyoung]
        · rw [if_pos htemp]
  · rename_i hname
    have htemp : ¬ namedTemp path = true := hname
    refine ⟨_, hspared ?_ hjudged rfl ?_ ⟨hmaxAge, hnow, hdry⟩ rfl⟩
    · simp [expiredIn, htemp]
    · rw [if_neg htemp]

/-- Every operation but a failing one. -/
theorem SweptSoFar.step {move : SweepMove}
    (hlisted : (listed ++ move.listed?.toList).Nodup)
    (hquiet : move ≠ .osError)
    (hstep : sweeperStep root state.1 state.2 move = some next) :
    ∃ after, SweptSoFar tree first (listed ++ move.listed?.toList) after
      next := by
  cases move with
  | list directory =>
      refine ⟨handled, hsofar.list ?_ hstep⟩
      intro hmem
      exact (List.nodup_append.mp hlisted).2.2 directory hmem directory
        (List.mem_singleton_self directory) rfl
  | advance =>
      simp only [SweepMove.listed?, Option.toList_none, List.append_nil]
        at hlisted ⊢
      simp only [sweeperStep, advanceSweeper] at hstep
      split at hstep
      · rename_i path size hjudged
        obtain rfl := Option.some.inj hstep
        exact ⟨_, hsofar.unlink hdistinct hlisted hjudged⟩
      · rename_i path rest hjudged hpending
        obtain rfl := Option.some.inj hstep
        exact hsofar.judge hdistinct hlisted hjudged hpending
      · cases hstep
  | osError => exact absurd rfl hquiet
  | finish =>
      simp only [SweepMove.listed?, Option.toList_none, List.append_nil]
      simp only [sweeperStep] at hstep
      split at hstep
      · rename_i hbetween
        simp only [Sweeper.betweenFiles, decide_eq_true_eq] at hbetween
        obtain rfl := Option.some.inj hstep
        exact ⟨handled, hsofar.parts, hsofar.swept, hsofar.result, hsofar.inHand,
          hsofar.same, fun _ => ⟨hbetween.1, hbetween.2.1⟩⟩
      · cases hstep

end Steps

theorem newSweeper_sofar (tree : BlobTree) (maxAge now : Int) (dryRun : Bool) :
    SweptSoFar tree (newSweeper maxAge now dryRun) [] []
      (tree, newSweeper maxAge now dryRun) := by
  refine ⟨rfl, ?_, rfl, nofun, ⟨rfl, rfl, rfl⟩, nofun⟩
  unfold sweptTree
  split
  · rfl
  · have hall : tree.links.filter (fun link =>
        ¬ (link.1 ∈ ([] : List DiskPath) ∧ expiredIn tree
          (newSweeper maxAge now dryRun) link.1 = true)) = tree.links := by
      simp
    rw [hall]

theorem SweptSoFar.run (hdistinct : (tree.links.map Prod.fst).Nodup)
    {moves : List SweepMove} {listed handled : List DiskPath}
    {state final : BlobTree × Sweeper}
    (hsofar : SweptSoFar tree first listed handled state)
    (hlisted : (listed ++ moves.filterMap SweepMove.listed?).Nodup)
    (hquiet : ∀ move ∈ moves, move ≠ .osError)
    (hrun : runSweeper root state moves = some final) :
    ∃ after, SweptSoFar tree first
      (listed ++ moves.filterMap SweepMove.listed?) after final := by
  induction moves generalizing listed handled state with
  | nil =>
      obtain rfl := Option.some.inj hrun
      rw [List.filterMap_nil, List.append_nil]
      exact ⟨handled, hsofar⟩
  | cons move rest ih =>
      obtain ⟨next, hstep, hrest⟩ := Option.bind_eq_some_iff.mp hrun
      have hsplit : listed ++ (move :: rest).filterMap SweepMove.listed? =
          listed ++ move.listed?.toList ++ rest.filterMap SweepMove.listed? := by
        rw [List.filterMap_cons, List.append_assoc]
        cases move.listed? <;> rfl
      rw [hsplit] at hlisted ⊢
      obtain ⟨after, hafter⟩ := hsofar.step hdistinct
        (List.nodup_append.mp hlisted).1 (hquiet move List.mem_cons_self) hstep
      exact ih hafter hlisted (fun other hother =>
        hquiet other (List.mem_cons_of_mem move hother)) hrest

/-! ### It comes to its end -/

theorem runSweeper_append {state middle final : BlobTree × Sweeper}
    {moves more : List SweepMove}
    (hfirst : runSweeper root state moves = some middle)
    (hsecond : runSweeper root middle more = some final) :
    runSweeper root state (moves ++ more) = some final := by
  rw [runSweeper, List.foldlM_append]
  exact Option.bind_eq_some_iff.mpr ⟨middle, hfirst, hsecond⟩

theorem runSweeper_one {state next : BlobTree × Sweeper} {move : SweepMove}
    (hstep : sweeperStep root state.1 state.2 move = some next) :
    runSweeper root state [move] = some next := by
  rw [runSweeper, List.foldlM_cons, hstep]
  rfl

/-- One file less is in the sweep's hands. -/
theorem judgeFile_shape (tree : BlobTree) (sweeper : Sweeper) (path : DiskPath)
    (rest : List DiskPath) :
    (judgeFile tree sweeper path rest).pending = rest ∧
      (judgeFile tree sweeper path rest).finished = sweeper.finished := by
  unfold judgeFile
  dsimp only
  split
  · split
    · exact ⟨rfl, rfl⟩
    · split
      · split <;> exact ⟨rfl, rfl⟩
      · exact ⟨rfl, rfl⟩
  · exact ⟨rfl, rfl⟩

theorem unlinkJudged_shape (tree : BlobTree) (sweeper : Sweeper)
    (path : DiskPath) (size : Nat) :
    (unlinkJudged tree sweeper path size).2.pending = sweeper.pending ∧
      (unlinkJudged tree sweeper path size).2.finished = sweeper.finished ∧
      (unlinkJudged tree sweeper path size).2.judged = none := by
  unfold unlinkJudged
  split <;> exact ⟨rfl, rfl, rfl⟩

/-- It gets through what is pending. -/
theorem sweeper_drains (root : DiskPath) (files : List DiskPath) (tree : BlobTree)
    (sweeper : Sweeper) (hpending : sweeper.pending = files)
    (hrunning : sweeper.finished = false) :
    ∃ moves final, (∀ move ∈ moves, move = .advance) ∧
      runSweeper root (tree, sweeper) moves = some final ∧
      final.2.betweenFiles = true := by
  induction files generalizing tree sweeper with
  | nil =>
      cases hjudged : sweeper.judged with
      | none =>
          refine ⟨[], (tree, sweeper), fun _ hmem => absurd hmem List.not_mem_nil,
            rfl, ?_⟩
          simp [Sweeper.betweenFiles, hpending, hjudged, hrunning]
      | some judged =>
          obtain ⟨path, size⟩ := judged
          have hstep : sweeperStep root tree sweeper .advance =
              some (unlinkJudged tree sweeper path size) := by
            simp [sweeperStep, advanceSweeper, hjudged]
          obtain ⟨hrest, hfinished, hnone⟩ :=
            unlinkJudged_shape tree sweeper path size
          refine ⟨[.advance], _, fun _ hmem => List.mem_singleton.mp hmem,
            runSweeper_one hstep, ?_⟩
          simp [Sweeper.betweenFiles, hrest, hfinished, hnone, hpending, hrunning]
  | cons path rest ih =>
      have hjudge (tree : BlobTree) (sweeper : Sweeper)
          (hpending : sweeper.pending = path :: rest)
          (hrunning : sweeper.finished = false) (hnone : sweeper.judged = none) :
          ∃ moves final, (∀ move ∈ moves, move = .advance) ∧
            runSweeper root (tree, sweeper) moves = some final ∧
            final.2.betweenFiles = true := by
        have hstep : sweeperStep root tree sweeper .advance =
            some (tree, judgeFile tree sweeper path rest) := by
          simp [sweeperStep, advanceSweeper, hnone, hpending]
        obtain ⟨hrest, hfinished⟩ := judgeFile_shape tree sweeper path rest
        obtain ⟨moves, final, hmoves, hrun, hend⟩ := ih tree
          (judgeFile tree sweeper path rest) hrest (hfinished.trans hrunning)
        refine ⟨[.advance] ++ moves, final, ?_,
          runSweeper_append (runSweeper_one hstep) hrun, hend⟩
        intro move hmem
        rcases List.mem_append.mp hmem with hmem | hmem
        · exact List.mem_singleton.mp hmem
        · exact hmoves move hmem
      cases hjudged : sweeper.judged with
      | none => exact hjudge tree sweeper hpending hrunning hjudged
      | some judged =>
          obtain ⟨other, size⟩ := judged
          have hstep : sweeperStep root tree sweeper .advance =
              some (unlinkJudged tree sweeper other size) := by
            simp [sweeperStep, advanceSweeper, hjudged]
          obtain ⟨hrest, hfinished, hnone⟩ :=
            unlinkJudged_shape tree sweeper other size
          obtain ⟨moves, final, hmoves, hrun, hend⟩ := hjudge
            (unlinkJudged tree sweeper other size).1
            (unlinkJudged tree sweeper other size).2 (hrest.trans hpending)
            (hfinished.trans hrunning) hnone
          refine ⟨[.advance] ++ moves, final, ?_,
            runSweeper_append (runSweeper_one hstep) hrun, hend⟩
          intro move hmem
          rcases List.mem_append.mp hmem with hmem | hmem
          · exact List.mem_singleton.mp hmem
          · exact hmoves move hmem

/-- It gets through the directories. -/
theorem sweeper_walks {directories : List DiskPath}
    (hunder : ∀ directory ∈ directories,
      (root ++ [text "blobs"]) <+: directory)
    (tree : BlobTree) (sweeper : Sweeper)
    (hbetween : sweeper.betweenFiles = true) :
    ∃ moves final, .osError ∉ moves ∧
      moves.filterMap SweepMove.listed? = directories ∧
      runSweeper root (tree, sweeper) moves = some final ∧
      final.2.finished = true := by
  induction directories generalizing tree sweeper with
  | nil =>
      refine ⟨[.finish], (tree, { sweeper with finished := true }), ?_, rfl,
        runSweeper_one ?_, rfl⟩
      · simp
      · simp [sweeperStep, hbetween]
  | cons directory rest ih =>
      let listing : Sweeper := { sweeper with
        pending := filesIn tree directory
        result := { sweeper.result with
          walked := sweeper.result.walked + (filesIn tree directory).length } }
      have hlist : sweeperStep root tree sweeper (.list directory) =
          some (tree, listing) := by
        simp [sweeperStep, listing, hbetween, hunder directory List.mem_cons_self]
      have hrunning : sweeper.finished = false := by
        simp only [Sweeper.betweenFiles, decide_eq_true_eq] at hbetween
        exact hbetween.2.2
      obtain ⟨advances, middle, hadvances, hdrain, hpause⟩ :=
        sweeper_drains root (filesIn tree directory) tree listing rfl hrunning
      obtain ⟨moves, final, hquiet, hlisted, hrun, hend⟩ := ih
        (fun other hother => hunder other (List.mem_cons_of_mem _ hother))
        middle.1 middle.2 hpause
      have hnone : advances.filterMap SweepMove.listed? = [] := by
        rw [List.filterMap_eq_nil_iff]
        intro move hmem
        rw [hadvances move hmem]
        rfl
      refine ⟨[.list directory] ++ (advances ++ moves), final, ?_, ?_,
        runSweeper_append (runSweeper_one hlist)
          (runSweeper_append hdrain hrun), hend⟩
      · intro hmem
        rcases List.mem_append.mp hmem with hmem | hmem
        · cases List.mem_singleton.mp hmem
        · rcases List.mem_append.mp hmem with hmem | hmem
          · cases hadvances _ hmem
          · exact hquiet hmem
      · rw [List.filterMap_append, List.filterMap_append, hnone, hlisted]
        rfl

/-- What a finished sweep leaves and reports. -/
theorem runSweeper_finished (hdistinct : (tree.links.map Prod.fst).Nodup)
    {maxAge now : Int} {dryRun : Bool} {directories : List DiskPath}
    (honce : directories.Nodup) {moves : List SweepMove} {next : BlobTree}
    {after : Sweeper} (hquiet : .osError ∉ moves)
    (hlisted : moves.filterMap SweepMove.listed? = directories)
    (hrun : runSweeper root (tree, newSweeper maxAge now dryRun) moves =
      some (next, after))
    (hfinished : after.finished = true) :
    next = sweptTree tree (newSweeper maxAge now dryRun)
      (directories.flatMap (filesIn tree)) ∧
    after.result = reportOf tree (newSweeper maxAge now dryRun)
      (directories.flatMap (filesIn tree))
      (directories.flatMap (filesIn tree))
      (directories.flatMap (filesIn tree)) := by
  obtain ⟨handled, hsofar⟩ := (newSweeper_sofar tree maxAge now dryRun).run
    hdistinct (by rw [List.nil_append, hlisted]; exact honce)
    (fun move hmem hmove => hquiet (hmove ▸ hmem)) hrun
  rw [List.nil_append, hlisted] at hsofar
  obtain ⟨hpending, hjudged⟩ := hsofar.stopped hfinished
  have hparts := hsofar.parts
  have hresult := hsofar.result
  rw [hpending, hjudged] at hparts
  rw [hjudged] at hresult
  simp only [Option.map_none, Option.toList_none, List.append_nil]
    at hparts hresult
  rw [hparts] at hresult ⊢
  exact ⟨hsofar.swept, hresult⟩

/-- A sweep that nothing interferes with comes to its end, and whenever it does
it has removed exactly the expired temps of the directories it listed, none if
it runs dry, and reports exactly that. -/
theorem sweep_alone_exact (hdistinct : (tree.links.map Prod.fst).Nodup)
    (maxAge now : Int) (dryRun : Bool) {directories : List DiskPath}
    (honce : directories.Nodup)
    (hunder : ∀ directory ∈ directories,
      (root ++ [text "blobs"]) <+: directory) :
    (∃ moves final, .osError ∉ moves ∧
      moves.filterMap SweepMove.listed? = directories ∧
      runSweeper root (tree, newSweeper maxAge now dryRun) moves = some final ∧
      final.2.finished = true) ∧
    ∀ moves next after, .osError ∉ moves →
      moves.filterMap SweepMove.listed? = directories →
      runSweeper root (tree, newSweeper maxAge now dryRun) moves =
        some (next, after) →
      after.finished = true →
      next = sweptTree tree (newSweeper maxAge now dryRun)
        (directories.flatMap (filesIn tree)) ∧
      after.result = reportOf tree (newSweeper maxAge now dryRun)
        (directories.flatMap (filesIn tree))
        (directories.flatMap (filesIn tree))
        (directories.flatMap (filesIn tree)) := by
  refine ⟨sweeper_walks hunder tree _ (by rfl), ?_⟩
  intro moves next after hquiet hlisted hrun hfinished
  exact runSweeper_finished hdistinct honce hquiet hlisted hrun hfinished

namespace LeftBehind

open StoredTwice (zeroFilled token note)

def directory : DiskPath := (canonical zeroFilled [] note).dropLast

def temp (digit : Text) : DiskPath :=
  newTempPath (canonical zeroFilled [] note) 3 (token digit)

/-- A blob, a temp from long ago and one from just now. -/
def leftTree : BlobTree where
  links := [(canonical zeroFilled [] note, 0), (temp (text "a"), 1),
    (temp (text "b"), 2)]
  nodes := [⟨[7, 8], 0⟩, ⟨[7], 0⟩, ⟨[7], 95⟩]

end LeftBehind

open LeftBehind in
theorem sweep_alone_exact_left_behind : ∃ moves final,
    runSweeper [] (leftTree, newSweeper 10 100 false) moves = some final ∧
    final.1.links = [(canonical StoredTwice.zeroFilled [] StoredTwice.note, 0),
      (temp (text "b"), 2)] ∧
    final.2.result = ⟨3, 2, 1, 1, 0⟩ := by
  obtain ⟨⟨moves, final, hquiet, hlisted, hrun, hfinished⟩, hexact⟩ :=
    @sweep_alone_exact [] leftTree (by decide +kernel) 10 100 false [directory]
      (by decide) (by decide +kernel)
  obtain ⟨htree, hresult⟩ :=
    hexact moves final.1 final.2 hquiet hlisted hrun hfinished
  refine ⟨moves, final, hrun, ?_, ?_⟩
  · rw [htree]
    decide +kernel
  · rw [hresult]
    decide +kernel

/-! ### Over the whole tree -/

/-- What `os.walk` of `blobs/` comes by: directories in it, each once, and the
one of every file. -/
structure Walks (root : DiskPath) (tree : BlobTree)
    (directories : List DiskPath) : Prop where
  once : directories.Nodup
  under : ∀ directory ∈ directories, (root ++ [text "blobs"]) <+: directory
  reaches : ∀ path ∈ tree.links.map Prod.fst,
    (root ++ [text "blobs"]) <+: path.dropLast → path.dropLast ∈ directories

/-- The directories on the way to a file; the others list nothing. -/
def walkedDirectories (root : DiskPath) (tree : BlobTree) : List DiskPath :=
  ((tree.links.flatMap fun link => link.1.dropLast.inits).filter
    fun directory => (root ++ [text "blobs"]).isPrefixOf directory).dedup

theorem mem_walkedDirectories {directory : DiskPath} :
    directory ∈ walkedDirectories root tree ↔
      (∃ path ∈ tree.links.map Prod.fst, directory <+: path.dropLast) ∧
        (root ++ [text "blobs"]) <+: directory := by
  rw [walkedDirectories, List.mem_dedup, List.mem_filter, List.mem_flatMap,
    List.isPrefixOf_iff_prefix]
  simp only [List.mem_inits, List.mem_map, exists_exists_and_eq_and]

theorem walks_walkedDirectories (root : DiskPath) (tree : BlobTree) :
    Walks root tree (walkedDirectories root tree) where
  once := List.nodup_dedup _
  under := fun _ hmem => (mem_walkedDirectories.mp hmem).2
  reaches := fun path hlinked hunder =>
    mem_walkedDirectories.mpr ⟨⟨path, hlinked, List.prefix_refl _⟩, hunder⟩

/-- The walk comes by every file under `blobs/`. -/
theorem Walks.mem_files {directories : List DiskPath}
    (hwalks : Walks root tree directories) {path : DiskPath} :
    path ∈ directories.flatMap (filesIn tree) ↔
      path ∈ tree.links.map Prod.fst ∧
        (root ++ [text "blobs"]) <+: path.dropLast := by
  rw [List.mem_flatMap]
  constructor
  · rintro ⟨directory, hdirectory, hpath⟩
    obtain ⟨hlinked, -, rfl⟩ := mem_filesIn.mp hpath
    exact ⟨hlinked, hwalks.under _ hdirectory⟩
  · rintro ⟨hlinked, hunder⟩
    refine ⟨path.dropLast, hwalks.reaches path hlinked hunder,
      mem_filesIn.mpr ⟨hlinked, ?_, rfl⟩⟩
    rintro rfl
    exact absurd (List.prefix_nil.mp hunder) (by simp)

theorem mem_links_of_expiredIn {path : DiskPath}
    (hexpired : expiredIn tree first path = true) :
    path ∈ tree.links.map Prod.fst := by
  by_contra hmissing
  have hnone : tree.lookup path = none := by
    rw [FileTree.lookup, Option.map_eq_none_iff, List.find?_eq_none]
    intro link hlink hsame
    exact hmissing (List.mem_map.mpr ⟨link, hlink, of_decide_eq_true hsame⟩)
  rw [expiredIn, FileTree.read, hnone] at hexpired
  simp at hexpired

/-- A sweep that walks `blobs/` alone comes to its end, and then no expired temp
is left under it and every other path is as it was; a dry one leaves them
all. -/
theorem whole_sweep_leaves_no_expired
    (hdistinct : (tree.links.map Prod.fst).Nodup) (maxAge now : Int)
    (dryRun : Bool) {directories : List DiskPath}
    (hwalks : Walks root tree directories) :
    (∃ moves final, .osError ∉ moves ∧
      moves.filterMap SweepMove.listed? = directories ∧
      runSweeper root (tree, newSweeper maxAge now dryRun) moves = some final ∧
      final.2.finished = true) ∧
    ∀ moves next after, .osError ∉ moves →
      moves.filterMap SweepMove.listed? = directories →
      runSweeper root (tree, newSweeper maxAge now dryRun) moves =
        some (next, after) →
      after.finished = true → ∀ path, next.lookup path =
        if dryRun = false ∧ (root ++ [text "blobs"]) <+: path.dropLast ∧
            expiredIn tree (newSweeper maxAge now dryRun) path = true then none
        else tree.lookup path := by
  refine ⟨sweeper_walks hwalks.under tree _ (by rfl), ?_⟩
  intro moves next after hquiet hlisted hrun hfinished path
  obtain ⟨rfl, -⟩ :=
    runSweeper_finished hdistinct hwalks.once hquiet hlisted hrun hfinished
  rw [lookup_sweptTree]
  apply if_congr ?_ rfl rfl
  have hfiles := @Walks.mem_files root tree directories hwalks path
  constructor
  · rintro ⟨hwet, hmem, hexpired⟩
    exact ⟨hwet, (hfiles.mp hmem).2, hexpired⟩
  · rintro ⟨hwet, hunder, hexpired⟩
    exact ⟨hwet, hfiles.mpr ⟨mem_links_of_expiredIn hexpired, hunder⟩, hexpired⟩

open LeftBehind in
theorem whole_sweep_leaves_no_expired_left_behind : ∃ moves final,
    runSweeper [] (leftTree, newSweeper 10 100 false) moves = some final ∧
    final.1.lookup (temp (text "a")) = none ∧
    final.1.lookup (temp (text "b")) = some 2 := by
  obtain ⟨⟨moves, final, hquiet, hlisted, hrun, hfinished⟩, hleaves⟩ :=
    whole_sweep_leaves_no_expired (by decide +kernel) 10 100 false
      (walks_walkedDirectories [] leftTree)
  have hlookup := hleaves moves final.1 final.2 hquiet hlisted hrun hfinished
  refine ⟨moves, final, hrun, ?_, ?_⟩
  · rw [hlookup]
    decide +kernel
  · rw [hlookup]
    decide +kernel

end Blobs

end Localmail
