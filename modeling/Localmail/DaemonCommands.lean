/-
What every run of the daemon does to the commands of its queue.  They are taken
in the order they were asked for, but for rows that others have locked; a drain
that fails leaves its commands queued, and a command of a drain that was
committed is not carried out again.
-/
import Localmail.DaemonRegistry

namespace Localmail

namespace DaemonLoop

/-! ### One drain -/

theorem toState_ne_queued (state : TerminalCommandState) :
    state.toState ≠ .queued := by
  cases state with
  | done => exact CommandState.noConfusion
  | failed => exact CommandState.noConfusion

theorem row_markOf (row : CommandRow) (raised : Option Text) :
    (markOf row raised).row = row := by
  cases raised with
  | none => rfl
  | some message => rfl

theorem id_marked (marks : List Mark) (row : CommandRow) :
    (row.marked marks).id = row.id := by
  unfold CommandRow.marked
  split
  · rfl
  · rfl

theorem id_comp_marked (marks : List Mark) :
    CommandRow.id ∘ CommandRow.marked marks = CommandRow.id :=
  funext (id_marked marks)

/-- A row that is queued still was in none of the marks. -/
theorem marked_queued {marks : List Mark} {row : CommandRow}
    (hqueued : (row.marked marks).state = .queued) :
    row.marked marks = row ∧ ∀ mark ∈ marks, mark.row.id ≠ row.id := by
  unfold CommandRow.marked at hqueued ⊢
  split
  · rename_i mark hfound
    rw [hfound] at hqueued
    exact absurd hqueued (toState_ne_queued mark.state)
  · rename_i hnone
    refine ⟨rfl, fun mark hmark hsame => ?_⟩
    have := List.find?_eq_none.mp hnone mark hmark
    simp [hsame] at this

theorem marked_eq_or (marks : List Mark) (row : CommandRow) :
    row.marked marks = row ∨ ∃ mark ∈ marks, mark.row.id = row.id := by
  unfold CommandRow.marked
  split
  · rename_i mark hfound
    have hid := List.find?_some hfound
    simp only [decide_eq_true_eq] at hid
    exact .inr ⟨mark, List.mem_of_find?_eq_some hfound, hid⟩
  · exact .inl rfl

theorem mem_queuedCommands {commands : List CommandRow} {row : CommandRow} :
    row ∈ queuedCommands commands ↔ row ∈ commands ∧ row.state = .queued := by
  rw [queuedCommands, List.mem_filter, decide_eq_true_eq]

theorem mem_claimCommands {commands : List CommandRow} {locked : List Nat}
    {row : CommandRow} :
    row ∈ claimCommands commands locked ↔
      row ∈ queuedCommands commands ∧ row.id ∉ locked := by
  rw [claimCommands, List.mem_insertionSort, List.mem_filter,
    decide_eq_true_eq]

instance isTransNotAfter : IsTrans CommandRow CommandRow.notAfter where
  trans row other third hfirst hsecond := by
    unfold CommandRow.notAfter at *
    omega

instance totalNotAfter : Std.Total CommandRow.notAfter where
  total row other := by
    unfold CommandRow.notAfter
    omega

theorem pairwise_claimCommands (commands : List CommandRow)
    (locked : List Nat) :
    (claimCommands commands locked).Pairwise CommandRow.notAfter :=
  List.pairwise_insertionSort _ _

theorem nodup_claimCommands {commands : List CommandRow}
    (hunique : (commands.map CommandRow.id).Nodup) (locked : List Nat) :
    ((claimCommands commands locked).map CommandRow.id).Nodup := by
  refine (((List.perm_insertionSort _ _).map _).nodup_iff).mpr ?_
  exact hunique.sublist
    ((List.filter_sublist.trans List.filter_sublist).map _)

/-! ### The invariant -/

/-- A batch of commands, in order and without repeats. -/
structure Batch (rows : List CommandRow) : Prop where
  ordered : rows.Pairwise CommandRow.notAfter
  distinct : (rows.map CommandRow.id).Nodup

theorem Batch.sublist {rows fewer : List CommandRow} (h : Batch rows)
    (hsub : fewer.Sublist rows) : Batch fewer :=
  ⟨h.ordered.sublist hsub, h.distinct.sublist (hsub.map _)⟩

/-- None of the rows is one that was carried out and queued still. -/
def Finished (rows applied : List CommandRow) : Prop :=
  ∀ row ∈ applied, ∀ live ∈ rows, live.id = row.id → live.state ≠ .queued

/-- What a committed drain carried out, a later one does not. -/
def Drain.NotRepeated (earlier later : Drain) : Prop :=
  earlier.committed → ∀ row ∈ earlier.applied, ∀ again ∈ later.applied,
    again.id ≠ row.id

/-- A drain takes a batch of what was queued and nobody else had locked, and all
of it when it is committed. -/
structure Drain.Sound (drain : Drain) : Prop where
  batch : Batch drain.applied
  taken : ∀ row ∈ drain.applied, row ∈ drain.queue ∧ row.id ∉ drain.locked
  whole : drain.committed → ∀ row ∈ drain.queue, row.id ∉ drain.locked →
    row ∈ drain.applied

/-- What holds of the commands, committed and not, and of the drains that have
ended. -/
structure QueueInv (start : DaemonStart) (commands pending : List CommandRow)
    (nextCommandId : Nat) (drains : List Drain) : Prop where
  unique : ((commands ++ pending).map CommandRow.id).Nodup
  named : ∀ row ∈ commands ++ pending, row.id < nextCommandId
  fresh : ∀ row ∈ pending, row.state = .queued
  recorded : ∀ drain ∈ drains, ∀ row ∈ drain.applied, row.id < nextCommandId
  sound : ∀ drain ∈ drains, drain.Sound
  carried : ∀ drain ∈ drains, drain.committed →
    Finished (commands ++ pending) drain.applied
  once : drains.Pairwise Drain.NotRepeated
  finished : ∀ live ∈ commands, live.state ≠ .queued →
    live ∈ start.commands ∨ ∃ drain ∈ drains, drain.committed ∧
      ∃ row ∈ drain.applied, row.id = live.id

/-- The rows that a drain has locked are queued, and nobody else has locked
them. -/
structure Locks (commands : List CommandRow) (locked : List Nat)
    (claimed : List CommandRow) : Prop where
  batch : Batch claimed
  held : ∀ row ∈ claimed, row ∈ commands ∧ row.state = .queued
  free : ∀ row ∈ claimed, row.id ∉ locked

/-- A drain is under way. -/
def DaemonPoint.Drains : DaemonPoint → Prop
  | .draining _ _ => True
  | _ => False

structure CommandInv (start : DaemonStart) (world : DaemonWorld) : Prop where
  queue : QueueInv start world.commands world.pending world.nextCommandId
    world.drains
  locks : Locks world.commands world.locked world.point.claimed
  taken : ∀ row ∈ world.point.claimed,
    row ∈ world.claimQueue ∧ row.id ∉ world.claimLocked
  whole : world.point.Drains → ∀ row ∈ world.claimQueue,
    row.id ∉ world.claimLocked → row ∈ world.point.claimed

section Steps

variable {start : DaemonStart} {commands pending claimed : List CommandRow}
  {locked : List Nat} {nextCommandId : Nat} {drains : List Drain}

theorem Locks.nil : Locks commands locked [] where
  batch := ⟨.nil, .nil⟩
  held := by simp
  free := by simp

theorem Locks.claim (hunique : (commands.map CommandRow.id).Nodup) :
    Locks commands locked (claimCommands commands locked) where
  batch := ⟨pairwise_claimCommands commands locked,
    nodup_claimCommands hunique locked⟩
  held := fun _ hrow => mem_queuedCommands.mp (mem_claimCommands.mp hrow).1
  free := fun _ hrow => (mem_claimCommands.mp hrow).2

/-- The rows that are locked stay, whatever others do that do not hold them. -/
theorem Locks.of_kept (h : Locks commands locked claimed)
    {others : List CommandRow} {held : List Nat}
    (hkept : ∀ row ∈ claimed, row ∈ commands → row ∈ others)
    (hfree : ∀ row ∈ claimed, row.id ∉ held) : Locks others held claimed where
  batch := h.batch
  held := fun row hrow =>
    ⟨hkept row hrow (h.held row hrow).1, (h.held row hrow).2⟩
  free := hfree

/-- Commands go, or get committed. -/
theorem QueueInv.of_kept
    (h : QueueInv start commands pending nextCommandId drains)
    {fewer waiting : List CommandRow}
    (hunique : ((fewer ++ waiting).map CommandRow.id).Nodup)
    (hfewer : ∀ row ∈ fewer, row ∈ commands ∨ row ∈ pending)
    (hwaiting : ∀ row ∈ waiting, row ∈ pending) :
    QueueInv start fewer waiting nextCommandId drains := by
  have hrows : ∀ row ∈ fewer ++ waiting, row ∈ commands ++ pending := by
    intro row hrow
    obtain hcommitted | hpending := List.mem_append.mp hrow
    · exact List.mem_append.mpr (hfewer row hcommitted)
    · exact List.mem_append_right _ (hwaiting row hpending)
  exact
    { unique := hunique
      named := fun row hrow => h.named row (hrows row hrow)
      fresh := fun row hrow => h.fresh row (hwaiting row hrow)
      recorded := h.recorded
      sound := h.sound
      carried := fun drain hdrain hcommitted row hrow live hlive =>
        h.carried drain hdrain hcommitted row hrow live (hrows live hlive)
      once := h.once
      finished := by
        intro live hlive hdone
        obtain hcommitted | hpending := hfewer live hlive
        · exact h.finished live hcommitted hdone
        · exact absurd (h.fresh live hpending) hdone }

theorem QueueInv.delete
    (h : QueueInv start commands pending nextCommandId drains)
    (keeps : CommandRow → Bool) :
    QueueInv start (commands.filter keeps) pending nextCommandId drains := by
  refine h.of_kept (h.unique.sublist ?_)
    (fun row hrow => .inl (List.mem_of_mem_filter hrow)) fun _ hrow => hrow
  exact (List.filter_sublist.append (.refl pending)).map _

theorem QueueInv.abandon
    (h : QueueInv start commands pending nextCommandId drains)
    (keeps : CommandRow → Bool) :
    QueueInv start commands (pending.filter keeps) nextCommandId drains := by
  refine h.of_kept (h.unique.sublist ?_) (fun _ hrow => .inl hrow)
    fun row hrow => List.mem_of_mem_filter hrow
  exact ((List.Sublist.refl commands).append List.filter_sublist).map _

theorem QueueInv.publish
    (h : QueueInv start commands pending nextCommandId drains)
    (commandId : Nat) :
    QueueInv start (commands ++ pending.filter fun row => row.id = commandId)
      (pending.filter fun row => row.id ≠ commandId) nextCommandId drains := by
  have hparts : ((pending.filter fun row => row.id = commandId) ++
      pending.filter fun row => row.id ≠ commandId).Perm pending := by
    simpa using List.filter_append_perm
      (fun row : CommandRow => decide (row.id = commandId)) pending
  refine h.of_kept ?_ (fun row hrow => ?_)
    fun row hrow => List.mem_of_mem_filter hrow
  · rw [List.append_assoc]
    exact (((hparts.append_left commands).map _).nodup_iff).mpr h.unique
  · exact (List.mem_append.mp hrow).imp_right List.mem_of_mem_filter

/-- A new command has an id of its own. -/
theorem QueueInv.enqueue
    (h : QueueInv start commands pending nextCommandId drains)
    {row : CommandRow} (hid : row.id = nextCommandId)
    (hstate : row.state = .queued) :
    QueueInv start commands (pending ++ [row]) (nextCommandId + 1) drains := by
  have hrows {other : CommandRow} :
      other ∈ commands ++ (pending ++ [row]) ↔
        other ∈ commands ++ pending ∨ other = row := by
    simp only [List.mem_append, List.mem_singleton, or_assoc]
  exact
    { unique := by
        rw [← List.append_assoc, List.map_append, List.map_singleton,
          ← List.concat_eq_append]
        refine h.unique.concat fun hmem => ?_
        obtain ⟨other, hother, hsame⟩ := List.mem_map.mp hmem
        have := h.named other hother
        omega
      named := by
        intro other hother
        obtain hold | rfl := hrows.mp hother
        · exact Nat.lt_succ_of_lt (h.named other hold)
        · exact hid ▸ Nat.lt_succ_self _
      fresh := by
        intro other hother
        obtain hold | hnew := List.mem_append.mp hother
        · exact h.fresh other hold
        · exact List.mem_singleton.mp hnew ▸ hstate
      recorded := fun drain hdrain other hother =>
        Nat.lt_succ_of_lt (h.recorded drain hdrain other hother)
      sound := h.sound
      carried := by
        intro drain hdrain hcommitted done hdone live hlive hsame
        obtain hold | rfl := hrows.mp hlive
        · exact h.carried drain hdrain hcommitted done hdone live hold hsame
        · have := h.recorded drain hdrain done hdone
          omega
      once := h.once
      finished := h.finished }

/-- A drain never carries out what a committed one did. -/
theorem QueueInv.once_append
    (h : QueueInv start commands pending nextCommandId drains)
    (hlocks : Locks commands locked claimed) {drain : Drain}
    (happlied : drain.applied.Sublist claimed) :
    (drains ++ [drain]).Pairwise Drain.NotRepeated := by
  refine List.pairwise_append.mpr ⟨h.once, List.pairwise_singleton _ _, ?_⟩
  intro earlier hearlier later hlater hcommitted row hrow again hagain hsame
  rw [List.mem_singleton.mp hlater] at hagain
  obtain ⟨hmem, hqueued⟩ := hlocks.held again (happlied.subset hagain)
  exact h.carried earlier hearlier hcommitted row hrow again
    (List.mem_append_left _ hmem) hsame hqueued

/-- The commands of one more drain are no newer than the others. -/
theorem QueueInv.recorded_append
    (h : QueueInv start commands pending nextCommandId drains)
    (hlocks : Locks commands locked claimed) {drain : Drain}
    (happlied : drain.applied.Sublist claimed) :
    ∀ ended ∈ drains ++ [drain], ∀ row ∈ ended.applied,
      row.id < nextCommandId := by
  refine List.forall_mem_append.mpr ⟨h.recorded, ?_⟩
  refine List.forall_mem_singleton.mpr fun row hrow => ?_
  exact h.named row (List.mem_append_left _
    (hlocks.held row (happlied.subset hrow)).1)

theorem QueueInv.sound_append
    (h : QueueInv start commands pending nextCommandId drains) {drain : Drain}
    (hsound : drain.Sound) : ∀ ended ∈ drains ++ [drain], ended.Sound :=
  List.forall_mem_append.mpr ⟨h.sound, List.forall_mem_singleton.mpr hsound⟩

/-- What was finished before one more drain is so after it. -/
theorem QueueInv.finished_append
    (h : QueueInv start commands pending nextCommandId drains) (drain : Drain)
    {live : CommandRow} (hlive : live ∈ commands)
    (hfinished : live.state ≠ .queued) :
    live ∈ start.commands ∨ ∃ ended ∈ drains ++ [drain], ended.committed ∧
      ∃ row ∈ ended.applied, row.id = live.id := by
  refine (h.finished live hlive hfinished).imp_right ?_
  rintro ⟨ended, hended, hrest⟩
  exact ⟨ended, List.mem_append_left _ hended, hrest⟩

/-- A drain that fails leaves the table as it was. -/
theorem QueueInv.rollBack
    (h : QueueInv start commands pending nextCommandId drains)
    (hlocks : Locks commands locked claimed) {drain : Drain}
    (happlied : drain.applied.Sublist claimed) (hsound : drain.Sound)
    (hfails : drain.committed = false) :
    QueueInv start commands pending nextCommandId (drains ++ [drain]) where
  unique := h.unique
  named := h.named
  fresh := h.fresh
  recorded := h.recorded_append hlocks happlied
  sound := h.sound_append hsound
  carried := by
    intro ended hended hcommitted
    obtain hold | hnew := List.mem_append.mp hended
    · exact h.carried ended hold hcommitted
    · rw [List.mem_singleton.mp hnew, hfails] at hcommitted
      cases hcommitted
  once := h.once_append hlocks happlied
  finished := fun _ hlive hfinished => h.finished_append drain hlive hfinished

/-- A drain that is committed marks all that it has locked. -/
theorem QueueInv.commit
    (h : QueueInv start commands pending nextCommandId drains)
    {marks : List Mark} (hlocks : Locks commands locked (marks.map Mark.row))
    {drain : Drain} (happlied : drain.applied = marks.map Mark.row)
    (hsound : drain.Sound) (hcommitted : drain.committed = true) :
    QueueInv start (commands.map (CommandRow.marked marks)) pending
      nextCommandId (drains ++ [drain]) where
  unique := by
    rw [List.map_append, List.map_map, id_comp_marked, ← List.map_append]
    exact h.unique
  named := by
    intro row hrow
    obtain hold | hpending := List.mem_append.mp hrow
    · obtain ⟨before, hbefore, rfl⟩ := List.mem_map.mp hold
      rw [id_marked]
      exact h.named before (List.mem_append_left _ hbefore)
    · exact h.named row (List.mem_append_right _ hpending)
  fresh := h.fresh
  recorded := h.recorded_append hlocks (happlied ▸ List.Sublist.refl _)
  sound := h.sound_append hsound
  carried := by
    intro ended hended hcarried row hrow live hlive hsame hqueued
    obtain hold | hnew := List.mem_append.mp hended
    · obtain hmarked | hpending := List.mem_append.mp hlive
      · obtain ⟨before, hbefore, rfl⟩ := List.mem_map.mp hmarked
        rw [(marked_queued hqueued).1] at hsame hqueued
        exact h.carried ended hold hcarried row hrow before
          (List.mem_append_left _ hbefore) hsame hqueued
      · exact h.carried ended hold hcarried row hrow live
          (List.mem_append_right _ hpending) hsame hqueued
    · rw [List.mem_singleton.mp hnew, happlied] at hrow
      obtain ⟨mark, hmark, rfl⟩ := List.mem_map.mp hrow
      obtain hmarked | hpending := List.mem_append.mp hlive
      · obtain ⟨before, hbefore, rfl⟩ := List.mem_map.mp hmarked
        obtain ⟨hkept, hunmarked⟩ := marked_queued hqueued
        rw [hkept] at hsame
        exact hunmarked mark hmark hsame.symm
      · -- a row has its id alone, whether it is committed or not
        have hmem := (hlocks.held mark.row (List.mem_map_of_mem hmark)).1
        have hdisjoint := h.unique
        rw [List.map_append] at hdisjoint
        exact List.disjoint_of_nodup_append hdisjoint
          (List.mem_map_of_mem hmem)
          (hsame ▸ List.mem_map_of_mem hpending)
  once := h.once_append hlocks (happlied ▸ List.Sublist.refl _)
  finished := by
    intro live hlive hfinished
    obtain ⟨before, hbefore, rfl⟩ := List.mem_map.mp hlive
    obtain hsame | ⟨mark, hmark, hid⟩ := marked_eq_or marks before
    · rw [hsame] at hfinished ⊢
      exact h.finished_append drain hbefore hfinished
    · refine .inr ⟨drain, List.mem_append_right _ (List.mem_singleton.mpr rfl),
        hcommitted, mark.row, happlied ▸ List.mem_map_of_mem hmark, ?_⟩
      rw [id_marked]
      exact hid

end Steps

section Runs

variable {settings : DaemonSettings} {start : DaemonStart}
  {world next : DaemonWorld}

/-- The step leaves the commands and the drains as they are, and others have no
more of them locked. -/
structure SameQueue (world next : DaemonWorld) : Prop where
  commands : next.commands = world.commands
  pending : next.pending = world.pending
  nextCommandId : next.nextCommandId = world.nextCommandId
  drains : next.drains = world.drains
  locked : next.locked ⊆ world.locked
  claim : next.claimQueue = world.claimQueue ∧
    next.claimLocked = world.claimLocked

theorem SameQueue.teardown (accountId : Nat) :
    SameQueue world (world.teardown accountId) := by
  rw [teardown_eq]
  exact ⟨rfl, rfl, rfl, rfl, List.Subset.refl _, rfl, rfl⟩

theorem SameQueue.applyCommand (command : CommandName) :
    SameQueue world (world.applyCommand command) := by
  cases command with
  | restartAccount accountId =>
      have hsame := @SameQueue.teardown world accountId
      exact ⟨hsame.commands, hsame.pending, hsame.nextCommandId, hsame.drains,
        hsame.locked, hsame.claim⟩
  | _ => exact ⟨rfl, rfl, rfl, rfl, List.Subset.refl _, rfl, rfl⟩

theorem SameQueue.moveTo (h : SameQueue world next) (point : DaemonPoint) :
    SameQueue world { next with point := point } :=
  ⟨h.commands, h.pending, h.nextCommandId, h.drains, h.locked, h.claim⟩

theorem CommandInv.same_queue (h : CommandInv start world)
    (hsame : SameQueue world next) :
    QueueInv start next.commands next.pending next.nextCommandId
      next.drains := by
  rw [hsame.commands, hsame.pending, hsame.nextCommandId, hsame.drains]
  exact h.queue

/-- Outside a drain nothing is locked by the daemon. -/
theorem CommandInv.outside
    (hqueue : QueueInv start next.commands next.pending next.nextCommandId
      next.drains) (hclaimed : next.point.claimed = [])
    (hpoint : ¬ next.point.Drains) : CommandInv start next where
  queue := hqueue
  locks := hclaimed ▸ .nil
  taken := by
    rw [hclaimed]
    simp
  whole := fun hdrains => absurd hdrains hpoint

/-- The drain goes on as it was claimed. -/
theorem CommandInv.within (h : CommandInv start world)
    (hqueue : QueueInv start next.commands next.pending next.nextCommandId
      next.drains)
    (hlocks : Locks next.commands next.locked world.point.claimed)
    (hclaimed : next.point.claimed = world.point.claimed)
    (hpoint : next.point.Drains → world.point.Drains)
    (hclaim : next.claimQueue = world.claimQueue ∧
      next.claimLocked = world.claimLocked) : CommandInv start next where
  queue := hqueue
  locks := hclaimed ▸ hlocks
  taken := by
    rw [hclaimed, hclaim.1, hclaim.2]
    exact h.taken
  whole := by
    rw [hclaimed, hclaim.1, hclaim.2]
    exact fun hdrains => h.whole (hpoint hdrains)

theorem not_drains_afterDrain (world : DaemonWorld) :
    (afterDrain world).claimed = [] ∧ ¬ (afterDrain world).Drains := by
  unfold afterDrain
  split
  · exact ⟨rfl, nofun⟩
  · exact ⟨rfl, nofun⟩

theorem CommandInv.rollBack (h : CommandInv start world) {marks : List Mark}
    (hdrained : world.point.drained marks) :
    CommandInv start (rollBack world marks) := by
  have happlied : (marks.map Mark.row).Sublist world.point.claimed := by
    cases hat : world.point with
    | claiming =>
        rw [hat] at hdrained
        exact hdrained ▸ .slnil
    | draining todo done =>
        rw [hat] at hdrained
        exact hdrained ▸ List.sublist_append_left _ _
    | _ => rw [hat] at hdrained; exact hdrained.elim
  have hsound : (drainOf world marks false).Sound :=
    ⟨h.locks.batch.sublist happlied,
      fun row hrow => h.taken row (happlied.subset hrow), nofun⟩
  obtain ⟨hclaimed, hpoint⟩ := not_drains_afterDrain world
  exact .outside (h.queue.rollBack h.locks happlied hsound rfl) hclaimed hpoint

theorem CommandInv.commit (h : CommandInv start world) {marks : List Mark}
    (hpoint : world.point = .draining [] marks) :
    CommandInv start { world with
      commands := world.commands.map (CommandRow.marked marks)
      point := afterDrain world
      drains := world.drains ++ [drainOf world marks true] } := by
  have hclaimed : world.point.claimed = marks.map Mark.row := by
    rw [hpoint, DaemonPoint.claimed, List.append_nil]
  have hlocks := h.locks
  have htaken := h.taken
  have hwhole := h.whole (by rw [hpoint]; trivial)
  rw [hclaimed] at hlocks htaken hwhole
  obtain ⟨hnone, hafter⟩ := not_drains_afterDrain world
  exact .outside (h.queue.commit hlocks rfl
    ⟨hlocks.batch, htaken, fun _ => hwhole⟩ rfl) hnone hafter

/-- The step lemma. -/
theorem CommandInv.step (h : CommandInv start world) {event : DaemonEvent}
    (hturn : DaemonTurn settings world event next) :
    CommandInv start next := by
  have hlocks := h.locks
  cases hturn with
  | deleteAccount hlocked =>
      refine h.within (h.queue.delete _) (hlocks.of_kept ?_ ?_) rfl id
        ⟨rfl, rfl⟩
      · intro row hrow hmem
        refine List.mem_filter.mpr ⟨hmem, decide_eq_true fun haccount => ?_⟩
        exact hlocks.free row hrow (hlocked row hmem haccount)
      · exact fun row hrow hmem =>
          hlocks.free row hrow (List.mem_of_mem_filter hmem)
  | enqueue =>
      exact h.within (h.queue.enqueue rfl rfl) hlocks rfl id ⟨rfl, rfl⟩
  | @publish commandId =>
      refine h.within (h.queue.publish commandId)
        (hlocks.of_kept ?_ hlocks.free) rfl id ⟨rfl, rfl⟩
      exact fun row _ hmem => List.mem_append_left _ hmem
  | abandon => exact h.within (h.queue.abandon _) hlocks rfl id ⟨rfl, rfl⟩
  | lock hfree =>
      refine h.within h.queue (hlocks.of_kept (fun _ _ hmem => hmem) ?_) rfl id
        ⟨rfl, rfl⟩
      intro row hrow hmem
      exact (List.mem_append.mp hmem).elim (hlocks.free row hrow)
        (hfree row hrow)
  | unlock =>
      refine h.within h.queue (hlocks.of_kept (fun _ _ hmem => hmem) ?_) rfl id
        ⟨rfl, rfl⟩
      exact fun row hrow hmem =>
        hlocks.free row hrow (List.diff_subset _ _ hmem)
  | claim hpoint =>
      have hunique := h.queue.unique
      rw [List.map_append] at hunique
      exact ⟨h.queue, .claim (List.Nodup.of_append_left hunique),
        fun row hrow => mem_claimCommands.mp hrow,
        fun _ row hrow hfree => mem_claimCommands.mpr ⟨hrow, hfree⟩⟩
  | @apply row rest marks raised hpoint =>
      have hsame := @SameQueue.applyCommand world row.command
      have hsamePoint : (DaemonPoint.draining rest
          (marks ++ [markOf row raised])).claimed = world.point.claimed := by
        rw [hpoint]
        simp [DaemonPoint.claimed, row_markOf]
      refine h.within (h.same_queue (hsame.moveTo _)) (hlocks.of_kept ?_ ?_)
        hsamePoint ?_ hsame.claim
      · intro other _ hmem
        show other ∈ (world.applyCommand row.command).commands
        rw [hsame.commands]
        exact hmem
      · exact fun other hother hmem =>
          hlocks.free other hother (hsame.locked hmem)
      · rw [hpoint]
        exact fun _ => trivial
  | commit hpoint => exact h.commit hpoint
  | rollBack hdrained => exact h.rollBack hdrained
  | read hpoint =>
      unfold reconcileWith
      dsimp only
      split
      · exact .outside h.queue rfl nofun
      · exact .outside h.queue rfl nofun
  | @operate op rest rows hpoint =>
      cases op with
      | teardown accountId =>
          have hsame := @SameQueue.teardown world accountId
          exact .outside (h.same_queue (hsame.moveTo _)) rfl nofun
      | spawn row => exact .outside h.queue rfl nofun
  | settle hpoint =>
      unfold DaemonWorld.resizePool
      split
      · exact .outside h.queue rfl nofun
      · exact .outside h.queue rfl nofun
  | setAccounts | requestStop | signalBundle =>
      exact h.within h.queue hlocks rfl id ⟨rfl, rfl⟩
  | _ => exact .outside h.queue rfl nofun

/-- The run lemma. -/
theorem CommandInv.reached (start : DaemonStart)
    (hrun : Reach (daemonStep settings) (start.world settings) world) :
    CommandInv start world := by
  refine hrun.invariant ?_ fun before event after h _ hstep =>
    h.step (.of_step hstep)
  have hrows : start.commands ++ [] = start.commands := List.append_nil _
  exact .outside
    { unique := hrows.symm ▸ start.unique
      named := hrows.symm ▸ start.named
      fresh := List.forall_mem_nil _
      recorded := List.forall_mem_nil _
      sound := List.forall_mem_nil _
      carried := List.forall_mem_nil _
      once := .nil
      finished := fun _ hlive _ => .inl hlive } rfl nofun

/-- In every run, whatever fails: a command that a committed drain carried out
is in no later drain; each drain takes its commands once and oldest first, and
none that others have locked; a committed drain carries out every command that
was queued when it claimed and that nobody had locked, and leaves none of them
queued; and a command that is no longer queued was carried out in a committed
drain, or was not queued when the daemon started. -/
theorem commands_carried_out_once (start : DaemonStart)
    (hrun : Reach (daemonStep settings) (start.world settings) world) :
    world.drains.Pairwise Drain.NotRepeated ∧
      (∀ drain ∈ world.drains, Batch drain.applied ∧
        ∀ row ∈ drain.applied, row ∈ drain.queue ∧ row.id ∉ drain.locked) ∧
      (∀ drain ∈ world.drains, drain.committed →
        (∀ row ∈ drain.queue, row.id ∉ drain.locked → row ∈ drain.applied) ∧
        Finished world.commands drain.applied) ∧
      ∀ live ∈ world.commands, live.state ≠ .queued →
        live ∈ start.commands ∨ ∃ drain ∈ world.drains, drain.committed ∧
          ∃ row ∈ drain.applied, row.id = live.id := by
  have h := (CommandInv.reached start hrun).queue
  refine ⟨h.once, fun drain hdrain => ?_, fun drain hdrain hcommitted => ?_,
    h.finished⟩
  · exact ⟨(h.sound drain hdrain).batch, (h.sound drain hdrain).taken⟩
  · refine ⟨(h.sound drain hdrain).whole hcommitted, ?_⟩
    intro row hrow live hlive
    exact h.carried drain hdrain hcommitted row hrow live
      (List.mem_append_left _ hlive)

def oneAccount : DaemonStart := .quiet [⟨1, 10⟩] (by decide)

/-- The command inserted first is committed second, and locked while the first
drain claims; the second drain fails after it, and the third takes it. -/
def drainedThrice : List DaemonEvent :=
  [.operate true, .settle, .enqueue 7 (.restartAccount 1),
    .enqueue 5 .reloadNow, .publish 1, .publish 0, .lock [0], .wake,
    .claim true, .apply none, .commit true, .readAccounts true, .unlock [0],
    .wake, .claim true, .apply none, .markFails, .readAccounts true,
    .operate true, .settle, .wake, .claim true, .apply none,
    .enqueue 9 .reloadNow, .publish 2, .commit true]

theorem commands_carried_out_once_retried : ∃ world : DaemonWorld,
    Reach (daemonStep ⟨false, false, none⟩)
      (oneAccount.world ⟨false, false, none⟩) world ∧
    world.commands.map (fun row => (row.id, row.state)) =
      [(1, .done), (0, .done), (2, .queued)] ∧
    world.drains.map (fun drain =>
      (drain.applied.map CommandRow.id, drain.locked, drain.committed)) =
      [([1], [0], true), ([0], [], false), ([0], [], true)] ∧
    world.drains.Pairwise Drain.NotRepeated ∧
    ∀ drain ∈ world.drains, drain.committed →
      (∀ row ∈ drain.queue, row.id ∉ drain.locked → row ∈ drain.applied) ∧
      Finished world.commands drain.applied := by
  have hreplay : (replayGuarded (daemonStep ⟨false, false, none⟩)
      (fun _ _ => True) (oneAccount.world ⟨false, false, none⟩)
        drainedThrice).map (fun world =>
          (world.commands.map (fun row => (row.id, row.state)),
            world.drains.map fun drain =>
              (drain.applied.map CommandRow.id, drain.locked,
                drain.committed))) =
      some ([(1, .done), (0, .done), (2, .queued)],
        [([1], [0], true), ([0], [], false), ([0], [], true)]) := by
    decide +kernel
  obtain ⟨world, hworld, hends⟩ := Option.map_eq_some_iff.mp hreplay
  obtain ⟨hstates, hdrains⟩ := Prod.mk.inj hends
  have hrun := GuardedReach.of_replay _ hworld
  have honce := commands_carried_out_once oneAccount hrun
  exact ⟨world, hrun, hstates, hdrains, honce.1, honce.2.2.1⟩

end Runs

end DaemonLoop

end Localmail
