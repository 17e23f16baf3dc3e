/-
The supervisor of the sync daemon.  A section under its lock is one step; the
lifecycle thread, the reader threads, the callers of `close` and the children
themselves take their steps in any order.  Whoever waits for a child waits for
the only one alive, and this carries the two sections of a stop over what comes
between them.
-/
import Mathlib.Logic.Function.Basic
import Localmail.LabelledRun
import Localmail.SearchRequest

namespace Localmail

namespace Daemon

/-! ### The supervisor and its threads -/

inductive SupervisorState where
  | stopped
  | starting
  | running
  | stopping
  | crashed
deriving Repr, DecidableEq

structure SupervisorUnavailable where
  message : Text
deriving Repr, DecidableEq

structure SupervisorStatus where
  state : SupervisorState
  pid : Option Nat
  startedAt : Option Int
deriving Repr, DecidableEq

/-- How far a call of `stop` is: before its first section, or waiting for a
child to exit. -/
inductive StopProgress where
  | entered
  | waiting (child : Nat)
deriving Repr, DecidableEq

/-- What the lifecycle thread has before it. -/
inductive LifecycleThread where
  | gone
  | starts
  | stops (progress : StopProgress) (thenStarts : Bool)
  | returns
deriving Repr, DecidableEq

inductive CloseCall where
  | uncalled
  | stops (progress : StopProgress)
  | returned
deriving Repr, DecidableEq

/-- The attributes of the supervisor, the threads at work on it and the
children it spawned, each named by how many came before it. -/
structure DaemonSupervisor where
  proc : Option Nat
  state : SupervisorState
  startedAt : Option Int
  closing : Bool
  lifecycleThread : LifecycleThread
  closeCalls : Nat → CloseCall
  readers : List Nat
  alive : List Nat
  spawned : Nat

def initial : DaemonSupervisor where
  proc := none
  state := .stopped
  startedAt := none
  closing := false
  lifecycleThread := .gone
  closeCalls := fun _ => .uncalled
  readers := []
  alive := []
  spawned := 0

/-! ### The sections -/

section Sections

variable (sup : DaemonSupervisor)

/-- The child `_proc` names, if `poll` finds it alive. -/
def liveChild : Option Nat :=
  sup.proc.filter fun child => child ∈ sup.alive

def stopped : DaemonSupervisor :=
  { sup with proc := none, startedAt := none, state := .stopped }

/-- `start`; `spawn` is when `Popen` returns, or nothing if it raises. -/
def startSection (spawn : Option Int) : DaemonSupervisor :=
  if sup.closing then sup
  else if (liveChild sup).isSome then sup
  else
    match spawn with
    | none => { sup with state := .starting }
    | some now =>
        { sup with
          proc := some sup.spawned
          state := .running
          startedAt := some now
          readers := sup.readers ++ [sup.spawned]
          alive := sup.alive ++ [sup.spawned]
          spawned := sup.spawned + 1 }

/-- The next section of `stop`, with what is left of it.  The second one has
to wait for its child. -/
def stopSection : StopProgress →
    Option (DaemonSupervisor × Option StopProgress)
  | .entered =>
      match liveChild sup with
      | none => some (stopped sup, none)
      | some child => some ({ sup with state := .stopping }, some (.waiting child))
  | .waiting child =>
      if child ∈ sup.alive then none else some (stopped sup, none)

/-- `_admit_lifecycle_request`. -/
def admitLifecycleRequest : Except SupervisorUnavailable Unit :=
  if sup.closing then .error ⟨text "supervisor is shutting down"⟩
  else if sup.lifecycleThread ≠ .gone then
    .error ⟨text "a lifecycle operation is already in progress"⟩
  else .ok ()

def requestStart : Except SupervisorUnavailable DaemonSupervisor := do
  admitLifecycleRequest sup
  if (liveChild sup).isSome then return sup
  return { sup with state := .starting, lifecycleThread := .starts }

def requestStop : Except SupervisorUnavailable DaemonSupervisor := do
  admitLifecycleRequest sup
  if (liveChild sup).isNone then return stopped sup
  return { sup with
    state := .stopping, lifecycleThread := .stops .entered false }

def requestRestart : Except SupervisorUnavailable DaemonSupervisor := do
  admitLifecycleRequest sup
  return { sup with
    state := .stopping, lifecycleThread := .stops .entered true }

/-- A request that raises has changed nothing. -/
def requested (result : Except SupervisorUnavailable DaemonSupervisor) :
    DaemonSupervisor :=
  match result with
  | .ok after => after
  | .error _ => sup

def refreshed : DaemonSupervisor :=
  if sup.state = .running ∧ sup.proc.isSome ∧ (liveChild sup).isNone then
    { sup with state := .crashed }
  else sup

def status : SupervisorStatus × DaemonSupervisor :=
  let sup := refreshed sup
  (⟨sup.state, if sup.state ≠ .stopped then sup.proc else none, sup.startedAt⟩,
    sup)

/-- The end of `_drain_output`. -/
def drained (child : Nat) : DaemonSupervisor :=
  { sup with
    readers := sup.readers.erase child
    state := if sup.state = .running ∧ sup.proc = some child then .crashed
      else sup.state }

/-- The next section of the lifecycle thread.  It ends the same way whether
its body returned or raised. -/
def lifecycleSection (spawn : Option Int) : Option DaemonSupervisor :=
  match sup.lifecycleThread with
  | .gone => none
  | .starts => some { startSection sup spawn with lifecycleThread := .returns }
  | .stops progress thenStarts =>
      (stopSection sup progress).map fun (after, left) =>
        { after with
          lifecycleThread := match left with
            | some progress => .stops progress thenStarts
            | none => if thenStarts then .starts else .returns }
  | .returns => some { sup with lifecycleThread := .gone }

/-- The next section of a call of `close`. -/
def closeSection (caller : Nat) : Option DaemonSupervisor :=
  match sup.closeCalls caller with
  | .uncalled =>
      some { sup with
        closing := true
        closeCalls := Function.update sup.closeCalls caller (.stops .entered) }
  | .stops progress =>
      (stopSection sup progress).map fun (after, left) =>
        { after with
          closeCalls := Function.update sup.closeCalls caller (match left with
            | some progress => .stops progress
            | none => .returned) }
  | .returned => none

end Sections

/-! ### The steps -/

inductive DaemonEvent where
  | requestStart
  | requestStop
  | requestRestart
  | status
  | lifecycle (spawn : Option Int)
  | close (caller : Nat)
  | exits (child : Nat)
  | endOfOutput (child : Nat)
deriving Repr, DecidableEq

def daemonStep (sup : DaemonSupervisor) : DaemonEvent → Option DaemonSupervisor
  | .requestStart => some (requested sup (requestStart sup))
  | .requestStop => some (requested sup (requestStop sup))
  | .requestRestart => some (requested sup (requestRestart sup))
  | .status => some (status sup).2
  | .lifecycle spawn => lifecycleSection sup spawn
  | .close caller => closeSection sup caller
  | .exits child =>
      if child ∈ sup.alive then
        some { sup with alive := sup.alive.erase child }
      else none
  | .endOfOutput child =>
      if child ∈ sup.readers then some (drained sup child) else none

/-- The step is a spawn that raises. -/
def SpawnFails (sup : DaemonSupervisor) (event : DaemonEvent) : Prop :=
  event = .lifecycle none ∧ sup.lifecycleThread = .starts ∧
    sup.closing = false ∧ (liveChild sup).isNone

def NoSpawnFails (sup : DaemonSupervisor) (event : DaemonEvent) : Prop :=
  ¬ SpawnFails sup event

instance (sup : DaemonSupervisor) (event : DaemonEvent) :
    Decidable (NoSpawnFails sup event) :=
  inferInstanceAs (Decidable (¬ (_ ∧ _)))

/-- At most one child is alive, none once `close` has returned, and the status
at rest is neither of the transient ones and no lie about the child. -/
structure WellSupervised (sup : DaemonSupervisor) : Prop where
  single : sup.alive.length ≤ 1
  closed : ∀ caller, sup.closeCalls caller = .returned →
    ∀ later, Reach daemonStep sup later →
      later.alive = [] ∧ later.spawned = sup.spawned
  honest : sup.lifecycleThread = .gone → sup.closing = false →
    (status sup).1.state ≠ .starting ∧ (status sup).1.state ≠ .stopping ∧
      ((status sup).1.state = .running →
        ∃ child, sup.proc = some child ∧ child ∈ sup.alive)

/-! ### Who owns the children -/

/-- A thread in a stop waits for this child. -/
def Waits (sup : DaemonSupervisor) (child : Nat) : Prop :=
  (∃ thenStarts, sup.lifecycleThread = .stops (.waiting child) thenStarts) ∨
    ∃ caller, sup.closeCalls caller = .stops (.waiting child)

structure OwnsChildren (sup : DaemonSupervisor) : Prop where
  owned : sup.alive = [] ∨ ∃ child, sup.proc = some child ∧ sup.alive = [child]
  awaited : ∀ child, Waits sup child → ∀ other ∈ sup.alive, other = child
  closing : ∀ caller, sup.closeCalls caller ≠ .uncalled → sup.closing = true
  closed : ∀ caller, sup.closeCalls caller = .returned → sup.alive = []
  alone : sup.lifecycleThread = .starts → sup.closing = false → sup.alive = []
  named : sup.state = .running → sup.proc ≠ none

/-- What a step does, with what it found. -/
inductive DaemonEffect (sup : DaemonSupervisor) (event : DaemonEvent) :
    DaemonSupervisor → Prop
  | same : DaemonEffect sup event sup
  | startRequested (gone : sup.lifecycleThread = .gone)
      (opened : sup.closing = false) (childless : sup.alive = []) :
      DaemonEffect sup event
        { sup with state := .starting, lifecycleThread := .starts }
  | stopRequested (thenStarts : Bool) (gone : sup.lifecycleThread = .gone)
      (opened : sup.closing = false) :
      DaemonEffect sup event
        { sup with
          state := .stopping, lifecycleThread := .stops .entered thenStarts }
  | stopAnswered (gone : sup.lifecycleThread = .gone)
      (childless : sup.alive = []) :
      DaemonEffect sup event (stopped sup)
  | startSkipped (starts : sup.lifecycleThread = .starts)
      (closing : sup.closing = true) :
      DaemonEffect sup event { sup with lifecycleThread := .returns }
  | spawnFailed (fails : SpawnFails sup event) (childless : sup.alive = []) :
      DaemonEffect sup event
        { sup with state := .starting, lifecycleThread := .returns }
  | spawned (now : Int) (starts : sup.lifecycleThread = .starts)
      (opened : sup.closing = false) (childless : sup.alive = []) :
      DaemonEffect sup event
        { sup with
          proc := some sup.spawned
          state := .running
          startedAt := some now
          readers := sup.readers ++ [sup.spawned]
          alive := [sup.spawned]
          spawned := sup.spawned + 1
          lifecycleThread := .returns }
  | lifecycleWaits {child : Nat} {thenStarts : Bool}
      (alive : sup.alive = [child]) :
      DaemonEffect sup event
        { sup with
          state := .stopping
          lifecycleThread := .stops (.waiting child) thenStarts }
  | lifecycleStopped {thenStarts : Bool} (childless : sup.alive = []) :
      DaemonEffect sup event
        { stopped sup with
          lifecycleThread := if thenStarts then .starts else .returns }
  | lifecycleEnds (returns : sup.lifecycleThread = .returns) :
      DaemonEffect sup event { sup with lifecycleThread := .gone }
  | closeBegins {caller : Nat} :
      DaemonEffect sup event
        { sup with
          closing := true
          closeCalls :=
            Function.update sup.closeCalls caller (.stops .entered) }
  | closeWaits {caller child : Nat} (called : sup.closeCalls caller ≠ .uncalled)
      (alive : sup.alive = [child]) :
      DaemonEffect sup event
        { sup with
          state := .stopping
          closeCalls :=
            Function.update sup.closeCalls caller (.stops (.waiting child)) }
  | closeReturns {caller : Nat} (called : sup.closeCalls caller ≠ .uncalled)
      (childless : sup.alive = []) :
      DaemonEffect sup event
        { stopped sup with
          closeCalls := Function.update sup.closeCalls caller .returned }
  | exits {child : Nat} :
      DaemonEffect sup event { sup with alive := sup.alive.erase child }
  | observed {readers : List Nat} {state : SupervisorState}
      (flips : state = sup.state ∨ sup.state = .running ∧ state = .crashed) :
      DaemonEffect sup event { sup with readers := readers, state := state }

section Effect

variable {sup next : DaemonSupervisor} {event : DaemonEvent}

theorem OwnsChildren.liveChild_eq (howns : OwnsChildren sup) :
    (liveChild sup = none ∧ sup.alive = []) ∨
      ∃ child, liveChild sup = some child ∧ sup.alive = [child] := by
  unfold liveChild
  rcases howns.owned with hnone | ⟨child, hproc, halive⟩
  · rw [hnone]
    refine .inl ⟨?_, rfl⟩
    cases sup.proc with
    | none => rfl
    | some child => rfl
  · rw [hproc, halive]
    exact .inr ⟨child, by simp, rfl⟩

theorem admitLifecycleRequest_eq (sup : DaemonSupervisor) :
    (∃ raised, admitLifecycleRequest sup = .error raised) ∨
      admitLifecycleRequest sup = .ok () ∧ sup.closing = false ∧
        sup.lifecycleThread = .gone := by
  unfold admitLifecycleRequest
  split
  · exact .inl ⟨_, rfl⟩
  · rename_i hopened
    split
    · exact .inl ⟨_, rfl⟩
    · rename_i hgone
      exact .inr ⟨rfl, eq_false_of_ne_true hopened, not_not.mp hgone⟩

theorem OwnsChildren.requestStart_effect (howns : OwnsChildren sup) :
    DaemonEffect sup event (requested sup (requestStart sup)) := by
  unfold requestStart
  rcases admitLifecycleRequest_eq sup with
    ⟨raised, hbegun⟩ | ⟨hbegun, hopened, hgone⟩
  · rw [hbegun]
    exact .same
  · rw [hbegun]
    rcases howns.liveChild_eq with ⟨hlive, hnone⟩ | ⟨child, hlive, halive⟩
    · rw [hlive]
      exact .startRequested hgone hopened hnone
    · rw [hlive]
      exact .same

theorem OwnsChildren.requestStop_effect (howns : OwnsChildren sup) :
    DaemonEffect sup event (requested sup (requestStop sup)) := by
  unfold requestStop
  rcases admitLifecycleRequest_eq sup with
    ⟨raised, hbegun⟩ | ⟨hbegun, hopened, hgone⟩
  · rw [hbegun]
    exact .same
  · rw [hbegun]
    rcases howns.liveChild_eq with ⟨hlive, hnone⟩ | ⟨child, hlive, halive⟩
    · rw [hlive]
      exact .stopAnswered hgone hnone
    · rw [hlive]
      exact .stopRequested false hgone hopened

theorem requestRestart_effect :
    DaemonEffect sup event (requested sup (requestRestart sup)) := by
  unfold requestRestart
  rcases admitLifecycleRequest_eq sup with
    ⟨raised, hbegun⟩ | ⟨hbegun, hopened, hgone⟩
  · rw [hbegun]
    exact .same
  · rw [hbegun]
    exact .stopRequested true hgone hopened

theorem status_effect : DaemonEffect sup event (status sup).2 := by
  unfold status refreshed
  dsimp only
  split
  · rename_i hcrashed
    exact .observed (.inr ⟨hcrashed.1, rfl⟩)
  · exact .same

theorem OwnsChildren.startSection_effect (howns : OwnsChildren sup)
    (hstarts : sup.lifecycleThread = .starts) (spawn : Option Int) :
    DaemonEffect sup (.lifecycle spawn)
      { startSection sup spawn with lifecycleThread := .returns } := by
  unfold startSection
  by_cases hclosing : sup.closing = true
  · rw [if_pos hclosing]
    exact .startSkipped hstarts hclosing
  · have hopened : sup.closing = false := eq_false_of_ne_true hclosing
    have hnone := howns.alone hstarts hopened
    have hlive : liveChild sup = none := by
      rcases howns.liveChild_eq with ⟨hlive, -⟩ | ⟨child, -, halive⟩
      · exact hlive
      · rw [hnone] at halive
        cases halive
    rw [if_neg hclosing, hlive, Option.isSome_none, if_neg Bool.false_ne_true]
    cases spawn with
    | none =>
        refine .spawnFailed ⟨rfl, hstarts, hopened, ?_⟩ hnone
        rw [hlive]
        rfl
    | some now =>
        dsimp only
        rw [hnone]
        exact .spawned now hstarts hopened hnone

/-- A section of a stop finds no child, or goes on to wait for the only one. -/
theorem OwnsChildren.stopSection_cases (howns : OwnsChildren sup)
    {progress : StopProgress} {after : DaemonSupervisor}
    {left : Option StopProgress}
    (hwaits : ∀ child, progress = .waiting child → Waits sup child)
    (hsection : stopSection sup progress = some (after, left)) :
    sup.alive = [] ∧ after = stopped sup ∧ left = none ∨
      ∃ child, sup.alive = [child] ∧ after = { sup with state := .stopping } ∧
        left = some (.waiting child) := by
  cases progress with
  | entered =>
      rw [stopSection] at hsection
      rcases howns.liveChild_eq with ⟨hlive, hnone⟩ | ⟨child, hlive, halive⟩
      · rw [hlive] at hsection
        cases hsection
        exact .inl ⟨hnone, rfl, rfl⟩
      · rw [hlive] at hsection
        cases hsection
        exact .inr ⟨child, halive, rfl, rfl⟩
  | waiting child =>
      rw [stopSection] at hsection
      split at hsection
      · cases hsection
      · rename_i hexited
        cases hsection
        refine .inl ⟨List.eq_nil_iff_forall_not_mem.mpr ?_, rfl, rfl⟩
        intro other hother
        rw [howns.awaited child (hwaits child rfl) other hother] at hother
        exact hexited hother

theorem OwnsChildren.lifecycleSection_effect (howns : OwnsChildren sup)
    {spawn : Option Int} (hsection : lifecycleSection sup spawn = some next) :
    DaemonEffect sup (.lifecycle spawn) next := by
  unfold lifecycleSection at hsection
  cases hthread : sup.lifecycleThread with
  | gone =>
      rw [hthread] at hsection
      cases hsection
  | starts =>
      rw [hthread] at hsection
      cases hsection
      exact howns.startSection_effect hthread spawn
  | stops progress thenStarts =>
      rw [hthread] at hsection
      obtain ⟨⟨after, left⟩, hstop, rfl⟩ := Option.map_eq_some_iff.mp hsection
      have hwaits : ∀ child, progress = .waiting child → Waits sup child := by
        rintro child rfl
        exact .inl ⟨thenStarts, hthread⟩
      rcases howns.stopSection_cases hwaits hstop with
        ⟨hnone, rfl, rfl⟩ | ⟨child, halive, rfl, rfl⟩
      · exact .lifecycleStopped hnone
      · exact .lifecycleWaits halive
  | returns =>
      rw [hthread] at hsection
      cases hsection
      exact .lifecycleEnds hthread

theorem OwnsChildren.closeSection_effect (howns : OwnsChildren sup)
    {caller : Nat} (hsection : closeSection sup caller = some next) :
    DaemonEffect sup event next := by
  unfold closeSection at hsection
  cases hcall : sup.closeCalls caller with
  | uncalled =>
      rw [hcall] at hsection
      cases hsection
      exact .closeBegins
  | stops progress =>
      rw [hcall] at hsection
      obtain ⟨⟨after, left⟩, hstop, rfl⟩ := Option.map_eq_some_iff.mp hsection
      have hcalled : sup.closeCalls caller ≠ .uncalled := by
        rw [hcall]
        nofun
      have hwaits : ∀ child, progress = .waiting child → Waits sup child := by
        rintro child rfl
        exact .inr ⟨caller, hcall⟩
      rcases howns.stopSection_cases hwaits hstop with
        ⟨hnone, rfl, rfl⟩ | ⟨child, halive, rfl, rfl⟩
      · exact .closeReturns hcalled hnone
      · exact .closeWaits hcalled halive
  | returned =>
      rw [hcall] at hsection
      cases hsection

theorem OwnsChildren.effect (howns : OwnsChildren sup)
    (hstep : daemonStep sup event = some next) :
    DaemonEffect sup event next := by
  unfold daemonStep at hstep
  cases event with
  | requestStart =>
      cases hstep
      exact howns.requestStart_effect
  | requestStop =>
      cases hstep
      exact howns.requestStop_effect
  | requestRestart =>
      cases hstep
      exact requestRestart_effect
  | status =>
      cases hstep
      exact status_effect
  | lifecycle spawn => exact howns.lifecycleSection_effect hstep
  | close caller => exact howns.closeSection_effect hstep
  | exits child =>
      dsimp only at hstep
      split at hstep
      · cases hstep
        exact .exits
      · cases hstep
  | endOfOutput child =>
      dsimp only at hstep
      split at hstep
      · cases hstep
        refine .observed ?_
        split
        · rename_i hcrashed
          exact .inr ⟨hcrashed.1, rfl⟩
        · exact .inl rfl
      · cases hstep

theorem ownsChildren_initial : OwnsChildren initial :=
  ⟨.inl rfl, nofun, fun _ hcalled => absurd rfl hcalled, nofun, nofun, nofun⟩

/-- Where no child is alive there is little to own. -/
theorem ownsChildren_of_childless (hnone : sup.alive = [])
    (hclosing : ∀ caller, sup.closeCalls caller ≠ .uncalled →
      sup.closing = true)
    (hnamed : sup.state = .running → sup.proc ≠ none) : OwnsChildren sup := by
  refine ⟨.inl hnone, ?_, hclosing, fun _ _ => hnone, fun _ _ => hnone, hnamed⟩
  intro child _ other hother
  rw [hnone] at hother
  cases hother

/-- A call that is not the one that went on is as it was. -/
theorem closeCalls_of_update {caller other : Nat} {state call : CloseCall}
    (hcall : Function.update sup.closeCalls caller state other = call)
    (hother : state ≠ call) : sup.closeCalls other = call := by
  by_cases hsame : other = caller
  · subst hsame
    exact absurd ((Function.update_self ..).symm.trans hcall) hother
  · exact (Function.update_of_ne hsame ..).symm.trans hcall

/-- Where the thread waits for no child, the calls of `close` still may. -/
theorem OwnsChildren.awaited_of_thread (howns : OwnsChildren sup)
    {state : SupervisorState} {thread : LifecycleThread}
    (hthread : ∀ child thenStarts, thread ≠ .stops (.waiting child) thenStarts)
    (child : Nat)
    (hwaits : Waits { sup with state := state, lifecycleThread := thread }
      child) : ∀ other ∈ sup.alive, other = child := by
  rcases hwaits with ⟨thenStarts, hwaiting⟩ | hcall
  · exact absurd hwaiting (hthread child thenStarts)
  · exact howns.awaited child (.inr hcall)

theorem OwnsChildren.preserved (howns : OwnsChildren sup)
    (heffect : DaemonEffect sup event next) : OwnsChildren next := by
  cases heffect with
  | same => exact howns
  | startRequested _ _ hnone =>
      exact ownsChildren_of_childless hnone howns.closing nofun
  | stopRequested thenStarts =>
      exact ⟨howns.owned, howns.awaited_of_thread nofun, howns.closing,
        howns.closed, nofun, nofun⟩
  | stopAnswered _ hnone =>
      exact ownsChildren_of_childless hnone howns.closing nofun
  | startSkipped =>
      exact ⟨howns.owned, howns.awaited_of_thread nofun, howns.closing,
        howns.closed, nofun, howns.named⟩
  | spawnFailed _ hnone =>
      exact ownsChildren_of_childless hnone howns.closing nofun
  | spawned now _ hopened =>
      -- a caller of `close` would have kept the child from being spawned
      have huncalled : ∀ caller, sup.closeCalls caller = .uncalled := by
        intro caller
        by_contra hcalled
        rw [howns.closing caller hcalled] at hopened
        cases hopened
      refine ⟨.inr ⟨_, rfl, rfl⟩, ?_, howns.closing, ?_, nofun, nofun⟩
      · rintro child (⟨_, hthread⟩ | ⟨caller, hcall⟩)
        · cases hthread
        · rw [huncalled caller] at hcall
          cases hcall
      · intro caller hcall
        rw [huncalled caller] at hcall
        cases hcall
  | @lifecycleWaits awaited _ halive =>
      refine ⟨howns.owned, ?_, howns.closing, howns.closed, nofun, nofun⟩
      rintro child (⟨_, hthread⟩ | hcall) other hother
      · cases hthread
        rw [halive] at hother
        exact List.mem_singleton.mp hother
      · exact howns.awaited child (.inr hcall) other hother
  | lifecycleStopped hnone =>
      exact ownsChildren_of_childless hnone howns.closing nofun
  | lifecycleEnds =>
      exact ⟨howns.owned, howns.awaited_of_thread nofun, howns.closing,
        howns.closed, nofun, howns.named⟩
  | @closeBegins caller =>
      refine ⟨howns.owned, ?_, fun _ _ => rfl, ?_, fun _ hopened => ?_,
        howns.named⟩
      · rintro child (hthread | ⟨other, hcall⟩)
        · exact howns.awaited child (.inl hthread)
        · exact howns.awaited child
            (.inr ⟨other, closeCalls_of_update hcall nofun⟩)
      · intro other hcall
        exact howns.closed other (closeCalls_of_update hcall nofun)
      · cases hopened
  | @closeWaits caller awaited hcalled halive =>
      refine ⟨howns.owned, ?_, ?_, ?_, howns.alone, nofun⟩
      · rintro child (hthread | ⟨other, hcall⟩)
        · exact howns.awaited child (.inl hthread)
        · by_cases hsame : other = caller
          · subst hsame
            cases (Function.update_self ..).symm.trans hcall
            intro other hother
            rw [halive] at hother
            exact List.mem_singleton.mp hother
          · exact howns.awaited child
              (.inr ⟨other, (Function.update_of_ne hsame ..).symm.trans hcall⟩)
      · exact fun _ _ => howns.closing caller hcalled
      · intro other hcall
        exact howns.closed other (closeCalls_of_update hcall nofun)
  | @closeReturns caller hcalled hnone =>
      exact ownsChildren_of_childless hnone
        (fun _ _ => howns.closing caller hcalled) nofun
  | @exits child =>
      have hless : sup.alive = [] → sup.alive.erase child = [] := by
        intro hnone
        rw [hnone]
        rfl
      refine ⟨?_, ?_, howns.closing, fun caller hcall =>
        hless (howns.closed caller hcall), fun hstarts hopened =>
          hless (howns.alone hstarts hopened), howns.named⟩
      · rcases howns.owned with hnone | ⟨owned, hproc, halive⟩
        · exact .inl (hless hnone)
        · by_cases hsame : owned = child
          · refine .inl ?_
            dsimp only
            rw [halive, hsame, List.erase_cons_head]
          · refine .inr ⟨owned, hproc, ?_⟩
            dsimp only
            rw [halive, List.erase_of_not_mem]
            exact fun hmem => hsame (List.mem_singleton.mp hmem).symm
      · intro awaited hwaits other hother
        exact howns.awaited awaited hwaits other (List.mem_of_mem_erase hother)
  | @observed readers state hflips =>
      refine ⟨howns.owned, howns.awaited, howns.closing, howns.closed,
        howns.alone, ?_⟩
      rintro rfl
      rcases hflips with hsame | ⟨-, hcrashed⟩
      · exact howns.named hsame.symm
      · cases hcrashed

/-- At rest the state is not one on the way to another. -/
def RestsSettled (sup : DaemonSupervisor) : Prop :=
  sup.lifecycleThread = .gone ∨ sup.lifecycleThread = .returns →
    sup.closing = false → sup.state ≠ .starting ∧ sup.state ≠ .stopping

/-- Only a failed spawn leaves the thread with a state on the way. -/
theorem RestsSettled.preserved (hrests : RestsSettled sup)
    (howns : OwnsChildren sup) (hspawns : NoSpawnFails sup event)
    (heffect : DaemonEffect sup event next) : RestsSettled next := by
  cases heffect with
  | same => exact hrests
  | startRequested => rintro (hthread | hthread) <;> cases hthread
  | stopRequested => rintro (hthread | hthread) <;> cases hthread
  | stopAnswered => exact fun _ _ => ⟨nofun, nofun⟩
  | startSkipped _ hclosing =>
      intro _ hopened
      rw [hclosing] at hopened
      cases hopened
  | spawnFailed hfails => exact absurd hfails hspawns
  | spawned => exact fun _ _ => ⟨nofun, nofun⟩
  | lifecycleWaits => rintro (hthread | hthread) <;> cases hthread
  | lifecycleStopped => exact fun _ _ => ⟨nofun, nofun⟩
  | lifecycleEnds hreturns => exact fun _ => hrests (.inr hreturns)
  | closeBegins =>
      intro _ hopened
      cases hopened
  | @closeWaits caller _ hcalled =>
      intro _ hopened
      rw [howns.closing caller hcalled] at hopened
      cases hopened
  | closeReturns => exact fun _ _ => ⟨nofun, nofun⟩
  | exits => exact hrests
  | observed hflips =>
      intro hthread hopened
      rcases hflips with rfl | ⟨-, rfl⟩
      · exact hrests hthread hopened
      · exact ⟨nofun, nofun⟩

/-- With `close` called and no child alive, none is spawned. -/
theorem DaemonEffect.childless (hclosing : sup.closing = true)
    (hnone : sup.alive = []) (heffect : DaemonEffect sup event next) :
    next.closing = true ∧ next.alive = [] ∧ next.spawned = sup.spawned := by
  cases heffect with
  | spawned now _ hopened =>
      rw [hclosing] at hopened
      cases hopened
  | closeBegins => exact ⟨rfl, hnone, rfl⟩
  | exits =>
      refine ⟨hclosing, ?_, rfl⟩
      dsimp only
      rw [hnone]
      rfl
  | same | startRequested | stopRequested | stopAnswered | startSkipped
  | spawnFailed | lifecycleWaits | lifecycleStopped | lifecycleEnds
  | closeWaits | closeReturns | observed => exact ⟨hclosing, hnone, rfl⟩

end Effect

/-! ### The runs -/

section Runs

variable {sup : DaemonSupervisor}

theorem ownsChildren_of_reach
    {guard : DaemonSupervisor → DaemonEvent → Prop}
    (hreach : GuardedReach daemonStep guard initial sup) : OwnsChildren sup :=
  hreach.invariant ownsChildren_initial fun _ _ _ howns _ hstep =>
    howns.preserved (howns.effect hstep)

/-- After a call of `close` has returned there is no child to come. -/
theorem OwnsChildren.closed_for_good (howns : OwnsChildren sup) {caller : Nat}
    (hreturned : sup.closeCalls caller = .returned) {later : DaemonSupervisor}
    (hlater : Reach daemonStep sup later) :
    later.alive = [] ∧ later.spawned = sup.spawned := by
  have hclosing : sup.closing = true := by
    apply howns.closing caller
    rw [hreturned]
    nofun
  have hinv : OwnsChildren later ∧ later.closing = true ∧ later.alive = [] ∧
      later.spawned = sup.spawned := by
    apply hlater.invariant ⟨howns, hclosing, howns.closed caller hreturned, rfl⟩
    intro before event after hbefore _ hstep
    obtain ⟨hownsBefore, hclosingBefore, hnone, hspawned⟩ := hbefore
    have heffect := hownsBefore.effect hstep
    obtain ⟨hclosingAfter, hnoneAfter, hspawnedAfter⟩ :=
      heffect.childless hclosingBefore hnone
    exact ⟨hownsBefore.preserved heffect, hclosingAfter, hnoneAfter,
      hspawnedAfter.trans hspawned⟩
  exact hinv.2.2

theorem OwnsChildren.alive_length_le (howns : OwnsChildren sup) :
    sup.alive.length ≤ 1 := by
  rcases howns.owned with hnone | ⟨child, -, halive⟩
  · rw [hnone]
    exact Nat.zero_le 1
  · rw [halive]
    exact Nat.le_refl 1

theorem OwnsChildren.status_honest (howns : OwnsChildren sup)
    (hsettled : sup.state ≠ .starting ∧ sup.state ≠ .stopping) :
    (status sup).1.state ≠ .starting ∧ (status sup).1.state ≠ .stopping ∧
      ((status sup).1.state = .running →
        ∃ child, sup.proc = some child ∧ child ∈ sup.alive) := by
  unfold status refreshed
  dsimp only
  split
  · exact ⟨nofun, nofun, nofun⟩
  · rename_i hkept
    refine ⟨hsettled.1, hsettled.2, fun hrunning => ?_⟩
    obtain ⟨child, hproc⟩ :=
      Option.ne_none_iff_exists'.mp (howns.named hrunning)
    refine ⟨child, hproc, ?_⟩
    by_contra hexited
    refine hkept ⟨hrunning, Option.isSome_of_eq_some hproc, ?_⟩
    unfold liveChild
    rw [hproc]
    simp [hexited]

end Runs

/-- In every run, also one whose spawns raise, the supervisor has at most one
child and none after `close`. -/
theorem one_child_at_most {sup : DaemonSupervisor}
    {guard : DaemonSupervisor → DaemonEvent → Prop}
    (hreach : GuardedReach daemonStep guard initial sup) :
    sup.alive.length ≤ 1 ∧
      ∀ caller, sup.closeCalls caller = .returned →
        ∀ later, Reach daemonStep sup later →
          later.alive = [] ∧ later.spawned = sup.spawned := by
  have howns := ownsChildren_of_reach hreach
  refine ⟨howns.alive_length_le, ?_⟩
  intro caller hreturned later hlater
  exact howns.closed_for_good hreturned hlater

/-- In every run none of whose spawns raises, the supervisor has at most one
child, none after `close`, and a status that is no lie. -/
theorem supervisor_wellSupervised {sup : DaemonSupervisor}
    (hreach : GuardedReach daemonStep NoSpawnFails initial sup) :
    WellSupervised sup := by
  obtain ⟨hone, hclosed⟩ := one_child_at_most hreach
  have hinv : OwnsChildren sup ∧ RestsSettled sup := by
    apply hreach.invariant ⟨ownsChildren_initial, fun _ _ => ⟨nofun, nofun⟩⟩
    intro before event after hbefore hspawns hstep
    have heffect := hbefore.1.effect hstep
    exact ⟨hbefore.1.preserved heffect,
      hbefore.2.preserved hbefore.1 hspawns heffect⟩
  exact ⟨hone, hclosed, fun hgone hopened =>
    hinv.1.status_honest (hinv.2 (.inl hgone) hopened)⟩

/-- A child was started and is to be restarted when `close` comes; the restart
ends without another one. -/
def closedWhileRestarting : List DaemonEvent :=
  [.requestStart, .lifecycle (some 5), .lifecycle none, .status,
    .requestRestart, .lifecycle none, .close 0, .exits 0, .lifecycle none,
    .close 0, .lifecycle none, .endOfOutput 0, .lifecycle none]

theorem supervisor_wellSupervised_restart :
    ∃ sup, replayGuarded daemonStep NoSpawnFails initial closedWhileRestarting =
        some sup ∧ sup.closeCalls 0 = .returned ∧ WellSupervised sup :=
  ⟨_, rfl, rfl, supervisor_wellSupervised
    (GuardedReach.of_replay closedWhileRestarting rfl)⟩

/-- Whenever a spawn raises, the thread ends and the status goes on saying that
the daemon is starting. -/
theorem spawn_failed_starting {sup next : DaemonSupervisor}
    {event : DaemonEvent} (hfails : SpawnFails sup event)
    (hstep : daemonStep sup event = some next) :
    ∃ after, daemonStep next (.lifecycle none) = some after ∧
      after.lifecycleThread = .gone ∧ after.closing = false ∧
      (status after).1.state = .starting := by
  obtain ⟨rfl, hstarts, hopened, hnone⟩ := hfails
  unfold daemonStep lifecycleSection startSection at hstep
  rw [hstarts] at hstep
  dsimp only at hstep
  rw [hopened, if_neg Bool.false_ne_true,
    Option.isNone_iff_eq_none.mp hnone, Option.isSome_none,
    if_neg Bool.false_ne_true] at hstep
  cases hstep
  exact ⟨_, rfl, rfl, rfl, rfl⟩

/-- So a run with one failed spawn ends in a status that is a lie. -/
theorem failed_spawn_keeps_starting :
    ¬ ∀ sup, Reach daemonStep initial sup → WellSupervised sup := by
  intro hclaim
  have hwell := hclaim _ (GuardedReach.of_replay
    [.requestStart, .lifecycle none, .lifecycle none] rfl)
  exact (hwell.honest rfl rfl).1 rfl

end Daemon

end Localmail
