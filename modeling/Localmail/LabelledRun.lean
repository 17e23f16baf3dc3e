/-
Runs of a guarded step function.  A machine is a partial step function on
labelled events; `GuardedReach` keeps only the runs in which every event meets
a condition on the state it fires in, so that "in every run whose steps all
meet the condition" and "in every run" are one notion.
-/
import Mathlib.Logic.Basic
import Mathlib.Data.List.Basic

namespace Localmail

universe u v

variable {S : Type u} {E : Type v}

/-- States reached from `start` by enabled events, each of which meets
`guard` in the state it fires in. -/
inductive GuardedReach (step : S → E → Option S) (guard : S → E → Prop)
    (start : S) : S → Prop
  | refl : GuardedReach step guard start start
  | tail {state next : S} {event : E}
      (before : GuardedReach step guard start state)
      (meets : guard state event) (enabled : step state event = some next) :
      GuardedReach step guard start next

/-- The unrestricted runs: every enabled event may fire. -/
abbrev Reach (step : S → E → Option S) (start : S) : S → Prop :=
  GuardedReach step (fun _ _ => True) start

/-- The invariant rule.  What holds at the start and survives every enabled
event that meets the guard holds in every state reached. -/
theorem GuardedReach.invariant {step : S → E → Option S}
    {guard : S → E → Prop} {inv : S → Prop} {start state : S}
    (hreach : GuardedReach step guard start state) (hstart : inv start)
    (hstep : ∀ before event after, inv before → guard before event →
      step before event = some after → inv after) :
    inv state := by
  induction hreach with
  | refl => exact hstart
  | tail _ hmeets henabled ih => exact hstep _ _ _ ih hmeets henabled

/-- Replay a list of events, stopping at the first one that is disabled or
does not meet the guard. -/
def replayGuarded (step : S → E → Option S) (guard : S → E → Prop)
    [∀ state event, Decidable (guard state event)] : S → List E → Option S
  | state, [] => some state
  | state, event :: rest =>
      if guard state event then
        match step state event with
        | none => none
        | some next => replayGuarded step guard next rest
      else none

theorem GuardedReach.trans_replay {step : S → E → Option S}
    {guard : S → E → Prop} [∀ state event, Decidable (guard state event)]
    {start state final : S} (events : List E)
    (hreach : GuardedReach step guard start state)
    (hreplay : replayGuarded step guard state events = some final) :
    GuardedReach step guard start final := by
  induction events generalizing state with
  | nil =>
      simp only [replayGuarded, Option.some.injEq] at hreplay
      exact hreplay ▸ hreach
  | cons event rest ih =>
      by_cases hmeets : guard state event
      · cases henabled : step state event with
        | none => simp [replayGuarded, hmeets, henabled] at hreplay
        | some next =>
            simp only [replayGuarded, hmeets, henabled, ↓reduceIte] at hreplay
            exact ih (hreach.tail hmeets henabled) hreplay
      · simp [replayGuarded, hmeets] at hreplay

/-- A successful replay from the start is a run. -/
theorem GuardedReach.of_replay {step : S → E → Option S}
    {guard : S → E → Prop} [∀ state event, Decidable (guard state event)]
    {start final : S} (events : List E)
    (hreplay : replayGuarded step guard start events = some final) :
    GuardedReach step guard start final :=
  GuardedReach.refl.trans_replay events hreplay

end Localmail
