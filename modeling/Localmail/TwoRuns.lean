/-
Two runs of one guarded machine.  Some events are shared by the runs and the
others are private to each; `unwinding` compares the states the runs end in by
looking at one event at a time, as it is done for noninterference.
-/
import Localmail.LabelledRun

namespace Localmail

universe u v

section Runs

variable {S : Type u} {E : Type v} {step : S → E → Option S}
  {guard : S → E → Prop}

/-- The events lead from the first state to the last, and each of them meets
`guard` in the state it fires in. -/
def GuardedRun (step : S → E → Option S) (guard : S → E → Prop) :
    S → List E → S → Prop
  | state, [], final => state = final
  | state, event :: rest, final =>
      guard state event ∧
        ∃ next, step state event = some next ∧
          GuardedRun step guard next rest final

theorem guardedRun_append {events more : List E} {start final : S} :
    GuardedRun step guard start (events ++ more) final ↔
      ∃ state, GuardedRun step guard start events state ∧
        GuardedRun step guard state more final := by
  induction events generalizing start with
  | nil => simp [GuardedRun]
  | cons event rest ih =>
      simp only [List.cons_append, GuardedRun, ih]
      constructor
      · rintro ⟨hguard, next, hstep, state, hrest, hmore⟩
        exact ⟨state, ⟨hguard, next, hstep, hrest⟩, hmore⟩
      · rintro ⟨state, ⟨hguard, next, hstep, hrest⟩, hmore⟩
        exact ⟨hguard, next, hstep, state, hrest, hmore⟩

theorem GuardedRun.of_replay [∀ state event, Decidable (guard state event)]
    {start final : S} (events : List E)
    (hreplay : replayGuarded step guard start events = some final) :
    GuardedRun step guard start events final := by
  induction events generalizing start with
  | nil => exact Option.some.inj hreplay
  | cons event rest ih =>
      rw [replayGuarded] at hreplay
      split at hreplay
      · rename_i hguard
        split at hreplay
        · cases hreplay
        · rename_i next hstep
          exact ⟨hguard, next, hstep, ih hreplay⟩
      · cases hreplay

end Runs

section Unwinding

variable {S : Type u} {E : Type v} {step : S → E → Option S}
  {guard : S → E → Prop} {shared : E → Bool} {R : S → S → Prop}

/-- One run goes on by private events alone while the other waits. -/
theorem unwinding_private
    (hprivate : ∀ state other event next, R state other →
      shared event = false → guard state event →
      step state event = some next → R next other)
    {events : List E} {start final other : S}
    (hrun : GuardedRun step guard start events final)
    (hevents : events.filter shared = []) (hrel : R start other) :
    R final other := by
  induction events generalizing start with
  | nil => exact hrun ▸ hrel
  | cons event rest ih =>
      obtain ⟨hguard, next, henabled, hrest⟩ := hrun
      have hall := List.filter_eq_nil_iff.mp hevents
      have hevent : shared event = false := by
        simpa using hall event List.mem_cons_self
      refine ih hrest ?_ (hprivate _ _ _ _ hrel hevent hguard henabled)
      exact List.filter_eq_nil_iff.mpr
        fun later hlater => hall later (List.mem_cons_of_mem event hlater)

/-- The unwinding rule.  A symmetric relation that a private event of either
run keeps, and that an event both runs take keeps, holds between the ends of
two runs with the same shared events. -/
theorem unwinding (hsymm : ∀ state other, R state other → R other state)
    (hshared : ∀ state other event next after, R state other →
      shared event = true → guard state event → guard other event →
      step state event = some next → step other event = some after →
      R next after)
    (hprivate : ∀ state other event next, R state other →
      shared event = false → guard state event →
      step state event = some next → R next other)
    {left right : List E} {start other final last : S}
    (hleft : GuardedRun step guard start left final)
    (hright : GuardedRun step guard other right last)
    (hsame : left.filter shared = right.filter shared)
    (hrel : R start other) :
    R final last := by
  induction left generalizing start other right with
  | nil =>
      obtain rfl : start = final := hleft
      have hrest := unwinding_private hprivate hright hsame.symm
        (hsymm _ _ hrel)
      exact hsymm _ _ hrest
  | cons event rest ih =>
      obtain ⟨hguard, next, henabled, hrest⟩ := hleft
      cases hevent : shared event with
      | false =>
          rw [List.filter_cons_of_neg (by simp [hevent])] at hsame
          exact ih hrest hright hsame
            (hprivate _ _ _ _ hrel hevent hguard henabled)
      | true =>
          rw [List.filter_cons_of_pos hevent] at hsame
          obtain ⟨before, after, rfl, hbefore, -, hafter⟩ :=
            List.filter_eq_cons_iff.mp hsame.symm
          obtain ⟨state, hto, hmeets, reached, hfires, hfrom⟩ :=
            guardedRun_append.mp hright
          have hwaits : R state start := by
            refine unwinding_private hprivate hto ?_ (hsymm _ _ hrel)
            exact List.filter_eq_nil_iff.mpr hbefore
          exact ih hrest hfrom hafter.symm
            (hshared _ _ _ _ _ (hsymm _ _ hwaits) hevent hguard hmeets
              henabled hfires)

end Unwinding

end Localmail
