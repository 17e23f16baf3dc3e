/-
Any number of processes over one shared state, interleaved one step at a time.
A process that starts gets the next number and keeps it, so a finished process
stays on record.  A crash abandons an unfinished process wherever it is.
-/
import Localmail.LabelledRun

namespace Localmail

universe u v w

/-- How processes of type `P` act on a shared state, and what else happens to
it. -/
structure ProcessRules (S : Type u) (P : Type v) (O : Type w) where
  advance : Nat → S → P → Option (S × P)
  abandon : Nat → S → S
  stopped : P
  finished : P → Bool
  initial : P → Bool
  outside : S → O → Option S

structure World (S : Type u) (P : Type v) where
  shared : S
  procs : List P

inductive WorldEvent (P : Type v) (O : Type w) where
  | outside (change : O)
  | spawn (proc : P)
  | advance (pid : Nat)
  | crash (pid : Nat)

variable {S : Type u} {P : Type v} {O : Type w}

def worldStep (rules : ProcessRules S P O) (world : World S P) :
    WorldEvent P O → Option (World S P)
  | .outside change =>
      (rules.outside world.shared change).map fun shared =>
        { world with shared := shared }
  | .spawn proc =>
      if rules.initial proc then
        some { world with procs := world.procs ++ [proc] }
      else none
  | .advance pid =>
      match world.procs[pid]? with
      | none => none
      | some proc =>
          (rules.advance pid world.shared proc).map fun (shared, next) =>
            ⟨shared, world.procs.set pid next⟩
  | .crash pid =>
      match world.procs[pid]? with
      | none => none
      | some proc =>
          if rules.finished proc then none
          else
            some ⟨rules.abandon pid world.shared,
              world.procs.set pid rules.stopped⟩

/-- What a step can be. -/
theorem worldStep_cases {rules : ProcessRules S P O} {world next : World S P}
    {event : WorldEvent P O} (hstep : worldStep rules world event = some next) :
    (∃ change shared, event = .outside change ∧
      rules.outside world.shared change = some shared ∧
      next = { world with shared := shared }) ∨
    (∃ proc, event = .spawn proc ∧ rules.initial proc = true ∧
      next = { world with procs := world.procs ++ [proc] }) ∨
    (∃ pid proc shared after, event = .advance pid ∧
      world.procs[pid]? = some proc ∧
      rules.advance pid world.shared proc = some (shared, after) ∧
      next = ⟨shared, world.procs.set pid after⟩) ∨
    (∃ pid proc, event = .crash pid ∧ world.procs[pid]? = some proc ∧
      rules.finished proc = false ∧
      next = ⟨rules.abandon pid world.shared,
        world.procs.set pid rules.stopped⟩) := by
  cases event with
  | outside change =>
      obtain ⟨shared, hshared, rfl⟩ := Option.map_eq_some_iff.mp hstep
      exact Or.inl ⟨change, shared, rfl, hshared, rfl⟩
  | spawn proc =>
      simp only [worldStep] at hstep
      split at hstep
      · rename_i hinitial
        obtain rfl := Option.some.inj hstep
        exact Or.inr (Or.inl ⟨proc, rfl, hinitial, rfl⟩)
      · cases hstep
  | advance pid =>
      simp only [worldStep] at hstep
      split at hstep
      · cases hstep
      · rename_i proc hproc
        obtain ⟨⟨shared, after⟩, hadvance, rfl⟩ :=
          Option.map_eq_some_iff.mp hstep
        exact Or.inr (Or.inr (Or.inl
          ⟨pid, proc, shared, after, rfl, hproc, hadvance, rfl⟩))
  | crash pid =>
      simp only [worldStep] at hstep
      split at hstep
      · cases hstep
      · rename_i proc hproc
        split at hstep
        · cases hstep
        · rename_i hfinished
          obtain rfl := Option.some.inj hstep
          exact Or.inr (Or.inr (Or.inr
            ⟨pid, proc, rfl, hproc, eq_false_of_ne_true hfinished, rfl⟩))

/-- After process `pid` moved, any process is the moved one or one that was
there before under the same number. -/
theorem procs_set_cases {procs : List P} {pid other : Nat} {after proc : P}
    (hproc : (procs.set pid after)[other]? = some proc) :
    (other = pid ∧ proc = after) ∨ (other ≠ pid ∧ procs[other]? = some proc) := by
  rw [List.getElem?_set] at hproc
  split at hproc
  · rename_i hsame
    split at hproc
    · exact Or.inl ⟨hsame.symm, (Option.some.inj hproc).symm⟩
    · cases hproc
  · rename_i hne
    exact Or.inr ⟨fun hsame => hne hsame.symm, hproc⟩

/-- After a process started, any process is the new one or was there before. -/
theorem procs_append_cases {procs : List P} {other : Nat} {started proc : P}
    (hproc : (procs ++ [started])[other]? = some proc) :
    (other = procs.length ∧ proc = started) ∨ procs[other]? = some proc := by
  rcases Nat.lt_trichotomy other procs.length with hlt | rfl | hgt
  · rw [List.getElem?_append_left hlt] at hproc
    exact Or.inr hproc
  · rw [List.getElem?_append_right (Nat.le_refl _)] at hproc
    simp only [Nat.sub_self, List.getElem?_cons_zero, Option.some.injEq] at hproc
    exact Or.inl ⟨rfl, hproc.symm⟩
  · rw [List.getElem?_eq_none (by simp; omega)] at hproc
    cases hproc

section Owners

variable {K : Type w} {owner later : K → Option Nat} {procs : List P}
  (howners : ∀ key pid, owner key = some pid → pid < procs.length)

include howners

/-- What is held is held by a process, also after one moved that may have
taken more. -/
theorem owners_set {pid : Nat} {proc : P} (after : P)
    (hproc : procs[pid]? = some proc)
    (hkept : ∀ key other, later key = some other →
      other = pid ∨ owner key = some other)
    (key : K) (other : Nat) (howner : later key = some other) :
    other < (procs.set pid after).length := by
  rw [List.length_set]
  rcases hkept key other howner with rfl | hold
  · exact (List.getElem?_eq_some_iff.mp hproc).1
  · exact howners key other hold

theorem owners_append (started : P) (key : K) (pid : Nat)
    (howner : owner key = some pid) : pid < (procs ++ [started]).length := by
  rw [List.length_append]
  exact Nat.lt_add_right 1 (howners key pid howner)

end Owners

end Localmail
