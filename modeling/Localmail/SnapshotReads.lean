/-
Programs of read statements.  Each statement sees a snapshot of its own of data
that others change meanwhile, and what it reads decides what is asked next.
Two such runs are compared as it is done for noninterference: where every two
snapshots agree on what the statements look at, the programs answer alike.
-/
import Mathlib.Logic.Basic

namespace Localmail

section Programs

variable {D ε α β : Type}

/-- A program reads the snapshots one after the other, and may fail. -/
abbrev Reads (D ε : Type) := StateT (Nat → D) (Except ε)

namespace Reads

def statement (query : D → α) : Reads D ε α := fun snapshots =>
  .ok (query (snapshots 0), fun later => snapshots (later + 1))

def ofExcept (result : Except ε α) : Reads D ε α := fun snapshots =>
  result.map fun value => (value, snapshots)

def orFail (value : Option α) (error : ε) : Reads D ε α :=
  ofExcept (value.elim (.error error) .ok)

def refuseWhen (bad : Bool) (error : ε) : Reads D ε Unit :=
  if bad then ofExcept (.error error) else pure ()

/-- What the program answers when its statements see these snapshots. -/
def answer (program : Reads D ε α) (snapshots : Nat → D) : Except ε α :=
  (program snapshots).map Prod.fst

/-! ### Two runs -/

variable (agree : D → D → Prop)

/-- Two runs fail alike, or answer alike with agreeing snapshots before them. -/
inductive SameOutcome (post : α → Prop) :
    Except ε (α × (Nat → D)) → Except ε (α × (Nat → D)) → Prop
  | failed (error : ε) : SameOutcome post (.error error) (.error error)
  | answered (value : α) (left right : Nat → D)
      (hpost : post value) (hagree : ∀ index, agree (left index) (right index)) :
      SameOutcome post (.ok (value, left)) (.ok (value, right))

/-- The program cannot tell agreeing snapshots apart, and its answers meet the
condition. -/
def Blind (post : α → Prop) (program : Reads D ε α) : Prop :=
  ∀ left right : Nat → D, (∀ index, agree (left index) (right index)) →
    SameOutcome agree post (program left) (program right)

variable {agree} {post : α → Prop} {program : Reads D ε α}

theorem Blind.answer_eq (hblind : Blind agree post program)
    {left right : Nat → D} (hagree : ∀ index, agree (left index) (right index)) :
    program.answer left = program.answer right := by
  have hsame := hblind left right hagree
  unfold answer
  generalize program left = first at hsame
  generalize program right = second at hsame
  cases hsame <;> rfl

theorem blind_pure {value : α} (hpost : post value) :
    Blind agree post (pure value : Reads D ε α) :=
  fun left right hagree => .answered value left right hpost hagree

theorem blind_ofExcept {result : Except ε α}
    (hpost : ∀ value, result = .ok value → post value) :
    Blind agree post (ofExcept result : Reads D ε α) := by
  intro left right hagree
  cases result with
  | error error => exact .failed error
  | ok value => exact .answered value left right (hpost value rfl) hagree

theorem blind_orFail {value : Option α} {error : ε}
    (hpost : ∀ found, value = some found → post found) :
    Blind agree post (orFail value error : Reads D ε α) := by
  apply blind_ofExcept
  intro found hfound
  cases value with
  | none => cases hfound
  | some given =>
      obtain rfl := Except.ok.inj hfound
      exact hpost given rfl

theorem blind_refuseWhen {bad : Bool} {error : ε} :
    Blind agree (fun _ => bad = false)
      (refuseWhen bad error : Reads D ε Unit) := by
  cases bad with
  | true => exact fun _ _ _ => .failed error
  | false => exact blind_pure rfl

/-- A statement that agreeing data answer alike. -/
theorem blind_statement {query : D → α}
    (hquery : ∀ left right, agree left right →
      query left = query right ∧ post (query left)) :
    Blind agree post (statement query : Reads D ε α) := by
  intro left right hagree
  obtain ⟨hsame, hpost⟩ := hquery _ _ (hagree 0)
  unfold statement
  rw [← hsame]
  exact .answered _ _ _ hpost fun index => hagree (index + 1)

theorem blind_read {query : D → α}
    (hquery : ∀ left right, agree left right → query left = query right) :
    Blind agree (fun _ => True) (statement query : Reads D ε α) :=
  blind_statement fun left right hagree => ⟨hquery left right hagree, trivial⟩

theorem Blind.bind {next : α → Reads D ε β} {after : β → Prop}
    (hblind : Blind agree post program)
    (hnext : ∀ value, post value → Blind agree after (next value)) :
    Blind agree after (program >>= next) := by
  intro left right hagree
  have hsame := hblind left right hagree
  change SameOutcome agree after
    ((program left).bind fun result => next result.1 result.2)
    ((program right).bind fun result => next result.1 result.2)
  generalize program left = first at hsame ⊢
  generalize program right = second at hsame ⊢
  cases hsame with
  | failed error => exact .failed error
  | answered value left right hpost hagree =>
      exact hnext value hpost left right hagree

theorem Blind.map {change : α → β} {after : β → Prop}
    (hblind : Blind agree post program)
    (hafter : ∀ value, post value → after (change value)) :
    Blind agree after (change <$> program) := by
  rw [map_eq_pure_bind]
  exact hblind.bind fun value hpost => blind_pure (hafter value hpost)

end Reads

end Programs

end Localmail
