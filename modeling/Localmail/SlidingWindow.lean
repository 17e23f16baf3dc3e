/-
A log whose entries were each admitted while fewer than `cap` counted ones lay
within a window before it.  However the window is then placed, it has at most
`cap` of them.
-/
import Mathlib.Data.List.Basic
import Mathlib.Data.List.Infix

namespace Localmail

universe u

section SlidingWindow

variable {α : Type u} {moment : α → Int} {counted : α → Bool} {width : Int}
  {cap : Nat}

/-- The entries so far that count, from less than `width` before `now`. -/
def countWithin (moment : α → Int) (counted : α → Bool) (width now : Int)
    (log : List α) : Nat :=
  log.countP fun entry => counted entry && now - width < moment entry

/-- Every entry that counts found room when it was made. -/
def AdmittedWithin (moment : α → Int) (counted : α → Bool) (width : Int)
    (cap : Nat) (log : List α) : Prop :=
  ∀ earlier entry, earlier ++ [entry] <+: log → counted entry = true →
    countWithin moment counted width (moment entry) earlier < cap

/-- The entries that count, in a set of moments. -/
def countIn (moment : α → Int) (counted : α → Bool) (inside : Int → Bool)
    (log : List α) : Nat :=
  log.countP fun entry => counted entry && inside (moment entry)

/-- A half-open interval, with either end left out. -/
def HalfOpen (width : Int) (inside : Int → Bool) : Prop :=
  ∃ start, inside = (fun moment => start ≤ moment && moment < start + width) ∨
    inside = fun moment => start < moment && moment ≤ start + width

theorem HalfOpen.narrow {inside : Int → Bool} (hopen : HalfOpen width inside)
    {early late : Int} (hearly : inside early = true)
    (hlate : inside late = true) : late - width < early := by
  obtain ⟨start, rfl | rfl⟩ := hopen
  · simp only [Bool.and_eq_true, decide_eq_true_eq] at hearly hlate
    omega
  · simp only [Bool.and_eq_true, decide_eq_true_eq] at hearly hlate
    omega

theorem admittedWithin_nil : AdmittedWithin moment counted width cap [] := by
  intro earlier entry hinitial
  simp at hinitial

theorem admittedWithin_append_iff {log : List α} {entry : α} :
    AdmittedWithin moment counted width cap (log ++ [entry]) ↔
      AdmittedWithin moment counted width cap log ∧
        (counted entry = true →
          countWithin moment counted width (moment entry) log < cap) := by
  constructor
  · intro hlog
    refine ⟨?_, hlog log entry (List.prefix_refl _)⟩
    intro earlier other hinitial
    exact hlog earlier other (hinitial.trans (List.prefix_append log [entry]))
  · rintro ⟨hlog, hentry⟩ earlier other hinitial
    rcases List.prefix_concat_iff.mp hinitial with hall | hinitial
    · obtain ⟨rfl, hsame⟩ := List.append_inj' hall rfl
      obtain rfl := List.singleton_inj.mp hsame
      exact hentry
    · exact hlog earlier other hinitial

theorem AdmittedWithin.countIn_le {inside : Int → Bool}
    (hopen : HalfOpen width inside) {log : List α}
    (hlog : AdmittedWithin moment counted width cap log) :
    countIn moment counted inside log ≤ cap := by
  induction log using List.reverseRecOn with
  | nil => exact Nat.zero_le cap
  | append_singleton earlier entry ih =>
      obtain ⟨hearlier, hroom⟩ := admittedWithin_append_iff.mp hlog
      rw [countIn, List.countP_append, List.countP_singleton, ← countIn]
      split
      · rename_i hcounts
        rw [Bool.and_eq_true] at hcounts
        have hle : countIn moment counted inside earlier ≤
            countWithin moment counted width (moment entry) earlier := by
          apply List.countP_mono_left
          intro other _ hother
          rw [Bool.and_eq_true] at hother
          rw [Bool.and_eq_true, decide_eq_true_eq]
          exact ⟨hother.1, hopen.narrow hother.2 hcounts.2⟩
        exact Nat.succ_le_of_lt (Nat.lt_of_le_of_lt hle (hroom hcounts.1))
      · exact ih hearlier

end SlidingWindow

end Localmail
