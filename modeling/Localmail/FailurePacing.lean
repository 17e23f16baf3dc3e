/-
How often a repeating failure of the embedding worker is logged.  A failure of
a new kind is logged at once, one of the kind on record only when the interval
has elapsed; those in between are counted, and the next line of their kind
names how many they were.
-/
import Mathlib.Algebra.Ring.Int.Defs
import Mathlib.Logic.Function.Basic
import Localmail.SearchRequest

namespace Localmail

universe u

variable {τ : Type u}

/-! ### One failure -/

/-- `sinceReport` counts the failures swallowed since `reportedAt`. -/
structure ReportedFailure (τ : Type u) where
  excName : Text
  reportedAt : τ
  sinceReport : Nat
deriving Repr, DecidableEq

structure FailureReport (τ : Type u) where
  record : ReportedFailure τ
  logIt : Bool
  suppressed : Nat
deriving Repr, DecidableEq

/-- Fold one failure into the record, and decide whether it is logged. -/
def noteFailure [LE τ] [DecidableLE τ] [Zero τ] [Sub τ] (intervalS : τ)
    (prev : Option (ReportedFailure τ)) (excName : Text) (now : τ) :
    FailureReport τ :=
  let fresh : ReportedFailure τ := ⟨excName, now, 0⟩
  match prev with
  | none => ⟨fresh, true, 0⟩
  | some prev =>
      if prev.excName ≠ excName then ⟨fresh, true, 0⟩
      else if intervalS ≤ 0 ∨ intervalS ≤ now - prev.reportedAt then
        ⟨fresh, true, prev.sinceReport⟩
      else
        ⟨{ prev with sinceReport := prev.sinceReport + 1 }, false, 0⟩

/-! ### The log -/

/-- A batch-level backend error. -/
structure BatchFailure (τ : Type u) where
  chunkTable : Text
  excName : Text
  message : Text
  now : τ
deriving Repr, DecidableEq

/-- The warning about a failure. -/
structure FailureLine where
  chunkTable : Text
  suppressed : Nat
  excName : Text
  message : Text
deriving Repr, DecidableEq

/-- The warning as it is printed; it names a backlog only if there is one. -/
def FailureLine.render (line : FailureLine) : Text :=
  text "embed_worker batch failed for " ++ line.chunkTable ++
    text " (will retry next sweep" ++
    (if line.suppressed = 0 then []
      else text "; " ++ decimal line.suppressed ++
        text " further failures since the last report were not logged") ++
    text "): " ++ line.excName ++ text ": " ++ line.message

/-- The records by chunk table and the lines logged so far.  `forgotten` adds
up what the records of a table counted and no line named. -/
structure FailureLog (τ : Type u) where
  records : Text → Option (ReportedFailure τ)
  lines : List FailureLine
  forgotten : Text → Nat

def FailureLog.empty : FailureLog τ where
  records := fun _ => none
  lines := []
  forgotten := fun _ => 0

/-- The count a failure takes the place of: one of another kind. -/
def displacedCount (prev : Option (ReportedFailure τ)) (excName : Text) : Nat :=
  match prev with
  | some prev => if prev.excName = excName then 0 else prev.sinceReport
  | none => 0

section Report

variable [LE τ] [DecidableLE τ] [Zero τ] [Sub τ] (intervalS : τ)

/-- `_report_batch_failure`. -/
def reportBatchFailure (log : FailureLog τ) (failure : BatchFailure τ) :
    FailureLog τ :=
  let prev := log.records failure.chunkTable
  let report := noteFailure intervalS prev failure.excName failure.now
  { records := Function.update log.records failure.chunkTable
      (some report.record)
    lines := if report.logIt then
        log.lines ++ [⟨failure.chunkTable, report.suppressed, failure.excName,
          failure.message⟩]
      else log.lines
    forgotten := Function.update log.forgotten failure.chunkTable
      (log.forgotten failure.chunkTable + displacedCount prev failure.excName) }

/-- The log after a sequence of failures. -/
def reportBatchFailures (failures : List (BatchFailure τ)) : FailureLog τ :=
  failures.foldl (reportBatchFailure intervalS) .empty

end Report

/-! ### What the log accounts for -/

section Accounting

variable (log : FailureLog τ) (chunkTable : Text)

def FailureLog.linesOf : List FailureLine :=
  log.lines.filter fun line => line.chunkTable = chunkTable

/-- The failures of a table its lines tell of: one each, and those they
name. -/
def FailureLog.told : Nat :=
  (log.linesOf chunkTable).length +
    ((log.linesOf chunkTable).map FailureLine.suppressed).sum

/-- The failures of a table its record counts. -/
def FailureLog.pending : Nat :=
  ((log.records chunkTable).map ReportedFailure.sinceReport).getD 0

end Accounting

/-- The failures of one table. -/
def failuresOf (failures : List (BatchFailure τ)) (chunkTable : Text) :
    List (BatchFailure τ) :=
  failures.filter fun failure => failure.chunkTable = chunkTable

section Report

variable [LE τ] [DecidableLE τ] [Zero τ] [Sub τ] {intervalS : τ}
  {chunkTable : Text}

/-- A failure is told of, counted, or takes the place of a count. -/
theorem noteFailure_accounts (prev : Option (ReportedFailure τ))
    (excName : Text) (now : τ) :
    (if (noteFailure intervalS prev excName now).logIt then
        1 + (noteFailure intervalS prev excName now).suppressed else 0) +
      (noteFailure intervalS prev excName now).record.sinceReport +
      displacedCount prev excName =
    (prev.map ReportedFailure.sinceReport).getD 0 + 1 := by
  cases prev with
  | none => rfl
  | some prev =>
      unfold noteFailure displacedCount
      by_cases hname : prev.excName = excName
      · by_cases helapsed : intervalS ≤ 0 ∨ intervalS ≤ now - prev.reportedAt
        · simp [hname, helapsed, Nat.add_comm]
        · simp [hname, helapsed]
      · simp [hname, Nat.add_comm]

theorem reportBatchFailure_told (log : FailureLog τ)
    (failure : BatchFailure τ) :
    (reportBatchFailure intervalS log failure).told failure.chunkTable =
      log.told failure.chunkTable +
        let report := noteFailure intervalS (log.records failure.chunkTable)
          failure.excName failure.now
        if report.logIt then 1 + report.suppressed else 0 := by
  unfold reportBatchFailure FailureLog.told FailureLog.linesOf
  dsimp only
  split
  · simp only [List.filter_append, List.length_append, List.map_append,
      List.sum_append, decide_true, List.filter_cons_of_pos, List.filter_nil,
      List.length_singleton, List.map_singleton, List.sum_singleton]
    omega
  · rfl

/-- The other tables are left alone. -/
theorem reportBatchFailure_other (log : FailureLog τ)
    {failure : BatchFailure τ} (hother : failure.chunkTable ≠ chunkTable) :
    (reportBatchFailure intervalS log failure).told chunkTable =
        log.told chunkTable ∧
      (reportBatchFailure intervalS log failure).pending chunkTable =
        log.pending chunkTable ∧
      (reportBatchFailure intervalS log failure).forgotten chunkTable =
        log.forgotten chunkTable := by
  refine ⟨?_, ?_, Function.update_of_ne (Ne.symm hother) _ _⟩
  · unfold reportBatchFailure FailureLog.told FailureLog.linesOf
    dsimp only
    split
    · simp [hother]
    · rfl
  · unfold reportBatchFailure FailureLog.pending
    dsimp only
    rw [Function.update_of_ne (Ne.symm hother)]

/-- Each failure of a table adds one to what its log accounts for. -/
theorem reportBatchFailure_accounts (log : FailureLog τ)
    (failure : BatchFailure τ) :
    (reportBatchFailure intervalS log failure).told chunkTable +
        (reportBatchFailure intervalS log failure).pending chunkTable +
        (reportBatchFailure intervalS log failure).forgotten chunkTable =
      log.told chunkTable + log.pending chunkTable +
        log.forgotten chunkTable +
        if failure.chunkTable = chunkTable then 1 else 0 := by
  by_cases hsame : failure.chunkTable = chunkTable
  · subst hsame
    have hnote := @noteFailure_accounts τ _ _ _ _ intervalS
      (log.records failure.chunkTable) failure.excName failure.now
    have hpending : (reportBatchFailure intervalS log failure).pending
        failure.chunkTable =
        (noteFailure intervalS (log.records failure.chunkTable)
          failure.excName failure.now).record.sinceReport := by
      unfold reportBatchFailure FailureLog.pending
      dsimp only
      rw [Function.update_self]
      rfl
    have hforgotten : (reportBatchFailure intervalS log failure).forgotten
        failure.chunkTable = log.forgotten failure.chunkTable +
          displacedCount (log.records failure.chunkTable) failure.excName :=
      Function.update_self ..
    rw [reportBatchFailure_told, hpending, hforgotten, if_pos rfl]
    unfold FailureLog.pending
    dsimp only
    omega
  · obtain ⟨htold, hpending, hforgotten⟩ :=
      @reportBatchFailure_other τ _ _ _ _ intervalS chunkTable log failure hsame
    rw [htold, hpending, hforgotten, if_neg hsame, Nat.add_zero]

/-- The same over a sequence, from any log on. -/
theorem foldl_accounts (log : FailureLog τ) (failures : List (BatchFailure τ)) :
    (failures.foldl (reportBatchFailure intervalS) log).told chunkTable +
        (failures.foldl (reportBatchFailure intervalS) log).pending chunkTable +
        (failures.foldl (reportBatchFailure intervalS) log).forgotten
          chunkTable =
      log.told chunkTable + log.pending chunkTable +
        log.forgotten chunkTable + (failuresOf failures chunkTable).length := by
  induction failures generalizing log with
  | nil => rfl
  | cons failure rest ih =>
      rw [List.foldl_cons, ih, reportBatchFailure_accounts]
      unfold failuresOf
      by_cases hsame : failure.chunkTable = chunkTable
      · simp only [hsame, ↓reduceIte, decide_true, List.filter_cons_of_pos,
          List.length_cons]
        omega
      · simp [hsame]

theorem reportBatchFailure_forgotten (log : FailureLog τ)
    (failure : BatchFailure τ) :
    (reportBatchFailure intervalS log failure).forgotten chunkTable =
      log.forgotten chunkTable +
        if failure.chunkTable = chunkTable then
          displacedCount (log.records chunkTable) failure.excName
        else 0 := by
  by_cases hsame : failure.chunkTable = chunkTable
  · subst hsame
    rw [if_pos rfl]
    exact Function.update_self ..
  · rw [if_neg hsame]
    exact Function.update_of_ne (Ne.symm hsame) _ _

theorem forgotten_le_foldl (log : FailureLog τ)
    (failures : List (BatchFailure τ)) :
    log.forgotten chunkTable ≤
      (failures.foldl (reportBatchFailure intervalS) log).forgotten
        chunkTable := by
  induction failures generalizing log with
  | nil => exact Nat.le_refl _
  | cons failure rest ih =>
      refine Nat.le_trans ?_ (ih (reportBatchFailure intervalS log failure))
      rw [reportBatchFailure_forgotten]
      exact Nat.le_add_right _ _

/-- A failure of the table with these after it takes the place of no count. -/
def DisplacesNothing (intervalS : τ) (chunkTable : Text) (log : FailureLog τ)
    (failures : List (BatchFailure τ)) : Prop :=
  ∀ earlier failure later, failures = earlier ++ failure :: later →
    failure.chunkTable = chunkTable →
    displacedCount ((earlier.foldl (reportBatchFailure intervalS) log).records
      chunkTable) failure.excName = 0

theorem foldl_forgotten_eq_iff (log : FailureLog τ)
    (failures : List (BatchFailure τ)) :
    (failures.foldl (reportBatchFailure intervalS) log).forgotten chunkTable =
        log.forgotten chunkTable ↔
      DisplacesNothing intervalS chunkTable log failures := by
  induction failures generalizing log with
  | nil =>
      refine iff_of_true rfl ?_
      intro earlier failure later hsplit
      simp at hsplit
  | cons failure rest ih =>
      have hstep := @reportBatchFailure_forgotten τ _ _ _ _ intervalS
        chunkTable log failure
      have hrest := @forgotten_le_foldl τ _ _ _ _ intervalS chunkTable
        (reportBatchFailure intervalS log failure) rest
      rw [List.foldl_cons]
      constructor
      · intro hsame earlier other later hsplit htable
        rcases List.cons_eq_append_iff.mp hsplit with
          ⟨rfl, hhead⟩ | ⟨before, rfl, htail⟩
        · obtain ⟨rfl, rfl⟩ := List.cons.inj hhead
          rw [if_pos htable] at hstep
          change displacedCount (log.records chunkTable) other.excName = 0
          omega
        · exact (ih _).mp (by omega) before other later htail htable
      · intro hnone
        have hlater := (ih (reportBatchFailure intervalS log failure)).mpr
          fun earlier other later hsplit htable =>
            hnone (failure :: earlier) other later
              (congrArg (failure :: ·) hsplit) htable
        rw [hlater, hstep]
        split
        · rename_i htable
          exact congrArg _ (hnone [] failure rest rfl htable)
        · rfl

/-- Every failure of a table is logged, named or still counted. -/
def NothingLost (intervalS : τ) (failures : List (BatchFailure τ))
    (chunkTable : Text) : Prop :=
  let log := reportBatchFailures intervalS failures
  (failuresOf failures chunkTable).length =
    (log.linesOf chunkTable).length +
      ((log.linesOf chunkTable).map FailureLine.suppressed).sum +
      log.pending chunkTable

theorem reportBatchFailures_accounts (intervalS : τ)
    (failures : List (BatchFailure τ)) (chunkTable : Text) :
    (failuresOf failures chunkTable).length =
      (reportBatchFailures intervalS failures).told chunkTable +
        (reportBatchFailures intervalS failures).pending chunkTable +
        (reportBatchFailures intervalS failures).forgotten chunkTable := by
  have haccounts := @foldl_accounts τ _ _ _ _ intervalS chunkTable .empty
    failures
  unfold reportBatchFailures
  simp only [FailureLog.told, FailureLog.empty, FailureLog.pending,
    FailureLog.linesOf, List.filter_nil, List.length_nil, List.map_nil,
    List.sum_nil, Option.map_none, Option.getD_none] at haccounts ⊢
  omega

/-- For any names, times and interval: the failures of a table are those
logged, those the lines named, those still counted, and the counts that a
failure of another kind took the place of. -/
theorem failures_accounted (intervalS : τ) (failures : List (BatchFailure τ))
    (chunkTable : Text) :
    let log := reportBatchFailures intervalS failures
    (failuresOf failures chunkTable).length =
      (log.linesOf chunkTable).length +
        ((log.linesOf chunkTable).map FailureLine.suppressed).sum +
        log.pending chunkTable + log.forgotten chunkTable :=
  reportBatchFailures_accounts intervalS failures chunkTable

/-- Nothing is lost just when no failure of another kind arrives while some
are counted. -/
theorem nothingLost_iff (failures : List (BatchFailure τ)) :
    NothingLost intervalS failures chunkTable ↔
      DisplacesNothing intervalS chunkTable .empty failures := by
  have haccounts := reportBatchFailures_accounts intervalS failures chunkTable
  rw [← foldl_forgotten_eq_iff]
  change (failuresOf failures chunkTable).length =
    (reportBatchFailures intervalS failures).told chunkTable +
      (reportBatchFailures intervalS failures).pending chunkTable ↔
    (reportBatchFailures intervalS failures).forgotten chunkTable = 0
  omega

end Report

/-- Two failures of a kind, the second one counted, and then one of another
kind. -/
def changingKind : List (BatchFailure Int) :=
  [⟨text "message_chunks", text "ConnectionError", [], 0⟩,
    ⟨text "message_chunks", text "ConnectionError", [], 5⟩,
    ⟨text "message_chunks", text "TimeoutError", [], 6⟩]

/-- The count of the first kind is named by no line. -/
theorem changed_kind_loses_count :
    ¬ NothingLost 60 changingKind (text "message_chunks") := by
  unfold NothingLost
  decide

end Localmail
