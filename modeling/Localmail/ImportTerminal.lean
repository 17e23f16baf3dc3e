/-
A finished import job stays as it is.  The unique index alone keeps two jobs
from being active; that a terminal status is final rests on every write finding
the row as its call believes it to be, which only one of the four writes checks.
-/
import Localmail.ImportJobs

namespace Localmail

/-! ### What may become of a row -/

/-- One write of a job: the status stays, and with a terminal one the counters,
or it moves from `pending` to `running` or `failed`, or from `running` to a
terminal one. -/
def ImportJobRow.Moves (row next : ImportJobRow) : Prop :=
  (next.status = row.status ∧
    (row.status.isActive = false → next.counters = row.counters)) ∨
  (row.status = .pending ∧ (next.status = .running ∨ next.status = .failed)) ∨
  (row.status = .running ∧ next.status.isActive = false)

/-- A job begins pending. -/
inductive JobStep : Option ImportJobRow → Option ImportJobRow → Prop
  | created (row : ImportJobRow) (hpending : row.status = .pending) :
      JobStep none (some row)
  | moved (row next : ImportJobRow) (hmoves : row.Moves next) :
      JobStep (some row) (some next)

theorem ImportJobRow.Moves.active {row next : ImportJobRow}
    (hmoves : row.Moves next) (hactive : next.status.isActive = true) :
    row.status.isActive = true := by
  rcases hmoves with ⟨hsame, -⟩ | ⟨hpending, -⟩ | ⟨hrunning, -⟩
  · rwa [← hsame]
  · rw [hpending]
    rfl
  · rw [hrunning]
    rfl

/-! ### The condition on a step -/

/-- The jobs the next write of a call is for, and how it must find them: a
reaped job has not completed or been cancelled since; counters are flushed to a
running job; a terminal status goes to the job this call is running, or, where
the call never got to run it, to one still pending. -/
def ImportProcess.expects (proc : ImportProcess) :
    List Nat × (ImportJobRow → Bool) :=
  let writes := (proc.fates.headD .ok).error.isNone
  match proc.call, proc.phase with
  | .reconcileOrphanedJobs _, .reap ids =>
      (ids, fun row => row.status.isActive || row.status = .failed)
  | .runImport jobId _, .flushing counters _ =>
      (if writes then [jobId] else [], fun row =>
        row.status = .running || row.counters = counters)
  | .runImport jobId _, .terminal write _ true =>
      (if writes then [jobId] else [], fun row =>
        row.status = .running ||
          row.status = write.status && row.counters = write.counters)
  | .runImport jobId _, .terminal _ _ false =>
      (if writes then [jobId] else [], fun row => row.status = .pending)
  | _, _ => ([], fun _ => true)

def ImportProcess.Meets (shared : ImportShared) (proc : ImportProcess) : Prop :=
  ∀ jobId ∈ proc.expects.1, ∀ row ∈ shared.store.committed jobId,
    proc.expects.2 row = true

section Expected

variable {shared : ImportShared} {os : OsProcess} {jobId attempts : Nat}
  {fates : List Fate}

theorem meets_reap {reused ids : List Nat}
    (hmeets : ImportProcess.Meets shared
      ⟨os, .reconcileOrphanedJobs reused, .reap ids, fates⟩) :
    ∀ jobId ∈ ids, ∀ row ∈ shared.store.committed jobId,
      row.status.isActive = true ∨ row.status = .failed := by
  intro jobId hid row hrow
  exact (Bool.or_eq_true_iff.mp (hmeets jobId hid row hrow)).imp_right
    of_decide_eq_true

theorem meets_flushing {counters committed : ImportCounters}
    (hmeets : ImportProcess.Meets shared
      ⟨os, .runImport jobId attempts, .flushing counters committed, fates⟩)
    (hfate : (fates.headD .ok).error = none) :
    ∀ row ∈ shared.store.committed jobId,
      row.status = .running ∨ row.counters = counters := by
  intro row hrow
  have hexpected := hmeets jobId (by
    change jobId ∈ (if (fates.headD .ok).error.isNone then [jobId] else [])
    rw [hfate]
    exact List.mem_singleton_self jobId) row hrow
  exact (Bool.or_eq_true_iff.mp hexpected).imp of_decide_eq_true
    of_decide_eq_true

theorem meets_terminal {write : TerminalWrite} {left : Nat} {moved : Bool}
    (hmeets : ImportProcess.Meets shared
      ⟨os, .runImport jobId attempts, .terminal write left moved, fates⟩)
    (hfate : (fates.headD .ok).error = none) :
    ∀ row ∈ shared.store.committed jobId,
      if moved then row.status = .running ∨
        row.status = write.status ∧ row.counters = write.counters
      else row.status = .pending := by
  intro row hrow
  have hwrites : jobId ∈
      (if (fates.headD .ok).error.isNone then [jobId] else []) := by
    rw [hfate]
    exact List.mem_singleton_self jobId
  cases moved with
  | true =>
      have hexpected := hmeets jobId hwrites row hrow
      refine (Bool.or_eq_true_iff.mp hexpected).imp of_decide_eq_true ?_
      exact fun hboth => (Bool.and_eq_true_iff.mp hboth).imp of_decide_eq_true
        of_decide_eq_true
  | false => exact of_decide_eq_true (hmeets jobId hwrites row hrow)

end Expected

abbrev ImportWorld := World ImportShared ImportProcess

abbrev ImportEvent := WorldEvent ImportProcess OsProcess

def ImportWorld.Meets (world : ImportWorld) : ImportEvent → Prop
  | .advance pid => ∀ proc ∈ world.procs[pid]?, proc.Meets world.shared
  | .outside _ | .spawn _ | .crash _ => True

instance ImportWorld.decidableMeets (world : ImportWorld)
    (event : ImportEvent) : Decidable (world.Meets event) :=
  match event with
  | .advance _ =>
      inferInstanceAs (Decidable (∀ _ ∈ _, ∀ _ ∈ _, ∀ _ ∈ _, _ = true))
  | .outside _ | .spawn _ | .crash _ => .isTrue trivial

/-! ### The invariant -/

/-- The job is active, or will be if the transaction at work on it commits. -/
def ActiveVersion (store : RowStore fun _ : Nat => ImportJobRow)
    (jobId : Nat) : Prop :=
  (store.committed jobId).any (·.status.isActive) = true ∨
    store.owner jobId ≠ none ∧
      (store.dirty jobId).any (·.status.isActive) = true

/-- A transaction with an uncommitted write may be here. -/
def ImportPhase.isWritten : ImportPhase → Bool
  | .created _ | .cancelled | .reaped _ | .marked _ | .flushed _ _
  | .written _ _ _ => true
  | .begin | .insert | .probe _ _ | .reap _ | .loading | .marking
  | .streaming _ _ | .flushing _ _ | .polling _ | .finishing _ _ _
  | .closing _ _ | .terminal _ _ _ | .done | .raised _ => false

/-- This run has moved the job out of `pending`. -/
def ImportPhase.moved : ImportPhase → Bool
  | .streaming _ _ | .flushing _ _ | .flushed _ _ | .polling _
  | .finishing _ _ _ | .closing _ _ => true
  | .terminal _ _ moved | .written _ _ moved => moved
  | .begin | .insert | .created _ | .cancelled | .probe _ _ | .reap _
  | .reaped _ | .loading | .marking | .marked _ | .done | .raised _ => false

/-- A terminal write is terminal, and `failed` if the job was never run. -/
def ImportPhase.WriteOk : ImportPhase → Prop
  | .terminal write _ moved | .written write _ moved =>
      write.status.isActive = false ∧ (moved = false → write.status = .failed)
  | _ => True

/-- What holds of one call. -/
structure ImportProcInv (shared : ImportShared) (tx : Nat)
    (call : ImportCall) (phase : ImportPhase) : Prop where
  idle : phase.isWritten = false → ∀ id, shared.store.owner id ≠ some tx
  legit : ∀ id, shared.store.owner id = some tx →
    JobStep (shared.store.committed id) (shared.store.dirty id)
  unmoved : ∀ jobId attempts, call = .runImport jobId attempts →
    phase.moved = false → ∀ id, shared.store.owner id = some tx →
      ∃ row, shared.store.committed id = some row ∧ row.status = .pending
  writeOk : phase.WriteOk

structure ImportInv (world : ImportWorld) : Prop where
  single : ∀ first second, ActiveVersion world.shared.store first →
    ActiveVersion world.shared.store second → first = second
  below : ∀ id, world.shared.store.committed id ≠ none ∨
    world.shared.store.owner id ≠ none → id < world.shared.nextJob
  running : ∀ id tx, world.shared.store.owner id = some tx →
    tx < world.procs.length
  procs : ∀ tx proc, world.procs[tx]? = some proc →
    ImportProcInv world.shared tx proc.call proc.phase

theorem ImportProcInv.ofIdle {shared : ImportShared} {tx : Nat}
    {call : ImportCall} {phase : ImportPhase}
    (hnone : ∀ id, shared.store.owner id ≠ some tx) (hwrite : phase.WriteOk) :
    ImportProcInv shared tx call phase where
  idle := fun _ => hnone
  legit := fun id hown => absurd hown (hnone id)
  unmoved := fun _ _ _ _ id hown => absurd hown (hnone id)
  writeOk := hwrite

/-- What the others' steps must leave alone. -/
theorem ImportProcInv.transfer {before after : ImportShared} {tx : Nat}
    {call : ImportCall} {phase : ImportPhase}
    (hproc : ImportProcInv before tx call phase)
    (hundisturbed : RowStore.Undisturbed tx before.store after.store) :
    ImportProcInv after tx call phase where
  idle := fun hphase id hown =>
    hproc.idle hphase id ((hundisturbed.owner id).mp hown)
  legit := by
    intro id hown
    have hown' := (hundisturbed.owner id).mp hown
    rw [hundisturbed.committed id hown', hundisturbed.dirty id hown']
    exact hproc.legit id hown'
  unmoved := by
    intro jobId attempts hcall hmoved id hown
    have hown' := (hundisturbed.owner id).mp hown
    rw [hundisturbed.committed id hown']
    exact hproc.unmoved jobId attempts hcall hmoved id hown'
  writeOk := hproc.writeOk

/-! ### What one statement may do to the table -/

inductive ImportActs (tx : Nat) (shared : ImportShared) : ImportShared → Prop
  | none : ImportActs tx shared shared
  | insert (os : OsProcess)
      (hnone : ∀ id, ¬ ActiveVersion shared.store id) :
      ImportActs tx shared (shared.insertPending tx os)
  | update (ids : List Nat) (change : ImportJobRow → ImportJobRow)
      (hfree : ∀ id ∈ ids, shared.store.Free tx id)
      (hmoves : ∀ id ∈ ids, ∃ row, shared.store.committed id = some row ∧
        shared.store.view tx id = some row ∧ row.Moves (change row)) :
      ImportActs tx shared
        { shared with store := shared.store.rewriteAll tx (fun _ => change) ids }
  | commit : ImportActs tx shared (shared.commit tx)
  | rollback (skipped : Nat) :
      ImportActs tx shared
        { shared.rollback tx with nextJob := shared.nextJob + skipped }

section OwnStep

variable {tx : Nat} {shared shared' : ImportShared} {phase' : ImportPhase}
  {call : ImportCall}

/-- The rows an update has locked, and what it makes of them. -/
theorem update_eq_some {ids : List Nat} {chosen : ImportJobRow → Bool}
    {change : ImportJobRow → ImportJobRow}
    (hnone : ∀ id, shared.store.owner id ≠ some tx)
    (hmoves : ∀ id ∈ ids, ∀ row, shared.store.committed id = some row →
      chosen row = true →
      row.Moves { change row with updates := row.updates + 1 })
    (hupdate : shared.update tx ids chosen change = some shared') :
    ImportActs tx shared shared' ∧
      ∀ id, shared'.store.owner id = some tx → id ∈ ids ∧
        ∃ row, shared.store.committed id = some row ∧ chosen row = true ∧
          shared'.store.committed id = some row ∧
          shared'.store.dirty id =
            some { change row with updates := row.updates + 1 } := by
  obtain ⟨store, hstore, rfl⟩ := Option.map_eq_some_iff.mp hupdate
  unfold RowStore.updateChosen at hstore
  split at hstore
  · rename_i hfree
    cases hstore
    have hmatch (id) (hid : id ∈ shared.store.matching tx (fun _ => chosen)
        (shared.store.matching tx (fun _ => chosen) ids)) :
        id ∈ ids ∧ ∃ row, shared.store.committed id = some row ∧
          shared.store.view tx id = some row ∧ chosen row = true := by
      obtain ⟨hcandidate, row, hview, hchosen⟩ := RowStore.mem_matching.mp hid
      obtain ⟨hmem, -⟩ := RowStore.mem_matching.mp hcandidate
      have hcommitted := hview
      rw [RowStore.view_of_not_owner (hnone id)] at hcommitted
      exact ⟨hmem, row, hcommitted, hview, hchosen⟩
    constructor
    · refine .update _ _ (fun id hid => ?_) (fun id hid => ?_)
      · exact hfree id (RowStore.mem_matching.mp hid).1
      · obtain ⟨hmem, row, hcommitted, hview, hchosen⟩ := hmatch id hid
        exact ⟨row, hcommitted, hview, hmoves id hmem row hcommitted hchosen⟩
    · intro id hown
      change (if id ∈ _ then some tx else shared.store.owner id) = some tx at hown
      split at hown
      · rename_i hid
        obtain ⟨hmem, row, hcommitted, hview, hchosen⟩ := hmatch id hid
        refine ⟨hmem, row, hcommitted, hchosen, hcommitted, ?_⟩
        change (if id ∈ _ then _ else _) = _
        rw [if_pos hid, hview]
        rfl
      · exact absurd hown (hnone id)
  · cases hstore

/-- After an update that follows the rules, the call holds what it wrote. -/
theorem ImportProcInv.ofUpdate {ids : List Nat} {chosen : ImportJobRow → Bool}
    {change : ImportJobRow → ImportJobRow} {phase : ImportPhase}
    (hnone : ∀ id, shared.store.owner id ≠ some tx)
    (hmoves : ∀ id ∈ ids, ∀ row, shared.store.committed id = some row →
      chosen row = true →
      row.Moves { change row with updates := row.updates + 1 })
    (hupdate : shared.update tx ids chosen change = some shared')
    (hphase : phase.isWritten = true) (hwrite : phase.WriteOk)
    (hunmoved : phase.moved = false → ∀ jobId attempts,
      call = .runImport jobId attempts → ∀ id ∈ ids, ∀ row,
        shared.store.committed id = some row → chosen row = true →
          row.status = .pending) :
    ImportActs tx shared shared' ∧ ImportProcInv shared' tx call phase := by
  obtain ⟨hacts, hheld⟩ := update_eq_some hnone hmoves hupdate
  refine ⟨hacts, ?_⟩
  constructor
  · intro hidle
    rw [hphase] at hidle
    cases hidle
  · intro id hown
    obtain ⟨hmem, row, hcommitted, hchosen, hkept, hdirty⟩ := hheld id hown
    rw [hkept, hdirty]
    exact .moved row _ (hmoves id hmem row hcommitted hchosen)
  · intro jobId attempts hcall hmoved id hown
    obtain ⟨hmem, row, hcommitted, hchosen, hkept, -⟩ := hheld id hown
    exact ⟨row, hkept,
      hunmoved hmoved jobId attempts hcall id hmem row hcommitted hchosen⟩
  · exact hwrite

theorem commit_idle (shared : ImportShared) (tx id : Nat) :
    (shared.commit tx).store.owner id ≠ some tx :=
  RowStore.released_ne_self

theorem rollback_idle (shared : ImportShared) (tx id : Nat) :
    (shared.rollback tx).store.owner id ≠ some tx :=
  RowStore.released_ne_self

/-- No other transaction is about to have an active job, and none is active. -/
theorem no_activeVersion
    (hnone : ∀ id, shared.store.owner id ≠ some tx)
    (hbelow : ∀ id, shared.store.committed id ≠ none ∨
      shared.store.owner id ≠ none → id < shared.nextJob)
    (hcontended : shared.activeContended tx = false)
    (hcount : shared.activeCount tx = 0) (id : Nat) :
    ¬ ActiveVersion shared.store id := by
  intro hactive
  have hlt : id < shared.nextJob := by
    rcases hactive with hcommitted | ⟨howner, -⟩
    · refine hbelow id (.inl fun hmissing => ?_)
      rw [hmissing] at hcommitted
      cases hcommitted
    · exact hbelow id (.inr howner)
  have hmem := List.mem_range.mpr hlt
  rcases hactive with hcommitted | ⟨howner, hdirty⟩
  · have hzero := List.countP_eq_zero.mp hcount id hmem
    unfold ImportShared.read at hzero
    rw [RowStore.view_of_not_owner (hnone id)] at hzero
    exact hzero hcommitted
  · obtain ⟨other, hother⟩ := Option.ne_none_iff_exists'.mp howner
    have hcontender := List.any_eq_false.mp hcontended id hmem
    refine hcontender ?_
    have hne : other ≠ tx := by
      rintro rfl
      exact hnone id hother
    simp [hother, hne, hdirty]

theorem createJob_acts {os : OsProcess} {phase : ImportPhase}
    (hproc : ImportProcInv shared tx .createJob phase)
    (hbelow : ∀ id, shared.store.committed id ≠ none ∨
      shared.store.owner id ≠ none → id < shared.nextJob)
    (hstep : createJob tx shared os phase = some (shared', phase')) :
    ImportActs tx shared shared' ∧
      ImportProcInv shared' tx .createJob phase' := by
  cases phase with
  | begin =>
      simp only [createJob] at hstep
      split at hstep
      · cases hstep
        exact ⟨.rollback 0, .ofIdle (rollback_idle shared tx) trivial⟩
      · cases hstep
        exact ⟨.none, .ofIdle (hproc.idle rfl) trivial⟩
  | insert =>
      simp only [createJob] at hstep
      split at hstep
      · cases hstep
      · rename_i hcontended
        split at hstep
        · cases hstep
          exact ⟨.rollback 1, .ofIdle (rollback_idle shared tx) trivial⟩
        · rename_i hcount
          cases hstep
          have hidle := hproc.idle rfl
          refine ⟨.insert os (no_activeVersion hidle hbelow
            (eq_false_of_ne_true hcontended) (by omega)), ?_⟩
          constructor
          · exact nofun
          · intro id hown
            have hid : id = shared.nextJob := by
              by_contra hne
              refine hidle id ?_
              rwa [ImportShared.insertPending, RowStore.owner_put_of_ne hne]
                at hown
            subst hid
            have hmissing : shared.store.committed shared.nextJob = none := by
              by_contra hsome
              exact absurd (hbelow _ (.inl hsome)) (Nat.lt_irrefl _)
            rw [ImportShared.insertPending, RowStore.committed_put,
              RowStore.dirty_put_self, hmissing]
            exact .created _ rfl
          · exact nofun
          · trivial
  | created jobId =>
      cases hstep
      exact ⟨.commit, .ofIdle (commit_idle shared tx) trivial⟩
  | cancelled | probe | reap | reaped | loading | marking | marked | streaming
  | flushing | flushed | polling | finishing | closing | terminal | written
  | done | raised => cases hstep

theorem cancelJob_acts {jobId : Nat} {phase : ImportPhase}
    (hproc : ImportProcInv shared tx (.cancelJob jobId) phase)
    (hstep : cancelJob tx shared jobId phase = some (shared', phase')) :
    ImportActs tx shared shared' ∧
      ImportProcInv shared' tx (.cancelJob jobId) phase' := by
  cases phase with
  | begin =>
      simp only [cancelJob] at hstep
      split at hstep
      · obtain ⟨updated, hupdate, hafter⟩ := Option.map_eq_some_iff.mp hstep
        cases hafter
        refine ImportProcInv.ofUpdate (hproc.idle rfl) ?_ hupdate rfl trivial
          (fun _ _ _ => nofun)
        exact fun _ _ _ _ _ => .inl ⟨rfl, fun _ => rfl⟩
      · cases hstep
        exact ⟨.rollback 0, .ofIdle (rollback_idle shared tx) trivial⟩
  | cancelled =>
      cases hstep
      exact ⟨.commit, .ofIdle (commit_idle shared tx) trivial⟩
  | insert | created | probe | reap | reaped | loading | marking | marked
  | streaming | flushing | flushed | polling | finishing | closing | terminal
  | written | done | raised => cases hstep

theorem reconcileOrphanedJobs_acts {os : OsProcess} {reused : List Nat}
    {phase : ImportPhase}
    (hproc : ImportProcInv shared tx (.reconcileOrphanedJobs reused) phase)
    (hmeets : ∀ ids, phase = .reap ids → ∀ jobId ∈ ids,
      ∀ row ∈ shared.store.committed jobId,
        row.status.isActive = true ∨ row.status = .failed)
    (hstep : reconcileOrphanedJobs tx shared os reused phase =
      some (shared', phase')) :
    ImportActs tx shared shared' ∧
      ImportProcInv shared' tx (.reconcileOrphanedJobs reused) phase' := by
  cases phase with
  | begin =>
      cases hstep
      exact ⟨.none, .ofIdle (hproc.idle rfl) trivial⟩
  | probe rest ids =>
      cases rest with
      | nil =>
          cases hstep
          refine ⟨.none, .ofIdle (hproc.idle rfl) ?_⟩
          split <;> trivial
      | cons entry rest =>
          cases hstep
          exact ⟨.none, .ofIdle (hproc.idle rfl) trivial⟩
  | reap ids =>
      obtain ⟨updated, hupdate, hafter⟩ := Option.map_eq_some_iff.mp hstep
      cases hafter
      refine ImportProcInv.ofUpdate (hproc.idle rfl) (fun id hid row hrow _ => ?_) hupdate rfl
        trivial (fun _ _ _ => nofun)
      rcases hmeets ids rfl id hid row hrow with hactive | hfailed
      · cases hstatus : row.status with
        | pending => exact .inr (.inl ⟨hstatus, .inr rfl⟩)
        | running => exact .inr (.inr ⟨hstatus, rfl⟩)
        | completed | failed | cancelled =>
            rw [hstatus] at hactive
            cases hactive
      · exact .inl ⟨hfailed.symm, fun _ => rfl⟩
  | reaped ids =>
      cases hstep
      exact ⟨.commit, .ofIdle (commit_idle shared tx) trivial⟩
  | insert | created | cancelled | loading | marking | marked | streaming
  | flushing | flushed | polling | finishing | closing | terminal | written
  | done | raised => cases hstep

/-- A statement of `run_import` that fails gives up the transaction. -/
theorem failed_acts {attempts : Nat} {counters : ImportCounters}
    {errorMsg : Option String} {moved : Bool} :
    ImportActs tx shared (shared.rollback tx) ∧
      ImportProcInv (shared.rollback tx) tx call
        (markTerminal attempts .failed counters errorMsg moved) :=
  ⟨.rollback 0, .ofIdle (rollback_idle shared tx) ⟨rfl, fun _ => rfl⟩⟩

/-- Likewise when its commit happened unnoticed. -/
theorem lost_acts {attempts : Nat} {counters : ImportCounters}
    {errorMsg : Option String} {moved : Bool} :
    ImportActs tx shared (shared.commit tx) ∧
      ImportProcInv (shared.commit tx) tx call
        (markTerminal attempts .failed counters errorMsg moved) :=
  ⟨.commit, .ofIdle (commit_idle shared tx) ⟨rfl, fun _ => rfl⟩⟩

theorem retryTerminal_writeOk {write : TerminalWrite} {left : Nat}
    {moved after : Bool} (hwrite : (ImportPhase.written write left moved).WriteOk)
    (hmoved : after = false → moved = false) :
    (retryTerminal write left after).WriteOk := by
  unfold retryTerminal
  split
  · trivial
  · exact ⟨hwrite.1, fun hafter => hwrite.2 (hmoved hafter)⟩

theorem runImport_acts {jobId attempts : Nat} {fate : Fate}
    {phase : ImportPhase}
    (hproc : ImportProcInv shared tx (.runImport jobId attempts) phase)
    (hflush : ∀ counters committed, phase = .flushing counters committed →
      fate.error = none → ∀ row ∈ shared.store.committed jobId,
        row.status = .running ∨ row.counters = counters)
    (hterminal : ∀ write left moved, phase = .terminal write left moved →
      fate.error = none → ∀ row ∈ shared.store.committed jobId,
        if moved then row.status = .running ∨
          row.status = write.status ∧ row.counters = write.counters
        else row.status = .pending)
    (hstep : runImport tx shared jobId attempts fate phase =
      some (shared', phase')) :
    ImportActs tx shared shared' ∧
      ImportProcInv shared' tx (.runImport jobId attempts) phase' := by
  cases phase with
  | begin =>
      simp only [runImport] at hstep
      split at hstep
      · cases hstep
        exact ⟨.none, .ofIdle (hproc.idle rfl) trivial⟩
      · split at hstep
        · cases hstep
          exact ⟨.none, .ofIdle (hproc.idle rfl) ⟨rfl, fun _ => rfl⟩⟩
        · cases hstep
          exact ⟨.none, .ofIdle (hproc.idle rfl) trivial⟩
  | loading =>
      simp only [runImport] at hstep
      split at hstep
      · cases hstep
        exact failed_acts
      · split at hstep
        · cases hstep
          exact ⟨.none, .ofIdle (hproc.idle rfl) trivial⟩
        · cases hstep
          exact ⟨.rollback 0, .ofIdle (rollback_idle shared tx) trivial⟩
  | marking =>
      simp only [runImport] at hstep
      split at hstep
      · cases hstep
        exact failed_acts
      · obtain ⟨updated, hupdate, hafter⟩ := Option.map_eq_some_iff.mp hstep
        cases hafter
        refine ImportProcInv.ofUpdate (hproc.idle rfl)
          (fun id _ row _ hchosen => ?_) hupdate rfl trivial ?_
        · exact .inr (.inl ⟨of_decide_eq_true hchosen, .inl rfl⟩)
        · exact fun _ _ _ _ id _ row _ hchosen => of_decide_eq_true hchosen
  | marked changed =>
      simp only [runImport] at hstep
      split at hstep
      · cases hstep
        exact failed_acts
      · cases hstep
        exact lost_acts
      · cases hstep
        refine ⟨.commit, .ofIdle (commit_idle shared tx) ?_⟩
        split <;> trivial
  | streaming counters committed =>
      simp only [runImport] at hstep
      split at hstep
      · cases hstep
        exact failed_acts
      · cases hstep
        exact failed_acts
      · cases hstep
        exact ⟨.commit, .ofIdle (commit_idle shared tx) trivial⟩
      · cases hstep
        refine ⟨.none, .ofIdle (hproc.idle rfl) ?_⟩
        split <;> trivial
      · cases hstep
        exact ⟨.none, .ofIdle (hproc.idle rfl) trivial⟩
  | flushing counters committed =>
      simp only [runImport] at hstep
      split at hstep
      · cases hstep
        exact failed_acts
      · rename_i hfate
        obtain ⟨updated, hupdate, hafter⟩ := Option.map_eq_some_iff.mp hstep
        cases hafter
        refine ImportProcInv.ofUpdate (hproc.idle rfl)
          (fun id hid row hrow _ => ?_) hupdate rfl trivial nofun
        refine .inl ⟨rfl, fun hactive => ?_⟩
        rw [List.mem_singleton.mp hid] at hrow
        rcases hflush counters committed rfl hfate row hrow with hrunning | hsame
        · rw [hrunning] at hactive
          cases hactive
        · exact hsame.symm
  | flushed counters committed =>
      simp only [runImport] at hstep
      split at hstep
      · cases hstep
        exact failed_acts
      · cases hstep
        exact lost_acts
      · cases hstep
        exact ⟨.commit, .ofIdle (commit_idle shared tx) trivial⟩
  | polling counters =>
      simp only [runImport] at hstep
      split at hstep
      · cases hstep
        exact failed_acts
      · cases hstep
        refine ⟨.none, .ofIdle (hproc.idle rfl) ?_⟩
        split <;> trivial
  | finishing counters committed cancelled =>
      simp only [runImport] at hstep
      split at hstep
      · cases hstep
        exact failed_acts
      · cases hstep
        exact lost_acts
      · cases hstep
        exact ⟨.commit, .ofIdle (commit_idle shared tx) trivial⟩
  | closing counters cancelled =>
      simp only [runImport] at hstep
      split at hstep
      · cases hstep
        exact failed_acts
      · cases hstep
        refine ⟨.none, .ofIdle (hproc.idle rfl) ⟨?_, nofun⟩⟩
        cases cancelled <;> rfl
  | terminal write left moved =>
      cases left with
      | zero => cases hstep
      | succ left =>
          simp only [runImport] at hstep
          split at hstep
          · cases hstep
            exact ⟨.rollback 0, .ofIdle (rollback_idle shared tx)
              (retryTerminal_writeOk hproc.writeOk id)⟩
          · rename_i hfate
            obtain ⟨updated, hupdate, hafter⟩ := Option.map_eq_some_iff.mp hstep
            cases hafter
            refine ImportProcInv.ofUpdate (hproc.idle rfl)
              (fun id hid row hrow _ => ?_) hupdate rfl hproc.writeOk ?_
            · rw [List.mem_singleton.mp hid] at hrow
              have hfound := hterminal write _ moved rfl hfate row hrow
              cases moved with
              | false =>
                  exact .inr (.inl ⟨hfound, .inr (hproc.writeOk.2 rfl)⟩)
              | true =>
                  rcases hfound with hrunning | ⟨hstatus, hcounters⟩
                  · exact .inr (.inr ⟨hrunning, hproc.writeOk.1⟩)
                  · exact .inl ⟨hstatus.symm, fun _ => hcounters.symm⟩
            · rintro hmoved _ _ - id hid row hrow -
              rw [List.mem_singleton.mp hid] at hrow
              have hfound := hterminal write _ moved rfl hfate row hrow
              have hmoved : moved = false := hmoved
              rwa [hmoved] at hfound
  | written write left moved =>
      simp only [runImport] at hstep
      split at hstep
      · cases hstep
        exact ⟨.rollback 0, .ofIdle (rollback_idle shared tx)
          (retryTerminal_writeOk hproc.writeOk id)⟩
      · cases hstep
        refine ⟨.commit, .ofIdle (commit_idle shared tx) ?_⟩
        exact retryTerminal_writeOk hproc.writeOk
          fun hafter => (Bool.or_eq_false_iff.mp hafter).1
      · cases hstep
        exact ⟨.commit, .ofIdle (commit_idle shared tx) trivial⟩
  | insert | created | cancelled | probe | reap | reaped | done | raised =>
      cases hstep

theorem importStep_acts {proc proc' : ImportProcess}
    (hproc : ImportProcInv shared tx proc.call proc.phase)
    (hbelow : ∀ id, shared.store.committed id ≠ none ∨
      shared.store.owner id ≠ none → id < shared.nextJob)
    (hmeets : proc.Meets shared)
    (hstep : importStep tx shared proc = some (shared', proc')) :
    ImportActs tx shared shared' ∧
      ImportProcInv shared' tx proc'.call proc'.phase := by
  obtain ⟨os, call, phase, fates⟩ := proc
  unfold importStep at hstep
  split at hstep
  · cases hstep
  · obtain ⟨⟨after, phase'⟩, hcall, hafter⟩ := Option.map_eq_some_iff.mp hstep
    cases hafter
    cases call with
    | createJob => exact createJob_acts hproc hbelow hcall
    | cancelJob jobId => exact cancelJob_acts hproc hcall
    | reconcileOrphanedJobs reused =>
        refine reconcileOrphanedJobs_acts hproc ?_ hcall
        rintro ids rfl
        exact meets_reap hmeets
    | runImport jobId attempts =>
        refine runImport_acts hproc ?_ ?_ hcall
        · rintro counters committed rfl hfate
          exact meets_flushing hmeets hfate
        · rintro write left moved rfl hfate
          exact meets_terminal hmeets hfate

end OwnStep

/-! ### Between calls -/

namespace ImportActs

variable {tx other : Nat} {shared shared' : ImportShared}

theorem undisturbed (hacts : ImportActs tx shared shared') (hne : other ≠ tx)
    (hbelow : ∀ id, shared.store.owner id ≠ Option.none →
      id < shared.nextJob) :
    RowStore.Undisturbed other shared.store shared'.store := by
  cases hacts with
  | none => exact .refl other shared.store
  | insert os _ =>
      refine RowStore.undisturbed_put hne (.inl ?_) _
      by_contra hsome
      exact absurd (hbelow shared.nextJob hsome) (Nat.lt_irrefl _)
  | update ids change hfree _ =>
      exact RowStore.undisturbed_rewriteAll hne hfree _
  | commit => exact RowStore.undisturbed_commit hne
  | rollback skipped => exact RowStore.undisturbed_rollback hne

/-- Only an insert brings a job that will be active, and then it is the only
one. -/
theorem activeVersion_kept (hacts : ImportActs tx shared shared') :
    (∀ id, ActiveVersion shared'.store id → ActiveVersion shared.store id) ∨
      ∀ id, ActiveVersion shared'.store id → id = shared.nextJob := by
  cases hacts with
  | none => exact .inl fun _ hactive => hactive
  | insert os hnone =>
      right
      intro id hactive
      by_contra hne
      refine hnone id ?_
      unfold ActiveVersion ImportShared.insertPending at hactive
      rwa [RowStore.committed_put, RowStore.owner_put_of_ne hne,
        RowStore.dirty_put_of_ne hne] at hactive
  | update ids change hfree hmoves =>
      left
      rintro id (hcommitted | ⟨howner, hdirty⟩)
      · exact .inl hcommitted
      · by_cases hid : id ∈ ids
        · left
          obtain ⟨row, hrow, hview, hmove⟩ := hmoves id hid
          simp only [RowStore.rewriteAll, hid, ↓reduceIte, hview] at hdirty
          rw [hrow]
          exact hmove.active hdirty
        · right
          simp only [RowStore.rewriteAll, hid, ↓reduceIte] at howner hdirty
          exact ⟨howner, hdirty⟩
  | commit =>
      left
      rintro id (hcommitted | ⟨howner, hdirty⟩)
      · by_cases hown : shared.store.owner id = some tx
        · refine .inr ⟨by rw [hown]; exact Option.some_ne_none _, ?_⟩
          rwa [ImportShared.commit, RowStore.committed_commit,
            RowStore.view_of_owner hown] at hcommitted
        · left
          rwa [ImportShared.commit, RowStore.committed_commit,
            RowStore.view_of_not_owner hown] at hcommitted
      · exact .inr ⟨RowStore.owner_ne_none_of_released howner, hdirty⟩
  | rollback skipped =>
      left
      rintro id (hcommitted | ⟨howner, hdirty⟩)
      · exact .inl hcommitted
      · exact .inr ⟨RowStore.owner_ne_none_of_released howner, hdirty⟩

theorem below_kept (hacts : ImportActs tx shared shared')
    (hbelow : ∀ id, shared.store.committed id ≠ Option.none ∨
      shared.store.owner id ≠ Option.none → id < shared.nextJob)
    (id : Nat) (hid : shared'.store.committed id ≠ Option.none ∨
      shared'.store.owner id ≠ Option.none) :
    id < shared'.nextJob := by
  cases hacts with
  | none => exact hbelow id hid
  | insert os _ =>
      by_cases hsame : id = shared.nextJob
      · exact hsame ▸ Nat.lt_succ_self _
      · refine Nat.lt_succ_of_lt (hbelow id (hid.imp_right fun howner => ?_))
        rwa [ImportShared.insertPending, RowStore.owner_put_of_ne hsame]
          at howner
  | update ids change hfree hmoves =>
      by_cases hmem : id ∈ ids
      · obtain ⟨row, hrow, -⟩ := hmoves id hmem
        exact hbelow id (.inl (by rw [hrow]; exact Option.some_ne_none _))
      · refine hbelow id (hid.imp_right fun howner => ?_)
        simpa only [RowStore.rewriteAll, hmem, ↓reduceIte] using howner
  | commit =>
      apply hbelow id
      obtain hview | howner := hid
      · by_cases hown : shared.store.owner id = some tx
        · exact .inr (by rw [hown]; exact Option.some_ne_none _)
        · left
          rwa [ImportShared.commit, RowStore.committed_commit,
            RowStore.view_of_not_owner hown] at hview
      · exact .inr (RowStore.owner_ne_none_of_released howner)
  | rollback skipped =>
      exact Nat.lt_add_right skipped
        (hbelow id (hid.imp_right RowStore.owner_ne_none_of_released))

theorem owner_kept (hacts : ImportActs tx shared shared') {id : Nat}
    (howner : shared'.store.owner id = some other) :
    other = tx ∨ shared.store.owner id = some other := by
  cases hacts with
  | none => exact .inr howner
  | insert os _ =>
      by_cases hsame : id = shared.nextJob
      · subst hsame
        rw [ImportShared.insertPending, RowStore.owner_put_self] at howner
        exact .inl (Option.some.inj howner).symm
      · rw [ImportShared.insertPending, RowStore.owner_put_of_ne hsame]
          at howner
        exact .inr howner
  | update ids change _ _ =>
      by_cases hmem : id ∈ ids
      · simp only [RowStore.rewriteAll, hmem, ↓reduceIte] at howner
        exact .inl (Option.some.inj howner).symm
      · simp only [RowStore.rewriteAll, hmem, ↓reduceIte] at howner
        exact .inr howner
  | commit => exact .inr (RowStore.owner_of_released howner).2
  | rollback skipped => exact .inr (RowStore.owner_of_released howner).2

/-- Only a commit changes what is committed, and only what it wrote. -/
theorem committed_kept (hacts : ImportActs tx shared shared')
    (hlegit : ∀ id, shared.store.owner id = some tx →
      JobStep (shared.store.committed id) (shared.store.dirty id)) (id : Nat) :
    shared'.store.committed id = shared.store.committed id ∨
      shared.store.owner id = some tx ∧
        JobStep (shared.store.committed id) (shared'.store.committed id) := by
  cases hacts with
  | none | insert | update | rollback => exact .inl rfl
  | commit =>
      by_cases hown : shared.store.owner id = some tx
      · right
        rw [ImportShared.commit, RowStore.committed_commit,
          RowStore.view_of_owner hown]
        exact ⟨hown, hlegit id hown⟩
      · exact .inl (RowStore.view_of_not_owner hown)

end ImportActs

/-! ### Runs -/

/-- What one call did, with its new place, leaves the invariant. -/
theorem ImportInv.acted {world : ImportWorld} {tx : Nat}
    {proc after : ImportProcess} {shared : ImportShared}
    (hinv : ImportInv world) (hproc : world.procs[tx]? = some proc)
    (hacts : ImportActs tx world.shared shared)
    (hown : ImportProcInv shared tx after.call after.phase) :
    ImportInv ⟨shared, world.procs.set tx after⟩ where
  single := by
    intro first second hfirst hsecond
    rcases hacts.activeVersion_kept with hold | hnew
    · exact hinv.single first second (hold first hfirst) (hold second hsecond)
    · exact (hnew first hfirst).trans (hnew second hsecond).symm
  below := hacts.below_kept hinv.below
  running := owners_set hinv.running after hproc fun _ _ => hacts.owner_kept
  procs := by
    intro other proc' hproc'
    obtain ⟨rfl, rfl⟩ | ⟨hne, hold⟩ := procs_set_cases hproc'
    · exact hown
    · apply (hinv.procs other proc' hold).transfer
      exact hacts.undisturbed hne fun id howner => hinv.below id (.inr howner)

theorem ImportInv.step {world next : ImportWorld} {event : ImportEvent}
    (hinv : ImportInv world) (hmeets : world.Meets event)
    (hstep : worldStep importRules world event = some next) :
    ImportInv next := by
  obtain ⟨os, shared, -, hshared, rfl⟩ | ⟨proc, -, hinitial, rfl⟩ |
    ⟨tx, proc, shared, after, rfl, hproc, hadvance, rfl⟩ |
    ⟨tx, proc, -, hproc, -, rfl⟩ := worldStep_cases hstep
  · cases hshared
    exact ⟨hinv.single, hinv.below, hinv.running, fun tx proc hproc =>
      (hinv.procs tx proc hproc).transfer (.refl tx _)⟩
  · refine ⟨hinv.single, hinv.below, owners_append hinv.running proc, ?_⟩
    intro tx other hother
    obtain ⟨rfl, rfl⟩ | hold := procs_append_cases hother
    · refine .ofIdle (fun id howner => ?_) ?_
      · exact absurd (hinv.running id _ howner) (Nat.lt_irrefl _)
      · have hbegin : other.phase = .begin := of_decide_eq_true hinitial
        rw [hbegin]
        trivial
    · exact hinv.procs tx other hold
  · obtain ⟨hacts, hown⟩ := importStep_acts (hinv.procs tx proc hproc)
      hinv.below (hmeets proc hproc) hadvance
    exact hinv.acted hproc hacts hown
  · exact hinv.acted hproc (.rollback 0)
      (.ofIdle (rollback_idle world.shared tx) trivial)

/-- A step leaves each job as it was, creates it or moves it on. -/
theorem ImportInv.step_job {world next : ImportWorld} {event : ImportEvent}
    (hinv : ImportInv world) (hmeets : world.Meets event)
    (hstep : worldStep importRules world event = some next) (id : Nat) :
    next.shared.store.committed id = world.shared.store.committed id ∨
      JobStep (world.shared.store.committed id)
        (next.shared.store.committed id) := by
  obtain ⟨os, shared, -, hshared, rfl⟩ | ⟨proc, -, -, rfl⟩ |
    ⟨tx, proc, shared, after, rfl, hproc, hadvance, rfl⟩ |
    ⟨tx, proc, -, hproc, -, rfl⟩ := worldStep_cases hstep
  · cases hshared
    exact .inl rfl
  · exact .inl rfl
  · have hcall := hinv.procs tx proc hproc
    obtain ⟨hacts, -⟩ := importStep_acts hcall hinv.below
      (hmeets proc hproc) hadvance
    exact (hacts.committed_kept hcall.legit id).imp_right And.right
  · exact .inl rfl

/-! ### A run of a job that is not pending -/

/-- The statements of a run that has found, or will find, its job taken. -/
def ImportPhase.barred : ImportPhase → Bool
  | .begin | .loading | .marking | .marked false | .terminal _ _ false | .done
  | .raised _ => true
  | _ => false

/-- The job has left `pending`, and the call has no part in it. -/
structure Barred (world : ImportWorld) (pid jobId : Nat) : Prop where
  taken : ∃ row, world.shared.store.committed jobId = some row ∧
    row.status ≠ .pending
  barred : ∃ proc, world.procs[pid]? = some proc ∧
    proc.phase.barred = true ∧
      (proc.phase = .done ∨ ∃ attempts, proc.call = .runImport jobId attempts)
  idle : ∀ id, world.shared.store.owner id ≠ some pid

theorem taken_kept {old new : Option ImportJobRow}
    (hold : ∃ row, old = some row ∧ row.status ≠ .pending)
    (hstep : new = old ∨ JobStep old new) :
    ∃ row, new = some row ∧ row.status ≠ .pending := by
  obtain ⟨row, rfl, hstatus⟩ := hold
  rcases hstep with rfl | hstep
  · exact ⟨row, rfl, hstatus⟩
  · cases hstep with
    | moved _ next hmoves =>
        refine ⟨next, rfl, ?_⟩
        rcases hmoves with ⟨hsame, -⟩ | ⟨hpending, -⟩ | ⟨-, hterminal⟩
        · rwa [hsame]
        · exact absurd hpending hstatus
        · intro hpending
          rw [hpending] at hterminal
          cases hterminal

/-- A barred run writes nothing and stays barred. -/
theorem runImport_barred {tx jobId attempts : Nat} {fate : Fate}
    {shared shared' : ImportShared} {phase phase' : ImportPhase}
    (hidle : ∀ id, shared.store.owner id ≠ some tx)
    (htaken : ∃ row, shared.store.committed jobId = some row ∧
      row.status ≠ .pending)
    (hbarred : phase.barred = true)
    (hterminal : ∀ write left, phase = .terminal write left false →
      fate.error = none → ∀ row ∈ shared.store.committed jobId,
        row.status = .pending)
    (hstep : runImport tx shared jobId attempts fate phase =
      some (shared', phase')) :
    phase'.barred = true ∧ (∀ id, shared'.store.owner id ≠ some tx) ∧
      shared'.store.committed = shared.store.committed := by
  obtain ⟨row, hrow, hstatus⟩ := htaken
  have hread : shared.read tx jobId = some row :=
    (RowStore.view_of_not_owner (hidle jobId)).trans hrow
  have hcommit : (shared.commit tx).store.committed =
      shared.store.committed := by
    funext id
    exact RowStore.view_of_not_owner (hidle id)
  cases phase with
  | begin =>
      simp only [runImport] at hstep
      split at hstep
      · cases hstep
        exact ⟨rfl, hidle, rfl⟩
      · split at hstep
        · cases hstep
          exact ⟨rfl, hidle, rfl⟩
        · cases hstep
          exact ⟨rfl, hidle, rfl⟩
  | loading =>
      simp only [runImport, hread, Option.isSome_some, ↓reduceIte] at hstep
      split at hstep
      · cases hstep
        exact ⟨rfl, rollback_idle shared tx, rfl⟩
      · cases hstep
        exact ⟨rfl, hidle, rfl⟩
  | marking =>
      simp only [runImport] at hstep
      split at hstep
      · cases hstep
        exact ⟨rfl, rollback_idle shared tx, rfl⟩
      · obtain ⟨updated, hupdate, hafter⟩ := Option.map_eq_some_iff.mp hstep
        cases hafter
        obtain ⟨-, hheld⟩ := update_eq_some hidle
          (fun _ _ _ _ hchosen => .inr (.inl ⟨of_decide_eq_true hchosen, .inl rfl⟩))
          hupdate
        refine ⟨?_, fun id hown => ?_, ?_⟩
        · simp [hread, hstatus, ImportPhase.barred]
        · obtain ⟨hid, found, hfound, hchosen, -⟩ := hheld id hown
          rw [List.mem_singleton.mp hid, hrow] at hfound
          cases hfound
          exact hstatus (of_decide_eq_true hchosen)
        · obtain ⟨store, hstore, rfl⟩ := Option.map_eq_some_iff.mp hupdate
          unfold RowStore.updateChosen at hstore
          split at hstore
          · cases hstore
            rfl
          · cases hstore
  | marked changed =>
      cases changed with
      | true => cases hbarred
      | false =>
          simp only [runImport] at hstep
          split at hstep
          · cases hstep
            exact ⟨rfl, rollback_idle shared tx, rfl⟩
          · cases hstep
            exact ⟨rfl, commit_idle shared tx, hcommit⟩
          · cases hstep
            exact ⟨rfl, commit_idle shared tx, hcommit⟩
  | terminal write left moved =>
      cases moved with
      | true => cases hbarred
      | false =>
          cases left with
          | zero => cases hstep
          | succ left =>
              simp only [runImport] at hstep
              split at hstep
              · cases hstep
                refine ⟨?_, rollback_idle shared tx, rfl⟩
                unfold retryTerminal
                split <;> rfl
              · rename_i hfate
                exact absurd (hterminal write _ rfl hfate row hrow) hstatus
  | done | raised => cases hstep
  | insert | created | cancelled | probe | reap | reaped | streaming
  | flushing | flushed | polling | finishing | closing | written =>
      cases hbarred

theorem Barred.advance {world next : ImportWorld} {pid jobId : Nat}
    (hbarred : Barred world pid jobId) (hmeets : world.Meets (.advance pid))
    (hstep : worldStep importRules world (.advance pid) = some next) :
    Barred next pid jobId ∧
      next.shared.store.committed = world.shared.store.committed := by
  obtain ⟨os, shared, hevent, -⟩ | ⟨proc, hevent, -⟩ |
    ⟨tx, proc, shared, after, hevent, hproc, hadvance, rfl⟩ |
    ⟨tx, proc, hevent, -⟩ := worldStep_cases hstep
  · cases hevent
  · cases hevent
  · cases hevent
    obtain ⟨os, call, phase, fates⟩ := proc
    obtain ⟨_, hfound, hphase, hcall⟩ := hbarred.barred
    cases hproc.symm.trans hfound
    have hguard := hmeets _ hproc
    change importStep pid world.shared _ = _ at hadvance
    unfold importStep at hadvance
    split at hadvance
    · cases hadvance
    · obtain ⟨⟨_, phase'⟩, hrun, hafter⟩ := Option.map_eq_some_iff.mp hadvance
      cases hafter
      rcases hcall with hdone | ⟨attempts, hcall⟩
      · cases hdone
        cases call <;> cases hrun
      · cases hcall
        have hkept := runImport_barred hbarred.idle hbarred.taken hphase
          (fun write left hterminal => by
            cases hterminal
            exact meets_terminal hguard) hrun
        obtain ⟨hphase', hidle, hcommitted⟩ := hkept
        refine ⟨⟨?_, ?_, hidle⟩, hcommitted⟩
        · rw [hcommitted]
          exact hbarred.taken
        · have hlt := (List.getElem?_eq_some_iff.mp hproc).1
          exact ⟨_, List.getElem?_set_self hlt, hphase', .inr ⟨attempts, rfl⟩⟩
  · cases hevent

/-- Nothing lets a barred call in again. -/
theorem Barred.step {world next : ImportWorld} {event : ImportEvent}
    {pid jobId : Nat} (hinv : ImportInv world)
    (hbarred : Barred world pid jobId) (hmeets : world.Meets event)
    (hstep : worldStep importRules world event = some next) :
    Barred next pid jobId := by
  by_cases hown : event = .advance pid
  · subst hown
    exact (hbarred.advance hmeets hstep).1
  · have htaken := taken_kept hbarred.taken
      (hinv.step_job hmeets hstep jobId)
    obtain ⟨proc, hproc, hphase, hcall⟩ := hbarred.barred
    have hlt := (List.getElem?_eq_some_iff.mp hproc).1
    obtain ⟨os, shared, rfl, hshared, rfl⟩ | ⟨started, rfl, -, rfl⟩ |
      ⟨tx, other, shared, after, rfl, hother, hadvance, rfl⟩ |
      ⟨tx, other, rfl, hother, -, rfl⟩ := worldStep_cases hstep
    · cases hshared
      exact ⟨htaken, ⟨proc, hproc, hphase, hcall⟩, hbarred.idle⟩
    · refine ⟨htaken, ⟨proc, ?_, hphase, hcall⟩, hbarred.idle⟩
      exact (List.getElem?_append_left hlt).trans hproc
    · have hne : tx ≠ pid := fun hsame => hown (hsame ▸ rfl)
      obtain ⟨hacts, -⟩ := importStep_acts (hinv.procs tx other hother)
        hinv.below (hmeets other hother) hadvance
      refine ⟨htaken, ⟨proc, ?_, hphase, hcall⟩, fun id howner => ?_⟩
      · exact (List.getElem?_set_ne hne).trans hproc
      · rcases hacts.owner_kept howner with hsame | hold
        · exact hne hsame.symm
        · exact hbarred.idle id hold
    · by_cases hsame : tx = pid
      · subst hsame
        refine ⟨htaken, ⟨_, List.getElem?_set_self hlt, rfl, .inl rfl⟩, ?_⟩
        exact rollback_idle world.shared tx
      · refine ⟨htaken, ⟨proc, ?_, hphase, hcall⟩, fun id howner => ?_⟩
        · exact (List.getElem?_set_ne hsame).trans hproc
        · exact hbarred.idle id (RowStore.owner_of_released howner).2

theorem ImportInv.start {rows : Nat → Option ImportJobRow} {nextJob : Nat}
    {hbelow : ∀ id, rows id ≠ none → id < nextJob}
    (hsingle : ∀ first second,
      (rows first).any (·.status.isActive) = true →
      (rows second).any (·.status.isActive) = true → first = second) :
    ImportInv ⟨.start rows nextJob hbelow, []⟩ where
  single := by
    have hcommitted (id) (hactive : ActiveVersion
        (ImportShared.start rows nextJob hbelow).store id) :
        (rows id).any (·.status.isActive) = true :=
      hactive.resolve_right fun howned => absurd rfl howned.1
    intro first second hfirst hsecond
    exact hsingle first second (hcommitted first hfirst)
      (hcommitted second hsecond)
  below := fun id hid => hbelow id (hid.resolve_right fun howner => howner rfl)
  running := fun _ _ => nofun
  procs := fun _ _ => nofun

/-- In every run whose writes meet the condition, from a table with at most one
active job: at most one job is active, every step leaves each job as it was or
moves it on, and a run of a job that is not pending writes nothing. -/
theorem terminal_status_final {rows : Nat → Option ImportJobRow}
    {nextJob : Nat} {hbelow : ∀ id, rows id ≠ none → id < nextJob}
    (hsingle : ∀ first second,
      (rows first).any (·.status.isActive) = true →
      (rows second).any (·.status.isActive) = true → first = second)
    {world : ImportWorld}
    (hreach : GuardedReach (worldStep importRules) ImportWorld.Meets
      ⟨.start rows nextJob hbelow, []⟩ world) :
    (∀ first second,
      (world.shared.store.committed first).any (·.status.isActive) = true →
      (world.shared.store.committed second).any (·.status.isActive) = true →
      first = second) ∧
    (∀ event next, world.Meets event →
      worldStep importRules world event = some next → ∀ id,
        next.shared.store.committed id = world.shared.store.committed id ∨
          JobStep (world.shared.store.committed id)
            (next.shared.store.committed id)) ∧
    ∀ pid proc jobId attempts row, world.procs[pid]? = some proc →
      proc.call = .runImport jobId attempts → proc.phase = .begin →
      world.shared.store.committed jobId = some row →
      row.status ≠ .pending → ∀ later,
        GuardedReach (worldStep importRules) ImportWorld.Meets world later →
        ∀ next, ImportWorld.Meets later (.advance pid) →
          worldStep importRules later (.advance pid) = some next →
          next.shared.store.committed = later.shared.store.committed := by
  have hinv : ImportInv world :=
    hreach.invariant (ImportInv.start hsingle)
      fun _ _ _ hbefore hmeets hstep => hbefore.step hmeets hstep
  refine ⟨fun first second hfirst hsecond =>
    hinv.single first second (.inl hfirst) (.inl hsecond),
    fun event next hmeets hstep => hinv.step_job hmeets hstep, ?_⟩
  intro pid proc jobId attempts row hproc hcall hphase hrow hstatus later hlater
    next hmeets hstep
  have hbarred : Barred world pid jobId := by
    refine ⟨⟨row, hrow, hstatus⟩, ⟨proc, hproc, ?_, .inr ⟨attempts, hcall⟩⟩, ?_⟩
    · rw [hphase]
      rfl
    · exact (hinv.procs pid proc hproc).idle (by rw [hphase]; rfl)
  have hboth := @GuardedReach.invariant _ _ _ _
    (fun world => ImportInv world ∧ Barred world pid jobId) _ _ hlater
    ⟨hinv, hbarred⟩ fun _ _ _ hbefore hmeets hstep =>
      ⟨hbefore.1.step hmeets hstep, hbefore.2.step hbefore.1 hmeets hstep⟩
  exact (hboth.2.advance hmeets hstep).2

namespace ImportWitness

def server : OsProcess := ⟨"mail", 100⟩

def noRows : Nat → Option ImportJobRow := fun _ => none

def start : ImportWorld := ⟨.start noRows 1 (fun _ hid => absurd rfl hid), []⟩

def advances (pid count : Nat) : List ImportEvent :=
  List.replicate count (.advance pid)

/-- A job is created and imports its one message. -/
def importOne : List ImportEvent :=
  [.spawn ⟨server, .createJob, .begin, []⟩] ++ advances 0 3 ++
    [.spawn ⟨server, .runImport 1 3, .begin,
      [.ok, .ok, .ok, .ok, .message .inserted true]⟩] ++ advances 1 13

/-- It is run again, and the database refuses the connection. -/
def runAgain : List ImportEvent :=
  importOne ++ [.spawn ⟨server, .runImport 1 3, .begin,
    [.fails false "OperationalError: connection refused"]⟩] ++ advances 2 2

def outcome (world : ImportWorld) : Option (JobStatus × ImportCounters) :=
  (world.shared.store.committed 1).map fun row => (row.status, row.counters)

end ImportWitness

open ImportWitness in
theorem finished_job_fails_again :
    ∃ world next, Reach (worldStep importRules) start world ∧
      worldStep importRules world (.advance 2) = some next ∧
      outcome world = some (.completed, ⟨1, 1, 0, 0⟩) ∧
      outcome next = some (.failed, .zero) :=
  ⟨_, _, GuardedReach.of_replay runAgain rfl, rfl, rfl, rfl⟩

open ImportWitness in
theorem terminal_status_final_import_one :
    ∃ world, GuardedReach (worldStep importRules) ImportWorld.Meets start
        world ∧
      outcome world = some (.completed, ⟨1, 1, 0, 0⟩) ∧
      ∀ event next, ImportWorld.Meets world event →
        worldStep importRules world event = some next → ∀ id,
          next.shared.store.committed id = world.shared.store.committed id ∨
            JobStep (world.shared.store.committed id)
              (next.shared.store.committed id) := by
  have hreach : GuardedReach (worldStep importRules) ImportWorld.Meets start
      _ := GuardedReach.of_replay importOne rfl
  have hsingle : ∀ first second : Nat,
      (noRows first).any (·.status.isActive) = true →
      (noRows second).any (·.status.isActive) = true → first = second := nofun
  exact ⟨_, hreach, rfl, (terminal_status_final hsingle hreach).2.1⟩

end Localmail
