/-
What the plan of a reconcile does to the accounts that run: carrying it out
leads from any accounts to the desired ones, and no account is started while it
runs.
-/
import Localmail.DaemonLoop

namespace Localmail

namespace DaemonLoop

/-- Fingerprints as the reconcile changes them. -/
def RegistryOp.run (running : Nat → Option Int) : RegistryOp → Nat → Option Int
  | .teardown accountId => Function.update running accountId none
  | .spawn row => Function.update running row.id (some row.updatedAt)

def runOps (ops : List RegistryOp) (running : Nat → Option Int) :
    Nat → Option Int :=
  ops.foldl RegistryOp.run running

theorem lookup_desiredFingerprints {rows : List SyncableRow}
    (hdistinct : (rows.map SyncableRow.id).Nodup) (id : Nat) :
    (desiredFingerprints rows).lookup id =
      (rows.find? fun row => row.id = id).map SyncableRow.updatedAt := by
  induction rows with
  | nil => rfl
  | cons row rest ih =>
      rw [List.map_cons, List.nodup_cons] at hdistinct
      rw [desiredFingerprints, List.foldr_cons, ← desiredFingerprints,
        List.find?_cons]
      by_cases hsame : row.id = id
      · subst hsame
        rw [AList.lookup_insert]
        simp
      · rw [AList.lookup_insert_ne (Ne.symm hsame), ih hdistinct.2]
        simp [hsame]

theorem runOps_append (ops more : List RegistryOp)
    (running : Nat → Option Int) :
    runOps (ops ++ more) running = runOps more (runOps ops running) :=
  List.foldl_append

/-- Operations on one account each, for any number of accounts. -/
theorem runOps_flatMap {ops : Nat → List RegistryOp} {target : Nat → Option Int}
    {ids : List Nat}
    (hops : ∀ accountId ∈ ids, ∀ running, runOps (ops accountId) running =
      Function.update running accountId (target accountId))
    (running : Nat → Option Int) (id : Nat) :
    runOps (ids.flatMap ops) running id =
      if id ∈ ids then target id else running id := by
  induction ids generalizing running with
  | nil => rfl
  | cons first rest ih =>
      rw [List.flatMap_cons, runOps_append,
        ih fun other hother => hops other (List.mem_cons_of_mem first hother),
        hops first List.mem_cons_self]
      by_cases hrest : id ∈ rest
      · simp [hrest]
      · by_cases hsame : id = first
        · subst hsame
          simp
        · simp [hrest, hsame]

section Plan

variable {running : Fingerprints} {rows : List SyncableRow}

theorem mem_toSpawn {desired : Fingerprints} {id : Nat} :
    id ∈ (planReconcile running desired).toSpawn ↔
      id ∈ desired ∧ id ∉ running := by
  simp [planReconcile, AList.mem_keys]

theorem mem_toTeardown {desired : Fingerprints} {id : Nat} :
    id ∈ (planReconcile running desired).toTeardown ↔
      id ∈ running ∧ id ∉ desired := by
  simp [planReconcile, AList.mem_keys]

theorem mem_toRespawn {desired : Fingerprints} {id : Nat} :
    id ∈ (planReconcile running desired).toRespawn ↔
      id ∈ running ∧ id ∈ desired ∧ running.lookup id ≠ desired.lookup id := by
  simp [planReconcile, AList.mem_keys]

/-- How an account of the plan is started. -/
theorem runOps_spawn (hdistinct : (rows.map SyncableRow.id).Nodup)
    {accountId : Nat} (hdesired : accountId ∈ desiredFingerprints rows)
    (before : Nat → Option Int) :
    runOps ((rows.find? fun row => row.id = accountId).map .spawn).toList
      before = Function.update before accountId
        ((desiredFingerprints rows).lookup accountId) := by
  have hfind := lookup_desiredFingerprints hdistinct accountId
  rw [hfind]
  cases hrow : rows.find? fun row => row.id = accountId with
  | none =>
      rw [hrow] at hfind
      exact absurd hdesired (AList.lookup_eq_none.mp hfind)
  | some row =>
      have hid := List.find?_some hrow
      simp only [decide_eq_true_eq] at hid
      simp [runOps, RegistryOp.run, hid]

/-- What is left when only new accounts are still to be started. -/
theorem runOps_changes (hdistinct : (rows.map SyncableRow.id).Nodup) (id : Nat) :
    runOps
      ((planReconcile running (desiredFingerprints rows)).toTeardown.map
          .teardown ++
        (planReconcile running (desiredFingerprints rows)).toRespawn.flatMap
          fun id => .teardown id ::
            ((rows.find? fun row => row.id = id).map .spawn).toList)
      (fun id => running.lookup id) id =
      if id ∈ running then (desiredFingerprints rows).lookup id else none := by
  rw [runOps_append, List.map_eq_flatMap,
    @runOps_flatMap _ (fun id => (desiredFingerprints rows).lookup id),
    @runOps_flatMap _ (fun _ => none)]
  · simp only [mem_toTeardown, mem_toRespawn]
    by_cases hrunning : id ∈ running
    · by_cases hdesired : id ∈ desiredFingerprints rows
      · by_cases hsame : running.lookup id = (desiredFingerprints rows).lookup id
        · simp [hdesired, hrunning, hsame]
        · simp [hdesired, hrunning, hsame]
      · simp [hdesired, hrunning, AList.lookup_eq_none.mpr hdesired]
    · simp [hrunning, AList.lookup_eq_none.mpr hrunning]
  · intro accountId _ before
    rfl
  · intro accountId hmem before
    have hthen := runOps_spawn hdistinct (mem_toRespawn.mp hmem).2.1
      (Function.update before accountId none)
    rw [Function.update_idem] at hthen
    exact hthen

/-- Carrying out the plan leads to the desired accounts. -/
theorem runOps_planOps (hdistinct : (rows.map SyncableRow.id).Nodup) (id : Nat) :
    runOps (planOps (planReconcile running (desiredFingerprints rows)) rows)
      (fun id => running.lookup id) id = (desiredFingerprints rows).lookup id := by
  unfold planOps
  dsimp only
  rw [runOps_append,
    @runOps_flatMap _ (fun id => (desiredFingerprints rows).lookup id),
    runOps_changes hdistinct]
  · simp only [mem_toSpawn]
    by_cases hrunning : id ∈ running
    · simp [hrunning]
    · by_cases hdesired : id ∈ desiredFingerprints rows
      · simp [hrunning, hdesired]
      · simp [hrunning, hdesired, AList.lookup_eq_none.mpr hdesired]
  · intro accountId hmem before
    exact runOps_spawn hdistinct (mem_toSpawn.mp hmem).1 before

/-- No account is started while the registry has it. -/
def opsFresh : List RegistryOp → (Nat → Option Int) → Prop
  | [], _ => True
  | .teardown accountId :: rest, running =>
      opsFresh rest (Function.update running accountId none)
  | .spawn row :: rest, running =>
      running row.id = none ∧
        opsFresh rest (Function.update running row.id (some row.updatedAt))

theorem opsFresh_append (ops more : List RegistryOp)
    (running : Nat → Option Int) :
    opsFresh (ops ++ more) running ↔
      opsFresh ops running ∧ opsFresh more (runOps ops running) := by
  induction ops generalizing running with
  | nil => simp [opsFresh, runOps]
  | cons op rest ih =>
      cases op with
      | teardown accountId => exact ih _
      | spawn row =>
          simp only [List.cons_append, opsFresh, ih, and_assoc]
          rfl

theorem opsFresh_teardowns (ids : List Nat) (running : Nat → Option Int) :
    opsFresh (ids.map .teardown) running := by
  induction ids generalizing running with
  | nil => trivial
  | cons first rest ih => exact ih _

theorem opsFresh_spawn (accountId : Nat) {running : Nat → Option Int}
    (hnone : running accountId = none) :
    opsFresh ((rows.find? fun row => row.id = accountId).map .spawn).toList
      running := by
  cases hrow : rows.find? fun row => row.id = accountId with
  | none => trivial
  | some row =>
      have hid := List.find?_some hrow
      simp only [decide_eq_true_eq] at hid
      exact ⟨hid ▸ hnone, trivial⟩

theorem opsFresh_respawns (ids : List Nat) (running : Nat → Option Int) :
    opsFresh (ids.flatMap fun id => .teardown id ::
      ((rows.find? fun row => row.id = id).map .spawn).toList) running := by
  induction ids generalizing running with
  | nil => trivial
  | cons first rest ih =>
      rw [List.flatMap_cons, opsFresh_append]
      refine ⟨?_, ih _⟩
      exact opsFresh_spawn first (Function.update_self first none running)

theorem runOps_spawn_of_ne {accountId id : Nat} (hne : id ≠ accountId)
    (running : Nat → Option Int) :
    runOps ((rows.find? fun row => row.id = accountId).map .spawn).toList
      running id = running id := by
  cases hrow : rows.find? fun row => row.id = accountId with
  | none => rfl
  | some row =>
      have hid := List.find?_some hrow
      simp only [decide_eq_true_eq] at hid
      exact Function.update_of_ne (hid ▸ hne) _ _

theorem opsFresh_spawns {ids : List Nat} (hnodup : ids.Nodup)
    {running : Nat → Option Int} (hnone : ∀ id ∈ ids, running id = none) :
    opsFresh (ids.flatMap fun id =>
      ((rows.find? fun row => row.id = id).map .spawn).toList) running := by
  induction ids generalizing running with
  | nil => trivial
  | cons first rest ih =>
      rw [List.nodup_cons] at hnodup
      rw [List.flatMap_cons, opsFresh_append]
      refine ⟨opsFresh_spawn first (hnone first List.mem_cons_self),
        ih hnodup.2 fun id hid => ?_⟩
      have hne : id ≠ first := fun hsame => hnodup.1 (hsame ▸ hid)
      rw [runOps_spawn_of_ne hne]
      exact hnone id (List.mem_cons_of_mem first hid)

theorem opsFresh_planOps (hdistinct : (rows.map SyncableRow.id).Nodup) :
    opsFresh (planOps (planReconcile running (desiredFingerprints rows)) rows)
      fun id => running.lookup id := by
  unfold planOps
  dsimp only
  rw [opsFresh_append, opsFresh_append]
  refine ⟨⟨opsFresh_teardowns _ _, opsFresh_respawns _ _⟩, ?_⟩
  apply opsFresh_spawns
  · exact (List.perm_insertionSort _ _).nodup_iff.mpr
      ((AList.keys_nodup _).filter _)
  · intro id hid
    rw [runOps_changes hdistinct, if_neg (mem_toSpawn.mp hid).2]

end Plan

end DaemonLoop

end Localmail
