/-
Reuse of a refresh token.  Deleting a family goes by the rows its snapshot
shows, so a rotation of the family that commits between that snapshot and the
locks leaves its successor behind.  In every run without such a commit a token
has one successor at most, and nothing of a contained family comes back.
-/
import Localmail.RefreshFamily

namespace Localmail

namespace RefreshExchange

variable (exchange : RefreshExchange)

/-- The family whose deletion has taken its snapshot and still waits. -/
def deleting : Option Nat :=
  match exchange.phase with
  | .deletingFamily family _ => some family
  | _ => none

/-- The family all of whose refresh tokens it has deleted, uncommitted. -/
def locking : Option Nat :=
  match exchange.phase with
  | .purgeAccess family | .purgingAccess family _ | .finishReuse family =>
      some family
  | _ => none

/-- It has not locked the row. -/
def LockFree (key : Key) : Prop :=
  match exchange.phase, key with
  | .begin, _ | .rawState _, _ | .load _, _ | .claim _ _, _
  | .claiming _ _, _ | .reread _ _, _ | .deleteFamily _, _
  | .deletingFamily _ _, _ => True
  | .purgeAccess _, .token _ | .purgingAccess _ _, .token _ => True
  | _, _ => False

end RefreshExchange

/-- No rotation commits while a deletion of its family waits for locks. -/
def RotationsSeen (world : RefreshWorld) :
    WorldEvent RefreshExchange Outside → Prop
  | .advance pid =>
      match world.procs[pid]? with
      | some ⟨_, _, .finish _ row _ _⟩ =>
          ∀ other ∈ world.procs, other.deleting ≠ some row.family
      | _ => True
  | .outside _ | .spawn _ | .crash _ => True

instance (world : RefreshWorld) (event : WorldEvent RefreshExchange Outside) :
    Decidable (RotationsSeen world event) := by
  unfold RotationsSeen
  split
  · split <;> infer_instance
  all_goals infer_instance

/-- The row is stored and of the family. -/
def StoredIn (shared : Shared) (family : Nat) (key : Key) : Prop :=
  ∃ row, shared.store.committed key = some row ∧ OfFamily family key row

structure ContainmentInv (shared : Shared) (pid : Nat)
    (exchange : RefreshExchange) : Prop where
  lockFree : ∀ key, exchange.LockFree key →
    shared.store.owner key ≠ some pid
  covers : ∀ family candidates,
    exchange.phase = .deletingFamily family candidates →
    ∀ token, StoredIn shared family (.refresh token) →
      Key.refresh token ∈ candidates
  locked : ∀ family, exchange.locking = some family →
    ∀ token, StoredIn shared family (.refresh token) →
      shared.store.owner (.refresh token) = some pid
  coversAccess : ∀ family candidates,
    exchange.phase = .purgingAccess family candidates →
    ∀ token, StoredIn shared family (.token token) →
      Key.token token ∈ candidates
  lockedAccess : ∀ family, exchange.phase = .finishReuse family →
    ∀ token, StoredIn shared family (.token token) →
      shared.store.owner (.token token) = some pid
  contained : ∀ family, exchange.phase = .reuse family →
    ∀ key, ¬ StoredIn shared family key

section Steps

variable {config : CredentialConfig} {pid : Nat} {shared next : Shared}
  {exchange after : RefreshExchange}

/-- Nothing that respects its locks and adds nothing to the family it deletes
disturbs a containment. -/
theorem ContainmentInv.transfer (hinv : ContainmentInv shared pid exchange)
    (hundisturbed : RowStore.Undisturbed pid shared.store next.store)
    (hnothing : ∀ family key,
      (exchange.deleting = some family ∨ exchange.locking = some family ∨
        exchange.phase = .reuse family) →
      StoredIn next family key → StoredIn shared family key) :
    ContainmentInv next pid exchange where
  lockFree := fun key hfree howner =>
    hinv.lockFree key hfree ((hundisturbed.owner key).mp howner)
  covers := by
    intro family candidates hphase token hstored
    refine hinv.covers family candidates hphase token (hnothing family _ ?_ hstored)
    exact Or.inl (by simp [RefreshExchange.deleting, hphase])
  locked := by
    intro family hlocking token hstored
    refine (hundisturbed.owner _).mpr (hinv.locked family hlocking token ?_)
    exact hnothing family _ (Or.inr (Or.inl hlocking)) hstored
  coversAccess := by
    intro family candidates hphase token hstored
    refine hinv.coversAccess family candidates hphase token
      (hnothing family _ ?_ hstored)
    exact Or.inr (Or.inl (by simp [RefreshExchange.locking, hphase]))
  lockedAccess := by
    intro family hphase token hstored
    refine (hundisturbed.owner _).mpr (hinv.lockedAccess family hphase token ?_)
    refine hnothing family _ (Or.inr (Or.inl ?_)) hstored
    simp [RefreshExchange.locking, hphase]
  contained := fun family hphase key hstored =>
    hinv.contained family hphase key
      (hnothing family key (Or.inr (Or.inr hphase)) hstored)

/-- An exchange that deletes nothing. -/
theorem ContainmentInv.of_not_deleting
    (hlockFree : ∀ key, after.LockFree key → shared.store.owner key ≠ some pid)
    (hdeleting : after.deleting = none) (hlocking : after.locking = none)
    (hreuse : ∀ family, after.phase ≠ .reuse family) :
    ContainmentInv shared pid after where
  lockFree := hlockFree
  covers := by
    intro family candidates hphase
    simp [RefreshExchange.deleting, hphase] at hdeleting
  locked := by simp [hlocking]
  coversAccess := by
    intro family candidates hphase
    simp [RefreshExchange.locking, hphase] at hlocking
  lockedAccess := by
    intro family hphase
    simp [RefreshExchange.locking, hphase] at hlocking
  contained := fun family hphase => absurd hphase (hreuse family)

/-- A row that is stored and not locked by the transaction itself is a
candidate of its scan. -/
theorem mem_scan {chosen : (key : Key) → CredentialRow key → Bool} {key : Key}
    {row : CredentialRow key} (hcommitted : shared.store.committed key = some row)
    (howner : shared.store.owner key ≠ some pid)
    (hchosen : chosen key row = true) :
    key ∈ shared.store.scan pid chosen := by
  refine RowStore.mem_matching.mpr ⟨shared.store.covered key ?_, row, ?_, hchosen⟩
  · exact Or.inl (by simp [hcommitted])
  · rw [RowStore.view_of_not_owner howner]
    exact hcommitted

theorem committed_of_deleteChosen
    {chosen : (key : Key) → CredentialRow key → Bool} {candidates : List Key}
    {store : CredentialStore}
    (hdeleted : shared.store.deleteChosen pid chosen candidates = some store) :
    store.committed = shared.store.committed := by
  obtain ⟨-, rfl⟩ := deleteChosen_eq_some hdeleted
  rfl

/-- A candidate that is still stored gets locked. -/
theorem owner_of_deleteChosen
    {chosen : (key : Key) → CredentialRow key → Bool} {candidates : List Key}
    {store : CredentialStore}
    (hdeleted : shared.store.deleteChosen pid chosen candidates = some store)
    {key : Key} {row : CredentialRow key} (hcandidate : key ∈ candidates)
    (hcommitted : shared.store.committed key = some row)
    (howner : shared.store.owner key ≠ some pid)
    (hchosen : chosen key row = true) : store.owner key = some pid := by
  obtain ⟨-, rfl⟩ := deleteChosen_eq_some hdeleted
  refine if_pos (RowStore.mem_matching.mpr ⟨hcandidate, row, ?_, hchosen⟩)
  rw [RowStore.view_of_not_owner howner]
  exact hcommitted

/-- A row that does not match is not locked. -/
theorem owner_of_deleteChosen_eq_false
    {chosen : (key : Key) → CredentialRow key → Bool} {candidates : List Key}
    {store : CredentialStore}
    (hdeleted : shared.store.deleteChosen pid chosen candidates = some store)
    {key : Key} (hchosen : ∀ row, chosen key row = false) :
    store.owner key = shared.store.owner key := by
  obtain ⟨-, rfl⟩ := deleteChosen_eq_some hdeleted
  refine if_neg ?_
  intro hmem
  obtain ⟨-, row, -, hmatch⟩ := RowStore.mem_matching.mp hmem
  rw [hchosen row] at hmatch
  cases hmatch

theorem OfFamily.unique {family other : Nat} {key : Key}
    {row : CredentialRow key} (hfamily : OfFamily family key row)
    (hother : OfFamily other key row) : family = other := by
  cases key with
  | refresh token => exact hfamily.symm.trans hother
  | token token => exact Option.some.inj (hfamily.symm.trans hother)
  | user id | code code => exact hfamily.elim

theorem ContainmentInv.advance (hinv : ContainmentInv shared pid exchange)
    (hrotation : RotationInv shared pid exchange)
    (hstep : refreshStep config pid shared exchange = some (next, after)) :
    ContainmentInv next pid after := by
  obtain ⟨token, clientId, phase⟩ := exchange
  have hmoved : ∀ phase, RefreshExchange.deleting ⟨token, clientId, phase⟩ = none →
      RefreshExchange.locking ⟨token, clientId, phase⟩ = none →
      (∀ family, phase ≠ .reuse family) →
      (∀ key, shared.store.owner key ≠ some pid) →
      ContainmentInv shared pid ⟨token, clientId, phase⟩ :=
    fun phase hdeleting hlocking hreuse hfree =>
      .of_not_deleting (fun key _ => hfree key) hdeleting hlocking hreuse
  have hrotating : ∀ shared phase, (∀ key, ¬ RefreshExchange.LockFree ⟨token, clientId, phase⟩ key) →
      RefreshExchange.deleting ⟨token, clientId, phase⟩ = none →
      RefreshExchange.locking ⟨token, clientId, phase⟩ = none →
      (∀ family, phase ≠ .reuse family) →
      ContainmentInv shared pid ⟨token, clientId, phase⟩ :=
    fun shared phase hheld hdeleting hlocking hreuse =>
      .of_not_deleting (fun key hfree => absurd hfree (hheld key)) hdeleting
        hlocking hreuse
  have hstopped : ContainmentInv (shared.rollback pid) pid ⟨token, clientId, .stopped⟩ :=
    hrotating _ _ (fun _ => id) rfl rfl (by rintro _ ⟨⟩)
  cases phase <;> simp only [refreshStep] at hstep
  case begin =>
    cases hstep
    exact hmoved _ rfl rfl (by rintro _ ⟨⟩) fun key =>
      hinv.lockFree key trivial
  case rawState now =>
    have hfree : ∀ key, shared.store.owner key ≠ some pid :=
      fun key => hinv.lockFree key trivial
    repeat' split at hstep
    all_goals
      cases hstep
      first
        | exact hstopped
        | exact hmoved _ rfl rfl (by rintro _ ⟨⟩) hfree
  case load now =>
    split at hstep
    · cases hstep
      exact hstopped
    · cases hstep
      exact hmoved _ rfl rfl (by rintro _ ⟨⟩) fun key =>
        hinv.lockFree key trivial
  case claim now row =>
    cases hstep
    split
    all_goals exact hmoved _ rfl rfl (by rintro _ ⟨⟩) fun key =>
      hinv.lockFree key trivial
  case claiming now row =>
    have hfree : ∀ key, shared.store.owner key ≠ some pid :=
      fun key => hinv.lockFree key trivial
    repeat' split at hstep
    all_goals
      cases hstep
      try first
        | exact hmoved _ rfl rfl (by rintro _ ⟨⟩) hfree
        | exact hrotating _ _ (fun _ => id) rfl rfl (by rintro _ ⟨⟩)
  case reread now row =>
    have hfree : ∀ key, shared.store.owner key ≠ some pid :=
      fun key => hinv.lockFree key trivial
    repeat' split at hstep
    all_goals
      cases hstep
      first
        | exact hstopped
        | exact hmoved _ rfl rfl (by rintro _ ⟨⟩) hfree
  case mint | sweep | finish =>
    cases hstep
    exact hrotating _ _ (fun _ => id) rfl rfl (by rintro _ ⟨⟩)
  case sweeping | loadNew | mintAccess =>
    split at hstep
    all_goals
      cases hstep
      try exact hrotating _ _ (fun _ => id) rfl rfl (by rintro _ ⟨⟩)
  case deleteFamily family =>
    cases hstep
    have hfree : ∀ key, shared.store.owner key ≠ some pid :=
      fun key => hinv.lockFree key trivial
    refine ⟨fun key _ => hfree key, ?_, by rintro _ ⟨⟩, by rintro _ _ ⟨⟩,
      by rintro _ ⟨⟩, by rintro _ ⟨⟩⟩
    rintro _ _ ⟨⟩ other ⟨row, hcommitted, hrow⟩
    exact mem_scan hcommitted (hfree _) (decide_eq_true hrow)
  case deletingFamily family candidates =>
    split at hstep
    · cases hstep
    · rename_i store hdeleted
      cases hstep
      have hcommitted := committed_of_deleteChosen hdeleted
      refine ⟨?_, by rintro _ _ ⟨⟩, ?_, by rintro _ _ ⟨⟩, by rintro _ ⟨⟩,
        by rintro _ ⟨⟩⟩
      · intro key hfree
        cases key with
        | token other =>
            rw [owner_of_deleteChosen_eq_false hdeleted fun _ => rfl]
            exact hinv.lockFree _ trivial
        | user | code | refresh => exact hfree.elim
      · rintro _ ⟨⟩ other ⟨row, hrow, hfamily⟩
        simp only [hcommitted] at hrow
        exact owner_of_deleteChosen hdeleted
          (hinv.covers family candidates rfl other ⟨row, hrow, hfamily⟩) hrow
          (hinv.lockFree _ trivial) (decide_eq_true hfamily)
  case purgeAccess family =>
    cases hstep
    refine ⟨?_, by rintro _ _ ⟨⟩, hinv.locked, ?_, by rintro _ ⟨⟩,
      by rintro _ ⟨⟩⟩
    · intro key hfree
      cases key with
      | token other => exact hinv.lockFree _ trivial
      | user | code | refresh => exact hfree.elim
    · rintro _ _ ⟨⟩ other ⟨row, hcommitted, hrow⟩
      exact mem_scan hcommitted (hinv.lockFree _ trivial) (decide_eq_true hrow)
  case purgingAccess family candidates =>
    split at hstep
    · cases hstep
    · rename_i store hdeleted
      cases hstep
      have hcommitted := committed_of_deleteChosen hdeleted
      refine ⟨fun _ => False.elim, by rintro _ _ ⟨⟩, ?_, by rintro _ _ ⟨⟩, ?_,
        by rintro _ ⟨⟩⟩
      · rintro _ ⟨⟩ other ⟨row, hrow, hfamily⟩
        simp only [hcommitted] at hrow
        rw [owner_of_deleteChosen_eq_false hdeleted fun _ => rfl]
        exact hinv.locked family rfl other ⟨row, hrow, hfamily⟩
      · rintro _ ⟨⟩ other ⟨row, hrow, hfamily⟩
        simp only [hcommitted] at hrow
        exact owner_of_deleteChosen hdeleted
          (hinv.coversAccess family candidates rfl other ⟨row, hrow, hfamily⟩)
          hrow (hinv.lockFree _ trivial) (decide_eq_true hfamily)
  case finishReuse family =>
    cases hstep
    refine ⟨fun _ => False.elim, by rintro _ _ ⟨⟩, by rintro _ ⟨⟩,
      by rintro _ _ ⟨⟩, by rintro _ ⟨⟩, ?_⟩
    rintro _ ⟨⟩ key ⟨row, hrow, hfamily⟩
    have hunlocked : shared.store.owner key ≠ some pid := by
      intro howner
      obtain ⟨claimed, hclaimed, -⟩ := hrotation.own key row howner
        ((RowStore.view_of_owner howner).symm.trans hrow)
      cases hclaimed
    have hstored : StoredIn shared family key :=
      ⟨row, (RowStore.view_of_not_owner hunlocked).symm.trans hrow, hfamily⟩
    cases key with
    | refresh other => exact hunlocked (hinv.locked family rfl other hstored)
    | token other => exact hunlocked (hinv.lockedAccess family rfl other hstored)
    | user | code => exact hfamily.elim
  case rotated | reuse | stopped => cases hstep

/-- An exchange commits as its last step: a rotation, or a containment. -/
theorem refreshStep_commits
    (hstep : refreshStep config pid shared exchange = some (next, after)) :
    (next.store.committed = shared.store.committed ∧
      ∀ successor access, after.phase ≠ .rotated successor access) ∨
    next = shared.commit pid ∧
      ((∃ now row successor access,
        exchange.phase = .finish now row successor access) ∨
      ∃ family, exchange.phase = .finishReuse family ∧
        after.phase = .reuse family) := by
  obtain ⟨token, clientId, phase⟩ := exchange
  cases phase <;> simp only [refreshStep] at hstep
  case finish now row successor access =>
    cases hstep
    exact Or.inr ⟨rfl, Or.inl ⟨now, row, successor, access, rfl⟩⟩
  case finishReuse family =>
    cases hstep
    exact Or.inr ⟨rfl, Or.inr ⟨family, rfl, rfl⟩⟩
  case claim =>
    cases hstep
    refine Or.inl ⟨rfl, ?_⟩
    split <;> rintro _ _ ⟨⟩
  case begin | mint | sweep | deleteFamily | purgeAccess =>
    cases hstep
    exact Or.inl ⟨rfl, by rintro _ _ ⟨⟩⟩
  case sweeping | deletingFamily | purgingAccess =>
    split at hstep
    · cases hstep
    · rename_i store hdeleted
      cases hstep
      exact Or.inl ⟨committed_of_deleteChosen hdeleted, by rintro _ _ ⟨⟩⟩
  case rawState | load | claiming | reread | loadNew | mintAccess =>
    repeat' split at hstep
    all_goals
      cases hstep
      try exact Or.inl ⟨rfl, by rintro _ _ ⟨⟩⟩
  case rotated | reuse | stopped => cases hstep

theorem refreshStep_token
    (hstep : refreshStep config pid shared exchange = some (next, after)) :
    after.token = exchange.token := by
  obtain ⟨token, clientId, phase⟩ := exchange
  cases phase <;> simp only [refreshStep] at hstep
  case begin | claim | mint | sweep | finish | deleteFamily | purgeAccess
    | finishReuse =>
    cases hstep
    rfl
  case rotated | reuse | stopped => cases hstep
  all_goals
    repeat' split at hstep
    all_goals
      cases hstep
      try rfl

/-- A family grows only by the commit of a rotation of it. -/
theorem storedIn_of_refreshStep (hinv : RotationInv shared pid exchange)
    (hstep : refreshStep config pid shared exchange = some (next, after))
    {family : Nat} {key : Key} (hstored : StoredIn next family key) :
    StoredIn shared family key ∨
      ∃ now row successor access,
        exchange.phase = .finish now row successor access ∧
          row.family = family := by
  obtain ⟨row, hrow, hfamily⟩ := hstored
  rcases refreshStep_commits hstep with ⟨hsame, -⟩ | ⟨rfl, hwhich⟩
  · exact Or.inl ⟨row, hsame ▸ hrow, hfamily⟩
  · by_cases howner : shared.store.owner key = some pid
    · obtain ⟨claimed, hclaimed, hof⟩ := hinv.own key row howner
        ((RowStore.view_of_owner howner).symm.trans hrow)
      obtain rfl := hfamily.unique hof
      rcases hwhich with ⟨now, loaded, successor, access, hphase⟩ |
        ⟨contained, hphase, -⟩
      · simp only [RefreshExchange.rotating, hphase] at hclaimed
        exact Or.inr ⟨now, loaded, successor, access, hphase,
          Option.some.inj hclaimed⟩
      · simp [RefreshExchange.rotating, hphase] at hclaimed
    · exact Or.inl ⟨row, (RowStore.view_of_not_owner howner).symm.trans hrow,
        hfamily⟩

end Steps

/-! ### Every interleaving -/

structure FamiliesInv (world : RefreshWorld) : Prop extends
    StoreInv world where
  families : Families world.shared
  rotations : ∀ (pid : Nat) (exchange : RefreshExchange),
    world.procs[pid]? = some exchange → RotationInv world.shared pid exchange
  containments : ∀ (pid : Nat) (exchange : RefreshExchange),
    world.procs[pid]? = some exchange →
    ContainmentInv world.shared pid exchange
  unique : ∀ (pid other : Nat) (first second : RefreshExchange)
    (successor access successor' access' : Nat),
    world.procs[pid]? = some first → world.procs[other]? = some second →
    first.phase = .rotated successor access →
    second.phase = .rotated successor' access' →
    first.token = second.token → pid = other

theorem familiesInv_empty : FamiliesInv ⟨.empty, []⟩ where
  toStoreInv := storeInv_empty
  families := fun token hused => absurd hused (Nat.not_lt_zero token)
  rotations := by simp
  containments := by simp
  unique := by simp

section World

variable {config : CredentialConfig} {pid : Nat} {next : Shared}
  {exchange after : RefreshExchange} {world : RefreshWorld}

/-- A rotation that may commit is of no family that is being contained, or has
been. -/
theorem FamiliesInv.not_contained (hinv : FamiliesInv world)
    (hmeets : RotationsSeen world (.advance pid))
    (hproc : world.procs[pid]? = some exchange) {now successor access : Nat}
    {row : RefreshRow}
    (hphase : exchange.phase = .finish now row successor access) {other : Nat}
    {second : RefreshExchange} (hother : world.procs[other]? = some second)
    (hne : other ≠ pid) :
    ¬ (second.deleting = some row.family ∨ second.locking = some row.family ∨
      second.phase = .reuse row.family) := by
  obtain ⟨token, clientId, phase⟩ := exchange
  obtain rfl : phase = .finish now row successor access := hphase
  obtain ⟨howner, -, claimed, hcommitted, -, hfamily⟩ :=
    (hinv.rotations pid _ hproc).claimed row.family rfl
  have hstored : StoredIn world.shared row.family (.refresh token) :=
    ⟨claimed, hcommitted, hfamily⟩
  have hcontainment := hinv.containments other second hother
  rintro (hdeleting | hlocking | hreuse)
  · simp only [RotationsSeen, hproc] at hmeets
    exact hmeets second (List.mem_of_getElem? hother) hdeleting
  · have hlocked := hcontainment.locked _ hlocking token hstored
    rw [howner] at hlocked
    exact hne (Option.some.inj hlocked).symm
  · exact hcontainment.contained _ hreuse _ hstored

/-- Families keep their names when an exchange inserts. -/
theorem FamiliesInv.families_advance (hinv : FamiliesInv world)
    (hmoved : RotationInv next pid after)
    (hstep : refreshStep config pid world.shared exchange = some (next, after)) :
    Families next := by
  have hacts := refreshStep_acts hstep
  intro token hused
  by_cases hold : token < world.shared.fresh
  · obtain ⟨family, hfamily⟩ := hinv.families token hold
    exact ⟨family, hfamily.acts hacts⟩
  · -- the newest secret: whatever is under it was inserted by this step
    have hnone := hinv.unused (.refresh token) token rfl (by omega)
    have hcommitted : next.store.committed (.refresh token) = none := by
      rcases hacts.committed_eq (.refresh token) with hsame | rfl
      · exact hsame.trans hnone.1
      · exact absurd hused hold
    by_cases howner : next.store.owner (.refresh token) = some pid
    · cases hdirty : next.store.dirty (.refresh token) with
      | none =>
          refine ⟨token, hused, hused, ?_, ?_⟩
          · simp [hcommitted]
          · simp [hdirty]
      | some row =>
          obtain ⟨family, hrotating, hfamily⟩ := hmoved.own _ row howner hdirty
          have hbefore : ∃ loaded, after.loaded = some loaded ∧
              family = loaded.family := by
            obtain ⟨_, _, phase⟩ := after
            cases phase <;> cases hrotating <;> exact ⟨_, rfl, rfl⟩
          obtain ⟨loaded, hloaded, rfl⟩ := hbefore
          refine ⟨loaded.family, hused, (hmoved.loaded loaded hloaded).familyUsed,
            ?_, ?_⟩
          · simp [hcommitted]
          · intro version _ hversion
            obtain rfl := Option.some.inj (hdirty.symm.trans hversion)
            exact hfamily
    · have hunowned : next.store.owner (.refresh token) = none := by
        cases hwho : next.store.owner (.refresh token) with
        | none => rfl
        | some other =>
            rcases hacts.owner_cases hwho with rfl | hbefore
            · exact absurd hwho howner
            · rw [hnone.2] at hbefore
              cases hbefore
      refine ⟨token, hused, hused, ?_, ?_⟩
      · simp [hcommitted]
      · simp [hunowned]

theorem FamiliesInv.advance (hinv : FamiliesInv world)
    (hmeets : RotationsSeen world (.advance pid))
    (hproc : world.procs[pid]? = some exchange)
    (hstore : StoreInv ⟨next, world.procs.set pid after⟩)
    (hstep : refreshStep config pid world.shared exchange = some (next, after)) :
    FamiliesInv ⟨next, world.procs.set pid after⟩ := by
  have hacts := refreshStep_acts hstep
  have hmine := hinv.rotations pid exchange hproc
  have hmoved := hmine.advance hinv.unused hinv.families hstep
  -- a rotation that just committed held the live row of its token
  have hlive : ∀ successor access, after.phase = .rotated successor access →
      ∃ row, world.shared.store.committed (.refresh exchange.token) = some row ∧
        row.consumedAt = none := by
    intro successor access hrotated
    rcases refreshStep_commits hstep with ⟨-, hnot⟩ | ⟨-, hwhich⟩
    · exact absurd hrotated (hnot successor access)
    · rcases hwhich with ⟨now, row, _, _, hphase⟩ | ⟨family, -, hreuse⟩
      · obtain ⟨-, -, claimed, hcommitted, hconsumed, -⟩ :=
          hmine.claimed row.family (by simp [RefreshExchange.rotating, hphase])
        exact ⟨claimed, hcommitted, hconsumed⟩
      · rw [hreuse] at hrotated
        cases hrotated
  have hapart : ∀ (other : Nat) (second : RefreshExchange) (successor access
      successor' access' : Nat), world.procs[other]? = some second →
      second.phase = .rotated successor access →
      after.phase = .rotated successor' access' →
      second.token ≠ after.token := by
    intro other second successor access successor' access' hother hsecond hafter
      hsame
    obtain ⟨row, hcommitted, hconsumed⟩ := hlive successor' access' hafter
    have hspent := (hinv.rotations other second hother).rotated _ _ hsecond
    rw [hsame, refreshStep_token hstep] at hspent
    have hdead := hspent.versions.committed row hcommitted
    simp [hconsumed] at hdead
  refine ⟨hstore, hinv.families_advance hmoved hstep, ?_, ?_, ?_⟩
  · intro other second hother
    rcases procs_set_cases hother with ⟨rfl, rfl⟩ | ⟨hne, hold⟩
    · exact hmoved
    · exact (hinv.rotations other second hold).transfer
        (hacts.undisturbed hinv.unused hne) hacts.fresh_le
        (fun token family hfamily => hfamily.acts hacts)
        (fun token hspent => hspent.acts hacts)
  · intro other second hother
    rcases procs_set_cases hother with ⟨rfl, rfl⟩ | ⟨hne, hold⟩
    · exact (hinv.containments other exchange hproc).advance hmine hstep
    · refine (hinv.containments other second hold).transfer
        (hacts.undisturbed hinv.unused hne) ?_
      intro family key hwhere hstored
      rcases storedIn_of_refreshStep hmine hstep hstored with
        hbefore | ⟨now, row, successor, access, hphase, rfl⟩
      · exact hbefore
      · exact absurd hwhere (hinv.not_contained hmeets hproc hphase hold hne)
  · intro first second one two successor access successor' access' hfirst
      hsecond hone htwo hsame
    rcases procs_set_cases hfirst with ⟨rfl, rfl⟩ | ⟨-, hold⟩ <;>
      rcases procs_set_cases hsecond with ⟨rfl, rfl⟩ | ⟨-, hother⟩
    · rfl
    · exact absurd hsame.symm (hapart second two _ _ _ _ hother htwo hone)
    · exact absurd hsame (hapart first one _ _ _ _ hold hone htwo)
    · exact hinv.unique first second one two _ _ _ _ hold hother hone htwo hsame

/-- What a grant stores is of a new family. -/
theorem storedIn_of_outside {shared : Shared} {change : Outside}
    (houtside : (refreshRules config).outside shared change = some next)
    {family : Nat} {key : Key} (hstored : StoredIn next family key) :
    StoredIn shared family key ∨ family = shared.fresh := by
  obtain ⟨hhappens, hchange⟩ := credentialRules_outside houtside
  obtain ⟨row, hrow, hfamily⟩ := hstored
  rcases outside_committed hchange key with hsame | hnone | hwrites
  · exact Or.inl ⟨row, hsame ▸ hrow, hfamily⟩
  · rw [hnone] at hrow
    cases hrow
  · cases change with
    | tick | deleteUser => exact hwrites.elim
    | setUser id user =>
        obtain rfl : key = .user id := hwrites
        exact hfamily.elim
    | grant userId clientId createdAt refreshExpiresAt accessExpiresAt =>
        obtain ⟨middle, hfirst, hsecond⟩ := Option.bind_eq_some_iff.mp hchange
        have hsecondRow := installFresh_committed_self hsecond
        have hkept : next.store.committed (.refresh shared.fresh) =
            middle.store.committed (.refresh shared.fresh) :=
          installFresh_committed hsecond nofun
        have hfirstRow := installFresh_committed_self hfirst
        obtain ⟨-, -, store, -, rfl⟩ := installFresh_eq_some hfirst
        rcases hwrites with rfl | rfl
        · rw [hkept, hfirstRow] at hrow
          obtain rfl := Option.some.inj hrow
          exact Or.inr hfamily.symm
        · rw [hsecondRow] at hrow
          obtain rfl := Option.some.inj hrow
          exact Or.inr (Option.some.inj hfamily).symm
    | login | consent => cases hhappens

theorem FamiliesInv.outside (hinv : FamiliesInv world) {shared : Shared}
    {change : Outside} (hstore : StoreInv { world with shared := shared })
    (houtside : (refreshRules config).outside world.shared change =
      some shared) :
    FamiliesInv { world with shared := shared } := by
  have hchange := (credentialRules_outside houtside).2
  have hsettles := outside_settles hchange
  refine ⟨hstore, ?_, ?_, ?_, hinv.unique⟩
  · intro token hused
    by_cases hold : token < world.shared.fresh
    · obtain ⟨family, hfamily⟩ := hinv.families token hold
      exact ⟨family, hfamily.settles hsettles⟩
    · have hnone := hinv.unused (.refresh token) token rfl (by omega)
      refine ⟨world.shared.fresh, hused, by simp only at hused ⊢; omega, ?_, ?_⟩
      · intro row hrow
        have hstored : StoredIn shared row.family (.refresh token) :=
          ⟨row, hrow, rfl⟩
        rcases storedIn_of_outside houtside hstored with ⟨_, hbefore, -⟩ | hnew
        · rw [hnone.1] at hbefore
          cases hbefore
        · exact hnew
      · intro row howner
        simp only [hsettles.owner, hnone.2, ne_eq, not_true] at howner
  · intro pid exchange hproc
    exact (hinv.rotations pid exchange hproc).transfer
      (hsettles.undisturbed pid) hsettles.fresh
      (fun token family hfamily => hfamily.settles hsettles)
      (fun token hspent => hspent.settles hsettles)
  · intro pid exchange hproc
    refine (hinv.containments pid exchange hproc).transfer
      (hsettles.undisturbed pid) ?_
    intro family key hwhere hstored
    rcases storedIn_of_outside houtside hstored with hbefore | rfl
    · exact hbefore
    · have hcontaining : exchange.containing = some world.shared.fresh := by
        obtain ⟨_, _, phase⟩ := exchange
        rcases hwhere with hwhere | hwhere | hwhere <;> cases phase <;>
          first
            | exact hwhere
            | cases hwhere
        rfl
      exact absurd ((hinv.rotations pid exchange hproc).containing _ hcontaining)
        (Nat.lt_irrefl _)

theorem FamiliesInv.spawn (hinv : FamiliesInv world)
    {started : RefreshExchange}
    (hstore : StoreInv { world with procs := world.procs ++ [started] })
    (hphase : started.phase = .begin) :
    FamiliesInv { world with procs := world.procs ++ [started] } := by
  obtain ⟨token, clientId, phase⟩ := started
  obtain rfl : phase = .begin := hphase
  refine ⟨hstore, hinv.families, ?_, ?_, ?_⟩
  · intro other second hother
    rcases procs_append_cases hother with ⟨rfl, rfl⟩ | hold
    · exact .of_unlocked hinv.owner_length rfl rfl rfl nofun nofun
    · exact hinv.rotations other second hold
  · intro other second hother
    rcases procs_append_cases hother with ⟨rfl, rfl⟩ | hold
    · exact .of_not_deleting (fun key _ => hinv.owner_length key) rfl rfl nofun
    · exact hinv.containments other second hold
  · intro first second one two successor access successor' access' hfirst
      hsecond hone htwo hsame
    rcases procs_append_cases hfirst with ⟨-, rfl⟩ | hold
    · cases hone
    · rcases procs_append_cases hsecond with ⟨-, rfl⟩ | hother
      · cases htwo
      · exact hinv.unique first second one two _ _ _ _ hold hother hone htwo
          hsame

theorem FamiliesInv.crash (hinv : FamiliesInv world)
    (hstore : StoreInv (⟨world.shared.rollback pid,
      world.procs.set pid (refreshRules config).stopped⟩ : RefreshWorld)) :
    FamiliesInv ⟨world.shared.rollback pid,
      world.procs.set pid (refreshRules config).stopped⟩ := by
  have hacts : Acts pid world.shared (world.shared.rollback pid) := .rollback
  refine ⟨hstore, ?_, ?_, ?_, ?_⟩
  · intro token hused
    obtain ⟨family, hfamily⟩ := hinv.families token hused
    exact ⟨family, hfamily.acts hacts⟩
  · intro other second hother
    rcases procs_set_cases hother with ⟨rfl, rfl⟩ | ⟨hne, hold⟩
    · exact .of_unlocked owner_rollback_ne rfl rfl rfl nofun nofun
    · exact (hinv.rotations other second hold).transfer
        (hacts.undisturbed hinv.unused hne) hacts.fresh_le
        (fun token family hfamily => hfamily.acts hacts)
        (fun token hspent => hspent.acts hacts)
  · intro other second hother
    rcases procs_set_cases hother with ⟨rfl, rfl⟩ | ⟨hne, hold⟩
    · exact .of_not_deleting (fun key => False.elim) rfl rfl nofun
    · exact (hinv.containments other second hold).transfer
        (hacts.undisturbed hinv.unused hne) fun _ _ _ hstored => hstored
  · intro first second one two successor access successor' access' hfirst
      hsecond hone htwo hsame
    rcases procs_set_cases hfirst with ⟨-, rfl⟩ | ⟨-, hold⟩
    · cases hone
    · rcases procs_set_cases hsecond with ⟨-, rfl⟩ | ⟨-, hother⟩
      · cases htwo
      · exact hinv.unique first second one two _ _ _ _ hold hother hone htwo
          hsame

theorem FamiliesInv.step {later : RefreshWorld}
    {event : WorldEvent RefreshExchange Outside} (hinv : FamiliesInv world)
    (hmeets : RotationsSeen world event)
    (hstep : worldStep (refreshRules config) world event = some later) :
    FamiliesInv later := by
  have hstore : StoreInv later :=
    hinv.toStoreInv.step
      (credentialRules_table fun _ _ _ _ _ => refreshStep_acts) hstep
  rcases worldStep_cases hstep with
    ⟨change, shared, -, houtside, rfl⟩ | ⟨started, -, hinitial, rfl⟩ |
    ⟨pid, proc, shared, moved, rfl, hproc, hadvance, rfl⟩ |
    ⟨pid, proc, -, hproc, -, rfl⟩
  · exact hinv.outside hstore houtside
  · exact hinv.spawn hstore (of_decide_eq_true hinitial)
  · exact hinv.advance hmeets hproc hstore hadvance
  · exact hinv.crash hstore

end World

/-- A token has one successor at most, and of a contained family no refresh
token is live and no access token is let in. -/
def ReuseSound (world : RefreshWorld) : Prop :=
  (∀ (pid other : Nat) (first second : RefreshExchange)
    (successor access successor' access' : Nat),
    world.procs[pid]? = some first → world.procs[other]? = some second →
    first.phase = .rotated successor access →
    second.phase = .rotated successor' access' →
    first.token = second.token → pid = other) ∧
  ∀ (pid : Nat) (exchange : RefreshExchange) (family : Nat),
    world.procs[pid]? = some exchange → exchange.phase = .reuse family →
    (∀ secret row, world.shared.store.committed (.refresh secret) = some row →
      row.family = family → row.consumedAt ≠ none) ∧
    ∀ now secret row user,
      verifySelect world.shared.store.committed now secret = some (row, user) →
      row.refreshFamily ≠ some family

theorem reuse_contained {config : CredentialConfig} {world : RefreshWorld}
    (hreach : GuardedReach (worldStep (refreshRules config)) RotationsSeen
      ⟨.empty, []⟩ world) :
    ReuseSound world := by
  have hinv : FamiliesInv world :=
    hreach.invariant familiesInv_empty fun _ _ _ hinv hmeets hstep =>
      hinv.step hmeets hstep
  refine ⟨hinv.unique, ?_⟩
  intro pid exchange family hproc hphase
  have hcontained := (hinv.containments pid exchange hproc).contained family hphase
  constructor
  · intro secret row hrow hfamily
    exact absurd ⟨row, hrow, hfamily⟩ (hcontained (.refresh secret))
  · intro now secret row user hselect hfamily
    exact hcontained (.token secret)
      ⟨row, (verifySelect_eq_some hselect).1, hfamily⟩

namespace ReuseWitness

def config : CredentialConfig := ⟨3600, 60⟩

def person : UserRow := ⟨text "ann", text "hash", false, false, none, none⟩

def client : Text := text "mcp"

/-- Refresh token 0 of family 0 is rotated to refresh token 2. -/
def rotation : List (WorldEvent RefreshExchange Outside) :=
  [.outside (.setUser 7 person),
    .outside (.grant 7 client 0 (secs 3600) (secs 60)),
    .spawn ⟨0, client, .begin⟩] ++ List.replicate 11 (.advance 0)

/-- Then token 0 is presented again. -/
def replayed : List (WorldEvent RefreshExchange Outside) :=
  rotation ++ [.spawn ⟨0, client, .begin⟩] ++ List.replicate 7 (.advance 1)

/-- Token 2 is rotated to token 4 while token 0 is presented again: the rotation
commits after the deletion of the family took its snapshot. -/
def overtaken : List (WorldEvent RefreshExchange Outside) :=
  rotation ++ [.spawn ⟨2, client, .begin⟩, .spawn ⟨0, client, .begin⟩] ++
    List.replicate 10 (.advance 1) ++ List.replicate 3 (.advance 2) ++
    [.advance 1] ++ List.replicate 4 (.advance 2)

end ReuseWitness

open ReuseWitness in
theorem reuse_contained_replayed :
    ∃ world, replayGuarded (worldStep (refreshRules config)) RotationsSeen
        ⟨.empty, []⟩ replayed = some world ∧
      world.procs = [⟨0, client, .rotated 2 3⟩, ⟨0, client, .reuse 0⟩] ∧
      ∀ now secret row user,
        verifySelect world.shared.store.committed now secret = some (row, user) →
        row.refreshFamily ≠ some 0 := by
  obtain ⟨world, hworld, hprocs⟩ : ∃ world,
      replayGuarded (worldStep (refreshRules config)) RotationsSeen
        ⟨.empty, []⟩ replayed = some world ∧
      world.procs = [⟨0, client, .rotated 2 3⟩, ⟨0, client, .reuse 0⟩] := by
    refine ⟨_, rfl, ?_⟩
    decide
  have hsound := reuse_contained (.of_replay _ hworld)
  refine ⟨world, hworld, hprocs, ?_⟩
  exact (hsound.2 1 ⟨0, client, .reuse 0⟩ 0 (by simp [hprocs]) rfl).2

open ReuseWitness in
/-- The successor of token 2 outlives the containment of its family. -/
theorem reuse_leaves_successor :
    ∃ world, Reach (worldStep (refreshRules config)) ⟨.empty, []⟩ world ∧
      ¬ ReuseSound world := by
  obtain ⟨world, hworld, hprocs, hlive⟩ : ∃ world,
      replayGuarded (worldStep (refreshRules config)) (fun _ _ => True)
        ⟨.empty, []⟩ overtaken = some world ∧
      world.procs[2]? = some ⟨0, client, .reuse 0⟩ ∧
      world.shared.store.committed (.refresh 4) =
        some (⟨client, 7, 0, secs 3600, 0, none⟩ : RefreshRow) := by
    refine ⟨_, rfl, ?_⟩
    decide
  refine ⟨world, .of_replay _ hworld, ?_⟩
  intro hsound
  exact (hsound.2 2 ⟨0, client, .reuse 0⟩ 0 hprocs rfl).1 4 _ hlive rfl rfl

end Localmail
