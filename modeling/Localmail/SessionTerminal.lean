/-
Refreshes and logouts of one login in any order.  The lineage of a login has at
most one stored token, and after a logout that removed a token of it none, in
every run in which each refresh deletes a row that is still there.
-/
import Localmail.SessionLineage

namespace Localmail

/-- The token is older than every successor still to be committed. -/
structure Known (world : SessionWorld) (token : Nat) : Prop where
  used : token < world.shared.fresh
  notInserted : ∀ (pid : Nat) (proc : SessionProcess),
    world.procs[pid]? = some proc → proc.inserted ≠ some token

structure SessionsInv (world : SessionWorld) : Prop extends StoreInv world where
  procs : ∀ (pid : Nat) (proc : SessionProcess),
    world.procs[pid]? = some proc → BearerInv world.shared pid proc
  found : ∀ (pid : Nat) (proc : SessionProcess) (token : Nat),
    world.procs[pid]? = some proc → proc.found = some token →
    Known world token
  ancestors : ∀ token ancestor,
    Key.token ancestor ∈ world.shared.ancestors token → Known world ancestor
  unborn : ∀ token, world.shared.fresh ≤ token →
    world.shared.descent (.token token) = []
  single : ∀ root one two,
    world.shared.store.committed (.token one) ≠ none →
    world.shared.store.committed (.token two) ≠ none →
    Descends world.shared root one → Descends world.shared root two → one = two
  ended : ∀ pid token root descendant : Nat,
    world.procs[pid]? = some (SessionProcess.logout ⟨token, .done true⟩) →
    Descends world.shared root token →
    Descends world.shared root descendant →
    world.shared.store.committed (.token descendant) = none

theorem sessionsInv_empty : SessionsInv ⟨.empty, []⟩ where
  toStoreInv := storeInv_empty
  procs := by simp
  found := by simp
  ancestors := by simp [Shared.ancestors, Shared.empty]
  unborn := fun _ _ => rfl
  single := fun _ _ _ hone => absurd rfl hone
  ended := by simp

/-! ### Lineages -/

section Lineages

variable {shared next : Shared} {world : SessionWorld} {root token : Nat}

theorem Descends.congr
    (hdescent : next.descent (.token token) = shared.descent (.token token)) :
    Descends next root token ↔ Descends shared root token := by
  simp only [Descends, Shared.ancestors, hdescent]

/-- A successor descends from itself and from what its predecessor descends
from. -/
theorem Descends.of_successor {successor createdAt : Nat}
    (hdescent : shared.descent (.token successor) =
      (.token token, createdAt) :: shared.descent (.token token))
    (hdescends : Descends shared root successor) :
    root = successor ∨ Descends shared root token := by
  rcases hdescends with hself | hancestor
  · exact Or.inl hself.symm
  · simp only [Shared.ancestors, hdescent, List.map_cons, List.mem_cons,
      Key.token.injEq] at hancestor
    exact Or.inr (hancestor.imp_left Eq.symm)

/-- Only itself descends from a successor still to be committed. -/
theorem SessionsInv.eq_of_descends (hinv : SessionsInv world) {pid : Nat}
    {proc : SessionProcess} (hproc : world.procs[pid]? = some proc)
    {successor : Nat} (hinserted : proc.inserted = some successor)
    (hdescends : Descends world.shared successor token) : token = successor := by
  rcases hdescends with hself | hancestor
  · exact hself
  · exact absurd hinserted
      ((hinv.ancestors token successor hancestor).notInserted pid proc hproc)

end Lineages

/-! ### A step of a process -/

section Advance

variable {pid : Nat} {next : Shared} {proc after : SessionProcess}
  {world : SessionWorld}

theorem Known.advance {token : Nat} (hknown : Known world token)
    (hproc : world.procs[pid]? = some proc)
    (hstep : bearerWorldStep pid world.shared proc = some (next, after)) :
    Known ⟨next, world.procs.set pid after⟩ token := by
  have hfresh := (bearerWorldStep_acts hstep).fresh_le
  refine ⟨Nat.lt_of_lt_of_le hknown.used hfresh, ?_⟩
  intro other second hother hinserted
  rcases procs_set_cases hother with ⟨rfl, rfl⟩ | ⟨-, hold⟩
  · rcases inserted_of_bearerWorldStep hstep with
      ⟨-, -, hkept⟩ | ⟨found, createdAt, hinserts⟩
    · exact hknown.notInserted other proc hproc (hkept token hinserted)
    · have hnew := Option.some.inj (hinserted.symm.trans hinserts.inserted)
      exact Nat.ne_of_lt hknown.used hnew
  · exact hknown.notInserted other second hold hinserted

theorem SessionsInv.found_advance (hinv : SessionsInv world)
    (hproc : world.procs[pid]? = some proc)
    (hstep : bearerWorldStep pid world.shared proc = some (next, after))
    {token : Nat} (hfound : after.found = some token) : Known world token := by
  rcases found_of_bearerWorldStep (hinv.procs pid proc hproc) hstep hfound with
    hbefore | hstored
  · exact hinv.found pid proc token hproc hbefore
  · refine ⟨hinv.unused.lt_of_committed hstored rfl, ?_⟩
    intro other second hother hinserted
    exact hstored
      ((hinv.procs other second hother).inserted token hinserted).2.1

/-- New ancestors are the token found and its ancestors. -/
theorem SessionsInv.ancestors_advance (hinv : SessionsInv world)
    (hproc : world.procs[pid]? = some proc)
    (hstep : bearerWorldStep pid world.shared proc = some (next, after))
    {token ancestor : Nat}
    (hancestor : Key.token ancestor ∈ next.ancestors token) :
    Known world ancestor := by
  rcases inserted_of_bearerWorldStep hstep with
    ⟨hdescent, -, -⟩ | ⟨found, createdAt, hinserts⟩
  · rw [Shared.ancestors, hdescent] at hancestor
    exact hinv.ancestors token ancestor hancestor
  · rw [Shared.ancestors, hinserts.descent] at hancestor
    by_cases hnew : token = world.shared.fresh
    · subst hnew
      simp only [Function.update_self, List.map_cons, List.mem_cons,
        Key.token.injEq] at hancestor
      rcases hancestor with rfl | hold
      · exact hinv.found pid proc ancestor hproc hinserts.found
      · exact hinv.ancestors found ancestor hold
    · rw [Function.update_of_ne (by simpa using hnew)] at hancestor
      exact hinv.ancestors token ancestor hancestor

theorem SessionsInv.unborn_advance (hinv : SessionsInv world)
    (hstep : bearerWorldStep pid world.shared proc = some (next, after))
    {token : Nat} (htoken : next.fresh ≤ token) :
    next.descent (.token token) = [] := by
  rcases inserted_of_bearerWorldStep hstep with
    ⟨hdescent, hfresh, -⟩ | ⟨found, createdAt, hinserts⟩
  · rw [hdescent]
    exact hinv.unborn token (hfresh ▸ htoken)
  · have hfresh := hinserts.fresh
    have hne : Key.token token ≠ .token world.shared.fresh := by
      rintro ⟨⟩
      omega
    rw [hinserts.descent, Function.update_of_ne hne]
    exact hinv.unborn token (by omega)

/-- What is stored was stored before and is not what this step deletes, or is
the successor of what this step deletes. -/
theorem SessionsInv.stored_advance (hinv : SessionsInv world)
    (hproc : world.procs[pid]? = some proc)
    (hstep : bearerWorldStep pid world.shared proc = some (next, after))
    {token : Nat} (hstored : next.store.committed (.token token) ≠ none) :
    (world.shared.store.committed (.token token) ≠ none ∧
      (after.finished = true → after.found ≠ none →
        proc.deleted ≠ some token)) ∨
    proc.inserted = some token ∧ proc.deleted = proc.found ∧
      after.finished = true ∧ after.found ≠ none := by
  have hmine := hinv.procs pid proc hproc
  rcases bearerWorldStep_commits hstep with ⟨hsame, hnotDone⟩ | ⟨rfl, hwhich⟩
  · rw [hsame] at hstored
    refine Or.inl ⟨hstored, ?_⟩
    intro hfinished hfound
    rcases hnotDone with hrunning | hnone
    · rw [hrunning] at hfinished
      cases hfinished
    · exact absurd hnone hfound
  · by_cases howner : world.shared.store.owner (.token token) = some pid
    · have hview : world.shared.store.dirty (.token token) ≠ none := by
        rw [← RowStore.view_of_owner howner]
        exact hstored
      have hmay := hmine.own _ howner
      rcases hwhich with ⟨found, row, successor, rfl, rfl⟩ |
        ⟨found, removed, rfl, rfl⟩
      · rcases hmay with hkey | hkey
        · cases hkey
          exact absurd (hmine.deleted token rfl).2.1 hview
        · cases hkey
          exact Or.inr ⟨rfl, rfl, rfl, nofun⟩
      · cases removed with
        | false => exact hmay.elim
        | true =>
            cases hmay
            exact absurd (hmine.deleted token rfl).2.1 hview
    · refine Or.inl ⟨?_, ?_⟩
      · rw [← RowStore.view_of_not_owner howner]
        exact hstored
      · intro _ _ hdeleted
        exact howner (hmine.deleted token hdeleted).1

/-- A lineage that a successor joins is its own, or that of the stored token it
replaces. -/
theorem SessionsInv.of_joins (hinv : SessionsInv world)
    (hproc : world.procs[pid]? = some proc) {successor root : Nat}
    (hinserted : proc.inserted = some successor)
    (hdeleted : proc.deleted = proc.found)
    (hdescends : Descends world.shared root successor) :
    root = successor ∨
      ∃ replaced, proc.deleted = some replaced ∧
        Descends world.shared root replaced ∧
        world.shared.store.committed (.token replaced) ≠ none := by
  have hmine := hinv.procs pid proc hproc
  obtain ⟨-, -, token, createdAt, hfound, hlineage⟩ :=
    hmine.inserted successor hinserted
  rcases hdescends.of_successor hlineage with hself | hreplaced
  · exact Or.inl hself
  · exact Or.inr ⟨token, hdeleted.trans hfound, hreplaced,
      (hmine.deleted token (hdeleted.trans hfound)).2.2⟩

/-- Lineages of stored tokens do not change. -/
theorem descends_of_advance
    (hstep : bearerWorldStep pid world.shared proc = some (next, after))
    {root token : Nat} (hused : token < world.shared.fresh)
    (hdescends : Descends next root token) :
    Descends world.shared root token := by
  refine (Descends.congr ((bearerWorldStep_acts hstep).descent_eq ?_)).mp hdescends
  rintro _ ⟨⟩
  exact hused

theorem SessionsInv.used_of_stored (hinv : SessionsInv world)
    (hproc : world.procs[pid]? = some proc)
    (hstep : bearerWorldStep pid world.shared proc = some (next, after))
    {token : Nat} (hstored : next.store.committed (.token token) ≠ none) :
    token < world.shared.fresh := by
  rcases hinv.stored_advance hproc hstep hstored with ⟨hold, -⟩ | ⟨hinserted, -⟩
  · exact hinv.unused.lt_of_committed hold rfl
  · exact hinv.unused.lt_of_owner
      ((hinv.procs pid proc hproc).inserted token hinserted).1 rfl

/-- No stored token shares a lineage with a successor that gets committed. -/
theorem SessionsInv.not_beside_successor (hinv : SessionsInv world)
    (hproc : world.procs[pid]? = some proc) {successor root token : Nat}
    (hinserted : proc.inserted = some successor)
    (hdeleted : proc.deleted = proc.found)
    (hsuccessor : Descends world.shared root successor)
    (htoken : Descends world.shared root token)
    (hstored : world.shared.store.committed (.token token) ≠ none)
    (hkept : proc.deleted ≠ some token) : False := by
  rcases hinv.of_joins hproc hinserted hdeleted hsuccessor with
    rfl | ⟨replaced, hreplaced, hroot, hbefore⟩
  · obtain rfl := hinv.eq_of_descends hproc hinserted htoken
    exact hstored ((hinv.procs pid proc hproc).inserted _ hinserted).2.1
  · obtain rfl := hinv.single root token replaced hstored hbefore htoken hroot
    exact hkept hreplaced

theorem SessionsInv.single_advance (hinv : SessionsInv world)
    (hproc : world.procs[pid]? = some proc)
    (hstep : bearerWorldStep pid world.shared proc = some (next, after))
    {root one two : Nat}
    (hone : next.store.committed (.token one) ≠ none)
    (htwo : next.store.committed (.token two) ≠ none)
    (hrootOne : Descends next root one) (hrootTwo : Descends next root two) :
    one = two := by
  have hbeforeOne := descends_of_advance hstep
    (hinv.used_of_stored hproc hstep hone) hrootOne
  have hbeforeTwo := descends_of_advance hstep
    (hinv.used_of_stored hproc hstep htwo) hrootTwo
  rcases hinv.stored_advance hproc hstep hone with
    ⟨hold, hkeptOne⟩ | ⟨hinserted, hdeleted, hdone, hfound⟩ <;>
    rcases hinv.stored_advance hproc hstep htwo with
      ⟨hold', hkeptTwo⟩ | ⟨hinserted', hdeleted', hdone', hfound'⟩
  · exact hinv.single root one two hold hold' hbeforeOne hbeforeTwo
  · exact (hinv.not_beside_successor hproc hinserted' hdeleted' hbeforeTwo
      hbeforeOne hold (hkeptOne hdone' hfound')).elim
  · exact (hinv.not_beside_successor hproc hinserted hdeleted hbeforeOne
      hbeforeTwo hold' (hkeptTwo hdone hfound)).elim
  · exact Option.some.inj (hinserted.symm.trans hinserted')

theorem SessionsInv.ended_advance (hinv : SessionsInv world)
    (hproc : world.procs[pid]? = some proc)
    (hstep : bearerWorldStep pid world.shared proc = some (next, after))
    {other token root descendant : Nat}
    (hother : (world.procs.set pid after)[other]? =
      some (SessionProcess.logout ⟨token, .done true⟩))
    (htoken : Descends next root token)
    (hdescendant : Descends next root descendant) :
    next.store.committed (.token descendant) = none := by
  by_contra hstored
  have hroot := descends_of_advance hstep
    (hinv.used_of_stored hproc hstep hstored) hdescendant
  rcases procs_set_cases hother with ⟨rfl, rfl⟩ | ⟨-, hold⟩
  · -- the logout commits: its token was the one stored in the lineage
    have hused := (hinv.found_advance hproc hstep rfl).used
    have hrootToken := descends_of_advance hstep hused htoken
    rcases bearerWorldStep_commits hstep with ⟨-, hnotDone⟩ | ⟨rfl, hwhich⟩
    · rcases hnotDone with hrunning | hnone
      · cases hrunning
      · cases hnone
    · rcases hwhich with ⟨_, _, _, _, hrefresh⟩ | ⟨_, _, rfl, hlogout⟩
      · cases hrefresh
      · cases hlogout
        have hmine := (hinv.procs other _ hproc).deleted token rfl
        rcases hinv.stored_advance hproc hstep hstored with
          ⟨hbefore, hkept⟩ | ⟨hinserted, -⟩
        · obtain rfl := hinv.single root descendant token hbefore hmine.2.2
            hroot hrootToken
          exact hkept rfl nofun rfl
        · cases hinserted
  · have hknown := hinv.found other _ token hold rfl
    have hrootToken := descends_of_advance hstep hknown.used htoken
    rcases hinv.stored_advance hproc hstep hstored with
      ⟨hbefore, -⟩ | ⟨hinserted, hdeleted, -⟩
    · exact hbefore
        (hinv.ended other token root descendant hold hrootToken hroot)
    · rcases hinv.of_joins hproc hinserted hdeleted hroot with
        rfl | ⟨replaced, -, hreplaced, hbefore⟩
      · obtain rfl := hinv.eq_of_descends hproc hinserted hrootToken
        exact hknown.notInserted pid proc hproc hinserted
      · exact hbefore
          (hinv.ended other token root replaced hold hrootToken hreplaced)

theorem SessionsInv.advance (hinv : SessionsInv world)
    (hproc : world.procs[pid]? = some proc)
    (hmoved : BearerInv next pid after)
    (hstore : StoreInv ⟨next, world.procs.set pid after⟩)
    (hstep : bearerWorldStep pid world.shared proc = some (next, after)) :
    SessionsInv ⟨next, world.procs.set pid after⟩ := by
  have hacts := bearerWorldStep_acts hstep
  refine ⟨hstore, ?_, ?_, ?_, ?_, ?_, ?_⟩
  · intro other second hother
    rcases procs_set_cases hother with ⟨rfl, rfl⟩ | ⟨hne, hold⟩
    · exact hmoved
    · refine (hinv.procs other second hold).transfer hinv.unused
        (hacts.undisturbed hinv.unused hne) hacts.fresh_le ?_
      intro token hused
      refine hacts.descent_eq ?_
      rintro _ ⟨⟩
      exact hused
  · intro other second token hother hfound
    rcases procs_set_cases hother with ⟨rfl, rfl⟩ | ⟨-, hold⟩
    · exact (hinv.found_advance hproc hstep hfound).advance hproc hstep
    · exact (hinv.found other second token hold hfound).advance hproc hstep
  · intro token ancestor hancestor
    exact (hinv.ancestors_advance hproc hstep hancestor).advance hproc hstep
  · intro token htoken
    exact hinv.unborn_advance hstep htoken
  · intro root one two
    exact hinv.single_advance hproc hstep
  · intro other token root descendant
    exact hinv.ended_advance hproc hstep

end Advance

/-! ### Every run -/

section Runs

variable {world next : SessionWorld}

/-- A login starts a lineage of its own. -/
theorem SessionsInv.outside (hinv : SessionsInv world) {shared : Shared}
    {change : Outside} (hstore : StoreInv { world with shared := shared })
    (houtside : bearerRules.outside world.shared change = some shared) :
    SessionsInv { world with shared := shared } := by
  obtain ⟨hhappens, hchange⟩ := credentialRules_outside houtside
  have hsettles := outside_settles hchange
  have hdescent := hsettles.descent
  have hknown : ∀ token, Known world token →
      Known { world with shared := shared } token := fun token hknown =>
    ⟨Nat.lt_of_lt_of_le hknown.used hsettles.fresh, hknown.notInserted⟩
  have hdescends : ∀ {root token}, Descends shared root token →
      Descends world.shared root token :=
    (Descends.congr (congrFun hdescent _)).mp
  have hstored : ∀ token, shared.store.committed (.token token) ≠ none →
      world.shared.store.committed (.token token) ≠ none ∨
        token = world.shared.fresh := by
    intro token hcommitted
    rcases outside_committed hchange (.token token) with hsame | hnone | hwrites
    · exact Or.inl (hsame ▸ hcommitted)
    · exact absurd hnone hcommitted
    · cases change with
      | tick | deleteUser => cases hwrites
      | setUser => cases hwrites
      | login => exact Or.inr (Key.token.inj hwrites)
      | consent | grant => cases hhappens
  have hroot : ∀ {root}, Descends world.shared root world.shared.fresh →
      root = world.shared.fresh := by
    intro root hroot
    rcases hroot with hself | hancestor
    · exact hself.symm
    · simp [Shared.ancestors, hinv.unborn _ (Nat.le_refl _)] at hancestor
  have hleaf : ∀ {token}, Descends world.shared world.shared.fresh token →
      token = world.shared.fresh := by
    intro token hleaf
    rcases hleaf with hself | hancestor
    · exact hself
    · exact absurd (hinv.ancestors _ _ hancestor).used (Nat.lt_irrefl _)
  refine ⟨hstore, ?_, ?_, ?_, ?_, ?_, ?_⟩
  · intro pid proc hproc
    refine (hinv.procs pid proc hproc).transfer hinv.unused
      (hsettles.undisturbed pid) hsettles.fresh ?_
    intro token _
    exact congrFun hdescent _
  · intro pid proc token hproc hfound
    exact hknown token (hinv.found pid proc token hproc hfound)
  · intro token ancestor hancestor
    rw [Shared.ancestors, hdescent] at hancestor
    exact hknown ancestor (hinv.ancestors token ancestor hancestor)
  · intro token htoken
    rw [hdescent]
    exact hinv.unborn token (Nat.le_trans hsettles.fresh htoken)
  · intro root one two hone htwo hrootOne hrootTwo
    have hbeforeOne := hdescends hrootOne
    have hbeforeTwo := hdescends hrootTwo
    rcases hstored one hone with holdOne | rfl
    · rcases hstored two htwo with holdTwo | rfl
      · exact hinv.single root one two holdOne holdTwo hbeforeOne hbeforeTwo
      · obtain rfl := hroot hbeforeTwo
        exact hleaf hbeforeOne
    · obtain rfl := hroot hbeforeOne
      exact (hleaf hbeforeTwo).symm
  · intro pid token root descendant hproc hrootToken hrootDescendant
    by_contra hcommitted
    have hbeforeToken := hdescends hrootToken
    have hbefore := hdescends hrootDescendant
    rcases hstored descendant hcommitted with hold | rfl
    · exact hold (hinv.ended pid token root descendant hproc hbeforeToken hbefore)
    · obtain rfl := hroot hbefore
      have htoken := hleaf hbeforeToken
      exact Nat.ne_of_lt (hinv.found pid _ token hproc rfl).used htoken

theorem SessionsInv.spawn (hinv : SessionsInv world) {started : SessionProcess}
    (hstore : StoreInv { world with procs := world.procs ++ [started] })
    (hinitial : started.initial = true) :
    SessionsInv { world with procs := world.procs ++ [started] } := by
  have hnothing : started.found = none ∧ started.inserted = none ∧
      started.deleted = none ∧ started.finished = false := by
    unfold SessionProcess.initial at hinitial
    split at hinitial
    · exact ⟨rfl, rfl, rfl, rfl⟩
    · exact ⟨rfl, rfl, rfl, rfl⟩
    · cases hinitial
  have hknown : ∀ token, Known world token →
      Known { world with procs := world.procs ++ [started] } token := by
    intro token hknown
    refine ⟨hknown.used, ?_⟩
    intro other second hother
    rcases procs_append_cases hother with ⟨-, rfl⟩ | hold
    · simp [hnothing.2.1]
    · exact hknown.notInserted other second hold
  refine ⟨hstore, ?_, ?_, ?_, hinv.unborn, hinv.single, ?_⟩
  · intro other second hother
    rcases procs_append_cases hother with ⟨rfl, rfl⟩ | hold
    · exact .of_unlocked hinv.owner_length (by simp [hnothing.1])
        hnothing.2.1 hnothing.2.2.1
    · exact hinv.procs other second hold
  · intro other second token hother hfound
    rcases procs_append_cases hother with ⟨-, rfl⟩ | hold
    · simp [hnothing.1] at hfound
    · exact hknown token (hinv.found other second token hold hfound)
  · intro token ancestor hancestor
    exact hknown ancestor (hinv.ancestors token ancestor hancestor)
  · intro other token root descendant hother
    rcases procs_append_cases hother with ⟨-, rfl⟩ | hold
    · cases hnothing.1
    · exact hinv.ended other token root descendant hold

theorem SessionsInv.crash (hinv : SessionsInv world) {pid : Nat}
    (hstore : StoreInv (⟨world.shared.rollback pid,
      world.procs.set pid bearerRules.stopped⟩ : SessionWorld)) :
    SessionsInv ⟨world.shared.rollback pid,
      world.procs.set pid bearerRules.stopped⟩ := by
  have hacts : Acts pid world.shared (world.shared.rollback pid) := .rollback
  have hknown : ∀ token, Known world token →
      Known ⟨world.shared.rollback pid,
        world.procs.set pid bearerRules.stopped⟩ token := by
    intro token hknown
    refine ⟨hknown.used, ?_⟩
    intro other second hother
    rcases procs_set_cases hother with ⟨-, rfl⟩ | ⟨-, hold⟩
    · exact nofun
    · exact hknown.notInserted other second hold
  refine ⟨hstore, ?_, ?_, ?_, hinv.unborn, hinv.single, ?_⟩
  · intro other second hother
    rcases procs_set_cases hother with ⟨rfl, rfl⟩ | ⟨hne, hold⟩
    · exact .of_unlocked owner_rollback_ne nofun rfl rfl
    · exact (hinv.procs other second hold).transfer hinv.unused
        (hacts.undisturbed hinv.unused hne) hacts.fresh_le fun _ _ => rfl
  · intro other second token hother hfound
    rcases procs_set_cases hother with ⟨-, rfl⟩ | ⟨-, hold⟩
    · cases hfound
    · exact hknown token (hinv.found other second token hold hfound)
  · intro token ancestor hancestor
    exact hknown ancestor (hinv.ancestors token ancestor hancestor)
  · intro other token root descendant hother
    rcases procs_set_cases hother with ⟨-, hstopped⟩ | ⟨-, hold⟩
    · cases hstopped
    · exact hinv.ended other token root descendant hold

theorem SessionsInv.step {event : WorldEvent SessionProcess Outside}
    (hinv : SessionsInv world) (hmeets : DeletesStored world event)
    (hstep : worldStep bearerRules world event = some next) :
    SessionsInv next := by
  have hstore : StoreInv next :=
    hinv.toStoreInv.step
      (credentialRules_table fun _ _ _ _ _ => bearerWorldStep_acts) hstep
  rcases worldStep_cases hstep with
    ⟨change, shared, -, houtside, rfl⟩ | ⟨started, -, hinitial, rfl⟩ |
    ⟨pid, proc, shared, moved, rfl, hproc, hadvance, rfl⟩ |
    ⟨pid, proc, -, hproc, -, rfl⟩
  · exact hinv.outside hstore houtside
  · exact hinv.spawn hstore hinitial
  · have hmine := hinv.procs pid proc hproc
    refine hinv.advance hproc ?_ hstore hadvance
    rcases bearerWorldStep_cases hadvance with
      ⟨refresh, refresh', rfl, rfl, hbearer⟩ |
      ⟨logout, logout', rfl, rfl, hlogout⟩
    · refine hmine.advance_refresh hinv.unused ?_ hbearer
      intro row successor hphase
      obtain ⟨token, phase⟩ := refresh
      rcases hphase with rfl | rfl <;>
        simpa [DeletesStored, hproc, Option.isSome_iff_ne_none] using hmeets
    · exact hmine.advance_logout hinv.unused hlogout
  · exact hinv.crash hstore

end Runs

/-- A request with the token that starts now is let in. -/
def Accepted (shared : Shared) (now token : Nat) : Prop :=
  (verifySelect shared.store.committed now token).isSome

theorem stored_of_accepted {shared : Shared} {now token : Nat}
    (haccepted : Accepted shared now token) :
    shared.store.committed (.token token) ≠ none := by
  obtain ⟨⟨row, user⟩, hselect⟩ := Option.isSome_iff_exists.mp haccepted
  rw [(verifySelect_eq_some hselect).1]
  exact Option.some_ne_none _

/-- At most one token of a lineage is let in, and none once a token of it has
been logged out. -/
def LineageSound (world : SessionWorld) : Prop :=
  (∀ root one two now, Descends world.shared root one →
    Descends world.shared root two → Accepted world.shared now one →
    Accepted world.shared now two → one = two) ∧
  ∀ pid token root descendant now : Nat,
    world.procs[pid]? = some (SessionProcess.logout ⟨token, .done true⟩) →
    Descends world.shared root token →
    Descends world.shared root descendant →
    ¬ Accepted world.shared now descendant

theorem bearer_refresh_single_use {world : SessionWorld}
    (hreach : GuardedReach (worldStep bearerRules) DeletesStored
      ⟨.empty, []⟩ world) :
    LineageSound world := by
  have hinv : SessionsInv world :=
    hreach.invariant sessionsInv_empty fun _ _ _ hinv hmeets hstep =>
      hinv.step hmeets hstep
  constructor
  · intro root one two now hone htwo hacceptedOne hacceptedTwo
    exact hinv.single root one two (stored_of_accepted hacceptedOne)
      (stored_of_accepted hacceptedTwo) hone htwo
  · intro pid token root descendant now hproc htoken hdescendant haccepted
    exact stored_of_accepted haccepted
      (hinv.ended pid token root descendant hproc htoken hdescendant)

namespace SessionWitness

def person : UserRow := ⟨text "ann", text "hash", false, false, none, none⟩

def login : List (WorldEvent SessionProcess Outside) :=
  [.outside (.setUser 7 person), .outside (.login 7 0 (secs 86400))]

/-- Token 0 is refreshed to token 1, which is then logged out. -/
def inTurn : List (WorldEvent SessionProcess Outside) :=
  login ++ [.spawn (.refresh ⟨0, .begin⟩), .advance 0, .advance 0, .advance 0,
    .advance 0, .advance 0, .advance 0, .advance 0, .advance 0,
    .spawn (.logout ⟨1, .delete⟩), .advance 1, .advance 1, .advance 1]

/-- Token 0 is verified by two refreshes; the first is through before the
second goes on. -/
def together : List (WorldEvent SessionProcess Outside) :=
  login ++ [.spawn (.refresh ⟨0, .begin⟩), .spawn (.refresh ⟨0, .begin⟩),
    .advance 0, .advance 0, .advance 1, .advance 1, .advance 1,
    .advance 0, .advance 0, .advance 0, .advance 0, .advance 0, .advance 0,
    .advance 1, .advance 1, .advance 1, .advance 1]

end SessionWitness

open SessionWitness in
theorem bearer_refresh_single_use_in_turn :
    ∃ world, replayGuarded (worldStep bearerRules) DeletesStored ⟨.empty, []⟩
        inTurn = some world ∧
      world.procs = [.refresh ⟨0, .done 1⟩, .logout ⟨1, .done true⟩] ∧
      ∀ descendant now, Descends world.shared 0 descendant →
        ¬ Accepted world.shared now descendant := by
  obtain ⟨world, hworld, hprocs, hdescends⟩ : ∃ world,
      replayGuarded (worldStep bearerRules) DeletesStored ⟨.empty, []⟩
        inTurn = some world ∧
      world.procs = [.refresh ⟨0, .done 1⟩, .logout ⟨1, .done true⟩] ∧
      Key.token 0 ∈ world.shared.ancestors 1 := by
    refine ⟨_, rfl, ?_⟩
    decide
  have hsound := bearer_refresh_single_use (.of_replay _ hworld)
  refine ⟨world, hworld, hprocs, ?_⟩
  intro descendant now
  exact hsound.2 1 1 0 descendant now (by simp [hprocs]) (Or.inr hdescends)

open SessionWitness in
/-- Both refreshes leave a successor of token 0 that is let in. -/
theorem bearer_refreshed_twice :
    ∃ world, Reach (worldStep bearerRules) ⟨.empty, []⟩ world ∧
      ¬ LineageSound world := by
  obtain ⟨world, hworld, hone, htwo, haccepted⟩ : ∃ world,
      replayGuarded (worldStep bearerRules) (fun _ _ => True) ⟨.empty, []⟩
        together = some world ∧
      Key.token 0 ∈ world.shared.ancestors 1 ∧
      Key.token 0 ∈ world.shared.ancestors 2 ∧
      (verifySelect world.shared.store.committed 0 1).isSome ∧
      (verifySelect world.shared.store.committed 0 2).isSome := by
    refine ⟨_, rfl, ?_⟩
    decide
  refine ⟨world, .of_replay _ hworld, ?_⟩
  intro hsound
  have hsame := hsound.1 0 1 2 0 (Or.inr hone) (Or.inr htwo) haccepted.1
    haccepted.2
  cases hsame

end Localmail
