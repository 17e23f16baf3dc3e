/-
An authorization code mints at most one token pair.  The burn deletes the code
row under its lock and commits alone, so of all exchanges of one code at most
one gets past it, and what it read while deleting decides whether it mints.
-/
import Localmail.CredentialActs

namespace Localmail

/-- The exchange is over. -/
def CodeExchange.finished (exchange : CodeExchange) : Bool :=
  match exchange.phase with
  | .done _ _ _ | .stopped => true
  | _ => false

/-- Code exchanges, with consents and any changes to users. -/
def codeRules (config : CredentialConfig) :
    ProcessRules Shared CodeExchange Outside :=
  credentialRules (codeStep config) ⟨0, [], .stopped⟩ CodeExchange.finished
    (fun exchange => exchange.phase = .load)
    fun
      | .tick _ | .setUser _ _ | .deleteUser _ | .consent _ _ _ _ => true
      | .login _ _ _ | .grant _ _ _ _ _ => false

/-- What the exchange read when its own `DELETE` removed the code row, once
that is committed. -/
def CodeExchange.burnt (exchange : CodeExchange) : Option Burn :=
  match exchange.phase with
  | .mintBegin _ burn | .mintRefresh _ burn _ | .loadNew _ burn _ _
  | .mintAccess _ burn _ _ _ | .finish _ burn _ _ _ | .done burn _ _ =>
      some burn
  | _ => none

/-- The rows the exchange may have locked. -/
def CodeExchange.mayOwn (exchange : CodeExchange) (key : Key) : Prop :=
  match exchange.phase with
  | .burned _ (some _) => key = .code exchange.code
  | .loadNew _ _ _ refresh | .mintAccess _ _ _ refresh _ =>
      key = .refresh refresh
  | .finish _ _ _ refresh access => key = .refresh refresh ∨ key = .token access
  | _ => False

/-- The code is spent: it is not stored, and its secret is used up. -/
structure CodeGone (shared : Shared) (code : Nat) : Prop where
  used : code < shared.fresh
  committed : shared.store.committed (.code code) = none
  owner : shared.store.owner (.code code) = none

structure CodeInv (shared : Shared) (pid : Nat) (exchange : CodeExchange) :
    Prop where
  own : ∀ key, shared.store.owner key = some pid → exchange.mayOwn key
  burnt : ∀ burn, exchange.burnt = some burn →
    CodeGone shared exchange.code ∧ burn.stillValid = true
  deleted : ∀ subject burn, exchange.phase = .burned subject (some burn) →
    shared.store.owner (.code exchange.code) = some pid ∧
      shared.store.dirty (.code exchange.code) = none ∧
      shared.store.committed (.code exchange.code) = some burn.row

section Steps

variable {config : CredentialConfig} {tx pid : Nat} {shared next : Shared}
  {exchange after : CodeExchange}

theorem CodeGone.acts {code : Nat} (hgone : CodeGone shared code)
    (hacts : Acts tx shared next) : CodeGone next code := by
  have hused : (Key.code code).secret = some shared.fresh →
      next.fresh = shared.fresh := by
    intro hsecret
    exact absurd (Option.some.inj hsecret) (Nat.ne_of_lt hgone.used)
  obtain ⟨hcommitted, howner⟩ := hacts.absent hgone.committed hgone.owner hused
  exact ⟨Nat.lt_of_lt_of_le hgone.used hacts.fresh_le, hcommitted, howner⟩

theorem CodeGone.settles {code : Nat} (hgone : CodeGone shared code)
    (hsettles : Settles shared next) : CodeGone next code := by
  refine ⟨Nat.lt_of_lt_of_le hgone.used hsettles.fresh, ?_, ?_⟩
  · rcases hsettles.old (.code code) code rfl hgone.used with hsame | hnone
    · exact hsame.trans hgone.committed
    · exact hnone
  · rw [hsettles.owner]
    exact hgone.owner

/-- Nothing that leaves its locked rows alone and keeps spent codes spent
disturbs an exchange. -/
theorem CodeInv.transfer (hinv : CodeInv shared pid exchange)
    (hundisturbed : RowStore.Undisturbed pid shared.store next.store)
    (hgone : ∀ code, CodeGone shared code → CodeGone next code) :
    CodeInv next pid exchange where
  own := fun key howner => hinv.own key ((hundisturbed.owner key).mp howner)
  burnt := fun burn hburn => (hinv.burnt burn hburn).imp_left (hgone _)
  deleted := by
    intro subject burn hphase
    obtain ⟨howner, hdirty, hcommitted⟩ := hinv.deleted subject burn hphase
    exact ⟨(hundisturbed.owner _).mpr howner,
      (hundisturbed.dirty _ howner).trans hdirty,
      (hundisturbed.committed _ howner).trans hcommitted⟩

/-- An exchange with no lock, not past its burn. -/
theorem CodeInv.of_unburnt (hown : ∀ key, shared.store.owner key ≠ some pid)
    (hburnt : exchange.burnt = none)
    (hdeleted : ∀ subject burn, exchange.phase ≠ .burned subject (some burn)) :
    CodeInv shared pid exchange where
  own := fun key howner => absurd howner (hown key)
  burnt := by
    intro burn hburn
    rw [hburnt] at hburn
    cases hburn
  deleted := fun subject burn hphase => absurd hphase (hdeleted subject burn)

/-- An exchange past its burn. -/
theorem CodeInv.of_burnt {burn : Burn}
    (hown : ∀ key, shared.store.owner key = some pid → exchange.mayOwn key)
    (hburnt : exchange.burnt = some burn)
    (hgone : CodeGone shared exchange.code) (hvalid : burn.stillValid = true) :
    CodeInv shared pid exchange where
  own := hown
  burnt := by
    intro other hother
    rw [hburnt] at hother
    exact ⟨hgone, Option.some.inj hother ▸ hvalid⟩
  deleted := by
    intro subject other hphase
    simp [CodeExchange.burnt, hphase] at hburnt

theorem CodeInv.advance (hinv : CodeInv shared pid exchange)
    (hfresh : FreshUnused shared)
    (hstep : codeStep config pid shared exchange = some (next, after)) :
    CodeInv next pid after := by
  have hacts := codeStep_acts hstep
  have hnone : (∀ key, ¬ exchange.mayOwn key) →
      ∀ key, shared.store.owner key ≠ some pid :=
    fun hmay key howner => hmay key (hinv.own key howner)
  unfold codeStep at hstep
  cases hphase : exchange.phase <;> simp only [hphase] at hstep
  case load =>
    have hown := hnone (by simp [CodeExchange.mayOwn, hphase])
    repeat' split at hstep
    all_goals
      cases hstep
      exact .of_unburnt hown rfl (by simp)
  case begin =>
    cases hstep
    exact .of_unburnt (hnone (by simp [CodeExchange.mayOwn, hphase])) rfl
      (by simp)
  case burn =>
    have hown := hnone (by simp [CodeExchange.mayOwn, hphase])
    split at hstep
    all_goals
      cases hstep
      exact .of_unburnt hown rfl (by simp)
  case burning subject burn =>
    have hown := hnone (by simp [CodeExchange.mayOwn, hphase])
    split at hstep
    · split at hstep
      · cases hstep
        exact .of_unburnt hown rfl (by simp)
      · rename_i row hrow
        cases hstep
        have hcommitted : shared.store.committed (.code exchange.code) =
            some row := by
          rw [← RowStore.view_of_not_owner (hown _)]
          exact hrow
        refine ⟨?_, by simp [CodeExchange.burnt], ?_⟩
        · intro key howner
          rcases owner_put_cases howner with hkey | hold
          · exact hkey
          · exact absurd hold (hown key)
        · rintro _ _ ⟨⟩
          exact ⟨RowStore.owner_put_self _, RowStore.dirty_put_self _,
            hcommitted⟩
    · cases hstep
  case burned subject result =>
    cases result with
    | none =>
        cases hstep
        exact .of_unburnt owner_commit_ne rfl (by simp)
    | some burn =>
        cases hstep
        obtain ⟨howner, hdirty, hcommitted⟩ := hinv.deleted subject burn hphase
        have hgone : CodeGone (shared.commit pid) exchange.code := by
          refine ⟨?_, ?_, ?_⟩
          · have hstored :
                shared.store.committed (.code exchange.code) ≠ none := by
              simp [hcommitted]
            exact hfresh.lt_of_committed hstored rfl
          · exact (RowStore.view_of_owner howner).trans hdirty
          · exact if_pos howner
        by_cases hvalid : burn.stillValid = true
        · simp only [hvalid, ↓reduceIte]
          exact .of_burnt (fun key howner => absurd howner (owner_commit_ne key))
            rfl hgone hvalid
        · simp only [hvalid]
          exact .of_unburnt owner_commit_ne rfl (by simp)
  case mintBegin subject burn =>
    cases hstep
    have hown := hnone (by simp [CodeExchange.mayOwn, hphase])
    obtain ⟨hgone, hvalid⟩ :=
      hinv.burnt burn (by simp [CodeExchange.burnt, hphase])
    exact .of_burnt (fun key howner => absurd howner (hown key)) rfl hgone hvalid
  case mintRefresh subject burn now =>
    have hown := hnone (by simp [CodeExchange.mayOwn, hphase])
    obtain ⟨hgone, hvalid⟩ :=
      hinv.burnt burn (by simp [CodeExchange.burnt, hphase])
    split at hstep
    · cases hstep
      refine .of_burnt ?_ rfl (hgone.acts hacts) hvalid
      intro key howner
      rcases owner_put_cases howner with hkey | hold
      · exact hkey
      · exact absurd hold (hown key)
    · cases hstep
      exact .of_unburnt owner_rollback_ne rfl (by simp)
  case loadNew subject burn now refresh =>
    obtain ⟨hgone, hvalid⟩ :=
      hinv.burnt burn (by simp [CodeExchange.burnt, hphase])
    split at hstep
    · cases hstep
      exact .of_unburnt owner_rollback_ne rfl (by simp)
    · cases hstep
      refine .of_burnt ?_ rfl hgone hvalid
      intro key howner
      simpa [CodeExchange.mayOwn, hphase] using hinv.own key howner
  case mintAccess subject burn now refresh family =>
    obtain ⟨hgone, hvalid⟩ :=
      hinv.burnt burn (by simp [CodeExchange.burnt, hphase])
    split at hstep
    · cases hstep
      refine .of_burnt ?_ rfl (hgone.acts hacts) hvalid
      intro key howner
      rcases owner_put_cases howner with hkey | hold
      · exact Or.inr hkey
      · exact Or.inl (by
          simpa [CodeExchange.mayOwn, hphase] using hinv.own key hold)
    · cases hstep
      exact .of_unburnt owner_rollback_ne rfl (by simp)
  case finish subject burn now refresh access =>
    cases hstep
    obtain ⟨hgone, hvalid⟩ :=
      hinv.burnt burn (by simp [CodeExchange.burnt, hphase])
    exact .of_burnt (fun key howner => absurd howner (owner_commit_ne key)) rfl
      (hgone.acts hacts) hvalid
  case done | stopped => cases hstep

end Steps

/-! ### Every interleaving -/

/-- The row is one of the pair that the process committed for its code. -/
def FromExchange (world : World Shared CodeExchange) (key : Key) : Prop :=
  ∃ (pid : Nat) (exchange : CodeExchange) (burn : Burn) (refresh access : Nat),
    world.procs[pid]? = some exchange ∧
      exchange.phase = .done burn refresh access ∧
      (key = .refresh refresh ∨ key = .token access)

structure CodesInv (world : World Shared CodeExchange) : Prop extends
    StoreInv world where
  exchanges : ∀ (pid : Nat) (exchange : CodeExchange),
    world.procs[pid]? = some exchange → CodeInv world.shared pid exchange
  unique : ∀ (pid other : Nat) (first second : CodeExchange),
    world.procs[pid]? = some first → world.procs[other]? = some second →
    first.burnt.isSome → second.burnt.isSome → first.code = second.code →
    pid = other
  minted : ∀ key, world.shared.store.committed key ≠ none →
    (∃ id, key = .user id) ∨ (∃ code, key = .code code) ∨
      FromExchange world key

theorem codesInv_empty : CodesInv ⟨.empty, []⟩ where
  toStoreInv := storeInv_empty
  exchanges := by simp
  unique := by simp
  minted := fun _ hcommitted => absurd rfl hcommitted

section World

variable {config : CredentialConfig} {pid : Nat} {shared next : Shared}
  {exchange after : CodeExchange} {world : World Shared CodeExchange}

/-- A code that is stored is one no exchange is past burning. -/
theorem CodesInv.not_burnt (hinv : CodesInv world) {other : Nat}
    (hother : world.procs[other]? = some exchange)
    (hstored : world.shared.store.committed (.code exchange.code) ≠ none) :
    exchange.burnt = none := by
  cases hburnt : exchange.burnt with
  | none => rfl
  | some burn =>
      exact absurd
        ((hinv.exchanges other exchange hother).burnt burn hburnt).1.committed
        hstored

theorem codeStep_phase
    (hstep : codeStep config pid shared exchange = some (next, after)) :
    after = { exchange with phase := after.phase } := by
  unfold codeStep at hstep
  cases hphase : exchange.phase <;> simp only [hphase] at hstep
  case done | stopped => cases hstep
  case begin | mintBegin | finish =>
    cases hstep
    rfl
  all_goals
    repeat' split at hstep
    all_goals
      cases hstep
      try rfl

/-- An exchange is past its burn because it already was, or because it commits
its deletion. -/
theorem burnt_of_codeStep {burn : Burn}
    (hstep : codeStep config pid shared exchange = some (next, after))
    (hburnt : after.burnt = some burn) :
    exchange.burnt = some burn ∨
      ∃ subject, exchange.phase = .burned subject (some burn) := by
  unfold codeStep at hstep
  cases hphase : exchange.phase <;> simp only [hphase] at hstep
  case burned subject result =>
    cases result with
    | none =>
        cases hstep
        simp [CodeExchange.burnt] at hburnt
    | some taken =>
        cases hstep
        by_cases hvalid : taken.stillValid = true
        · simp only [hvalid, ↓reduceIte] at hburnt
          obtain rfl := Option.some.inj hburnt
          exact Or.inr ⟨subject, rfl⟩
        · simp [hvalid, CodeExchange.burnt] at hburnt
  case done | stopped => cases hstep
  case begin =>
    cases hstep
    simp [CodeExchange.burnt] at hburnt
  case load | burn | burning =>
    repeat' split at hstep
    all_goals
      cases hstep
      try simp [CodeExchange.burnt] at hburnt
  case mintBegin | finish =>
    cases hstep
    exact Or.inl (by simpa [CodeExchange.burnt, hphase] using hburnt)
  case mintRefresh | loadNew | mintAccess =>
    split at hstep
    all_goals
      cases hstep
      simp only [CodeExchange.burnt, reduceCtorEq] at hburnt
      try exact Or.inl (by simpa [CodeExchange.burnt, hphase] using hburnt)

/-- An exchange commits twice: the deleted code, and the pair. -/
theorem codeStep_commits
    (hstep : codeStep config pid shared exchange = some (next, after)) :
    next.store.committed = shared.store.committed ∨
      next = shared.commit pid ∧
        ((∃ subject burn, exchange.phase = .burned subject burn) ∨
          ∃ subject burn now refresh access,
            exchange.phase = .finish subject burn now refresh access ∧
              after.phase = .done burn refresh access) := by
  unfold codeStep at hstep
  cases hphase : exchange.phase <;> simp only [hphase] at hstep
  case burned subject result =>
    split at hstep
    all_goals
      cases hstep
      exact Or.inr ⟨rfl, Or.inl ⟨subject, _, rfl⟩⟩
  case finish subject burn now refresh access =>
    cases hstep
    exact Or.inr ⟨rfl, Or.inr ⟨subject, burn, now, refresh, access, rfl, rfl⟩⟩
  case done | stopped => cases hstep
  case begin | mintBegin =>
    cases hstep
    exact Or.inl rfl
  all_goals
    repeat' split at hstep
    all_goals
      cases hstep
      try exact Or.inl rfl

/-- A committed pair stays on record. -/
theorem FromExchange.set {key : Key} (hfrom : FromExchange world key)
    (hproc : world.procs[pid]? = some exchange)
    (hrunning : exchange.finished = false) (shared : Shared)
    (after : CodeExchange) :
    FromExchange ⟨shared, world.procs.set pid after⟩ key := by
  obtain ⟨other, done, burn, refresh, access, hdone, hphase, hkey⟩ := hfrom
  have hne : pid ≠ other := by
    rintro rfl
    rw [hproc] at hdone
    obtain rfl := Option.some.inj hdone
    simp [CodeExchange.finished, hphase] at hrunning
  refine ⟨other, done, burn, refresh, access, ?_, hphase, hkey⟩
  rw [List.getElem?_set_ne hne]
  exact hdone

theorem finished_of_codeStep
    (hstep : codeStep config pid shared exchange = some (next, after)) :
    exchange.finished = false := by
  unfold codeStep at hstep
  cases hphase : exchange.phase <;> simp only [hphase] at hstep <;>
    simp_all [CodeExchange.finished]

theorem CodesInv.advance (hinv : CodesInv world)
    (hproc : world.procs[pid]? = some exchange)
    (hstore : StoreInv ⟨next, world.procs.set pid after⟩)
    (hstep : codeStep config pid world.shared exchange = some (next, after)) :
    CodesInv ⟨next, world.procs.set pid after⟩ := by
  have hacts := codeStep_acts hstep
  have hmine := hinv.exchanges pid exchange hproc
  have hcode : after.code = exchange.code := by rw [codeStep_phase hstep]
  -- whoever else is past a burn is past the burn of another code
  have hapart : ∀ other second, world.procs[other]? = some second →
      after.burnt.isSome → second.burnt.isSome →
      second.code = exchange.code → other = pid := by
    intro other second hsecond hafter hother hsame
    obtain ⟨burn, hburn⟩ := Option.isSome_iff_exists.mp hafter
    rcases burnt_of_codeStep hstep hburn with hbefore | ⟨subject, hphase⟩
    · exact hinv.unique other pid second exchange hsecond hproc hother
        (by simp [hbefore]) hsame
    · have hstored :
          world.shared.store.committed (.code exchange.code) ≠ none := by
        simp [(hmine.deleted subject burn hphase).2.2]
      rw [hinv.not_burnt hsecond (hsame ▸ hstored)] at hother
      cases hother
  refine ⟨hstore, ?_, ?_, ?_⟩
  · intro other proc hother
    rcases procs_set_cases hother with ⟨rfl, rfl⟩ | ⟨hne, hold⟩
    · exact hmine.advance hinv.unused hstep
    · exact (hinv.exchanges other proc hold).transfer
        (hacts.undisturbed hinv.unused hne) fun code hgone => hgone.acts hacts
  · intro first second one two hfirst hsecond hone htwo hsame
    rcases procs_set_cases hfirst with ⟨rfl, rfl⟩ | ⟨-, hold⟩ <;>
      rcases procs_set_cases hsecond with ⟨rfl, rfl⟩ | ⟨-, hother⟩
    · rfl
    · exact (hapart second two hother hone htwo (hsame.symm.trans hcode)).symm
    · exact hapart first one hold htwo hone (hsame.trans hcode)
    · exact hinv.unique first second one two hold hother hone htwo hsame
  · intro key hcommitted
    have hkeep : world.shared.store.committed key ≠ none →
        (∃ id, key = .user id) ∨ (∃ code, key = .code code) ∨
          FromExchange ⟨next, world.procs.set pid after⟩ key := by
      intro hbefore
      refine (hinv.minted key hbefore).imp_right (Or.imp_right fun hfrom => ?_)
      exact hfrom.set hproc (finished_of_codeStep hstep) next after
    rcases codeStep_commits hstep with hsame | ⟨rfl, hwhere⟩
    · exact hkeep (by rwa [hsame] at hcommitted)
    · by_cases howner : world.shared.store.owner key = some pid
      · have hmay := hmine.own key howner
        rcases hwhere with ⟨subject, burn, hphase⟩ |
          ⟨subject, burn, now, refresh, access, hphase, hdone⟩
        · cases burn with
          | none => simp [CodeExchange.mayOwn, hphase] at hmay
          | some burn =>
              simp only [CodeExchange.mayOwn, hphase] at hmay
              exact Or.inr (Or.inl ⟨_, hmay⟩)
        · simp only [CodeExchange.mayOwn, hphase] at hmay
          refine Or.inr (Or.inr ⟨pid, after, burn, refresh, access, ?_, hdone,
            hmay⟩)
          exact List.getElem?_set_self (List.getElem?_eq_some_iff.mp hproc).1
      · refine hkeep ?_
        rw [← RowStore.view_of_not_owner howner]
        exact hcommitted

/-- Besides exchanges only codes and users appear. -/
theorem codeRules_outside {change : Outside}
    (houtside : (codeRules config).outside shared change = some next) :
    shared.outside change = some next ∧
      ∀ key, next.store.committed key ≠ none →
        shared.store.committed key ≠ none ∨ (∃ id, key = .user id) ∨
          ∃ code, key = .code code := by
  obtain ⟨hhappens, hchange⟩ := credentialRules_outside houtside
  refine ⟨hchange, ?_⟩
  intro key hcommitted
  rcases outside_committed hchange key with hsame | hnone | hwrites
  · exact Or.inl (hsame ▸ hcommitted)
  · exact absurd hnone hcommitted
  · cases change with
    | tick | deleteUser => cases hwrites
    | setUser id row => exact Or.inr (Or.inl ⟨id, hwrites⟩)
    | consent => exact Or.inr (Or.inr ⟨_, hwrites⟩)
    | login | grant => cases hhappens

theorem CodesInv.step {after : World Shared CodeExchange}
    {event : WorldEvent CodeExchange Outside} (hinv : CodesInv world)
    (hstep : worldStep (codeRules config) world event = some after) :
    CodesInv after := by
  have hstore : StoreInv after :=
    hinv.toStoreInv.step
      (credentialRules_table fun _ _ _ _ _ => codeStep_acts) hstep
  rcases worldStep_cases hstep with
    ⟨change, shared, -, houtside, rfl⟩ | ⟨started, -, hinitial, rfl⟩ |
    ⟨pid, proc, shared, moved, -, hproc, hadvance, rfl⟩ |
    ⟨pid, proc, -, hproc, hrunning, rfl⟩
  · obtain ⟨hchange, hnew⟩ := codeRules_outside houtside
    have hsettles := outside_settles hchange
    refine ⟨hstore, ?_, hinv.unique, ?_⟩
    · intro other exchange hother
      exact (hinv.exchanges other exchange hother).transfer
        (hsettles.undisturbed other) fun code hgone => hgone.settles hsettles
    · intro key hcommitted
      rcases hnew key hcommitted with hbefore | huser | hcode
      · exact hinv.minted key hbefore
      · exact Or.inl huser
      · exact Or.inr (Or.inl hcode)
  · have hphase : started.phase = .load := of_decide_eq_true hinitial
    have hburnt : started.burnt = none := by simp [CodeExchange.burnt, hphase]
    refine ⟨hstore, ?_, ?_, ?_⟩
    · intro other exchange hother
      rcases procs_append_cases hother with ⟨rfl, rfl⟩ | hold
      · exact .of_unburnt hinv.owner_length hburnt (by simp [hphase])
      · exact hinv.exchanges other exchange hold
    · intro first second one two hfirst hsecond hone htwo hsame
      rcases procs_append_cases hfirst with ⟨rfl, rfl⟩ | hold
      · simp [hburnt] at hone
      · rcases procs_append_cases hsecond with ⟨rfl, rfl⟩ | hother
        · simp [hburnt] at htwo
        · exact hinv.unique first second one two hold hother hone htwo hsame
    · intro key hcommitted
      refine (hinv.minted key hcommitted).imp_right (Or.imp_right ?_)
      rintro ⟨other, done, burn, refresh, access, hdone, hrest⟩
      refine ⟨other, done, burn, refresh, access, ?_, hrest⟩
      have hlt := (List.getElem?_eq_some_iff.mp hdone).1
      exact (List.getElem?_append_left hlt).trans hdone
  · exact hinv.advance hproc hstore hadvance
  · have hacts : Acts pid world.shared (world.shared.rollback pid) := .rollback
    refine ⟨hstore, ?_, ?_, ?_⟩
    · intro other exchange hother
      rcases procs_set_cases hother with ⟨rfl, rfl⟩ | ⟨hne, hold⟩
      · exact .of_unburnt owner_rollback_ne rfl (by simp [codeRules, credentialRules])
      · exact (hinv.exchanges other exchange hold).transfer
          (hacts.undisturbed hinv.unused hne) fun code hgone => hgone.acts hacts
    · intro first second one two hfirst hsecond hone htwo hsame
      rcases procs_set_cases hfirst with ⟨rfl, rfl⟩ | ⟨-, hold⟩
      · cases hone
      · rcases procs_set_cases hsecond with ⟨rfl, rfl⟩ | ⟨-, hother⟩
        · cases htwo
        · exact hinv.unique first second one two hold hother hone htwo hsame
    · intro key hcommitted
      refine (hinv.minted key hcommitted).imp_right (Or.imp_right fun hfrom => ?_)
      exact hfrom.set hproc hrunning _ _

end World

/-! ### What the burn read -/

/-- What the burning statement read, from its snapshot on. -/
def CodeExchange.reading (exchange : CodeExchange) : Option Burn :=
  match exchange.phase with
  | .burning _ burn => some burn
  | .burned _ burn => burn
  | _ => exchange.burnt

/-- Runs of code exchanges from empty tables. -/
abbrev CodeRun (config : CredentialConfig) :
    World Shared CodeExchange → World Shared CodeExchange → Prop :=
  Reach (worldStep (codeRules config))

/-- On the way to `world` the process stood at `phase` with these facts of the
tables. -/
def PassedThrough (config : CredentialConfig)
    (world : World Shared CodeExchange) (pid : Nat) (exchange : CodeExchange)
    (phase : CodePhase) (facts : CredentialStore → Prop) : Prop :=
  ∃ earlier : World Shared CodeExchange,
    CodeRun config ⟨.empty, []⟩ earlier ∧ CodeRun config earlier world ∧
      earlier.procs[pid]? = some { exchange with phase := phase } ∧
      facts earlier.shared.store

/-- The process took the snapshot of its burning statement when this code and
this user were committed. -/
def BurnSnapshot (config : CredentialConfig) (world : World Shared CodeExchange)
    (pid : Nat) (exchange : CodeExchange) (burn : Burn) : Prop :=
  ∃ subject,
    PassedThrough config world pid exchange (.burn subject burn.now)
      fun store => store.committed (.code exchange.code) = some burn.row ∧
        store.committed (.user burn.row.userId) = burn.user

/-- The process itself deleted the stored code, under its lock. -/
def BurnDeletion (config : CredentialConfig) (world : World Shared CodeExchange)
    (pid : Nat) (exchange : CodeExchange) (burn : Burn) : Prop :=
  ∃ subject,
    PassedThrough config world pid exchange (.burned subject (some burn))
      fun store => store.owner (.code exchange.code) = some pid ∧
        store.dirty (.code exchange.code) = none ∧
        store.committed (.code exchange.code) = some burn.row

section History

variable {config : CredentialConfig} {pid : Nat} {shared next : Shared}
  {exchange after : CodeExchange} {world : World Shared CodeExchange}

theorem PassedThrough.tail {phase : CodePhase}
    {facts : CredentialStore → Prop} {later : World Shared CodeExchange}
    {event : WorldEvent CodeExchange Outside}
    (hpassed : PassedThrough config world pid exchange phase facts)
    (hstep : worldStep (codeRules config) world event = some later) :
    PassedThrough config later pid exchange phase facts := by
  obtain ⟨earlier, hbefore, hsince, hrest⟩ := hpassed
  exact ⟨earlier, hbefore, hsince.tail trivial hstep, hrest⟩

/-- Only burns lock codes. -/
theorem CodesInv.dirty_code (hinv : CodesInv world) {code : Nat}
    (howner : world.shared.store.owner (.code code) = some pid) :
    world.shared.store.dirty (.code code) = none := by
  have hlt := hinv.owners _ _ howner
  have hexchange := hinv.exchanges pid _ (List.getElem?_eq_getElem hlt)
  have hmay := hexchange.own _ howner
  generalize world.procs[pid] = exchange at hexchange hmay
  unfold CodeExchange.mayOwn at hmay
  split at hmay
  · rename_i subject burn hphase
    cases hmay
    exact (hexchange.deleted subject burn hphase).2.1
  · cases hmay
  · cases hmay
  · rcases hmay with hkey | hkey <;> cases hkey
  · cases hmay

/-- A code is never changed, only deleted. -/
theorem CodesInv.code_step {later : World Shared CodeExchange}
    {event : WorldEvent CodeExchange Outside} (hinv : CodesInv world)
    (hstep : worldStep (codeRules config) world event = some later) {code : Nat}
    (hused : code < world.shared.fresh) :
    code < later.shared.fresh ∧
      (later.shared.store.committed (.code code) =
          world.shared.store.committed (.code code) ∨
        later.shared.store.committed (.code code) = none) := by
  rcases worldStep_cases hstep with
    ⟨change, shared, -, houtside, rfl⟩ | ⟨started, -, hinitial, rfl⟩ |
    ⟨pid, proc, shared, moved, -, hproc, hadvance, rfl⟩ |
    ⟨pid, proc, -, hproc, hrunning, rfl⟩
  · have hsettles := outside_settles (codeRules_outside houtside).1
    exact ⟨Nat.lt_of_lt_of_le hused hsettles.fresh,
      hsettles.old _ code rfl hused⟩
  · exact ⟨hused, Or.inl rfl⟩
  · have hacts := codeStep_acts hadvance
    refine ⟨Nat.lt_of_lt_of_le hused hacts.fresh_le, ?_⟩
    rcases hacts.committed_eq (.code code) with hsame | rfl
    · exact Or.inl hsame
    · by_cases howner : world.shared.store.owner (.code code) = some pid
      · exact Or.inr ((RowStore.view_of_owner howner).trans
          (hinv.dirty_code howner))
      · exact Or.inl (RowStore.view_of_not_owner howner)
  · exact ⟨hused, Or.inl rfl⟩

theorem codesInv_of_run (hreach : CodeRun config ⟨.empty, []⟩ world) :
    CodesInv world :=
  hreach.invariant codesInv_empty fun _ _ _ hinv _ hstep => hinv.step hstep

/-- Whatever happened since, the code is the one read then or gone. -/
theorem code_since {earlier : World Shared CodeExchange}
    (hbefore : CodeRun config ⟨.empty, []⟩ earlier)
    (hsince : CodeRun config earlier world) {code : Nat} {row : CodeRow}
    (hrow : earlier.shared.store.committed (.code code) = some row) :
    world.shared.store.committed (.code code) = some row ∨
      world.shared.store.committed (.code code) = none := by
  have hinv := codesInv_of_run hbefore
  have hstored : earlier.shared.store.committed (.code code) ≠ none := by
    simp [hrow]
  have hused := hinv.unused.lt_of_committed hstored rfl
  have hall : CodesInv world ∧ code < world.shared.fresh ∧
      (world.shared.store.committed (.code code) = some row ∨
        world.shared.store.committed (.code code) = none) := by
    apply hsince.invariant
    · exact ⟨hinv, hused, Or.inl hrow⟩
    · rintro state event later ⟨hstate, hlt, hcode⟩ - hstep
      obtain ⟨hlater, hkept⟩ := hstate.code_step hstep hlt
      refine ⟨hstate.step hstep, hlater, ?_⟩
      rcases hkept with hsame | hnone
      · rwa [hsame]
      · exact Or.inr hnone
  exact hall.2.2

/-- A step of the process itself keeps what it read, or takes the snapshot, or
finds at the locked row what it read. -/
theorem reading_of_codeStep {burn : Burn}
    (hinv : CodeInv shared pid exchange)
    (hstep : codeStep config pid shared exchange = some (next, after))
    (hreading : after.reading = some burn) :
    exchange.reading = some burn ∨
      (∃ subject, exchange.phase = .burn subject burn.now ∧
        shared.store.committed (.code exchange.code) = some burn.row ∧
        shared.store.committed (.user burn.row.userId) = burn.user) ∨
      ∃ subject taken row, exchange.phase = .burning subject taken ∧
        shared.store.committed (.code exchange.code) = some row ∧
        burn = { taken with row := row } := by
  have hview : (∀ key, ¬ exchange.mayOwn key) →
      ∀ key, shared.read pid key = shared.store.committed key :=
    fun hmay key =>
      RowStore.view_of_not_owner fun howner => hmay key (hinv.own key howner)
  unfold codeStep at hstep
  cases hphase : exchange.phase <;> simp only [hphase] at hstep
  case load =>
    repeat' split at hstep
    all_goals
      cases hstep
      simp [CodeExchange.reading, CodeExchange.burnt] at hreading
  case begin =>
    cases hstep
    simp [CodeExchange.reading, CodeExchange.burnt] at hreading
  case burn subject now =>
    have hread := hview (by simp [CodeExchange.mayOwn, hphase])
    split at hstep
    · cases hstep
      simp [CodeExchange.reading] at hreading
    · rename_i row hrow
      cases hstep
      obtain rfl := Option.some.inj hreading
      exact Or.inr (Or.inl ⟨subject, rfl, (hread _).symm.trans hrow,
        (hread _).symm⟩)
  case burning subject taken =>
    have hread := hview (by simp [CodeExchange.mayOwn, hphase])
    split at hstep
    · split at hstep
      · cases hstep
        simp [CodeExchange.reading] at hreading
      · rename_i row hrow
        cases hstep
        obtain rfl := Option.some.inj hreading
        exact Or.inr (Or.inr ⟨subject, taken, row, rfl,
          (hread _).symm.trans hrow, rfl⟩)
    · cases hstep
  case burned subject result =>
    split at hstep
    · cases hstep
      simp [CodeExchange.reading, CodeExchange.burnt] at hreading
    · rename_i burnt
      cases hstep
      by_cases hvalid : burnt.stillValid = true
      · simp only [hvalid, ↓reduceIte] at hreading
        exact Or.inl (by
          simpa [CodeExchange.reading, CodeExchange.burnt, hphase] using hreading)
      · simp [hvalid, CodeExchange.reading, CodeExchange.burnt] at hreading
  case mintBegin | finish =>
    cases hstep
    exact Or.inl (by
      simpa [CodeExchange.reading, CodeExchange.burnt, hphase] using hreading)
  case mintRefresh | loadNew | mintAccess =>
    split at hstep
    all_goals
      cases hstep
      simp [CodeExchange.reading, CodeExchange.burnt] at hreading
      try exact Or.inl (by
        simpa [CodeExchange.reading, CodeExchange.burnt, hphase] using hreading)
  case done | stopped => cases hstep

/-- What is on record of an exchange: put there when its own step first needs
it, and kept by every other step. -/
theorem record_of_run {got : CodeExchange → Option Burn}
    {Record : World Shared CodeExchange → Nat → CodeExchange → Burn → Prop}
    (hload : ∀ exchange, exchange.phase = .load → got exchange = none)
    (hstopped : got (codeRules config).stopped = none)
    (hkeep : ∀ world event later pid exchange burn,
      worldStep (codeRules config) world event = some later →
      Record world pid exchange burn → Record later pid exchange burn)
    (hown : ∀ (world : World Shared CodeExchange) (pid : Nat)
      (exchange : CodeExchange) (next : Shared) (after : CodeExchange) (burn : Burn),
      CodeRun config ⟨.empty, []⟩ world → world.procs[pid]? = some exchange →
      (∀ burn, got exchange = some burn → Record world pid exchange burn) →
      codeStep config pid world.shared exchange = some (next, after) →
      got after = some burn → Record world pid after burn)
    (hreach : CodeRun config ⟨.empty, []⟩ world) :
    ∀ (pid : Nat) (exchange : CodeExchange) (burn : Burn),
      world.procs[pid]? = some exchange → got exchange = some burn →
      Record world pid exchange burn := by
  induction hreach with
  | refl => simp
  | @tail state later event hbefore _ hstep ih =>
      intro other exchange burn hother hgot
      refine hkeep state event later other exchange burn hstep ?_
      rcases worldStep_cases hstep with
        ⟨change, shared, -, houtside, rfl⟩ | ⟨started, -, hinitial, rfl⟩ |
        ⟨pid, proc, shared, moved, -, hproc, hadvance, rfl⟩ |
        ⟨pid, proc, -, hproc, hrunning, rfl⟩
      · exact ih other exchange burn hother hgot
      · rcases procs_append_cases hother with ⟨rfl, rfl⟩ | hold
        · rw [hload exchange (of_decide_eq_true hinitial)] at hgot
          cases hgot
        · exact ih other exchange burn hold hgot
      · rcases procs_set_cases hother with ⟨rfl, rfl⟩ | ⟨-, hold⟩
        · exact hown state other proc shared exchange burn hbefore hproc
            (fun burn => ih other proc burn hproc) hadvance hgot
        · exact ih other exchange burn hold hgot
      · rcases procs_set_cases hother with ⟨rfl, rfl⟩ | ⟨-, hold⟩
        · rw [hstopped] at hgot
          cases hgot
        · exact ih other exchange burn hold hgot

theorem burnSnapshot_of_run (hreach : CodeRun config ⟨.empty, []⟩ world)
    {burn : Burn} (hproc : world.procs[pid]? = some exchange)
    (hreading : exchange.reading = some burn) :
    BurnSnapshot config world pid exchange burn := by
  refine record_of_run (fun exchange hphase => ?_) rfl ?_ ?_ hreach pid exchange
    burn hproc hreading
  · simp [CodeExchange.reading, CodeExchange.burnt, hphase]
  · rintro world event later pid exchange burn hstep ⟨subject, hpassed⟩
    exact ⟨subject, hpassed.tail hstep⟩
  · intro state pid exchange next after burn hstate hproc hrecord hstep hgot
    have hmine := (codesInv_of_run hstate).exchanges pid exchange hproc
    suffices hbefore : BurnSnapshot config state pid exchange burn by
      obtain ⟨subject, hpassed⟩ := hbefore
      rw [codeStep_phase hstep]
      exact ⟨subject, hpassed⟩
    rcases reading_of_codeStep hmine hstep hgot with hkept |
      ⟨subject, hphase, hread⟩ | ⟨subject, taken, row, hphase, hrow, rfl⟩
    · exact hrecord burn hkept
    · refine ⟨subject, state, hstate, .refl, ?_, hread⟩
      rw [← hphase]
      exact hproc
    · -- the row under the lock is the row of the snapshot
      have htaken := hrecord taken (by simp [CodeExchange.reading, hphase])
      obtain ⟨_, earlier, hstart, hsince, _, hread, _⟩ := id htaken
      rcases code_since hstart hsince hread with hsame | hnone
      · obtain rfl := Option.some.inj (hrow.symm.trans hsame)
        exact htaken
      · rw [hnone] at hrow
        cases hrow

theorem burnDeletion_of_run (hreach : CodeRun config ⟨.empty, []⟩ world)
    {burn : Burn} (hproc : world.procs[pid]? = some exchange)
    (hburnt : exchange.burnt = some burn) :
    BurnDeletion config world pid exchange burn := by
  refine record_of_run (fun exchange hphase => ?_) rfl ?_ ?_ hreach pid exchange
    burn hproc hburnt
  · simp [CodeExchange.burnt, hphase]
  · rintro world event later pid exchange burn hstep ⟨subject, hpassed⟩
    exact ⟨subject, hpassed.tail hstep⟩
  · intro state pid exchange next after burn hstate hproc hrecord hstep hgot
    have hmine := (codesInv_of_run hstate).exchanges pid exchange hproc
    suffices hbefore : BurnDeletion config state pid exchange burn by
      obtain ⟨subject, hpassed⟩ := hbefore
      rw [codeStep_phase hstep]
      exact ⟨subject, hpassed⟩
    rcases burnt_of_codeStep hstep hgot with hkept | ⟨subject, hphase⟩
    · exact hrecord burn hkept
    · refine ⟨subject, state, hstate, .refl, ?_,
        hmine.deleted subject burn hphase⟩
      rw [← hphase]
      exact hproc

end History

/-- What the verdict of the burn means. -/
theorem Burn.of_stillValid {burn : Burn} (hvalid : burn.stillValid = true) :
    burn.now < burn.row.expiresAt ∧
      ∃ user, burn.user = some user ∧ user.disabledAt = none ∧
        ∀ cutoff, user.sessionsInvalidatedAt = some cutoff →
          cutoff ≤ burn.row.createdAt := by
  unfold Burn.stillValid at hvalid
  cases huser : burn.user with
  | none => simp [huser] at hvalid
  | some user =>
      simp only [huser, Option.isSome_some, Bool.true_and, Bool.and_eq_true,
        decide_eq_true_eq] at hvalid
      refine ⟨hvalid.1, user, rfl, ?_, ?_⟩
      · have hcredential := hvalid.2
        simp only [credentialValidSql, Option.bind_some, Bool.and_eq_true,
          Option.isNone_iff_eq_none] at hcredential
        exact hcredential.1
      · intro cutoff hcutoff
        exact cutoff_le_of_credentialValidSql hvalid.2 hcutoff

/-- However exchanges of a code interleave, fail and are repeated: no two of
them commit a pair, every committed pair is one of theirs, and the one that
commits had itself deleted the code, having read it unexpired with an existing,
enabled, unrevoked user. -/
theorem code_mints_at_most_once {config : CredentialConfig}
    {world : World Shared CodeExchange}
    (hreach : CodeRun config ⟨.empty, []⟩ world) :
    (∀ (pid other : Nat) (first second : CodeExchange) (burn again : Burn)
      (refresh access refresh' access' : Nat),
      world.procs[pid]? = some first → world.procs[other]? = some second →
      first.phase = .done burn refresh access →
      second.phase = .done again refresh' access' →
      first.code = second.code → pid = other) ∧
    (∀ secret, world.shared.store.committed (.refresh secret) ≠ none →
      FromExchange world (.refresh secret)) ∧
    (∀ secret, world.shared.store.committed (.token secret) ≠ none →
      FromExchange world (.token secret)) ∧
    ∀ (pid : Nat) (exchange : CodeExchange) (burn : Burn)
      (refresh access : Nat),
      world.procs[pid]? = some exchange →
      exchange.phase = .done burn refresh access →
      world.shared.store.committed (.code exchange.code) = none ∧
      BurnDeletion config world pid exchange burn ∧
      BurnSnapshot config world pid exchange burn ∧
      burn.now < burn.row.expiresAt ∧
      ∃ user, burn.user = some user ∧ user.disabledAt = none ∧
        ∀ cutoff, user.sessionsInvalidatedAt = some cutoff →
          cutoff ≤ burn.row.createdAt := by
  have hinv := codesInv_of_run hreach
  refine ⟨?_, ?_, ?_, ?_⟩
  · intro pid other first second burn again refresh access refresh' access'
      hfirst hsecond hone htwo hsame
    exact hinv.unique pid other first second hfirst hsecond
      (by simp [CodeExchange.burnt, hone]) (by simp [CodeExchange.burnt, htwo])
      hsame
  · intro secret hcommitted
    simpa using hinv.minted _ hcommitted
  · intro secret hcommitted
    simpa using hinv.minted _ hcommitted
  · intro pid exchange burn refresh access hproc hphase
    have hburnt : exchange.burnt = some burn := by
      simp [CodeExchange.burnt, hphase]
    have hreading : exchange.reading = some burn := by
      simp [CodeExchange.reading, CodeExchange.burnt, hphase]
    obtain ⟨hgone, hvalid⟩ := (hinv.exchanges pid exchange hproc).burnt burn hburnt
    exact ⟨hgone.committed, burnDeletion_of_run hreach hproc hburnt,
      burnSnapshot_of_run hreach hproc hreading, Burn.of_stillValid hvalid⟩

/-! Two exchanges of one code take their snapshots before either deletes it;
the second finds it gone and stops. -/

namespace CodeReplayWitness

def config : CredentialConfig := ⟨3600, 60⟩

def person : UserRow := ⟨text "ann", text "hash", false, false, none, none⟩

def client : Text := text "mcp"

def events : List (WorldEvent CodeExchange Outside) :=
  [.outside (.setUser 7 person), .outside (.consent 7 client 0 (secs 60)),
    .spawn ⟨0, client, .load⟩, .spawn ⟨0, client, .load⟩,
    .advance 0, .advance 0, .advance 0, .advance 1, .advance 1, .advance 1,
    .advance 0, .advance 0, .advance 1, .advance 1,
    .advance 0, .advance 0, .advance 0, .advance 0, .advance 0]

def burn : Burn := ⟨⟨client, 7, 0, secs 60⟩, some person, 0⟩

def winner : CodeExchange := ⟨0, client, .done burn 1 2⟩

end CodeReplayWitness

open CodeReplayWitness in
theorem code_mints_at_most_once_replayed :
    ∃ world, CodeRun config ⟨.empty, []⟩ world ∧
      world.procs = [winner, ⟨0, client, .stopped⟩] ∧
      BurnDeletion config world 0 winner burn := by
  obtain ⟨world, hworld, hprocs⟩ :
      ∃ world, replayGuarded (worldStep (codeRules config)) (fun _ _ => True)
          ⟨.empty, []⟩ events = some world ∧
        world.procs = [winner, ⟨0, client, .stopped⟩] := by
    refine ⟨_, rfl, ?_⟩
    decide
  have hreach : CodeRun config ⟨.empty, []⟩ world := .of_replay _ hworld
  refine ⟨world, hreach, hprocs, ?_⟩
  obtain ⟨-, -, -, hdone⟩ := code_mints_at_most_once hreach
  exact (hdone 0 winner burn 1 2 (by simp [hprocs]) rfl).2.1

end Localmail
