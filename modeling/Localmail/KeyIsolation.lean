/-
API keys stay apart from interactive credentials.  Every effect a request has
keeps the invariant, the principal of a key keeps its password hash
throughout, and a request that presents a key is refused.
-/
import Localmail.LabelledRun
import Localmail.AuthEffects

namespace Localmail

open AuthTables

/-! ### The invariant -/

/-- What keeps the two kinds of credential apart. -/
structure KeysIsolated (db : AuthTables) : Prop where
  service : ∀ secret row user, db.tokens secret = some row →
    db.users row.userId = some user → user.isService = true →
      row.apiKeyName.isSome ∧ row.expiresAt = none
  owner : ∀ secret row, db.tokens secret = some row →
    row.apiKeyName.isSome →
      ∃ user, db.users row.userId = some user ∧ user.isService = true
  single : ∀ first second row other, db.tokens first = some row →
    db.tokens second = some other → row.apiKeyName.isSome →
      other.apiKeyName.isSome → row.userId = other.userId → first = second
  notAdmin : ∀ id user, db.users id = some user → user.isService = true →
    user.isAdmin = false

/-- With it, that ids and secrets are given out once, and no token outlives
its user. -/
structure AuthInv (db : AuthTables) : Prop extends KeysIsolated db where
  owned : ∀ secret row, db.tokens secret = some row →
    (db.users row.userId).isSome
  usersBelow : ∀ id, (db.users id).isSome → id < db.nextUser
  tokensBelow : ∀ secret, (db.tokens secret).isSome → secret < db.fresh
  codesBelow : ∀ secret, (db.codes secret).isSome → secret < db.fresh
  refreshesBelow : ∀ secret, (db.refreshes secret).isSome →
    secret < db.fresh
  apart : ∀ secret, (db.tokens secret).isSome →
    db.codes secret = none ∧ db.refreshes secret = none

theorem authInv_empty : AuthInv .empty where
  service := by simp [empty]
  owner := by simp [empty]
  single := by simp [empty]
  notAdmin := by simp [empty]
  owned := by simp [empty]
  usersBelow := by simp [empty]
  tokensBelow := by simp [empty]
  codesBelow := by simp [empty]
  refreshesBelow := by simp [empty]
  apart := by simp [empty]

namespace AuthInv

variable {db : AuthTables} (hinv : AuthInv db)

include hinv

/-- A token's user is not the next one. -/
theorem userId_ne_nextUser {secret : Nat} {row : TokenRow}
    (htoken : db.tokens secret = some row) : row.userId ≠ db.nextUser := by
  have hbelow := hinv.usersBelow _ (hinv.owned secret row htoken)
  omega

theorem insertUser {row : UserRow}
    (hadmin : row.isService = true → row.isAdmin = false) :
    AuthInv (db.insertUser row) := by
  have hsame : ∀ secret token, db.tokens secret = some token →
      (db.insertUser row).users token.userId = db.users token.userId :=
    fun secret token htoken =>
      Function.update_of_ne (hinv.userId_ne_nextUser htoken) _ _
  constructor
  · constructor
    · intro secret token user htoken huser
      exact hinv.service secret token user htoken
        ((hsame secret token htoken).symm.trans huser)
    · intro secret token htoken hkey
      rw [hsame secret token htoken]
      exact hinv.owner secret token htoken hkey
    · exact hinv.single
    · intro id user huser hservice
      by_cases hid : id = db.nextUser
      · subst hid
        cases (Function.update_self (β := fun _ => Option UserRow) ..).symm.trans huser
        exact hadmin hservice
      · exact hinv.notAdmin id user
          ((Function.update_of_ne hid _ _).symm.trans huser) hservice
  · intro secret token htoken
    rw [hsame secret token htoken]
    exact hinv.owned secret token htoken
  · intro id hsome
    by_cases hid : id = db.nextUser
    · exact hid ▸ Nat.lt_succ_self _
    · have hbelow := hinv.usersBelow id
        (by simpa [AuthTables.insertUser, Function.update_of_ne hid]
          using hsome)
      exact Nat.lt_succ_of_lt hbelow
  · exact hinv.tokensBelow
  · exact hinv.codesBelow
  · exact hinv.refreshesBelow
  · exact hinv.apart

/-- Rows only disappear or change in what the invariant does not read. -/
theorem thinned {after : AuthTables}
    (husers : ∀ id user', after.users id = some user' →
      ∃ user, db.users id = some user ∧ user'.isService = user.isService ∧
        (user.isService = true → user'.isAdmin = true → user.isAdmin = true))
    (htokens : ∀ secret row', after.tokens secret = some row' →
      ∃ row, db.tokens secret = some row ∧ row'.userId = row.userId ∧
        row'.apiKeyName = row.apiKeyName ∧ row'.expiresAt = row.expiresAt)
    (howned : ∀ secret row, after.tokens secret = some row →
      (after.users row.userId).isSome)
    (hcodes : ∀ secret, (after.codes secret).isSome →
      (db.codes secret).isSome)
    (hrefreshes : ∀ secret, (after.refreshes secret).isSome →
      (db.refreshes secret).isSome)
    (hnext : after.nextUser = db.nextUser) (hfresh : after.fresh = db.fresh) :
    AuthInv after := by
  have htoken_some : ∀ secret, (after.tokens secret).isSome →
      (db.tokens secret).isSome := by
    intro secret hsome
    obtain ⟨row', hrow'⟩ := Option.isSome_iff_exists.mp hsome
    obtain ⟨row, hrow, -⟩ := htokens secret row' hrow'
    simp [hrow]
  constructor
  · constructor
    · intro secret row' user' hrow' huser' hservice
      obtain ⟨row, hrow, hid, hname, hexpires⟩ := htokens secret row' hrow'
      obtain ⟨user, huser, hkind, -⟩ := husers _ user' huser'
      rw [hname, hexpires]
      exact hinv.service secret row user hrow (hid ▸ huser)
        (hkind ▸ hservice)
    · intro secret row' hrow' hkey
      obtain ⟨row, hrow, hid, hname, -⟩ := htokens secret row' hrow'
      obtain ⟨user, huser, hservice⟩ := hinv.owner secret row hrow
        (hname ▸ hkey)
      obtain ⟨user', huser'⟩ :=
        Option.isSome_iff_exists.mp (howned secret row' hrow')
      obtain ⟨found, hfound, hkind, -⟩ := husers _ user' huser'
      rw [hid, huser] at hfound
      cases hfound
      exact ⟨user', huser', hkind.trans hservice⟩
    · intro first second row' other' hrow' hother' hkey hkey' hsame
      obtain ⟨row, hrow, hid, hname, -⟩ := htokens first row' hrow'
      obtain ⟨other, hother, hid', hname', -⟩ := htokens second other' hother'
      exact hinv.single first second row other hrow hother (hname ▸ hkey)
        (hname' ▸ hkey') (hid ▸ hid' ▸ hsame)
    · intro id user' huser' hservice
      obtain ⟨user, huser, hkind, hadmin⟩ := husers id user' huser'
      have hnot := hinv.notAdmin id user huser (hkind ▸ hservice)
      by_contra htrue
      have hpromoted := hadmin (hkind ▸ hservice)
        (Bool.eq_true_of_not_eq_false htrue)
      rw [hnot] at hpromoted
      cases hpromoted
  · exact howned
  · intro id hsome
    obtain ⟨user', huser'⟩ := Option.isSome_iff_exists.mp hsome
    obtain ⟨user, huser, -⟩ := husers id user' huser'
    rw [hnext]
    exact hinv.usersBelow id (by simp [huser])
  · intro secret hsome
    rw [hfresh]
    exact hinv.tokensBelow secret (htoken_some secret hsome)
  · intro secret hsome
    rw [hfresh]
    exact hinv.codesBelow secret (hcodes secret hsome)
  · intro secret hsome
    rw [hfresh]
    exact hinv.refreshesBelow secret (hrefreshes secret hsome)
  · intro secret hsome
    obtain ⟨hcode, hrefresh⟩ := hinv.apart secret (htoken_some secret hsome)
    constructor
    · by_contra hne
      have hold := hcodes secret (Option.isSome_iff_ne_none.mpr hne)
      simp [hcode] at hold
    · by_contra hne
      have hold := hrefreshes secret (Option.isSome_iff_ne_none.mpr hne)
      simp [hrefresh] at hold

theorem updateUser {id : Nat} {change : UserRow → UserRow}
    (hkind : ∀ row, (change row).isService = row.isService)
    (hadmin : ∀ row, db.users id = some row → row.isService = true →
      (change row).isAdmin = true → row.isAdmin = true) :
    AuthInv (db.updateUser id change) := by
  apply hinv.thinned
  · intro other user' huser'
    by_cases hother : other = id
    · subst hother
      simp only [AuthTables.updateUser, Function.update_self,
        Option.map_eq_some_iff] at huser'
      obtain ⟨user, huser, rfl⟩ := huser'
      exact ⟨user, huser, hkind user, hadmin user huser⟩
    · simp only [AuthTables.updateUser, Function.update_of_ne hother]
        at huser'
      exact ⟨user', huser', rfl, fun _ hold => hold⟩
  · exact fun secret row hrow => ⟨row, hrow, rfl, rfl, rfl⟩
  · intro secret row hrow
    have howned := hinv.owned secret row hrow
    by_cases hother : row.userId = id
    · simpa [AuthTables.updateUser, hother] using howned
    · simpa [AuthTables.updateUser, Function.update_of_ne hother]
        using howned
  · exact fun _ hsome => hsome
  · exact fun _ hsome => hsome
  · rfl
  · rfl

theorem deleteUser (id : Nat) : AuthInv (db.deleteUserRow id) := by
  apply hinv.thinned
  · intro other user' huser'
    by_cases hother : other = id
    · subst hother
      simp [deleteUserRow] at huser'
    · simp only [deleteUserRow, Function.update_of_ne hother] at huser'
      exact ⟨user', huser', rfl, fun _ hold => hold⟩
  · intro secret row hrow
    exact ⟨row, (Option.filter_eq_some_iff.mp hrow).1, rfl, rfl, rfl⟩
  · intro secret row hrow
    obtain ⟨hold, hne⟩ := Option.filter_eq_some_iff.mp hrow
    simp only [deleteUserRow, Function.update_of_ne (of_decide_eq_true hne)]
    exact hinv.owned secret row hold
  · exact fun _ hsome => Option.isSome_of_isSome_filter _ _ hsome
  · exact fun _ hsome => Option.isSome_of_isSome_filter _ _ hsome
  · rfl
  · rfl

theorem touch (secret now : Nat) :
    AuthInv (db.updateToken secret fun row =>
      { row with lastUsedAt := some now }) := by
  have hfrom : ∀ other row', (db.updateToken secret fun row =>
      { row with lastUsedAt := some now }).tokens other = some row' →
        ∃ row, db.tokens other = some row ∧ row'.userId = row.userId ∧
          row'.apiKeyName = row.apiKeyName ∧
          row'.expiresAt = row.expiresAt := by
    intro other row' hrow'
    by_cases hother : other = secret
    · subst hother
      simp only [AuthTables.updateToken, Function.update_self,
        Option.map_eq_some_iff] at hrow'
      obtain ⟨row, hrow, rfl⟩ := hrow'
      exact ⟨row, hrow, rfl, rfl, rfl⟩
    · simp only [AuthTables.updateToken, Function.update_of_ne hother]
        at hrow'
      exact ⟨row', hrow', rfl, rfl, rfl⟩
  apply hinv.thinned
  · exact fun id user huser => ⟨user, huser, rfl, fun _ hold => hold⟩
  · exact hfrom
  · intro other row' hrow'
    obtain ⟨row, hrow, hid, -⟩ := hfrom other row' hrow'
    rw [hid]
    exact hinv.owned other row hrow
  · exact fun _ hsome => hsome
  · exact fun _ hsome => hsome
  · rfl
  · rfl

theorem deleteTokens (chosen : Nat → TokenRow → Bool) :
    AuthInv (db.deleteTokens chosen) := by
  apply hinv.thinned
  · exact fun id user huser => ⟨user, huser, rfl, fun _ hold => hold⟩
  · intro secret row hrow
    exact ⟨row, (Option.filter_eq_some_iff.mp hrow).1, rfl, rfl, rfl⟩
  · intro secret row hrow
    exact hinv.owned secret row (Option.filter_eq_some_iff.mp hrow).1
  · exact fun _ hsome => hsome
  · exact fun _ hsome => hsome
  · rfl
  · rfl

/-- A new token under the next secret: of a person and no key, or the first
key of a service principal. -/
theorem insertToken {row : TokenRow} {user : UserRow}
    (huser : db.users row.userId = some user)
    (hkind : user.isService = row.apiKeyName.isSome)
    (hexpires : row.apiKeyName.isSome → row.expiresAt = none)
    (hfree : row.apiKeyName.isSome → db.holdsKey row.userId = false) :
    AuthInv (db.insertToken row) := by
  have hcases : ∀ secret token,
      (db.insertToken row).tokens secret = some token →
        secret = db.fresh ∧ token = row ∨ db.tokens secret = some token := by
    intro secret token htoken
    by_cases hsecret : secret = db.fresh
    · subst hsecret
      simp only [AuthTables.insertToken, Function.update_self,
        Option.some.injEq] at htoken
      exact .inl ⟨rfl, htoken.symm⟩
    · simp only [AuthTables.insertToken, Function.update_of_ne hsecret]
        at htoken
      exact .inr htoken
  -- the unique index: no other key of this user
  have hfirst : ∀ secret token, db.tokens secret = some token →
      token.apiKeyName.isSome → row.apiKeyName.isSome →
        token.userId ≠ row.userId := by
    intro secret token htoken hkey hrowKey hsame
    have hnone := hfree hrowKey
    simp only [holdsKey, List.any_eq_false, List.mem_range] at hnone
    apply hnone secret (hinv.tokensBelow secret (by simp [htoken]))
    simp [htoken, hsame, hkey]
  constructor
  · constructor
    · intro secret token owner htoken howner hservice
      obtain ⟨-, rfl⟩ | htoken := hcases secret token htoken
      · cases huser.symm.trans howner
        have hkey := hkind.symm.trans hservice
        exact ⟨hkey, hexpires hkey⟩
      · exact hinv.service secret token owner htoken howner hservice
    · intro secret token htoken hkey
      obtain ⟨-, rfl⟩ | htoken := hcases secret token htoken
      · exact ⟨user, huser, hkind.trans hkey⟩
      · exact hinv.owner secret token htoken hkey
    · intro first second one two hone htwo hkey hkey' hsame
      obtain ⟨rfl, rfl⟩ | hold := hcases first one hone
      · obtain ⟨rfl, rfl⟩ | hold' := hcases second two htwo
        · rfl
        · exact absurd hsame.symm (hfirst second two hold' hkey' hkey)
      · obtain ⟨rfl, rfl⟩ | hold' := hcases second two htwo
        · exact absurd hsame (hfirst first one hold hkey hkey')
        · exact hinv.single first second one two hold hold' hkey hkey' hsame
    · exact hinv.notAdmin
  · intro secret token htoken
    obtain ⟨-, rfl⟩ | htoken := hcases secret token htoken
    · exact Option.isSome_iff_exists.mpr ⟨user, huser⟩
    · exact hinv.owned secret token htoken
  · exact hinv.usersBelow
  · intro secret hsome
    obtain ⟨token, htoken⟩ := Option.isSome_iff_exists.mp hsome
    obtain ⟨rfl, -⟩ | htoken := hcases secret token htoken
    · exact Nat.lt_succ_self _
    · exact Nat.lt_succ_of_lt (hinv.tokensBelow secret (by simp [htoken]))
  · exact fun secret hsome => Nat.lt_succ_of_lt (hinv.codesBelow secret hsome)
  · exact fun secret hsome =>
      Nat.lt_succ_of_lt (hinv.refreshesBelow secret hsome)
  · intro secret hsome
    obtain ⟨token, htoken⟩ := Option.isSome_iff_exists.mp hsome
    obtain ⟨rfl, -⟩ | htoken := hcases secret token htoken
    · constructor
      · by_contra hne
        have hbelow := hinv.codesBelow db.fresh
          (Option.isSome_iff_ne_none.mpr hne)
        omega
      · by_contra hne
        have hbelow := hinv.refreshesBelow db.fresh
          (Option.isSome_iff_ne_none.mpr hne)
        omega
    · exact hinv.apart secret (by simp [htoken])

theorem grants {codes : Nat → Option CodeRow}
    {refreshes : Nat → Option RefreshRow} {fresh : Nat}
    (hfresh : db.fresh ≤ fresh)
    (hcodes : ∀ secret, (codes secret).isSome →
      (db.codes secret).isSome ∨ db.fresh ≤ secret ∧ secret < fresh)
    (hrefreshes : ∀ secret, (refreshes secret).isSome →
      (db.refreshes secret).isSome ∨ db.fresh ≤ secret ∧ secret < fresh) :
    AuthInv { db with
      codes := codes, refreshes := refreshes, fresh := fresh } where
  service := hinv.service
  owner := hinv.owner
  single := hinv.single
  notAdmin := hinv.notAdmin
  owned := hinv.owned
  usersBelow := hinv.usersBelow
  tokensBelow := fun secret hsome =>
    Nat.lt_of_lt_of_le (hinv.tokensBelow secret hsome) hfresh
  codesBelow := by
    intro secret hsome
    obtain hold | hnew := hcodes secret hsome
    · exact Nat.lt_of_lt_of_le (hinv.codesBelow secret hold) hfresh
    · exact hnew.2
  refreshesBelow := by
    intro secret hsome
    obtain hold | hnew := hrefreshes secret hsome
    · exact Nat.lt_of_lt_of_le (hinv.refreshesBelow secret hold) hfresh
    · exact hnew.2
  apart := by
    intro secret hsome
    have hbelow := hinv.tokensBelow secret hsome
    obtain ⟨hcode, hrefresh⟩ := hinv.apart secret hsome
    constructor
    · by_contra hne
      obtain hold | hnew := hcodes secret (Option.isSome_iff_ne_none.mpr hne)
      · simp [hcode] at hold
      · omega
    · by_contra hne
      obtain hold | hnew :=
        hrefreshes secret (Option.isSome_iff_ne_none.mpr hne)
      · simp [hrefresh] at hold
      · omega

/-- Each effect keeps the invariant. -/
theorem effect {after : AuthTables} (heffect : TableEffect db after) :
    AuthInv after := by
  cases heffect with
  | insertUser row hadmin => exact hinv.insertUser hadmin
  | updateUser id change hkind hservice =>
      exact hinv.updateUser hkind
        fun row hrow hrowService => (hservice row hrow hrowService).2
  | deleteUser id => exact hinv.deleteUser id
  | insertSession row user huser hperson hkind =>
      apply hinv.insertToken huser
      · rw [hperson, hkind]
        rfl
      · simp [hkind]
      · simp [hkind]
  | insertKey row user huser hservice hname hexpires hfree =>
      exact hinv.insertToken huser (hservice.trans hname.symm)
        (fun _ => hexpires) fun _ => hfree
  | touch secret now => exact hinv.touch secret now
  | deleteTokens chosen => exact hinv.deleteTokens chosen
  | grants codes refreshes fresh hfresh hcodes hrefreshes =>
      exact hinv.grants hfresh hcodes hrefreshes

theorem effects {after : AuthTables} (heffects : TableEffects db after) :
    AuthInv after := by
  induction heffects with
  | refl => exact hinv
  | tail _ heffect ih => exact ih.effect heffect

end AuthInv

/-- In every reachable state. -/
theorem authInv_of_reach {config : AuthConfig} {hasher : PasswordHasher}
    {db : AuthTables} (hreach : Reach (authStep config hasher) .empty db) :
    AuthInv db := by
  apply hreach.invariant authInv_empty
  intro before event after hinv _ hstep
  cases hstep
  exact hinv.effects (handle_effects config hasher event.1 before event.2)

/-! ### The principal's password -/

/-- Users that were there are the same kind of user, and a service user that
is still there has the hash it had. -/
structure PrincipalsKept (before after : AuthTables) : Prop where
  next : before.nextUser ≤ after.nextUser
  kept : ∀ id user', id < before.nextUser → after.users id = some user' →
    ∃ user, before.users id = some user ∧
      user'.isService = user.isService ∧
      (user.isService = true → user'.passwordHash = user.passwordHash)

namespace PrincipalsKept

theorem ofUsers {before after : AuthTables} (hnext : before.nextUser ≤ after.nextUser)
    (husers : ∀ id, id < before.nextUser → after.users id = before.users id) :
    PrincipalsKept before after where
  next := hnext
  kept := fun id user' hid huser' =>
    ⟨user', (husers id hid).symm.trans huser', rfl, fun _ => rfl⟩

theorem trans {first second third : AuthTables}
    (hfirst : PrincipalsKept first second)
    (hsecond : PrincipalsKept second third) : PrincipalsKept first third where
  next := Nat.le_trans hfirst.next hsecond.next
  kept := by
    intro id user'' hid huser''
    obtain ⟨user', huser', hkind', hhash'⟩ := hsecond.kept id user''
      (Nat.lt_of_lt_of_le hid hfirst.next) huser''
    obtain ⟨user, huser, hkind, hhash⟩ := hfirst.kept id user' hid huser'
    refine ⟨user, huser, hkind'.trans hkind, fun hservice => ?_⟩
    exact (hhash' (hkind.trans hservice)).trans (hhash hservice)

theorem effect {before after : AuthTables}
    (heffect : TableEffect before after) : PrincipalsKept before after := by
  cases heffect with
  | insertUser row hadmin =>
      exact .ofUsers (Nat.le_succ _) fun id hid =>
        Function.update_of_ne (Nat.ne_of_lt hid) _ _
  | updateUser id change hkind hservice =>
      refine ⟨Nat.le_refl _, fun other user' _ huser' => ?_⟩
      by_cases hother : other = id
      · subst hother
        simp only [updateUser, Function.update_self,
          Option.map_eq_some_iff] at huser'
        obtain ⟨user, huser, rfl⟩ := huser'
        exact ⟨user, huser, hkind user,
          fun hrow => (hservice user huser hrow).1⟩
      · simp only [updateUser, Function.update_of_ne hother] at huser'
        exact ⟨user', huser', rfl, fun _ => rfl⟩
  | deleteUser id =>
      refine ⟨Nat.le_refl _, fun other user' _ huser' => ?_⟩
      by_cases hother : other = id
      · subst hother
        simp [deleteUserRow] at huser'
      · simp only [deleteUserRow, Function.update_of_ne hother] at huser'
        exact ⟨user', huser', rfl, fun _ => rfl⟩
  | insertSession | insertKey | touch | deleteTokens | grants =>
      exact .ofUsers (Nat.le_refl _) fun _ _ => rfl

theorem effects {before after : AuthTables}
    (heffects : TableEffects before after) : PrincipalsKept before after := by
  induction heffects with
  | refl => exact .ofUsers (Nat.le_refl _) fun _ _ => rfl
  | tail _ heffect ih => exact ih.trans (.effect heffect)

theorem ofReach {config : AuthConfig} {hasher : PasswordHasher}
    {before after : AuthTables}
    (hreach : Reach (authStep config hasher) before after) :
    PrincipalsKept before after := by
  apply hreach.invariant (.ofUsers (Nat.le_refl _) fun _ _ => rfl)
  intro middle event next hkept _ hstep
  cases hstep
  exact hkept.trans
    (.effects (handle_effects config hasher event.1 middle event.2))

end PrincipalsKept

/-! ### Presenting a key -/

/-- The secret a request authenticates with. -/
def AuthRequest.presents : AuthRequest → Option Nat
  | .refreshToken secret | .logout secret | .exchangeCode secret _
  | .exchangeRefresh secret _ | .bearerRefresh secret | .bearerLogout secret
  | .bearerChangePassword secret _ _ | .bearerAdmin secret _ => some secret
  | .login _ _ | .changePassword _ _ _ | .consent _ _ _ | .grantAdmin _
  | .revokeAdmin _ | .admin _ => none

/-- The request is refused and no credential is gone or new. -/
structure Refused (before : AuthTables)
    (outcome : AuthTables × Except AuthError (List Key)) : Prop where
  raised : ∃ error, outcome.2 = .error error
  tokens : ∀ secret,
    (outcome.1.tokens secret).isSome = (before.tokens secret).isSome
  codes : outcome.1.codes = before.codes
  refreshes : outcome.1.refreshes = before.refreshes

theorem Refused.same (db : AuthTables) (error : AuthError) :
    Refused db (db, .error error) :=
  ⟨⟨error, rfl⟩, fun _ => rfl, rfl, rfl⟩

section Presented

variable {db : AuthTables} {secret : Nat} {row : TokenRow}
  (hinv : AuthInv db) (htoken : db.tokens secret = some row)
  (hkey : row.apiKeyName.isSome)

include htoken hkey

theorem refreshToken_key (now : Nat) :
    ∃ error, db.refreshToken now secret = .error error := by
  unfold refreshToken
  split
  · exact ⟨_, rfl⟩
  · rename_i touched token user hverify
    obtain ⟨hselect, -⟩ := verifyToken_eq_some hverify
    obtain ⟨hread, -⟩ := verifySelect_eq_some hselect
    cases htoken.symm.trans hread
    simp [hkey]

theorem logout_key : db.logout secret = .error .logoutWithKey := by
  have hsome := Option.isSome_iff_ne_none.mp hkey
  simp [logout, htoken, hsome]

omit hkey in
/-- The stamp leaves the row a key. -/
theorem touched_key {touched : AuthTables} {now : Nat} {token : TokenRow}
    {user : UserRow}
    (hverify : db.verifyToken now secret = some (touched, token, user)) :
    token = row ∧ db.users row.userId = some user ∧
      touched.users = db.users ∧ touched.codes = db.codes ∧
      touched.refreshes = db.refreshes ∧
      (∀ other, (touched.tokens other).isSome = (db.tokens other).isSome) ∧
      ∃ row', touched.tokens secret = some row' ∧
        row'.apiKeyName = row.apiKeyName := by
  obtain ⟨hselect, htouched⟩ := verifyToken_eq_some hverify
  obtain ⟨hread, huser, -⟩ := verifySelect_eq_some hselect
  cases htoken.symm.trans hread
  refine ⟨rfl, huser, ?_⟩
  obtain rfl | rfl := htouched
  · exact ⟨rfl, rfl, rfl, fun _ => rfl, row, htoken, rfl⟩
  · refine ⟨rfl, rfl, rfl, fun other => ?_, { row with lastUsedAt := some now },
      ?_,
      rfl⟩
    · by_cases hother : other = secret
      · simp [updateToken, hother]
      · simp [updateToken, Function.update_of_ne hother]
    · simp only [updateToken, Function.update_self, htoken, Option.map_some]

omit hkey in
theorem authenticated_key {moment : Moment}
    {route : AuthTables → TokenRow → UserRow → AuthResult}
    (hroute : ∀ touched user, touched.users = db.users →
      db.users row.userId = some user →
      (∃ row', touched.tokens secret = some row' ∧
        row'.apiKeyName = row.apiKeyName) →
      ∃ error, route touched row user = .error error) :
    Refused db (db.authenticated moment secret route) := by
  unfold authenticated
  split
  · exact .same db _
  · rename_i touched token user hverify
    obtain ⟨rfl, huser, husers, hcodes, hrefreshes, htokens, hrow'⟩ :=
      touched_key htoken hverify
    obtain ⟨error, herror⟩ := hroute touched user husers huser hrow'
    rw [herror]
    exact ⟨⟨error, rfl⟩, htokens, hcodes, hrefreshes⟩

include hinv

/-- A service user may change no password. -/
theorem changePassword_key {hasher : PasswordHasher} {moment : Moment}
    {touched : AuthTables} (oldPassword newPassword : Text)
    (husers : touched.users = db.users) :
    ∃ error, touched.changePassword hasher moment row.userId oldPassword
      newPassword = .error error := by
  obtain ⟨user, huser, hservice⟩ := hinv.owner secret row htoken hkey
  unfold changePassword
  split
  · exact ⟨_, rfl⟩
  · rw [husers, huser]
    simp [UserRow.loginEligible, hservice]

/-- Whatever a key is presented to, nothing is handed out and no credential
disappears. -/
theorem handle_key (config : AuthConfig) (hasher : PasswordHasher)
    (moment : Moment) {request : AuthRequest}
    (hpresents : request.presents = some secret) :
    Refused db (db.handle config hasher moment request) := by
  obtain ⟨hcode, hrefresh⟩ := hinv.apart secret (by simp [htoken])
  cases request with
  | login | changePassword | consent | grantAdmin | revokeAdmin | admin =>
      cases hpresents
  | refreshToken presented =>
      cases hpresents
      obtain ⟨error, herror⟩ := refreshToken_key htoken hkey moment.now
      simp only [handle, herror]
      exact .same db error
  | logout presented =>
      cases hpresents
      simp only [handle, logout_key htoken hkey]
      exact .same db _
  | exchangeCode presented clientId =>
      cases hpresents
      simp only [handle, exchangeCode, loadCode, reader, hcode]
      exact .same db _
  | exchangeRefresh presented clientId =>
      cases hpresents
      simp only [handle, exchangeRefresh, hrefresh]
      exact .same db _
  | bearerRefresh presented =>
      cases hpresents
      refine authenticated_key htoken fun touched user _ _ hrow' => ?_
      obtain ⟨row', htouched, hname⟩ := hrow'
      exact refreshToken_key htouched (hname ▸ hkey) _
  | bearerLogout presented =>
      cases hpresents
      refine authenticated_key htoken fun touched user _ _ hrow' => ?_
      obtain ⟨row', htouched, hname⟩ := hrow'
      exact ⟨_, logout_key htouched (hname ▸ hkey)⟩
  | bearerChangePassword presented oldPassword newPassword =>
      cases hpresents
      exact authenticated_key htoken fun touched user husers _ _ =>
        changePassword_key hinv htoken hkey oldPassword newPassword husers
  | bearerAdmin presented op =>
      cases hpresents
      refine authenticated_key htoken fun touched user _ _ _ => ?_
      exact ⟨.keyAtAdminRoute, by simp [adminRoute, hkey]⟩

end Presented

/-- API keys stay isolated: in every state any requests lead to, a service
user's tokens are keys, keys are service users' and one each, a service user
is no administrator and keeps its password hash in whatever follows, and a
request that presents a key is refused without a credential made or lost. -/
theorem api_keys_stay_isolated (config : AuthConfig) (hasher : PasswordHasher)
    {db : AuthTables} (hreach : Reach (authStep config hasher) .empty db) :
    KeysIsolated db ∧
      (∀ after id user user', Reach (authStep config hasher) db after →
        db.users id = some user → user.isService = true →
          after.users id = some user' →
            user'.isService = true ∧
              user'.passwordHash = user.passwordHash) ∧
      ∀ moment request secret row, request.presents = some secret →
        db.tokens secret = some row → row.apiKeyName.isSome →
          Refused db (db.handle config hasher moment request) := by
  have hinv := authInv_of_reach hreach
  refine ⟨hinv.toKeysIsolated, ?_, ?_⟩
  · intro after id user user' hrun huser hservice huser'
    have hbelow := hinv.usersBelow id (by simp [huser])
    obtain ⟨found, hfound, hkind, hhash⟩ :=
      (PrincipalsKept.ofReach hrun).kept id user' hbelow huser'
    cases huser.symm.trans hfound
    exact ⟨hkind.trans hservice, hhash hservice⟩
  · intro moment request secret row hpresents htoken hkey
    exact handle_key hinv htoken hkey config hasher moment hpresents

namespace KeyIsolation

def configured : AuthConfig := ⟨⟨2592000, 3600⟩, 60⟩

def noon : Moment := ⟨fun turn => 1000 + turn, false, fun id => id = 1, 7,
  text "q8Zr"⟩

/-- A person and a bot are created, and the bot's key is minted. -/
def keyed : List (Moment × AuthRequest) :=
  [(noon, .admin (.createUser (text "ann") (text "pw") true)),
    (noon, .admin (.createKey (text " bot ") [1]))]

end KeyIsolation

open KeyIsolation in
/-- At the state with one person and one key, the key is refused everywhere. -/
theorem api_keys_stay_isolated_keyed :
    ∃ db, replayGuarded (authStep configured saltedHasher)
        (fun _ _ => True) .empty keyed = some db ∧
      (db.tokens 0).any (fun row => row.apiKeyName.isSome) = true ∧
      KeysIsolated db ∧
      (∀ row, db.tokens 0 = some row → row.apiKeyName.isSome →
        Refused db
          (db.handle configured saltedHasher noon (.bearerRefresh 0))) := by
  refine ⟨_, rfl, ?_, ?_⟩
  · decide
  · obtain ⟨hisolated, -, hrefused⟩ :=
      api_keys_stay_isolated configured saltedHasher
        (GuardedReach.of_replay keyed rfl)
    exact ⟨hisolated, fun row => hrefused noon (.bearerRefresh 0) 0 row rfl⟩

end Localmail
