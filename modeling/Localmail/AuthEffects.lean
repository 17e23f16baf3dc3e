/-
What a request may do to the user and credential tables: a sequence of a few
guarded effects.  Each operation is unfolded here once; what follows is proved
of the effects.
-/
import Mathlib.Logic.Relation
import Localmail.AuthTables

namespace Localmail

open AuthTables

/-! ### What a request may do -/

/-- The single effects on the tables, each with the guard its writers have. -/
inductive TableEffect : AuthTables → AuthTables → Prop
  | insertUser (db : AuthTables) (row : UserRow)
      (hadmin : row.isService = true → row.isAdmin = false) :
      TableEffect db (db.insertUser row)
  | updateUser (db : AuthTables) (id : Nat) (change : UserRow → UserRow)
      (hkind : ∀ row, (change row).isService = row.isService)
      (hservice : ∀ row, db.users id = some row → row.isService = true →
        (change row).passwordHash = row.passwordHash ∧
          ((change row).isAdmin = true → row.isAdmin = true)) :
      TableEffect db (db.updateUser id change)
  | deleteUser (db : AuthTables) (id : Nat) :
      TableEffect db (db.deleteUserRow id)
  | insertSession (db : AuthTables) (row : TokenRow) (user : UserRow)
      (huser : db.users row.userId = some user)
      (hperson : user.isService = false) (hkind : row.apiKeyName = none) :
      TableEffect db (db.insertToken row)
  | insertKey (db : AuthTables) (row : TokenRow) (user : UserRow)
      (huser : db.users row.userId = some user)
      (hservice : user.isService = true) (hname : row.apiKeyName.isSome)
      (hexpires : row.expiresAt = none)
      (hfree : db.holdsKey row.userId = false) :
      TableEffect db (db.insertToken row)
  | touch (db : AuthTables) (secret now : Nat) :
      TableEffect db
        (db.updateToken secret fun row => { row with lastUsedAt := some now })
  | deleteTokens (db : AuthTables) (chosen : Nat → TokenRow → Bool) :
      TableEffect db (db.deleteTokens chosen)
  | grants (db : AuthTables) (codes : Nat → Option CodeRow)
      (refreshes : Nat → Option RefreshRow) (fresh : Nat)
      (hfresh : db.fresh ≤ fresh)
      (hcodes : ∀ secret, (codes secret).isSome →
        (db.codes secret).isSome ∨ db.fresh ≤ secret ∧ secret < fresh)
      (hrefreshes : ∀ secret, (refreshes secret).isSome →
        (db.refreshes secret).isSome ∨
          db.fresh ≤ secret ∧ secret < fresh) :
      TableEffect db
        { db with codes := codes, refreshes := refreshes, fresh := fresh }

/-- A sequence of effects. -/
abbrev TableEffects := Relation.ReflTransGen TableEffect

theorem TableEffect.once {before after : AuthTables}
    (heffect : TableEffect before after) : TableEffects before after :=
  .single heffect

/-! ### The operations -/

theorem insertCode_effects (db : AuthTables) (row : CodeRow) :
    TableEffects db (db.insertCode row) := by
  apply TableEffect.once
  refine .grants db _ _ _ (Nat.le_succ _) (fun secret hsome => ?_)
    fun _ hsome => .inl hsome
  by_cases hsecret : secret = db.fresh
  · exact .inr (by omega)
  · exact .inl (by simpa [Function.update_of_ne hsecret] using hsome)

theorem deleteCode_effects (db : AuthTables) (code : Nat) :
    TableEffects db (db.deleteCode code) := by
  apply TableEffect.once
  refine .grants db _ _ _ (Nat.le_refl _) (fun secret hsome => ?_)
    fun _ hsome => .inl hsome
  by_cases hsecret : secret = code
  · simp [hsecret] at hsome
  · exact .inl (by simpa [Function.update_of_ne hsecret] using hsome)

theorem insertRefresh_effects (db : AuthTables) (row : RefreshRow) :
    TableEffects db (db.insertRefresh row) := by
  apply TableEffect.once
  refine .grants db _ _ _ (Nat.le_succ _) (fun _ hsome => .inl hsome)
    fun secret hsome => ?_
  by_cases hsecret : secret = db.fresh
  · exact .inr (by omega)
  · exact .inl (by simpa [Function.update_of_ne hsecret] using hsome)

theorem updateRefresh_effects (db : AuthTables) (secret : Nat)
    (change : RefreshRow → RefreshRow) :
    TableEffects db (db.updateRefresh secret change) := by
  apply TableEffect.once
  refine .grants db _ _ _ (Nat.le_refl _) (fun _ hsome => .inl hsome)
    fun other hsome => .inl ?_
  by_cases hsecret : other = secret
  · simpa [hsecret] using hsome
  · simpa [Function.update_of_ne hsecret] using hsome

theorem deleteRefreshes_effects (db : AuthTables)
    (chosen : RefreshRow → Bool) :
    TableEffects db (db.deleteRefreshes chosen) := by
  apply TableEffect.once
  refine .grants db _ _ _ (Nat.le_refl _) (fun _ hsome => .inl hsome)
    fun secret hsome => .inl ?_
  cases hrow : db.refreshes secret with
  | none => simp [hrow] at hsome
  | some row => rfl

theorem issueToken_effects {db after : AuthTables} {now userId : Nat}
    {handed : List Key}
    (hissue : db.issueToken now userId = .ok (after, handed)) :
    TableEffects db after := by
  unfold issueToken at hissue
  split at hissue
  · cases hissue
  · rename_i user huser
    split at hissue
    · cases hissue
    · rename_i hperson
      cases hissue
      exact (TableEffect.insertSession db _ user huser
        (Bool.eq_false_iff.mpr hperson) rfl).once

theorem mintAccess_effects {config : AuthConfig} {db after : AuthTables}
    {now userId family : Nat} {clientId : Text} {handed : List Key}
    (hmint : db.mintAccess config now userId clientId family =
      .ok (after, handed)) :
    TableEffects db after := by
  unfold mintAccess at hmint
  split at hmint
  · cases hmint
  · rename_i user huser
    split at hmint
    · cases hmint
    · rename_i hperson
      cases hmint
      exact (TableEffect.insertSession db _ user huser
        (Bool.eq_false_iff.mpr hperson) rfl).once

theorem verifyToken_eq_some {db touched : AuthTables} {now secret : Nat}
    {token : TokenRow} {user : UserRow}
    (hverify : db.verifyToken now secret = some (touched, token, user)) :
    verifySelect db.reader now secret = some (token, user) ∧
      (touched = db ∨ touched =
        db.updateToken secret fun row =>
          { row with lastUsedAt := some now }) := by
  unfold verifyToken at hverify
  cases hselect : verifySelect db.reader now secret with
  | none => simp [hselect] at hverify
  | some found =>
      obtain ⟨row, owner⟩ := found
      simp only [hselect, Option.map_some, Option.some.injEq,
        Prod.mk.injEq] at hverify
      obtain ⟨htouched, rfl, rfl⟩ := hverify
      refine ⟨rfl, ?_⟩
      split at htouched
      · exact .inr htouched.symm
      · exact .inl htouched.symm

theorem verifyToken_effects {db touched : AuthTables} {now secret : Nat}
    {token : TokenRow} {user : UserRow}
    (hverify : db.verifyToken now secret = some (touched, token, user)) :
    TableEffects db touched := by
  obtain ⟨-, rfl | rfl⟩ := verifyToken_eq_some hverify
  · exact .refl
  · exact (TableEffect.touch db secret now).once

theorem login_effects {hasher : PasswordHasher} {moment : Moment}
    {db after : AuthTables} {username password : Text} {handed : List Key}
    (hlogin : db.login hasher moment username password =
      .ok (after, handed)) :
    TableEffects db after := by
  obtain ⟨userId, -, hissue⟩ := exceptBind_eq_ok.mp hlogin
  exact issueToken_effects hissue

theorem refreshToken_effects {db after : AuthTables} {now secret : Nat}
    {handed : List Key}
    (hrefresh : db.refreshToken now secret = .ok (after, handed)) :
    TableEffects db after := by
  unfold refreshToken at hrefresh
  split at hrefresh
  · cases hrefresh
  · rename_i touched token user hverify
    split at hrefresh
    · cases hrefresh
    · obtain ⟨⟨issued, given⟩, hissue, hdelete⟩ :=
        exceptBind_eq_ok.mp hrefresh
      cases hdelete
      exact (verifyToken_effects hverify).trans
        ((issueToken_effects hissue).tail (.deleteTokens issued _))

theorem logout_effects {db after : AuthTables} {secret : Nat}
    {handed : List Key} (hlogout : db.logout secret = .ok (after, handed)) :
    TableEffects db after := by
  unfold logout at hlogout
  split at hlogout
  · cases hlogout
    exact .refl
  · split at hlogout
    · cases hlogout
      exact (TableEffect.deleteTokens db _).once
    · cases hlogout

/-- A write to a person's row. -/
theorem updatePerson_effects {db : AuthTables} {id : Nat} {user : UserRow}
    (change : UserRow → UserRow) (huser : db.users id = some user)
    (hperson : user.isService = false)
    (hkind : ∀ row, (change row).isService = row.isService) :
    TableEffects db (db.updateUser id change) := by
  refine (TableEffect.updateUser db id change hkind ?_).once
  intro row hrow hservice
  cases huser.symm.trans hrow
  rw [hperson] at hservice
  cases hservice

/-- A write that leaves the hash alone and promotes nobody. -/
theorem updateUser_effects {db : AuthTables} {id : Nat}
    (change : UserRow → UserRow)
    (hkind : ∀ row, (change row).isService = row.isService)
    (hhash : ∀ row, (change row).passwordHash = row.passwordHash)
    (hadmin : ∀ row, (change row).isAdmin = true → row.isAdmin = true) :
    TableEffects db (db.updateUser id change) :=
  (TableEffect.updateUser db id change hkind
    fun row _ _ => ⟨hhash row, hadmin row⟩).once

theorem changePassword_effects {hasher : PasswordHasher} {moment : Moment}
    {db after : AuthTables} {userId : Nat} {oldPassword newPassword : Text}
    {handed : List Key}
    (hchange : db.changePassword hasher moment userId oldPassword
      newPassword = .ok (after, handed)) :
    TableEffects db after := by
  unfold changePassword at hchange
  split at hchange
  · cases hchange
  · split at hchange
    · cases hchange
    · rename_i user huser
      split at hchange
      · rename_i heligible
        cases hchange
        have hperson : user.isService = false := by
          simp only [UserRow.loginEligible, Bool.and_eq_true,
            Bool.not_eq_true'] at heligible
          exact heligible.1.2
        exact updatePerson_effects _ huser hperson fun _ => rfl
      · cases hchange

theorem consent_effects {config : AuthConfig} {hasher : PasswordHasher}
    {moment : Moment} {db after : AuthTables}
    {clientId username password : Text} {handed : List Key}
    (hconsent : db.consent config hasher moment clientId username password =
      .ok (after, handed)) :
    TableEffects db after := by
  obtain ⟨userId, -, hinsert⟩ := exceptBind_eq_ok.mp hconsent
  cases hinsert
  exact insertCode_effects db _

theorem mintFromCode_effects {config : AuthConfig} {db after : AuthTables}
    {now userId : Nat} {clientId : Text} {handed : List Key}
    (hmint : db.mintFromCode config now clientId userId =
      .ok (after, handed)) :
    TableEffects db after := by
  unfold mintFromCode at hmint
  simp only at hmint
  split at hmint
  · cases hmint
  · obtain ⟨⟨issued, given⟩, haccess, hpair⟩ := exceptBind_eq_ok.mp hmint
    cases hpair
    exact (insertRefresh_effects db _).trans (mintAccess_effects haccess)

theorem exchangeCode_effects (config : AuthConfig) (moment : Moment)
    (db : AuthTables) (code : Nat) (clientId : Text) :
    TableEffects db (db.exchangeCode config moment code clientId).1 := by
  unfold exchangeCode
  split
  · exact .refl
  · split
    · simp only
      split
      · split
        · exact deleteCode_effects db code
        · rename_i minted handed hmint
          exact (deleteCode_effects db code).trans
            (mintFromCode_effects hmint)
      · exact deleteCode_effects db code
    · exact .refl

theorem rotate_effects {config : AuthConfig} {db after : AuthTables}
    {now secret : Nat} {clientId : Text} {row : RefreshRow}
    {handed : List Key}
    (hrotate : db.rotate config now secret clientId row =
      .ok (after, handed)) :
    TableEffects db after := by
  unfold rotate at hrotate
  simp only at hrotate
  split at hrotate
  · cases hrotate
  · obtain ⟨⟨issued, given⟩, haccess, hpair⟩ := exceptBind_eq_ok.mp hrotate
    cases hpair
    exact (updateRefresh_effects db _ _).trans
      ((insertRefresh_effects _ _).trans
        ((deleteRefreshes_effects _ _).trans (mintAccess_effects haccess)))

theorem exchangeRefresh_effects (config : AuthConfig) (db : AuthTables)
    (now secret : Nat) (clientId : Text) :
    TableEffects db (db.exchangeRefresh config now secret clientId).1 := by
  unfold exchangeRefresh
  split
  · exact .refl
  · split
    · exact (deleteRefreshes_effects db _).tail (.deleteTokens _ _)
    · split
      · exact .refl
      · split
        · exact .refl
        · rename_i hrotate
          exact rotate_effects hrotate

theorem resolvePrincipal_effects {hasher : PasswordHasher} {moment : Moment}
    {db resolved : AuthTables} {name : Text} {userId : Nat}
    (hresolve : db.resolvePrincipal hasher moment name =
      .ok (resolved, userId)) :
    TableEffects db resolved := by
  unfold resolvePrincipal at hresolve
  split at hresolve
  · cases hresolve
    exact (TableEffect.insertUser db _ fun _ => rfl).once
  · split at hresolve
    · cases hresolve
    · split at hresolve
      · cases hresolve
      · cases hresolve
        exact .refl

theorem findUser_eq_some {db : AuthTables} {username : Text} {id : Nat}
    {user : UserRow} (hfind : db.findUser username = some (id, user)) :
    db.users id = some user := by
  obtain ⟨candidate, -, hcandidate⟩ := List.exists_of_findSome?_eq_some hfind
  simp only [Option.map_eq_some_iff, Prod.mk.injEq,
    Option.filter_eq_some_iff] at hcandidate
  obtain ⟨row, ⟨hrow, -⟩, rfl, rfl⟩ := hcandidate
  exact hrow

theorem resolvePrincipal_service {hasher : PasswordHasher} {moment : Moment}
    {db resolved : AuthTables} {name : Text} {userId : Nat}
    (hresolve : db.resolvePrincipal hasher moment name =
      .ok (resolved, userId)) :
    ∃ user, resolved.users userId = some user ∧ user.isService = true := by
  unfold resolvePrincipal at hresolve
  split at hresolve
  · cases hresolve
    exact ⟨_, Function.update_self .., rfl⟩
  · rename_i id user hfind
    split at hresolve
    · cases hresolve
    · rename_i hservice
      split at hresolve
      · cases hresolve
      · cases hresolve
        exact ⟨user, findUser_eq_some hfind, by simpa using hservice⟩

theorem createKey_effects {hasher : PasswordHasher} {moment : Moment}
    {db after : AuthTables} {name : Text} {accountIds : List Nat}
    {handed : List Key}
    (hcreate : db.createKey hasher moment name accountIds =
      .ok (after, handed)) :
    TableEffects db after := by
  unfold createKey at hcreate
  split at hcreate
  · cases hcreate
  · obtain ⟨⟨resolved, userId⟩, hresolve, hinsert⟩ :=
      exceptBind_eq_ok.mp hcreate
    simp only at hinsert
    split at hinsert
    · cases hinsert
    · split at hinsert
      · cases hinsert
      · rename_i hfree
        cases hinsert
        obtain ⟨user, huser, hservice⟩ := resolvePrincipal_service hresolve
        exact (resolvePrincipal_effects hresolve).tail
          (.insertKey resolved _ user huser hservice rfl rfl
            (Bool.eq_false_iff.mpr hfree))

theorem rejectServiceRow_eq_ok {db : AuthTables} {userId : Nat}
    {action : String} {user : UserRow}
    (hreject : db.rejectServiceRow userId action = .ok user) :
    db.users userId = some user ∧ user.isService = false := by
  unfold rejectServiceRow at hreject
  split at hreject
  · cases hreject
  · rename_i row hrow
    split at hreject
    · cases hreject
    · rename_i hperson
      cases hreject
      exact ⟨hrow, Bool.eq_false_iff.mpr hperson⟩

theorem adminOp_effects {hasher : PasswordHasher} {moment : Moment}
    {db after : AuthTables} {op : AdminOp} {handed : List Key}
    (hop : db.adminOp hasher moment op = .ok (after, handed)) :
    TableEffects db after := by
  cases op with
  | createKey name accountIds => exact createKey_effects hop
  | revokeKey userId =>
      simp only [adminOp, revokeKey] at hop
      split at hop
      · cases hop
        exact (TableEffect.deleteTokens db _).once
      · cases hop
  | deleteKeyPrincipal userId =>
      simp only [adminOp, deleteKeyPrincipal] at hop
      split at hop
      · cases hop
        exact (TableEffect.deleteUser db userId).once
      · cases hop
  | createUser username password isAdmin =>
      simp only [adminOp, createUser] at hop
      split at hop
      · cases hop
      · split at hop
        · cases hop
        · split at hop
          · cases hop
          · cases hop
            refine (TableEffect.insertUser db _ ?_).once
            intro hservice
            cases hservice
  | setPassword userId newPassword =>
      obtain ⟨user, hreject, hupdate⟩ := exceptBind_eq_ok.mp hop
      obtain ⟨huser, hperson⟩ := rejectServiceRow_eq_ok hreject
      split at hupdate
      · cases hupdate
      · cases hupdate
        exact updatePerson_effects _ huser hperson fun _ => rfl
  | setAdmin userId isAdmin =>
      cases isAdmin with
      | false =>
          obtain ⟨_, -, hupdate⟩ := exceptBind_eq_ok.mp hop
          cases hupdate
          exact updateUser_effects _ (fun _ => rfl) (fun _ => rfl) nofun
      | true =>
          obtain ⟨user, hreject, hupdate⟩ := exceptBind_eq_ok.mp hop
          obtain ⟨huser, hperson⟩ := rejectServiceRow_eq_ok hreject
          cases hupdate
          exact updatePerson_effects _ huser hperson fun _ => rfl
  | setDisabled userId disabled =>
      cases disabled with
      | true =>
          obtain ⟨_, -, hupdate⟩ := exceptBind_eq_ok.mp hop
          cases hupdate
          exact updateUser_effects _ (fun _ => rfl) (fun _ => rfl)
            fun _ hadmin => hadmin
      | false =>
          simp only [adminOp, setDisabled] at hop
          split at hop
          · cases hop
          · cases hop
            exact updateUser_effects _ (fun _ => rfl) (fun _ => rfl)
              fun _ hadmin => hadmin
  | deleteUser userId =>
      obtain ⟨_, -, hdelete⟩ := exceptBind_eq_ok.mp hop
      cases hdelete
      exact (TableEffect.deleteUser db userId).once

theorem grantAdmin_effects {db after : AuthTables} {username : Text}
    {handed : List Key}
    (hgrant : db.grantAdmin username = .ok (after, handed)) :
    TableEffects db after := by
  unfold grantAdmin at hgrant
  split at hgrant
  · cases hgrant
  · obtain ⟨user, hreject, hupdate⟩ := exceptBind_eq_ok.mp hgrant
    obtain ⟨huser, hperson⟩ := rejectServiceRow_eq_ok hreject
    cases hupdate
    exact updatePerson_effects _ huser hperson fun _ => rfl

theorem revokeAdmin_effects {db after : AuthTables} {username : Text}
    {handed : List Key}
    (hrevoke : db.revokeAdmin username = .ok (after, handed)) :
    TableEffects db after := by
  unfold revokeAdmin at hrevoke
  split at hrevoke
  · cases hrevoke
  · cases hrevoke
    exact updateUser_effects _ (fun _ => rfl) (fun _ => rfl) nofun

theorem attempt_effects {db : AuthTables} {result : AuthResult}
    (hresult : ∀ after handed, result = .ok (after, handed) →
      TableEffects db after) :
    TableEffects db (db.attempt result).1 := by
  unfold attempt
  split
  · exact .refl
  · exact hresult _ _ rfl

theorem authenticated_effects {moment : Moment} {db : AuthTables}
    {secret : Nat} {route : AuthTables → TokenRow → UserRow → AuthResult}
    (hroute : ∀ touched token user after handed,
      route touched token user = .ok (after, handed) →
        TableEffects touched after) :
    TableEffects db (db.authenticated moment secret route).1 := by
  unfold authenticated
  split
  · exact .refl
  · rename_i touched token user hverify
    exact (verifyToken_effects hverify).trans
      (attempt_effects (hroute touched token user))

theorem adminRoute_eq_ok {hasher : PasswordHasher} {moment : Moment}
    {db after : AuthTables} {op : AdminOp} {token : TokenRow}
    {user : UserRow} {handed : List Key}
    (hroute : adminRoute hasher moment op db token user =
      .ok (after, handed)) :
    token.apiKeyName = none ∧
      db.adminOp hasher moment op = .ok (after, handed) := by
  unfold adminRoute at hroute
  split at hroute
  · cases hroute
  · rename_i hkey
    split at hroute
    · cases hroute
    · split at hroute
      · cases hroute
      · exact ⟨by simpa using hkey, hroute⟩

/-- Every request is a sequence of effects. -/
theorem handle_effects (config : AuthConfig) (hasher : PasswordHasher)
    (moment : Moment) (db : AuthTables) (request : AuthRequest) :
    TableEffects db (db.handle config hasher moment request).1 := by
  cases request with
  | login username password =>
      exact attempt_effects fun _ _ => login_effects
  | refreshToken secret =>
      exact attempt_effects fun _ _ => refreshToken_effects
  | logout secret => exact attempt_effects fun _ _ => logout_effects
  | changePassword userId oldPassword newPassword =>
      exact attempt_effects fun _ _ => changePassword_effects
  | consent clientId username password =>
      exact attempt_effects fun _ _ => consent_effects
  | exchangeCode code clientId =>
      exact exchangeCode_effects config moment db code clientId
  | exchangeRefresh secret clientId =>
      exact exchangeRefresh_effects config db moment.now secret clientId
  | grantAdmin username =>
      exact attempt_effects fun _ _ => grantAdmin_effects
  | revokeAdmin username =>
      exact attempt_effects fun _ _ => revokeAdmin_effects
  | admin op => exact attempt_effects fun _ _ => adminOp_effects
  | bearerRefresh secret =>
      exact authenticated_effects fun _ _ _ _ _ => refreshToken_effects
  | bearerLogout secret =>
      exact authenticated_effects fun _ _ _ _ _ => logout_effects
  | bearerChangePassword secret oldPassword newPassword =>
      exact authenticated_effects fun _ _ _ _ _ => changePassword_effects
  | bearerAdmin secret op =>
      exact authenticated_effects fun _ _ _ _ _ hroute =>
        adminOp_effects (adminRoute_eq_ok hroute).2

end Localmail
