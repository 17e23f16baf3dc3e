/-
The user and credential tables as one operation at a time sees them: each
operation runs alone and commits or rolls back as its caller does.  A row is
named by a number that is never used twice, ids by a sequence and secrets by a
fresh random value.
-/
import Mathlib.Logic.Function.Basic
import Localmail.Credentials
import Localmail.CredentialPrograms
import Localmail.SearchRequest

namespace Localmail

/-- `api_users`, `api_tokens`, `oauth_authorization_codes` and
`oauth_refresh_tokens`. -/
structure AuthTables where
  users : Nat → Option UserRow
  tokens : Nat → Option TokenRow
  codes : Nat → Option CodeRow
  refreshes : Nat → Option RefreshRow
  nextUser : Nat
  fresh : Nat

/-- What `argon2` does with a salt, a password and a stored hash. -/
structure PasswordHasher where
  hash : Nat → Text → Text
  verify : Text → Text → Bool

/-- A salted hash: the salt, a separator, the password. -/
def saltedHasher : PasswordHasher where
  hash salt password := text (toString salt) ++ text "$" ++ password
  verify password hash :=
    (hash.dropWhile fun point => point ≠ .scalar '$').drop 1 = password

/-- What an operation finds besides the tables: the `now()` of each of its
transactions in turn, the verdict of the login rate limiter, the mail accounts
that exist, and what it draws at random (a salt, and a secret nobody keeps). -/
structure Moment where
  clock : Nat → Nat
  limited : Bool
  knownAccount : Nat → Bool
  salt : Nat
  unusable : Text

def Moment.now (moment : Moment) : Nat := moment.clock 0

/-- From the operation's next transaction on. -/
def Moment.later (moment : Moment) : Moment :=
  { moment with clock := fun turn => moment.clock (turn + 1) }

structure AuthConfig extends CredentialConfig where
  codeTtl : Nat

/-- The exceptions the operations raise; each determines its text. -/
inductive AuthError where
  | rateLimited
  | invalidCredentials
  | invalidToken
  | sessionRefused (userId : Nat)
  | accessRefused (userId : Nat)
  | refreshWithKey
  | logoutWithKey
  | emptyNewPassword
  | oldPasswordIncorrect
  | codeUnknown
  | codeInvalid
  | refreshReuse
  | refreshInvalid
  | userNotFound (userId : Nat)
  | usernameNotFound (username : Text)
  | blankUsername
  | blankPassword
  | usernameTaken (username : Text)
  | servicePrincipal (action : String)
  | lastAdmin (action : String)
  | keyNameBlank
  | keyNameTooLong
  | keyNameTaken (name : Text)
  | keyNameOfPerson (name : Text)
  | keyExists (name : Text)
  | unknownAccount (accountId : Nat)
  | noKey (userId : Nat)
  | noPrincipal (userId : Nat)
  | personNotPrincipal (userId : Nat)
  | keyAtAdminRoute
  | notAnAdmin
  | ownAdmin
deriving Repr, DecidableEq

/-- An operation's tables and the credentials it hands out, if it succeeds. -/
abbrev AuthResult := Except AuthError (AuthTables × List Key)

/-- `login_eligible_sql`. -/
def UserRow.loginEligible (user : UserRow) : Bool :=
  user.disabledAt.isNone && !user.isService

/-- A user `active_admin_count` counts. -/
def UserRow.isActiveAdmin (user : UserRow) : Bool :=
  user.isAdmin && user.disabledAt.isNone && !user.isService

/-- `would_orphan_last_admin`. -/
def wouldOrphanLastAdmin (targetIsActiveAdmin : Bool)
    (activeAdminCount : Nat) : Bool :=
  targetIsActiveAdmin && activeAdminCount ≤ 1

namespace AuthTables

def empty : AuthTables :=
  ⟨fun _ => none, fun _ => none, fun _ => none, fun _ => none, 0, 0⟩

variable (db : AuthTables)

def reader : Reader
  | .user id => db.users id
  | .token secret => db.tokens secret
  | .code secret => db.codes secret
  | .refresh secret => db.refreshes secret

/-! ### Statements -/

def findUser (username : Text) : Option (Nat × UserRow) :=
  (List.range db.nextUser).findSome? fun id =>
    ((db.users id).filter fun user => user.username = username).map (id, ·)

def holdsKey (userId : Nat) : Bool :=
  (List.range db.fresh).any fun secret =>
    (db.tokens secret).any fun row =>
      row.userId = userId && row.apiKeyName.isSome

def activeAdminCount : Nat :=
  (List.range db.nextUser).countP fun id =>
    (db.users id).any UserRow.isActiveAdmin

def insertUser (row : UserRow) : AuthTables :=
  { db with
    users := Function.update db.users db.nextUser (some row)
    nextUser := db.nextUser + 1 }

def updateUser (id : Nat) (change : UserRow → UserRow) : AuthTables :=
  { db with users := Function.update db.users id ((db.users id).map change) }

/-- The credentials of a deleted user go with it. -/
def deleteUserRow (id : Nat) : AuthTables :=
  { db with
    users := Function.update db.users id none
    tokens := fun secret => (db.tokens secret).filter (·.userId ≠ id)
    codes := fun secret => (db.codes secret).filter (·.userId ≠ id)
    refreshes := fun secret => (db.refreshes secret).filter (·.userId ≠ id) }

def insertToken (row : TokenRow) : AuthTables :=
  { db with
    tokens := Function.update db.tokens db.fresh (some row)
    fresh := db.fresh + 1 }

def updateToken (secret : Nat) (change : TokenRow → TokenRow) : AuthTables :=
  { db with
    tokens := Function.update db.tokens secret
      ((db.tokens secret).map change) }

def deleteTokens (chosen : Nat → TokenRow → Bool) : AuthTables :=
  { db with
    tokens := fun secret =>
      (db.tokens secret).filter fun row => !chosen secret row }

def insertCode (row : CodeRow) : AuthTables :=
  { db with
    codes := Function.update db.codes db.fresh (some row)
    fresh := db.fresh + 1 }

def deleteCode (code : Nat) : AuthTables :=
  { db with codes := Function.update db.codes code none }

def insertRefresh (row : RefreshRow) : AuthTables :=
  { db with
    refreshes := Function.update db.refreshes db.fresh (some row)
    fresh := db.fresh + 1 }

def updateRefresh (secret : Nat) (change : RefreshRow → RefreshRow) :
    AuthTables :=
  { db with
    refreshes := Function.update db.refreshes secret
      ((db.refreshes secret).map change) }

def deleteRefreshes (chosen : RefreshRow → Bool) : AuthTables :=
  { db with
    refreshes := fun secret =>
      (db.refreshes secret).filter fun row => !chosen row }

/-! ### Sessions -/

/-- `issue_token`; the two writers of sessions refuse a service principal. -/
def issueToken (now userId : Nat) : AuthResult :=
  match db.users userId with
  | none => .error (.sessionRefused userId)
  | some user =>
      if user.isService then .error (.sessionRefused userId)
      else
        .ok (db.insertToken ⟨userId, now,
          some (now + secs (tokenTtlDays * 86400)), none, none, none, none⟩,
          [.token db.fresh])

/-- `mint_access`. -/
def mintAccess (config : AuthConfig) (now userId : Nat) (clientId : Text)
    (family : Nat) : AuthResult :=
  match db.users userId with
  | none => .error (.accessRefused userId)
  | some user =>
      if user.isService then .error (.accessRefused userId)
      else
        .ok (db.insertToken ⟨userId, now,
          some (now + secs config.accessTtl), none, none, some clientId,
          some family⟩, [.token db.fresh])

/-- `verify_token`, with the throttled stamp of `last_used_at`. -/
def verifyToken (now secret : Nat) :
    Option (AuthTables × TokenRow × UserRow) :=
  (verifySelect db.reader now secret).map fun (token, user) =>
    (if lastUsedStale now token then
      db.updateToken secret fun row => { row with lastUsedAt := some now }
    else db, token, user)

/-- The password check of `login` and of the consent page. -/
def checkPassword (hasher : PasswordHasher) (moment : Moment)
    (username password : Text) : Except AuthError Nat :=
  if moment.limited then .error .rateLimited
  else
    match db.findUser username with
    | none => .error .invalidCredentials
    | some (id, user) =>
        if user.loginEligible && hasher.verify password user.passwordHash then
          .ok id
        else .error .invalidCredentials

def login (hasher : PasswordHasher) (moment : Moment)
    (username password : Text) : AuthResult := do
  let userId ← db.checkPassword hasher moment username password
  db.issueToken moment.now userId

def refreshToken (now secret : Nat) : AuthResult :=
  match db.verifyToken now secret with
  | none => .error .invalidToken
  | some (touched, token, _) =>
      if token.apiKeyName.isSome then .error .refreshWithKey
      else do
        let (issued, handed) ← touched.issueToken now token.userId
        .ok (issued.deleteTokens fun other _ => other = secret, handed)

def logout (secret : Nat) : AuthResult :=
  match db.tokens secret with
  | none => .ok (db, [])
  | some row =>
      if row.apiKeyName.isNone then
        .ok (db.deleteTokens fun other _ => other = secret, [])
      else .error .logoutWithKey

def changePassword (hasher : PasswordHasher) (moment : Moment) (userId : Nat)
    (oldPassword newPassword : Text) : AuthResult :=
  if newPassword = [] then .error .emptyNewPassword
  else
    match db.users userId with
    | none => .error .oldPasswordIncorrect
    | some user =>
        if user.loginEligible &&
            hasher.verify oldPassword user.passwordHash then
          .ok (db.updateUser userId fun row =>
            { row with passwordHash := hasher.hash moment.salt newPassword },
            [])
        else .error .oldPasswordIncorrect

/-! ### Codes and refresh tokens -/

/-- The consent page: a password, then `mint_code`. -/
def consent (config : AuthConfig) (hasher : PasswordHasher) (moment : Moment)
    (clientId username password : Text) : AuthResult := do
  let userId ← db.checkPassword hasher moment username password
  .ok (db.insertCode ⟨clientId, userId, moment.now,
    moment.now + secs config.codeTtl⟩, [.code db.fresh])

/-- The minting half of `_exchange_code_sync`. -/
def mintFromCode (config : AuthConfig) (now : Nat) (clientId : Text)
    (userId : Nat) : AuthResult :=
  let minted := db.insertRefresh ⟨clientId, userId, now,
    now + secs config.refreshTtl, db.fresh, none⟩
  match loadRefresh minted.reader now db.fresh with
  | none => .error .codeInvalid
  | some row => do
      let (issued, handed) ←
        minted.mintAccess config now userId clientId row.family
      .ok (issued, .refresh db.fresh :: handed)

/-- `load_authorization_code` and `_exchange_code_sync`: the load, the burn,
committed on its own, and the mint. -/
def exchangeCode (config : AuthConfig) (moment : Moment) (code : Nat)
    (clientId : Text) : AuthTables × Except AuthError (List Key) :=
  match loadCode db.reader (moment.clock 0) code with
  | none => (db, .error .codeUnknown)
  | some row =>
      if row.clientId = clientId then
        let burned := db.deleteCode code
        if Burn.stillValid ⟨row, db.users row.userId, moment.clock 1⟩ then
          match burned.mintFromCode config (moment.clock 2) clientId
              row.userId with
          | .error error => (burned, .error error)
          | .ok (minted, handed) => (minted, .ok handed)
        else (burned, .error .codeInvalid)
      else (db, .error .codeUnknown)

/-- The reuse branch: the family goes, its access tokens with it. -/
def revokeFamily (family : Nat) : AuthTables :=
  (db.deleteRefreshes fun row => row.family = family).deleteTokens
    fun _ row => row.refreshFamily = some family

/-- The rotation of a live token: the claim, the successor, the sweep, and
the access token. -/
def rotate (config : AuthConfig) (now secret : Nat) (clientId : Text)
    (row : RefreshRow) : AuthResult :=
  let claimed := db.updateRefresh secret fun current =>
    { current with consumedAt := some now }
  let minted := claimed.insertRefresh ⟨row.clientId, row.userId, now,
    now + secs config.refreshTtl, row.family, none⟩
  let swept := minted.deleteRefreshes fun other =>
    other.consumedAt.isSome && other.expiresAt < now
  match loadRefresh swept.reader now db.fresh with
  | none => .error .refreshInvalid
  | some next => do
      let (issued, handed) ←
        swept.mintAccess config now next.userId clientId next.family
      .ok (issued, .refresh db.fresh :: handed)

/-- `_exchange_refresh_sync` with `rotate_refresh`; with no other transaction
about, the claim matches whenever the load did. -/
def exchangeRefresh (config : AuthConfig) (now secret : Nat)
    (clientId : Text) : AuthTables × Except AuthError (List Key) :=
  match db.refreshes secret with
  | none => (db, .error .refreshInvalid)
  | some stored =>
      if stored.consumedAt.isSome then
        (db.revokeFamily stored.family, .error .refreshReuse)
      else
        match loadRefresh db.reader now secret with
        | none => (db, .error .refreshInvalid)
        | some row =>
            match db.rotate config now secret clientId row with
            | .error error => (db, .error error)
            | .ok (rotated, handed) => (rotated, .ok handed)

/-! ### API keys -/

/-- `NAME_MAX_CHARS`. -/
def nameMaxChars : Nat := 128

/-- `api_key_name_error`. -/
def keyNameError (name : Text) : Option AuthError :=
  if strip name = [] then some .keyNameBlank
  else if nameMaxChars < (strip name).length then some .keyNameTooLong
  else none

/-- `_resolve_principal`, with `_create_service_user` for a free name. -/
def resolvePrincipal (hasher : PasswordHasher) (moment : Moment)
    (name : Text) : Except AuthError (AuthTables × Nat) :=
  match db.findUser name with
  | none =>
      .ok (db.insertUser ⟨name, hasher.hash moment.salt moment.unusable,
        false, true, none, none⟩, db.nextUser)
  | some (id, user) =>
      if !user.isService then .error (.keyNameOfPerson name)
      else if db.holdsKey id then .error (.keyExists name)
      else .ok (db, id)

/-- `create_key`; the unique index refuses a second key of one user. -/
def createKey (hasher : PasswordHasher) (moment : Moment) (name : Text)
    (accountIds : List Nat) : AuthResult := do
  match keyNameError name with
  | some error => .error error
  | none =>
      let (resolved, userId) ← db.resolvePrincipal hasher moment (strip name)
      match accountIds.find? fun id => !moment.knownAccount id with
      | some accountId => .error (.unknownAccount accountId)
      | none =>
          if resolved.holdsKey userId then .error (.keyExists (strip name))
          else
            .ok (resolved.insertToken ⟨userId, moment.now, none, none,
              some (strip name), none, none⟩, [.token resolved.fresh])

/-- `_not_found`. -/
def notFound (userId : Nat) (otherwise : AuthError) : AuthError :=
  match db.users userId with
  | some user =>
      if user.isService then otherwise else .personNotPrincipal userId
  | none => otherwise

def revokeKey (userId : Nat) : AuthResult :=
  if (db.users userId).any UserRow.isService &&
      (List.range db.fresh).any fun secret =>
        (db.tokens secret).any fun row => row.userId = userId then
    .ok (db.deleteTokens fun _ row => row.userId = userId, [])
  else .error (db.notFound userId (.noKey userId))

def deleteKeyPrincipal (userId : Nat) : AuthResult :=
  if (db.users userId).any UserRow.isService then
    .ok (db.deleteUserRow userId, [])
  else .error (db.notFound userId (.noPrincipal userId))

/-! ### Users -/

/-- `users.create_user`. -/
def createUser (hasher : PasswordHasher) (moment : Moment)
    (username password : Text) (isAdmin : Bool) : AuthResult :=
  if strip username = [] then .error .blankUsername
  else if password = [] then .error .blankPassword
  else if (db.findUser (strip username)).isSome then
    .error (.usernameTaken username)
  else
    .ok (db.insertUser ⟨strip username, hasher.hash moment.salt password,
      isAdmin, false, none, none⟩, [])

def rejectServiceRow (userId : Nat) (action : String) :
    Except AuthError UserRow :=
  match db.users userId with
  | none => .error (.userNotFound userId)
  | some user =>
      if user.isService then .error (.servicePrincipal action) else .ok user

def setPassword (hasher : PasswordHasher) (moment : Moment) (userId : Nat)
    (newPassword : Text) : AuthResult := do
  let _ ← db.rejectServiceRow userId "set a password on"
  if newPassword = [] then .error .blankPassword
  else
    .ok (db.updateUser userId fun row =>
      { row with passwordHash := hasher.hash moment.salt newPassword }, [])

/-- `_guard_not_last_admin` with `_user_state`. -/
def guardNotLastAdmin (userId : Nat) (action : String) :
    Except AuthError Unit :=
  match db.users userId with
  | none => .error (.userNotFound userId)
  | some user =>
      if wouldOrphanLastAdmin (user.isAdmin && user.disabledAt.isNone)
          db.activeAdminCount then
        .error (.lastAdmin action)
      else .ok ()

def setAdmin (userId : Nat) : Bool → AuthResult
  | false => do
      db.guardNotLastAdmin userId "demote"
      .ok (db.updateUser userId fun row => { row with isAdmin := false }, [])
  | true => do
      let _ ← db.rejectServiceRow userId "promote"
      .ok (db.updateUser userId fun row => { row with isAdmin := true }, [])

def setDisabled (now userId : Nat) : Bool → AuthResult
  | true => do
      db.guardNotLastAdmin userId "disable"
      .ok (db.updateUser userId fun row =>
        { row with disabledAt := some now }, [])
  | false =>
      if (db.users userId).isNone then .error (.userNotFound userId)
      else
        .ok (db.updateUser userId fun row => { row with disabledAt := none },
          [])

def deleteUser (userId : Nat) : AuthResult := do
  db.guardNotLastAdmin userId "delete"
  .ok (db.deleteUserRow userId, [])

def grantAdmin (username : Text) : AuthResult :=
  match db.findUser username with
  | none => .error (.usernameNotFound username)
  | some (userId, _) => do
      let _ ← db.rejectServiceRow userId "promote"
      .ok (db.updateUser userId fun row => { row with isAdmin := true }, [])

def revokeAdmin (username : Text) : AuthResult :=
  match db.findUser username with
  | none => .error (.usernameNotFound username)
  | some (userId, _) =>
      .ok (db.updateUser userId fun row => { row with isAdmin := false }, [])

end AuthTables

/-! ### Requests -/

/-- What an administrator's request may ask for. -/
inductive AdminOp where
  | createKey (name : Text) (accountIds : List Nat)
  | revokeKey (userId : Nat)
  | deleteKeyPrincipal (userId : Nat)
  | createUser (username password : Text) (isAdmin : Bool)
  | setPassword (userId : Nat) (newPassword : Text)
  | setAdmin (userId : Nat) (isAdmin : Bool)
  | setDisabled (userId : Nat) (disabled : Bool)
  | deleteUser (userId : Nat)
deriving Repr, DecidableEq

/-- An operation called directly (by the command line, or behind the admin
cookie), or a request that presents a bearer. -/
inductive AuthRequest where
  | login (username password : Text)
  | refreshToken (secret : Nat)
  | logout (secret : Nat)
  | changePassword (userId : Nat) (oldPassword newPassword : Text)
  | consent (clientId username password : Text)
  | exchangeCode (code : Nat) (clientId : Text)
  | exchangeRefresh (secret : Nat) (clientId : Text)
  | grantAdmin (username : Text)
  | revokeAdmin (username : Text)
  | admin (op : AdminOp)
  | bearerRefresh (secret : Nat)
  | bearerLogout (secret : Nat)
  | bearerChangePassword (secret : Nat) (oldPassword newPassword : Text)
  | bearerAdmin (secret : Nat) (op : AdminOp)
deriving Repr, DecidableEq

namespace AuthTables

variable (config : AuthConfig) (hasher : PasswordHasher) (moment : Moment)

def adminOp (db : AuthTables) : AdminOp → AuthResult
  | .createKey name accountIds => db.createKey hasher moment name accountIds
  | .revokeKey userId => db.revokeKey userId
  | .deleteKeyPrincipal userId => db.deleteKeyPrincipal userId
  | .createUser username password isAdmin =>
      db.createUser hasher moment username password isAdmin
  | .setPassword userId newPassword =>
      db.setPassword hasher moment userId newPassword
  | .setAdmin userId isAdmin => db.setAdmin userId isAdmin
  | .setDisabled userId disabled => db.setDisabled moment.now userId disabled
  | .deleteUser userId => db.deleteUser userId

/-- One transaction: an exception rolls it back. -/
def attempt (db : AuthTables) (result : AuthResult) :
    AuthTables × Except AuthError (List Key) :=
  match result with
  | .error error => (db, .error error)
  | .ok (after, handed) => (after, .ok handed)

/-- `get_authenticated_user`, whose stamp is committed, then the route. -/
def authenticated (db : AuthTables) (secret : Nat)
    (route : AuthTables → TokenRow → UserRow → AuthResult) :
    AuthTables × Except AuthError (List Key) :=
  match db.verifyToken moment.now secret with
  | none => (db, .error .invalidToken)
  | some (touched, token, user) => touched.attempt (route touched token user)

/-- `require_admin`, and the router's refusal of a self-demotion or
self-deletion. -/
def adminRoute (op : AdminOp) (db : AuthTables) (token : TokenRow)
    (user : UserRow) : AuthResult :=
  if token.apiKeyName.isSome then .error .keyAtAdminRoute
  else if !user.isAdmin then .error .notAnAdmin
  else if op = .setAdmin token.userId false ∨ op = .deleteUser token.userId
  then .error .ownAdmin
  else db.adminOp hasher moment op

def handle (db : AuthTables) :
    AuthRequest → AuthTables × Except AuthError (List Key)
  | .login username password =>
      db.attempt (db.login hasher moment username password)
  | .refreshToken secret => db.attempt (db.refreshToken moment.now secret)
  | .logout secret => db.attempt (db.logout secret)
  | .changePassword userId oldPassword newPassword =>
      db.attempt
        (db.changePassword hasher moment userId oldPassword newPassword)
  | .consent clientId username password =>
      db.attempt (db.consent config hasher moment clientId username password)
  | .exchangeCode code clientId =>
      db.exchangeCode config moment code clientId
  | .exchangeRefresh secret clientId =>
      db.exchangeRefresh config moment.now secret clientId
  | .grantAdmin username => db.attempt (db.grantAdmin username)
  | .revokeAdmin username => db.attempt (db.revokeAdmin username)
  | .admin op => db.attempt (db.adminOp hasher moment op)
  | .bearerRefresh secret =>
      db.authenticated moment secret fun touched _ _ =>
        touched.refreshToken moment.later.now secret
  | .bearerLogout secret =>
      db.authenticated moment secret fun touched _ _ => touched.logout secret
  | .bearerChangePassword secret oldPassword newPassword =>
      db.authenticated moment secret fun touched token _ =>
        touched.changePassword hasher moment.later token.userId oldPassword
          newPassword
  | .bearerAdmin secret op =>
      db.authenticated moment secret (adminRoute hasher moment.later op)

end AuthTables

/-- One request at some moment. -/
def authStep (config : AuthConfig) (hasher : PasswordHasher)
    (db : AuthTables) (event : Moment × AuthRequest) : Option AuthTables :=
  some (db.handle config hasher event.1 event.2).1

end Localmail
