/-
The credential tables: users, bearer and access tokens, authorization codes and
refresh tokens, the lookups that honour them, and the statements that write
them.  A raw secret is named by a number that is never used twice, which is
what a fresh random secret and an injective hash come to.  Times are
microseconds.
-/
import Localmail.QueryParse
import Localmail.ReadCommitted

namespace Localmail

structure UserRow where
  username : Text
  passwordHash : Text
  isAdmin : Bool
  isService : Bool
  disabledAt : Option Nat
  sessionsInvalidatedAt : Option Nat
deriving Repr, DecidableEq

/-- `api_tokens`; a session, an OAuth access token, or an API key. -/
structure TokenRow where
  userId : Nat
  createdAt : Nat
  expiresAt : Option Nat
  lastUsedAt : Option Nat
  apiKeyName : Option Text
  oauthClientId : Option Text
  refreshFamily : Option Nat
deriving Repr, DecidableEq

structure CodeRow where
  clientId : Text
  userId : Nat
  createdAt : Nat
  expiresAt : Nat
deriving Repr, DecidableEq

structure RefreshRow where
  clientId : Text
  userId : Nat
  createdAt : Nat
  expiresAt : Nat
  family : Nat
  consumedAt : Option Nat
deriving Repr, DecidableEq

/-- A row of one of the four tables. -/
inductive Key where
  | user (id : Nat)
  | token (secret : Nat)
  | code (secret : Nat)
  | refresh (secret : Nat)
deriving Repr, DecidableEq

@[reducible] def CredentialRow : Key → Type
  | .user _ => UserRow
  | .token _ => TokenRow
  | .code _ => CodeRow
  | .refresh _ => RefreshRow

abbrev CredentialStore := RowStore CredentialRow

/-- What one statement sees of the tables. -/
abbrev Reader := (key : Key) → Option (CredentialRow key)

/-! ### Lookups -/

/-- `credential_valid_sql` on an outer-joined user: against the all-NULL row
every `IS NULL` test holds. -/
def credentialValidSql (user : Option UserRow) (createdAt : Nat) : Bool :=
  (user.bind UserRow.disabledAt).isNone &&
    match user.bind UserRow.sessionsInvalidatedAt with
    | none => true
    | some cutoff => cutoff ≤ createdAt

/-- The `SELECT` of `verify_token`. -/
def verifySelect (read : Reader) (now secret : Nat) :
    Option (TokenRow × UserRow) :=
  match read (.token secret) with
  | none => none
  | some token =>
      match read (.user token.userId) with
      | none => none
      | some user =>
          if token.expiresAt.all (now < ·) &&
              credentialValidSql (some user) token.createdAt then
            some (token, user)
          else none

def loadRefresh (read : Reader) (now secret : Nat) : Option RefreshRow :=
  match read (.refresh secret) with
  | none => none
  | some row =>
      match read (.user row.userId) with
      | none => none
      | some user =>
          if now < row.expiresAt && row.consumedAt.isNone &&
              credentialValidSql (some user) row.createdAt then
            some row
          else none

def loadCode (read : Reader) (now secret : Nat) : Option CodeRow :=
  match read (.code secret) with
  | none => none
  | some row =>
      match read (.user row.userId) with
      | none => none
      | some user =>
          if now < row.expiresAt &&
              credentialValidSql (some user) row.createdAt then
            some row
          else none

theorem verifySelect_eq_some {read : Reader} {now secret : Nat}
    {token : TokenRow} {user : UserRow}
    (hselect : verifySelect read now secret = some (token, user)) :
    read (.token secret) = some token ∧ read (.user token.userId) = some user ∧
      credentialValidSql (some user) token.createdAt = true := by
  unfold verifySelect at hselect
  split at hselect
  · cases hselect
  · rename_i row hrow
    split at hselect
    · cases hselect
    · rename_i owner howner
      split at hselect
      · rename_i hvalid
        cases hselect
        exact ⟨hrow, howner, (Bool.and_eq_true_iff.mp hvalid).2⟩
      · cases hselect

theorem loadRefresh_eq_some {read : Reader} {now secret : Nat}
    {row : RefreshRow} (hload : loadRefresh read now secret = some row) :
    read (.refresh secret) = some row ∧ row.consumedAt = none ∧
      ∃ user, read (.user row.userId) = some user ∧
        credentialValidSql (some user) row.createdAt = true := by
  unfold loadRefresh at hload
  split at hload
  · cases hload
  · rename_i stored hstored
    split at hload
    · cases hload
    · rename_i user huser
      split at hload
      · rename_i hvalid
        cases hload
        simp only [Bool.and_eq_true, Option.isNone_iff_eq_none] at hvalid
        exact ⟨hstored, hvalid.1.2, user, huser, hvalid.2⟩
      · cases hload

theorem loadCode_eq_some {read : Reader} {now secret : Nat}
    {row : CodeRow} (hload : loadCode read now secret = some row) :
    read (.code secret) = some row := by
  unfold loadCode at hload
  split at hload
  · cases hload
  · rename_i stored hstored
    split at hload
    · cases hload
    · split at hload
      · cases hload
        exact hstored
      · cases hload

/-- A user's cutoff is past the credential, so no lookup honours it. -/
theorem credentialValidSql_eq_false {user : UserRow} {cutoff createdAt : Nat}
    (hcutoff : user.sessionsInvalidatedAt = some cutoff)
    (hbefore : createdAt < cutoff) :
    credentialValidSql (some user) createdAt = false := by
  simp [credentialValidSql, hcutoff]
  omega

theorem cutoff_le_of_credentialValidSql {user : UserRow}
    {cutoff createdAt : Nat}
    (hvalid : credentialValidSql (some user) createdAt = true)
    (hcutoff : user.sessionsInvalidatedAt = some cutoff) :
    cutoff ≤ createdAt := by
  by_contra hbefore
  rw [credentialValidSql_eq_false hcutoff (by omega)] at hvalid
  cases hvalid

/-! ### The shared state -/

/-- The clock, the tables, the next unused secret, and for the record what
each credential descends from, nearest first, with its creation time. -/
structure Shared where
  clock : Nat
  store : CredentialStore
  fresh : Nat
  descent : Key → List (Key × Nat)

def Shared.empty : Shared := ⟨0, .empty, 0, fun _ => []⟩

def secs (seconds : Nat) : Nat := seconds * 1000000

/-- The lifetimes the writers stamp, in seconds. -/
structure CredentialConfig where
  refreshTtl : Nat
  accessTtl : Nat

def tokenTtlDays : Nat := 30

def lastUsedRefreshSeconds : Nat := 60

namespace Shared

variable (shared : Shared) (tx : Nat)

/-- What `tx` sees. -/
def read : Reader := shared.store.view tx

def commit : Shared := { shared with store := shared.store.commit tx }

def rollback : Shared := { shared with store := shared.store.rollback tx }

def put (key : Key) (version : Option (CredentialRow key)) : Shared :=
  { shared with store := shared.store.put tx key version }

def removeAll (removed : List Key) : Shared :=
  { shared with store := shared.store.removeAll tx removed }

/-- An `INSERT` of a row under an unused secret. -/
def insert (key : Key) (row : CredentialRow key)
    (descent : List (Key × Nat)) : Shared where
  clock := shared.clock
  store := shared.store.put tx key (some row)
  fresh := shared.fresh + 1
  descent := Function.update shared.descent key descent

/-- `mint_refresh`; without a family of its parent it starts one. -/
def mintRefresh (config : CredentialConfig) (now userId : Nat)
    (clientId : Text) (family : Option Nat) (descent : List (Key × Nat)) :
    Shared :=
  shared.insert tx (.refresh shared.fresh)
    (⟨clientId, userId, now, now + secs config.refreshTtl,
      family.getD shared.fresh, none⟩ : RefreshRow) descent

/-- `mint_access`, for a user that is no service principal. -/
def mintAccess (config : CredentialConfig) (now userId : Nat)
    (clientId : Text) (family : Nat) (descent : List (Key × Nat)) : Shared :=
  shared.insert tx (.token shared.fresh)
    (⟨userId, now, some (now + secs config.accessTtl), none, none,
      some clientId, some family⟩ : TokenRow) descent

/-- `issue_token`, for a user that is no service principal. -/
def issueToken (now userId : Nat) (descent : List (Key × Nat)) : Shared :=
  shared.insert tx (.token shared.fresh)
    (⟨userId, now, some (shared.clock + secs (tokenTtlDays * 86400)), none,
      none, none, none⟩ : TokenRow) descent

/-- A session may be minted for the user: it exists and is a person. -/
def personExists (userId : Nat) : Bool :=
  match shared.read tx (.user userId) with
  | some user => !user.isService
  | none => false

end Shared

end Localmail
