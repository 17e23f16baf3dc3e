/-
The transactions that exchange and revoke credentials, statement by statement.
A writing statement takes two steps: its snapshot, which fixes the candidate
rows and everything it reads besides them, and its execution, which waits for
the locks of the candidates and checks them again.  Beginning a transaction is
a step of its own and fixes its `now()`.
-/
import Localmail.Credentials
import Localmail.Processes

namespace Localmail

/-! ### The authorization-code exchange -/

/-- What the burning statement read: the row it deletes, its user by the outer
join, and `now()`. -/
structure Burn where
  row : CodeRow
  user : Option UserRow
  now : Nat
deriving Repr, DecidableEq

/-- `ConsumeResult.still_valid`. -/
def Burn.stillValid (burn : Burn) : Bool :=
  burn.user.isSome && burn.now < burn.row.expiresAt &&
    credentialValidSql burn.user burn.row.createdAt

/-- Where an exchange is; `subject` is the user its code was loaded for. -/
inductive CodePhase where
  | load
  | begin (subject : Nat)
  | burn (subject now : Nat)
  | burning (subject : Nat) (burn : Burn)
  | burned (subject : Nat) (burn : Option Burn)
  | mintBegin (subject : Nat) (burn : Burn)
  | mintRefresh (subject : Nat) (burn : Burn) (now : Nat)
  | loadNew (subject : Nat) (burn : Burn) (now refresh : Nat)
  | mintAccess (subject : Nat) (burn : Burn) (now refresh family : Nat)
  | finish (subject : Nat) (burn : Burn) (now refresh access : Nat)
  | done (burn : Burn) (refresh access : Nat)
  | stopped
deriving Repr, DecidableEq

structure CodeExchange where
  code : Nat
  clientId : Text
  phase : CodePhase
deriving Repr, DecidableEq

/-- What is minted from the code descends from it. -/
def CodeExchange.lineage (exchange : CodeExchange) (shared : Shared)
    (burn : Burn) : List (Key × Nat) :=
  (.code exchange.code, burn.row.createdAt) ::
    shared.descent (.code exchange.code)

/-- `load_authorization_code` followed by `_exchange_code_sync`. -/
def codeStep (config : CredentialConfig) (tx : Nat) (shared : Shared)
    (exchange : CodeExchange) : Option (Shared × CodeExchange) :=
  let goto := fun (shared : Shared) (phase : CodePhase) =>
    some (shared, { exchange with phase := phase })
  let key := Key.code exchange.code
  match exchange.phase with
  | .load =>
      match loadCode (shared.read tx) shared.clock exchange.code with
      | none => goto shared .stopped
      | some row =>
          if row.clientId = exchange.clientId then
            goto shared (.begin row.userId)
          else goto shared .stopped
  | .begin subject => goto shared (.burn subject shared.clock)
  | .burn subject now =>
      match shared.read tx key with
      | none => goto shared (.burned subject none)
      | some row =>
          goto shared (.burning subject
            ⟨row, shared.read tx (.user row.userId), now⟩)
  | .burning subject burn =>
      if shared.store.Free tx key then
        match shared.read tx key with
        | none => goto shared (.burned subject none)
        | some row =>
            goto (shared.put tx key none)
              (.burned subject (some { burn with row := row }))
      else none
  | .burned subject burn =>
      match burn with
      | none => goto (shared.commit tx) .stopped
      | some burn =>
          goto (shared.commit tx)
            (if burn.stillValid then .mintBegin subject burn else .stopped)
  | .mintBegin subject burn =>
      goto shared (.mintRefresh subject burn shared.clock)
  | .mintRefresh subject burn now =>
      if (shared.read tx (.user subject)).isSome then
        goto (shared.mintRefresh tx config now subject exchange.clientId none
          (exchange.lineage shared burn))
          (.loadNew subject burn now shared.fresh)
      else goto (shared.rollback tx) .stopped
  | .loadNew subject burn now refresh =>
      match loadRefresh (shared.read tx) now refresh with
      | none => goto (shared.rollback tx) .stopped
      | some row =>
          goto shared (.mintAccess subject burn now refresh row.family)
  | .mintAccess subject burn now refresh family =>
      if shared.personExists tx subject then
        goto (shared.mintAccess tx config now subject exchange.clientId family
          (exchange.lineage shared burn))
          (.finish subject burn now refresh shared.fresh)
      else goto (shared.rollback tx) .stopped
  | .finish _ burn _ refresh access =>
      goto (shared.commit tx) (.done burn refresh access)
  | .done _ _ _ | .stopped => none

/-! ### The refresh exchange -/

inductive RefreshPhase where
  | begin
  | rawState (now : Nat)
  | load (now : Nat)
  | claim (now : Nat) (row : RefreshRow)
  | claiming (now : Nat) (row : RefreshRow)
  | reread (now : Nat) (row : RefreshRow)
  | mint (now : Nat) (row : RefreshRow)
  | sweep (now : Nat) (row : RefreshRow) (next : Nat)
  | sweeping (now : Nat) (row : RefreshRow) (next : Nat)
      (candidates : List Key)
  | loadNew (now : Nat) (row : RefreshRow) (next : Nat)
  | mintAccess (now : Nat) (row : RefreshRow) (next : Nat)
      (newRow : RefreshRow)
  | finish (now : Nat) (row : RefreshRow) (next access : Nat)
  | deleteFamily (family : Nat)
  | deletingFamily (family : Nat) (candidates : List Key)
  | purgeAccess (family : Nat)
  | purgingAccess (family : Nat) (candidates : List Key)
  | finishReuse (family : Nat)
  | rotated (next access : Nat)
  | reuse (family : Nat)
  | stopped
deriving Repr, DecidableEq

structure RefreshExchange where
  token : Nat
  clientId : Text
  phase : RefreshPhase
deriving Repr, DecidableEq

def RefreshExchange.lineage (exchange : RefreshExchange) (shared : Shared)
    (row : RefreshRow) : List (Key × Nat) :=
  (.refresh exchange.token, row.createdAt) ::
    shared.descent (.refresh exchange.token)

/-- `sweep_consumed`: tombstones past their own expiry. -/
def expiredTombstone (now : Nat) : (key : Key) → CredentialRow key → Bool
  | .refresh _, row => row.consumedAt.isSome && row.expiresAt < now
  | .user _, _ | .token _, _ | .code _, _ => false

/-- `_delete_family`. -/
def refreshInFamily (family : Nat) : (key : Key) → CredentialRow key → Bool
  | .refresh _, row => row.family = family
  | .user _, _ | .token _, _ | .code _, _ => false

/-- `revoke_access_family`. -/
def accessInFamily (family : Nat) : (key : Key) → CredentialRow key → Bool
  | .token _, row => row.refreshFamily = some family
  | .user _, _ | .refresh _, _ | .code _, _ => false

/-- The claim's predicate in its snapshot: live, and of a valid user. -/
def claimMatches (read : Reader) (token : Nat) : Bool :=
  match read (.refresh token) with
  | none => false
  | some row =>
      row.consumedAt.isNone &&
        match read (.user row.userId) with
        | none => false
        | some user => credentialValidSql (some user) row.createdAt

/-- `_exchange_refresh_sync` with `rotate_refresh`. -/
def refreshStep (config : CredentialConfig) (tx : Nat) (shared : Shared)
    (exchange : RefreshExchange) : Option (Shared × RefreshExchange) :=
  let goto := fun (shared : Shared) (phase : RefreshPhase) =>
    some (shared, { exchange with phase := phase })
  let key := Key.refresh exchange.token
  match exchange.phase with
  | .begin => goto shared (.rawState shared.clock)
  | .rawState now =>
      match shared.read tx key with
      | none => goto (shared.rollback tx) .stopped
      | some row =>
          if row.consumedAt.isSome then goto shared (.deleteFamily row.family)
          else goto shared (.load now)
  | .load now =>
      match loadRefresh (shared.read tx) now exchange.token with
      | none => goto (shared.rollback tx) .stopped
      | some row => goto shared (.claim now row)
  | .claim now row =>
      goto shared (if claimMatches (shared.read tx) exchange.token then
        .claiming now row else .reread now row)
  | .claiming now row =>
      if shared.store.Free tx key then
        match shared.read tx key with
        | none => goto shared (.reread now row)
        | some current =>
            if current.consumedAt.isNone then
              goto (shared.put tx key
                (some { current with consumedAt := some now })) (.mint now row)
            else goto shared (.reread now row)
      else none
  | .reread _ row =>
      match shared.read tx key with
      | none => goto (shared.rollback tx) .stopped
      | some current =>
          if current.consumedAt.isSome then goto shared (.deleteFamily row.family)
          else goto (shared.rollback tx) .stopped
  | .mint now row =>
      goto (shared.mintRefresh tx config now row.userId row.clientId
        (some row.family) (exchange.lineage shared row))
        (.sweep now row shared.fresh)
  | .sweep now row next =>
      goto shared (.sweeping now row next
        (shared.store.scan tx (expiredTombstone now)))
  | .sweeping now row next candidates =>
      match shared.store.deleteChosen tx (expiredTombstone now) candidates with
      | none => none
      | some store =>
          goto { shared with store := store } (.loadNew now row next)
  | .loadNew now row next =>
      match loadRefresh (shared.read tx) now next with
      | none => goto (shared.rollback tx) .stopped
      | some newRow => goto shared (.mintAccess now row next newRow)
  | .mintAccess now row next newRow =>
      if shared.personExists tx newRow.userId then
        goto (shared.mintAccess tx config now newRow.userId exchange.clientId
          newRow.family (exchange.lineage shared row))
          (.finish now row next shared.fresh)
      else goto (shared.rollback tx) .stopped
  | .finish _ _ next access => goto (shared.commit tx) (.rotated next access)
  | .deleteFamily family =>
      goto shared (.deletingFamily family
        (shared.store.scan tx (refreshInFamily family)))
  | .deletingFamily family candidates =>
      match shared.store.deleteChosen tx (refreshInFamily family)
          candidates with
      | none => none
      | some store => goto { shared with store := store } (.purgeAccess family)
  | .purgeAccess family =>
      goto shared (.purgingAccess family
        (shared.store.scan tx (accessInFamily family)))
  | .purgingAccess family candidates =>
      match shared.store.deleteChosen tx (accessInFamily family)
          candidates with
      | none => none
      | some store => goto { shared with store := store } (.finishReuse family)
  | .finishReuse family => goto (shared.commit tx) (.reuse family)
  | .rotated _ _ | .reuse _ | .stopped => none

/-! ### Bearer refresh and logout -/

inductive BearerPhase where
  | begin
  | verify (now : Nat)
  | touch (now : Nat) (row : TokenRow)
  | touching (now : Nat) (row : TokenRow)
  | issue (now : Nat) (row : TokenRow)
  | delete (row : TokenRow) (next : Nat)
  | deleting (row : TokenRow) (next : Nat)
  | finish (row : TokenRow) (next : Nat)
  | done (next : Nat)
  | stopped
deriving Repr, DecidableEq

structure BearerRefresh where
  token : Nat
  phase : BearerPhase
deriving Repr, DecidableEq

def BearerRefresh.lineage (refresh : BearerRefresh) (shared : Shared)
    (row : TokenRow) : List (Key × Nat) :=
  (.token refresh.token, row.createdAt) :: shared.descent (.token refresh.token)

/-- The throttle of `last_used_at`. -/
def lastUsedStale (now : Nat) (row : TokenRow) : Bool :=
  match row.lastUsedAt with
  | none => true
  | some used => used + secs lastUsedRefreshSeconds < now

/-- `refresh_token` and the commit of its caller. -/
def bearerStep (tx : Nat) (shared : Shared) (refresh : BearerRefresh) :
    Option (Shared × BearerRefresh) :=
  let goto := fun (shared : Shared) (phase : BearerPhase) =>
    some (shared, { refresh with phase := phase })
  let key := Key.token refresh.token
  match refresh.phase with
  | .begin => goto shared (.verify shared.clock)
  | .verify now =>
      match verifySelect (shared.read tx) now refresh.token with
      | none => goto (shared.rollback tx) .stopped
      | some (row, _) => goto shared (.touch now row)
  | .touch now row =>
      match shared.read tx key with
      | none => goto shared (.issue now row)
      | some current =>
          goto shared (if lastUsedStale now current then .touching now row
            else .issue now row)
  | .touching now row =>
      if shared.store.Free tx key then
        match shared.read tx key with
        | none => goto shared (.issue now row)
        | some current =>
            if lastUsedStale now current then
              goto (shared.put tx key
                (some { current with lastUsedAt := some now })) (.issue now row)
            else goto shared (.issue now row)
      else none
  | .issue now row =>
      if row.apiKeyName.isNone && shared.personExists tx row.userId then
        goto (shared.issueToken tx now row.userId (refresh.lineage shared row))
          (.delete row shared.fresh)
      else goto (shared.rollback tx) .stopped
  | .delete row next =>
      goto shared (if (shared.read tx key).isSome then .deleting row next
        else .finish row next)
  | .deleting row next =>
      if shared.store.Free tx key then
        match shared.read tx key with
        | none => goto shared (.finish row next)
        | some _ => goto (shared.put tx key none) (.finish row next)
      else none
  | .finish _ next => goto (shared.commit tx) (.done next)
  | .done _ | .stopped => none

inductive LogoutPhase where
  | delete
  | deleting
  | checkKey
  | finish (removed : Bool)
  | done (removed : Bool)
  | stopped
deriving Repr, DecidableEq

structure Logout where
  token : Nat
  phase : LogoutPhase
deriving Repr, DecidableEq

/-- `logout` and the commit of its caller. -/
def logoutStep (tx : Nat) (shared : Shared) (logout : Logout) :
    Option (Shared × Logout) :=
  let goto := fun (shared : Shared) (phase : LogoutPhase) =>
    some (shared, { logout with phase := phase })
  let key := Key.token logout.token
  match logout.phase with
  | .delete =>
      match shared.read tx key with
      | none => goto shared .checkKey
      | some row =>
          goto shared (if row.apiKeyName.isNone then .deleting else .checkKey)
  | .deleting =>
      if shared.store.Free tx key then
        match shared.read tx key with
        | none => goto shared .checkKey
        | some row =>
            if row.apiKeyName.isNone then
              goto (shared.put tx key none) (.finish true)
            else goto shared .checkKey
      else none
  | .checkKey =>
      match shared.read tx key with
      | none => goto shared (.finish false)
      | some row =>
          if row.apiKeyName.isSome then goto (shared.rollback tx) .stopped
          else goto shared (.finish false)
  | .finish removed => goto (shared.commit tx) (.done removed)
  | .done _ | .stopped => none

/-! ### Session revocation -/

inductive RevokePhase where
  | begin
  | update (now : Nat)
  | updating (now : Nat)
  | finish (now : Nat)
  | done (now : Nat)
  | stopped
deriving Repr, DecidableEq

structure Revocation where
  userId : Nat
  phase : RevokePhase
deriving Repr, DecidableEq

/-- `users.revoke_sessions` and the commit of its caller, or
`revoke_admin_sessions`, which finds the same row by its username. -/
def revokeStep (tx : Nat) (shared : Shared) (revocation : Revocation) :
    Option (Shared × Revocation) :=
  let goto := fun (shared : Shared) (phase : RevokePhase) =>
    some (shared, { revocation with phase := phase })
  let key := Key.user revocation.userId
  match revocation.phase with
  | .begin => goto shared (.update shared.clock)
  | .update now =>
      match shared.read tx key with
      | none => goto (shared.rollback tx) .stopped
      | some _ => goto shared (.updating now)
  | .updating now =>
      if shared.store.Free tx key then
        match shared.read tx key with
        | none => goto (shared.rollback tx) .stopped
        | some row =>
            goto (shared.put tx key
              (some { row with sessionsInvalidatedAt := some now }))
              (.finish now)
      else none
  | .finish now => goto (shared.commit tx) (.done now)
  | .done _ | .stopped => none

/-! ### What happens besides -/

/-- Time passes; an administrator writes or deletes a user; someone logs in,
consents, or completes a code exchange.  The new rows carry the start of the
transaction that made them. -/
inductive Outside where
  | tick (elapsed : Nat)
  | setUser (id : Nat) (row : UserRow)
  | deleteUser (id : Nat)
  | login (userId createdAt expiresAt : Nat)
  | consent (userId : Nat) (clientId : Text) (createdAt expiresAt : Nat)
  | grant (userId : Nat) (clientId : Text)
      (createdAt refreshExpiresAt accessExpiresAt : Nat)
deriving Repr, DecidableEq

/-- The user a row belongs to. -/
def rowUser : (key : Key) → CredentialRow key → Nat
  | .user id, _ => id
  | .token _, row => row.userId
  | .code _, row => row.userId
  | .refresh _, row => row.userId

/-- The user's row and every row that references it, also uncommitted ones. -/
def userKeys (store : CredentialStore) (id : Nat) : List Key :=
  store.keys.filter fun key =>
    (store.committed key).any (fun row => rowUser key row = id) ||
      (store.owner key).isSome &&
        (store.dirty key).any (fun row => rowUser key row = id)

/-- A committed row under an unused secret, of a user that exists. -/
def Shared.installFresh (shared : Shared) (userId createdAt : Nat) (key : Key)
    (row : CredentialRow key) : Option Shared :=
  if createdAt ≤ shared.clock ∧ (shared.store.committed (.user userId)).isSome
  then
    (shared.store.install key (some row)).map fun store =>
      { shared with store := store, fresh := shared.fresh + 1 }
  else none

def Shared.outside (shared : Shared) : Outside → Option Shared
  | .tick elapsed => some { shared with clock := shared.clock + elapsed }
  | .setUser id row =>
      (shared.store.install (.user id) (some row)).map fun store =>
        { shared with store := store }
  | .deleteUser id =>
      (shared.store.uninstall (userKeys shared.store id)).map fun store =>
        { shared with store := store }
  | .login userId createdAt expiresAt =>
      shared.installFresh userId createdAt (.token shared.fresh)
        (⟨userId, createdAt, some expiresAt, none, none, none, none⟩ :
          TokenRow)
  | .consent userId clientId createdAt expiresAt =>
      shared.installFresh userId createdAt (.code shared.fresh)
        (⟨clientId, userId, createdAt, expiresAt⟩ : CodeRow)
  | .grant userId clientId createdAt refreshExpiresAt accessExpiresAt => do
      let family := shared.fresh
      let shared ← shared.installFresh userId createdAt
        (.refresh shared.fresh)
        (⟨clientId, userId, createdAt, refreshExpiresAt, family, none⟩ :
          RefreshRow)
      shared.installFresh userId createdAt (.token shared.fresh)
        (⟨userId, createdAt, some accessExpiresAt, none, none, some clientId,
          some family⟩ : TokenRow)

/-- The rules of a system of processes over the tables in which only some
outside changes happen. -/
def credentialRules {P : Type} (advance : Nat → Shared → P → Option (Shared × P))
    (stopped : P) (finished initial : P → Bool) (happens : Outside → Bool) :
    ProcessRules Shared P Outside where
  advance := advance
  abandon := fun tx shared => shared.rollback tx
  stopped := stopped
  finished := finished
  initial := initial
  outside := fun shared change =>
    if happens change then shared.outside change else none

end Localmail
