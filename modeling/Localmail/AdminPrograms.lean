/-
The transactions that manage users, statement by statement.  Demoting,
disabling and deleting take the advisory lock before they read the target's
state and count the administrators, and hold it until they commit; the other
operations take no lock but the row's.
-/
import Localmail.AuthTables
import Localmail.Processes

namespace Localmail

/-! ### The user table -/

/-- `api_users`, its id sequence, the clock, and who holds the advisory
lock. -/
structure AdminShared where
  clock : Nat
  store : RowStore fun _ : Nat => UserRow
  nextUser : Nat
  lock : Option Nat

namespace AdminShared

variable (shared : AdminShared) (tx : Nat)

def read (id : Nat) : Option UserRow := shared.store.view tx id

/-- The advisory lock is released with the transaction. -/
def unlocked : Option Nat :=
  if shared.lock = some tx then none else shared.lock

def commit : AdminShared :=
  { shared with
    store := shared.store.commit tx
    lock := shared.unlocked tx }

def rollback : AdminShared :=
  { shared with
    store := shared.store.rollback tx
    lock := shared.unlocked tx }

def put (id : Nat) (version : Option UserRow) : AdminShared :=
  { shared with store := shared.store.put tx id version }

/-- `active_admin_count`. -/
def activeAdminCount : Nat :=
  (List.range shared.nextUser).countP fun id =>
    (shared.read tx id).any UserRow.isActiveAdmin

/-- A row of another open transaction has the name, so that the unique index
makes an insert wait. -/
def nameContended (username : Text) : Bool :=
  (List.range shared.nextUser).any fun id =>
    (shared.store.owner id).any (· ≠ tx) &&
      ((shared.store.committed id).any (·.username = username) ||
        (shared.store.dirty id).any (·.username = username))

def nameTaken (username : Text) : Bool :=
  (List.range shared.nextUser).any fun id =>
    (shared.read tx id).any (·.username = username)

end AdminShared

/-! ### The operations -/

inductive AdminCall where
  | setAdmin (userId : Nat) (isAdmin : Bool)
  | setDisabled (userId : Nat) (disabled : Bool)
  | deleteUser (userId : Nat)
  | createUser (username password : Text) (isAdmin : Bool) (salt : Nat)
  | setPassword (userId : Nat) (newPassword : Text) (salt : Nat)
  | deleteKeyPrincipal (userId : Nat)
deriving Repr, DecidableEq

namespace AdminCall

/-- The row a call is about; a creation has none. -/
def target : AdminCall → Option Nat
  | .setAdmin userId _ | .setDisabled userId _ | .deleteUser userId
  | .setPassword userId _ _ | .deleteKeyPrincipal userId => some userId
  | .createUser .. => none

/-- The calls that run `_guard_not_last_admin`, with its word for them. -/
def guardedAs : AdminCall → Option String
  | .setAdmin _ false => some "demote"
  | .setDisabled _ true => some "disable"
  | .deleteUser _ => some "delete"
  | .setAdmin _ true | .setDisabled _ false | .createUser ..
  | .setPassword .. | .deleteKeyPrincipal _ => none

/-- The `WHERE` of the write, beyond the id. -/
def matchesRow : AdminCall → UserRow → Bool
  | .deleteKeyPrincipal _, row => row.isService
  | .setAdmin .., _ | .setDisabled .., _ | .deleteUser _, _
  | .createUser .., _ | .setPassword .., _ => true

/-- The version the write gives the row; `none` deletes it. -/
def version (hasher : PasswordHasher) (now : Nat) :
    AdminCall → UserRow → Option UserRow
  | .setAdmin _ isAdmin, row => some { row with isAdmin := isAdmin }
  | .setDisabled _ true, row => some { row with disabledAt := some now }
  | .setDisabled _ false, row => some { row with disabledAt := none }
  | .setPassword _ newPassword salt, row =>
      some { row with passwordHash := hasher.hash salt newPassword }
  | .deleteUser _, _ | .deleteKeyPrincipal _, _ => none
  | .createUser .., row => some row

end AdminCall

inductive AdminPhase where
  | begin
  | acquire (now : Nat)
  | userState (now : Nat)
  | count (now : Nat) (targetIsActiveAdmin : Bool)
  | rejectService (now : Nat)
  | checkExists (now : Nat)
  | write (now : Nat)
  | writing (now : Nat)
  | insert
  | missed
  | finish
  | done
  | raised (error : AuthError)
deriving Repr, DecidableEq

structure AdminProcess where
  call : AdminCall
  phase : AdminPhase
deriving Repr, DecidableEq

/-- The first statement of a call, or its validation. -/
def AdminCall.start (now : Nat) : AdminCall → AdminPhase
  | .setAdmin _ false | .setDisabled _ true | .deleteUser _ => .acquire now
  | .setAdmin _ true | .setPassword .. => .rejectService now
  | .setDisabled _ false => .checkExists now
  | .deleteKeyPrincipal _ => .write now
  | .createUser username password _ _ =>
      if strip username = [] then .raised .blankUsername
      else if password = [] then .raised .blankPassword
      else .insert

/-- After `reject_service_row` let the user pass. -/
def AdminCall.afterReject (now : Nat) : AdminCall → AdminPhase
  | .setPassword _ newPassword _ =>
      if newPassword = [] then .raised .blankPassword else .write now
  | .setAdmin .. | .setDisabled .. | .deleteUser _ | .createUser ..
  | .deleteKeyPrincipal _ => .checkExists now

/-- The word of `reject_service_row` for the call. -/
def AdminCall.rejectedAs : AdminCall → String
  | .setPassword .. => "set a password on"
  | .setAdmin .. | .setDisabled .. | .deleteUser _ | .createUser ..
  | .deleteKeyPrincipal _ => "promote"

/-- One statement of a call. -/
def adminStep (hasher : PasswordHasher) (tx : Nat) (shared : AdminShared)
    (proc : AdminProcess) : Option (AdminShared × AdminProcess) :=
  let goto := fun (shared : AdminShared) (phase : AdminPhase) =>
    some (shared, { proc with phase := phase })
  let fail := fun (error : AuthError) =>
    goto (shared.rollback tx) (.raised error)
  match proc.phase, proc.call.target with
  | .begin, _ => goto shared (proc.call.start shared.clock)
  | .acquire now, _ =>
      if shared.lock = none ∨ shared.lock = some tx then
        goto { shared with lock := some tx } (.userState now)
      else none
  | .userState now, some id =>
      match shared.read tx id with
      | none => fail (.userNotFound id)
      | some row =>
          goto shared (.count now (row.isAdmin && row.disabledAt.isNone))
  | .count now active, _ =>
      if wouldOrphanLastAdmin active (shared.activeAdminCount tx) then
        fail (.lastAdmin (proc.call.guardedAs.getD ""))
      else goto shared (.write now)
  | .rejectService now, some id =>
      match shared.read tx id with
      | none => fail (.userNotFound id)
      | some row =>
          if row.isService then fail (.servicePrincipal proc.call.rejectedAs)
          else goto shared (proc.call.afterReject now)
  | .checkExists now, some id =>
      match shared.read tx id with
      | none => fail (.userNotFound id)
      | some _ => goto shared (.write now)
  | .write now, some id =>
      goto shared (if (shared.read tx id).any proc.call.matchesRow then
        .writing now else .missed)
  | .writing now, some id =>
      if shared.store.Free tx id then
        match shared.read tx id with
        | none => goto shared .missed
        | some row =>
            if proc.call.matchesRow row then
              goto (shared.put tx id (proc.call.version hasher now row))
                .finish
            else goto shared .missed
      else none
  | .insert, _ =>
      match proc.call with
      | .createUser username password isAdmin salt =>
          if shared.nameContended tx (strip username) then none
          else if shared.nameTaken tx (strip username) then
            fail (.usernameTaken username)
          else
            goto { shared.put tx shared.nextUser (some ⟨strip username,
                hasher.hash salt password, isAdmin, false, none, none⟩) with
              nextUser := shared.nextUser + 1 } .finish
      | _ => none
  -- a write that matched no row
  | .missed, some id =>
      match proc.call with
      | .deleteUser _ | .setPassword .. => fail (.userNotFound id)
      | .deleteKeyPrincipal _ =>
          fail (if (shared.read tx id).any fun row => !row.isService then
            .personNotPrincipal id else .noPrincipal id)
      | .setAdmin .. | .setDisabled .. | .createUser .. => goto shared .finish
  | .finish, _ => goto (shared.commit tx) .done
  | .done, _ | .raised _, _ | .userState _, none | .rejectService _, none
  | .checkExists _, none | .write _, none | .writing _, none
  | .missed, none => none

def AdminProcess.finished (proc : AdminProcess) : Bool :=
  match proc.phase with
  | .done | .raised _ => true
  | .begin | .acquire _ | .userState _ | .count _ _ | .rejectService _
  | .checkExists _ | .write _ | .writing _ | .insert | .missed
  | .finish => false

/-- Any number of such transactions; besides them, time passes. -/
def adminRules (hasher : PasswordHasher) :
    ProcessRules AdminShared AdminProcess Nat where
  advance := adminStep hasher
  abandon := fun tx shared => shared.rollback tx
  stopped := ⟨.setDisabled 0 false, .done⟩
  finished := AdminProcess.finished
  initial := fun proc => proc.phase = .begin
  outside := fun shared elapsed =>
    some { shared with clock := shared.clock + elapsed }

/-- A table of users with ids the sequence is past, and nobody at work. -/
def AdminShared.start (users : Nat → Option UserRow) (nextUser : Nat)
    (hbelow : ∀ id, users id ≠ none → id < nextUser) : AdminShared where
  clock := 0
  store :=
    { committed := users
      dirty := fun _ => none
      owner := fun _ => none
      keys := List.range nextUser
      covered := fun id hid =>
        List.mem_range.mpr (hbelow id (hid.resolve_right fun h => h rfl)) }
  nextUser := nextUser
  lock := none

end Localmail
