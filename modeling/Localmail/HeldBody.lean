/-
The held-body bookkeeping of one mailbox whose UIDVALIDITY does not change.
Passes run one after another and get whatever answers they get: any listing,
any bodies, any probe answers, any clock.  Between them the operator may
re-drive the tombstones or purge them.
-/
import Localmail.SyncPass

namespace Localmail

/-! ### `fetch_retry.py`, the operator's side -/

/-- The resume point that re-reaches a mailbox's given-up UIDs, when that
moves it backwards. -/
def planUidnextRewind (tombstones : List (Nat × Nat))
    (currentUidnext : Nat → Option Nat) (mailboxId : Nat) : Option Nat :=
  match currentUidnext mailboxId,
      (tombstones.filterMap fun (mailbox, uid) =>
        if mailbox = mailboxId then some uid else none).min? with
  | some current, some lowest => if lowest < current then some lowest else none
  | none, _ | _, none => none

/-- `arm_for_retry`: a tombstone's window opens anew, live holds are left
alone. -/
def armForRetry (db : SyncDb) (now : Micros) : SyncDb :=
  { db with
    holds := db.holds.map fun row =>
      if row.gaveUpAt.isSome then
        { row with attemptCount := 0, firstSeenAt := now, lastSeenAt := now }
      else row }

/-- The age test of `_gave_up_scope`; no age means any. -/
def gaveUpBefore (now : Micros) (olderThan : Option Micros)
    (gaveUpAt : Micros) : Bool :=
  olderThan.all fun age => gaveUpAt < now - age

/-- `purge_gave_up`. -/
def purgeGaveUp (db : SyncDb) (now : Micros) (olderThan : Option Micros) :
    SyncDb :=
  { db with
    holds := db.holds.filter fun row =>
      !row.gaveUpAt.any (gaveUpBefore now olderThan) }

/-- `list_gave_up`, as the UIDs of this mailbox. -/
def listGaveUp (db : SyncDb) : List Nat :=
  (db.holds.filter fun row => row.gaveUpAt.isSome).map TransientFetch.uid

/-- `retry-failed-fetches` on the one mailbox `0`: the rewind and the arming
commit together. -/
def retryFailedFetches (db : SyncDb) (now : Micros) : SyncDb :=
  let plan := planUidnextRewind ((listGaveUp db).map fun uid => (0, uid))
    (fun _ => db.mailbox.uidnext) 0
  armForRetry
    { db with
      mailbox := { db.mailbox with
        uidnext := plan.or db.mailbox.uidnext } } now

/-! ### The system -/

/-- The committed tables and the running pass.  For the record: `left` is what
the latest pass left held, as committed; `holding` what its open transaction
holds; `bodies` the UIDs whose bodies that transaction received. -/
structure HoldState where
  db : SyncDb
  phase : Phase
  left : List Nat
  holding : List Nat
  bodies : List Nat
deriving Repr, DecidableEq

inductive HoldEvent where
  | select (args : PassArgs) (serverUidnext : Nat)
  | search (listed : List Nat) (now : Micros)
  | fetch (answer : List FetchData)
  | handle (stillOnServer : Bool) (fault : Option Fault) (txNow : Micros)
  | checkpoint
  | crash
  | retry (now : Micros)
  | purge (now : Micros) (olderThan : Option Micros)
deriving Repr, DecidableEq

/-- The UIDs a pass will fetch from a SEARCH answer, before the cap. -/
def listedUids (selected : Selected) (listed : List Nat) : List Nat :=
  if selected.fullSync then sortUids listed
  else filterNewUids listed (some (resumeFrom selected.row))

/-- The pass dies: its open transaction is rolled back. -/
def HoldState.rolledBack (state : HoldState) : HoldState :=
  { state with phase := .idle, holding := state.left, bodies := [] }

/-- The hold branch of the pass holds the UID, and does not give up on it. -/
def keepsHolding (pass : Pass) (uid : Nat) (txNow : Micros) : Bool :=
  !holdExpired (recordAttempt pass.work uid txNow).2 pass.now
    pass.args.maxBodyFetchHold

def holdStep (parse : Parser) (uidvalidity : Nat) (state : HoldState) :
    HoldEvent → Option HoldState
  | .select args serverUidnext =>
      match state.phase with
      | .idle =>
          let outcome := selectMailbox ⟨uidvalidity, serverUidnext, []⟩
            state.db args true
          some ⟨outcome.1, .selected outcome.2, [], [], []⟩
      | _ => none
  -- UIDs are non-zero numbers
  | .search listed now =>
      match state.phase with
      | .selected selected =>
          if ∀ uid ∈ listed, 0 < uid then
            let uids := capUids (listedUids selected listed)
              selected.args.maxMessages
            if uids = [] then
              some { state with
                db := finishEmpty state.db selected, phase := .idle }
            else
              some { state with
                phase := .betweenBatches
                  (startPass state.db selected uids now) }
          else none
      | _ => none
  | .fetch answer =>
      match state.phase with
      | .betweenBatches pass =>
          match pass.batches with
          | chunk :: rest =>
              some { state with
                phase := .inBatch { pass with batches := rest } chunk answer }
          | [] => none
      | _ => none
  | .handle stillOnServer fault txNow =>
      match state.phase with
      | .inBatch pass (uid :: chunk) fetched =>
          match fetchedBody fetched uid with
          | some data =>
              match storeBody parse pass uid data fault with
              | some next =>
                  some { state with
                    phase := .inBatch next chunk fetched
                    holding := state.holding.filter (· ≠ uid)
                    bodies := uid :: state.bodies }
              | none => some state.rolledBack
          | none =>
              if pass.serverEmptyingBodies ∨ stillOnServer then
                some { state with
                  phase := .inBatch (holdOrGiveUp pass uid txNow) chunk fetched
                  holding := if keepsHolding pass uid txNow then
                    uid :: state.holding else state.holding }
              else
                some { state with
                  phase := .inBatch
                    { pass with highestSeen := max pass.highestSeen uid }
                    chunk fetched }
      | _ => none
  | .checkpoint =>
      match state.phase with
      | .inBatch pass [] _ =>
          let committed := checkpointPass pass
          some
            { db := committed
              phase :=
                if pass.batches = [] then .idle
                else .betweenBatches { pass with work := committed }
              left := state.holding
              holding := state.holding
              bodies := [] }
      | _ => none
  | .crash => some state.rolledBack
  | .retry now =>
      match state.phase with
      | .idle => some { state with db := retryFailedFetches state.db now }
      | _ => none
  | .purge now olderThan =>
      match state.phase with
      | .idle => some { state with db := purgeGaveUp state.db now olderThan }
      | _ => none

/-- A mailbox of this UIDVALIDITY, or never synced, with no pass running; the
primary key of `transient_fetches` holds. -/
structure HoldState.Between (uidvalidity : Nat) (state : HoldState) : Prop where
  idle : state.phase = .idle
  space : ∀ stored ∈ state.db.mailbox.uidvalidity, stored = uidvalidity
  keyed : (state.db.holds.map TransientFetch.uid).Nodup
  pos : ∀ row ∈ state.db.holds, 0 < row.uid
  left : state.left = []

end Localmail
