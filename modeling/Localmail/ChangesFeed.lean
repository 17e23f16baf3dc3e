/-
The `/v1/changes` feed of one subscription, among the transactions that insert
messages.  A row draws its id when it is inserted and carries its transaction's
start time; polls and acks run at one instant each.
-/
import Localmail.LabelledRun
import Localmail.OrderLimit
import Mathlib.Logic.Function.Basic

namespace Localmail

/-- `_DEFAULT_LIMIT`. -/
def defaultLimit : Nat := 200

/-- The two `ServeConfig` fields the endpoints read; the horizon in
microseconds. -/
structure ServeConfig where
  changesSafeHorizon : Int
  maxSubscriptionsPerUser : Nat
deriving Repr, DecidableEq

inductive TxStatus where
  | running
  | committed
  | aborted
deriving Repr, DecidableEq

structure InsertTx where
  start : Int
  status : TxStatus
deriving Repr, DecidableEq

/-- A `messages` row.  `dateReceived` is the `now()` of the transaction that
inserted it. -/
structure FeedRow where
  id : Nat
  accountId : Nat
  dateReceived : Int
  tx : Nat
deriving Repr, DecidableEq

structure FeedState where
  clock : Int
  /-- The next value of `messages_id_seq`. -/
  nextId : Nat
  txs : Nat → Option InsertTx
  /-- Every row inserted, those of unfinished or rolled back transactions
  included. -/
  rows : List FeedRow
  /-- The cursor of the `channel_subscriptions` row, if there is one. -/
  cursor : Option Nat
  /-- The `next_cursor` values the polls returned. -/
  returned : List Nat
  /-- The ids of the messages the polls returned. -/
  delivered : List Nat
  /-- The account lists the polls ran under. -/
  polledAs : List (List Nat)
  /-- The cursor the subscription was created at. -/
  initial : Option Nat
  /-- The ids visible when the subscription was created. -/
  visibleAtCreation : List Nat

/-- An archive without transactions or subscription, at a given time. -/
def FeedState.empty (clock : Int) : FeedState where
  clock := clock
  nextId := 1
  txs := fun _ => none
  rows := []
  cursor := none
  returned := []
  delivered := []
  polledAs := []
  initial := none
  visibleAtCreation := []

namespace FeedState

variable (state : FeedState)

def Committed (row : FeedRow) : Prop :=
  (state.txs row.tx).map InsertTx.status = some .committed

def Aborted (row : FeedRow) : Prop :=
  (state.txs row.tx).map InsertTx.status = some .aborted

instance (row : FeedRow) : Decidable (state.Committed row) :=
  inferInstanceAs (Decidable (_ = _))

instance (row : FeedRow) : Decidable (state.Aborted row) :=
  inferInstanceAs (Decidable (_ = _))

/-- Every poll so far could read the account. -/
def ReadableAllAlong (accountId : Nat) : Prop :=
  ∀ allowed ∈ state.polledAs, accountId ∈ allowed

instance (accountId : Nat) : Decidable (state.ReadableAllAlong accountId) :=
  inferInstanceAs (Decidable (∀ allowed ∈ state.polledAs, _))

end FeedState

/-! ### The queries -/

def committedRows (state : FeedState) : List FeedRow :=
  state.rows.filter fun row => state.Committed row

/-- `account_id = ANY(allowed) AND date_received < now() - horizon`. -/
def visibleRows (config : ServeConfig) (state : FeedState)
    (allowed : List Nat) : List FeedRow :=
  (committedRows state).filter fun row =>
    row.accountId ∈ allowed ∧
      row.dateReceived < state.clock - config.changesSafeHorizon

/-- `COALESCE(MAX(id), 0)`. -/
def maxId (rows : List FeedRow) : Nat :=
  maxOrZero (rows.map FeedRow.id)

def currentTip (config : ServeConfig) (state : FeedState)
    (allowed : List Nat) : Nat :=
  maxId (visibleRows config state allowed)

def maxMessageId (state : FeedState) : Nat :=
  maxId (committedRows state)

def IdLe (row other : FeedRow) : Prop := row.id ≤ other.id

instance : DecidableRel IdLe := fun row other =>
  inferInstanceAs (Decidable (row.id ≤ other.id))

instance : Std.Total IdLe := ⟨fun row other => Nat.le_total row.id other.id⟩

instance : IsTrans FeedRow IdLe := ⟨fun _ _ _ => Nat.le_trans⟩

/-- The rows one poll returns past the cursor `since`. -/
def pageRows (config : ServeConfig) (state : FeedState) (allowed : List Nat)
    (since : Nat) : List FeedRow :=
  orderLimit IdLe defaultLimit
    ((visibleRows config state allowed).filter fun row => since < row.id)

/-! ### The endpoints -/

structure ChangesResponse where
  newMessages : List FeedRow
  nextCursor : Nat
  /-- The stored cursor after the call. -/
  cursor : Option Nat
deriving Repr, DecidableEq

/-- `GET /v1/changes?subscription=`.  `held` is the number of the user's
subscriptions; `none` is the refusal past the cap. -/
def changes (config : ServeConfig) (state : FeedState) (allowed : List Nat)
    (held : Nat) : Option ChangesResponse :=
  if allowed = [] then some ⟨[], 0, state.cursor⟩
  else
    match state.cursor with
    | none =>
        if config.maxSubscriptionsPerUser ≤ held then none
        else
          let tip := currentTip config state allowed
          some ⟨[], tip, some tip⟩
    | some since =>
        let rows := pageRows config state allowed since
        let nextCursor := if maxId rows = 0 then since else maxId rows
        some ⟨rows, nextCursor, some since⟩

/-- `POST /v1/changes/ack`: the stored cursor after it.  `none` is a refusal:
the cursor is past the archive, or a new name is past the cap. -/
def ack (config : ServeConfig) (state : FeedState) (cursor held : Nat) :
    Option Nat :=
  if maxMessageId state < cursor then none
  else
    match state.cursor with
    | none =>
        if config.maxSubscriptionsPerUser ≤ held then none else some cursor
    | some stored => some (max stored cursor)

/-! ### Interleavings -/

inductive FeedEvent where
  | tick (elapsed : Nat)
  | start (tx : Nat)
  /-- `INSERT`; `gap` ids of the sequence went to failed inserts before. -/
  | insert (tx accountId gap : Nat)
  | commit (tx : Nat)
  | abort (tx : Nat)
  | poll (allowed : List Nat) (held : Nat)
  | ack (cursor held : Nat)
deriving Repr, DecidableEq

def FeedState.setStatus (state : FeedState) (tx : Nat) (running : InsertTx)
    (status : TxStatus) : FeedState :=
  { state with
    txs := Function.update state.txs tx (some { running with status := status }) }

/-- What a poll leaves behind: the stored cursor, and the history the promise
is about. -/
def recordPoll (config : ServeConfig) (state : FeedState) (allowed : List Nat)
    (response : ChangesResponse) : FeedState :=
  { state with
    cursor := response.cursor
    returned := response.nextCursor :: state.returned
    delivered := response.newMessages.map FeedRow.id ++ state.delivered
    polledAs := allowed :: state.polledAs
    initial := state.initial <|> response.cursor
    visibleAtCreation :=
      if state.initial = none then
        (visibleRows config state allowed).map FeedRow.id
      else state.visibleAtCreation }

/-- One step.  A transaction commits within the horizon of its start, and an
ack sends back a cursor that some poll returned. -/
def feedStep (config : ServeConfig) (state : FeedState) :
    FeedEvent → Option FeedState
  | .tick elapsed => some { state with clock := state.clock + elapsed }
  | .start tx =>
      match state.txs tx with
      | none =>
          some { state with
            txs := Function.update state.txs tx (some ⟨state.clock, .running⟩) }
      | some _ => none
  | .insert tx accountId gap =>
      match state.txs tx with
      | some ⟨start, .running⟩ =>
          some { state with
            nextId := state.nextId + gap + 1
            rows := state.rows ++ [⟨state.nextId + gap, accountId, start, tx⟩] }
      | _ => none
  | .commit tx =>
      match state.txs tx with
      | some ⟨start, .running⟩ =>
          if state.clock < start + config.changesSafeHorizon then
            some (state.setStatus tx ⟨start, .running⟩ .committed)
          else none
      | _ => none
  | .abort tx =>
      match state.txs tx with
      | some ⟨start, .running⟩ =>
          some (state.setStatus tx ⟨start, .running⟩ .aborted)
      | _ => none
  | .poll allowed held =>
      (changes config state allowed held).map (recordPoll config state allowed)
  | .ack cursor held =>
      if cursor ∈ state.returned then
        (ack config state cursor held).map fun stored =>
          { state with
            cursor := some stored
            initial := state.initial <|> some stored }
      else none

end Localmail
