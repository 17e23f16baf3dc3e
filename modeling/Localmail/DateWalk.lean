/-
The date-ordered search walk of `_date_keyset_search`: one statement per page,
and a second one for the undated tail of a descending walk.  Every statement
reads a snapshot of its own.
-/
import Localmail.KeysetWalk

namespace Localmail

universe u

inductive SortOrder where
  | asc
  | desc
deriving Repr, DecidableEq

/-- `KeysetWalk`: which of the two walks minted a position. -/
inductive WalkKind where
  | text
  | archive
deriving Repr, DecidableEq

/-- A place in the date order. -/
structure Position where
  ts : Option Int
  id : Nat
deriving Repr, DecidableEq

structure KeysetCursor where
  ts : Option Int
  id : Nat
  order : SortOrder
  walk : WalkKind
deriving Repr, DecidableEq

def KeysetCursor.position (cursor : KeysetCursor) : Position :=
  ⟨cursor.ts, cursor.id⟩

/-- A `messages` row; `header` stands for the columns the walk only carries
along or matches on. -/
structure DatedRow (γ : Type u) where
  id : Nat
  internalDate : Option Int
  dateSent : Option Int
  header : γ
deriving Repr, DecidableEq

/-- What one statement sees of `messages`: `id` is the primary key. -/
structure Snapshot (γ : Type u) where
  rows : List (DatedRow γ)
  unique : (rows.map DatedRow.id).Nodup

variable {γ : Type u}

/-- `COALESCE(m.internal_date, m.date_sent)`. -/
def DatedRow.dateExpr (row : DatedRow γ) : Option Int :=
  row.internalDate <|> row.dateSent

def DatedRow.position (row : DatedRow γ) : Position :=
  ⟨row.dateExpr, row.id⟩

/-! ### The order and the cursor predicate -/

/-- `DATE_ORDER_BY_SQL`: dates, then ids; undated rows come first ascending
and last descending. -/
def DateBefore : SortOrder → Position → Position → Prop
  | .asc, ⟨none, id⟩, ⟨none, other⟩ => id < other
  | .asc, ⟨none, _⟩, ⟨some _, _⟩ => True
  | .asc, ⟨some _, _⟩, ⟨none, _⟩ => False
  | .asc, ⟨some ts, id⟩, ⟨some time, other⟩ => ts < time ∨ ts = time ∧ id < other
  | .desc, ⟨none, id⟩, ⟨none, other⟩ => other < id
  | .desc, ⟨none, _⟩, ⟨some _, _⟩ => False
  | .desc, ⟨some _, _⟩, ⟨none, _⟩ => True
  | .desc, ⟨some ts, id⟩, ⟨some time, other⟩ => time < ts ∨ ts = time ∧ other < id

instance (order : SortOrder) : DecidableRel (DateBefore order)
  | ⟨none, id⟩, ⟨none, other⟩ =>
      match order with
      | .asc => inferInstanceAs (Decidable (id < other))
      | .desc => inferInstanceAs (Decidable (other < id))
  | ⟨none, _⟩, ⟨some _, _⟩ =>
      match order with
      | .asc => isTrue trivial
      | .desc => isFalse id
  | ⟨some _, _⟩, ⟨none, _⟩ =>
      match order with
      | .asc => isFalse id
      | .desc => isTrue trivial
  | ⟨some ts, id⟩, ⟨some time, other⟩ =>
      match order with
      | .asc => inferInstanceAs (Decidable (ts < time ∨ ts = time ∧ id < other))
      | .desc => inferInstanceAs (Decidable (time < ts ∨ ts = time ∧ other < id))

/-- `ROW(expr, id) < ROW(ts, cid)`; `none` is SQL's NULL. -/
def rowLess (expr : Option Int) (id : Nat) (ts : Int) (cid : Nat) :
    Option Bool :=
  expr.map fun date => date < ts ∨ date = ts ∧ id < cid

/-- `ROW(expr, id) > ROW(ts, cid)`. -/
def rowGreater (expr : Option Int) (id : Nat) (ts : Int) (cid : Nat) :
    Option Bool :=
  expr.map fun date => ts < date ∨ date = ts ∧ cid < id

/-- The fragment that places the walk strictly after `keyset`, as the truth
value of one row. -/
def keysetClause (keyset : KeysetCursor) (row : DatedRow γ) : Option Bool :=
  match keyset.order, keyset.ts with
  | .desc, none => some (row.dateExpr.isNone && row.id < keyset.id)
  | .desc, some ts => rowLess row.dateExpr row.id ts keyset.id
  | .asc, none =>
      some (row.dateExpr.isNone && keyset.id < row.id || row.dateExpr.isSome)
  | .asc, some ts => rowGreater row.dateExpr row.id ts keyset.id

/-- `UNDATED_TAIL_ONLY_SQL`. -/
def undatedTailOnly (row : DatedRow γ) : Option Bool :=
  some row.dateExpr.isNone

def needsUndatedTopUp (keyset : Option KeysetCursor)
    (rowsReturned fetchLimit : Nat) : Bool :=
  match keyset with
  | none => false
  | some cursor =>
      cursor.order = .desc && cursor.ts.isSome && rowsReturned < fetchLimit

/-! ### The walk -/

/-- What stays fixed during a walk.  `matching` is the match clause together
with the structured filters. -/
structure WalkQuery (γ : Type u) where
  pageSize : Nat
  order : SortOrder
  walk : WalkKind
  matching : DatedRow γ → Bool

/-- One round trip: `WHERE match AND cursor ORDER BY … LIMIT`. -/
def fetchRows (query : WalkQuery γ) (order : SortOrder) (snapshot : Snapshot γ)
    (cursorSql : DatedRow γ → Option Bool) (limit : Nat) : List (DatedRow γ) :=
  orderLimit (NotAfter (DateBefore order) DatedRow.position) limit
    (snapshot.rows.filter fun row =>
      query.matching row && cursorSql row == some true)

/-- The rows of one response before the probe row is cut off. -/
def fetchPage (query : WalkQuery γ) (keyset : Option KeysetCursor)
    (order : SortOrder) (dated undated : Snapshot γ) : List (DatedRow γ) :=
  let fetchLimit := query.pageSize + 1
  let cursorSql : DatedRow γ → Option Bool :=
    match keyset with
    | none => fun _ => some true
    | some cursor => keysetClause cursor
  let rows := fetchRows query order dated cursorSql fetchLimit
  if needsUndatedTopUp keyset rows.length fetchLimit then
    rows ++ fetchRows query order undated undatedTailOnly
      (fetchLimit - rows.length)
  else rows

/-- `_date_keyset_search`, its first statement on `dated` and the top-up on
`undated`. -/
def dateKeysetSearch (query : WalkQuery γ) (keyset : Option KeysetCursor)
    (order : SortOrder) (dated undated : Snapshot γ) :
    KeysetPage (DatedRow γ) KeysetCursor :=
  probePage query.pageSize
    (fun row => ⟨row.dateExpr, row.id, order, query.walk⟩)
    (fetchPage query keyset order dated undated)

/-- With a cursor in hand, its own direction. -/
def effectiveOrder (query : WalkQuery γ) (keyset : Option KeysetCursor) :
    SortOrder :=
  match keyset with
  | none => query.order
  | some cursor => cursor.order

/-- At most `fuel` pages from page 1, the two statements of page `n` reading
`dated n` and `undated n`. -/
def dateWalk (query : WalkQuery γ) (dated undated : Nat → Snapshot γ)
    (fuel : Nat) : List (DatedRow γ) × Bool :=
  walkFrom (fun page keyset => dateKeysetSearch query keyset
    (effectiveOrder query keyset) (dated page) (undated page)) fuel 0 none

end Localmail
