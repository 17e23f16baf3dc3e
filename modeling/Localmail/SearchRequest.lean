/-
What a search request states, before anything is searched: the filter
dictionary and the query composed from it, the two ordering axes, and the
cursor with the plan it continues.
-/
import Localmail.DateWalk
import Localmail.QueryParse
import Localmail.RankPool

namespace Localmail

universe u

/-- A decoded JSON value; `shown` is the text `str` gives it where the text is
not read off the value. -/
inductive JsonValue where
  | null
  | bool (value : Bool)
  | int (value : Int)
  | float (nonzero : Bool) (shown : Text)
  | text (value : Text)
  | list (items : List JsonValue) (shown : Text)
  | object (entries : List (Text × JsonValue)) (shown : Text)

/-- Why a request is answered 400. -/
inductive Refusal where
  | unknownFilterKeys (keys : List Text)
  | badIntId (field value : Text)
  | emptyQuotedValue (key : Text)
  | badFilterDate (key : Text)
  | emptyLangList
  | emptyLang
  | badLang (value : Text)
  | badHasAttachment
  | query (error : QueryParseError)
  | sortNotApplicable (requested : SortMode)
  | orderNotApplicable (continuingPool : Bool)
  | cursorSort (cursorSort requested : SortMode)
  | cursorOrder (cursorOrder requested : SortOrder)
  | cursorWalk
  | cursorNeedsDateSort
  | cursorMalformed (raw : Text)
deriving Repr, DecidableEq

/-- How a request fails: a 400, a 409, or an exception nothing maps. -/
inductive ApiError where
  | validationFailed (refusal : Refusal)
  | searchCursorExpired (token : Text)
  | unhandled
deriving Repr, DecidableEq

def refuse {α : Type u} (refusal : Refusal) : Except ApiError α :=
  .error (.validationFailed refusal)

/-- Refuse with the given reason, if there is one. -/
def refuseIf (refusal : Option Refusal) : Except ApiError Unit :=
  match refusal with
  | some reason => refuse reason
  | none => .ok ()

/-! ### Filters -/

def decimal (value : Nat) : Text :=
  (Nat.toDigits 10 value).map .scalar

/-- `str` of an int. -/
def intText : Int → Text
  | .ofNat value => decimal value
  | .negSucc value => text "-" ++ decimal (value + 1)

/-- `str(v)`. -/
def JsonValue.str : JsonValue → Text
  | .null => Localmail.text "None"
  | .bool true => Localmail.text "True"
  | .bool false => Localmail.text "False"
  | .int value => intText value
  | .text value => value
  | .float _ shown | .list _ shown | .object _ shown => shown

/-- `bool(v)`. -/
def JsonValue.truthy : JsonValue → Bool
  | .null => false
  | .bool value => value
  | .int value => value ≠ 0
  | .float nonzero _ => nonzero
  | .text value => !value.isEmpty
  | .list items _ => !items.isEmpty
  | .object entries _ => !entries.isEmpty

/-- What `for v in vs` runs over; `none` raises. -/
def JsonValue.elements : JsonValue → Option (List JsonValue)
  | .text value => some (value.map fun ch => .text [ch])
  | .list items _ => some items
  | .object entries _ => some (entries.map fun entry => .text entry.1)
  | .null | .bool _ | .int _ | .float _ _ => none

abbrev FilterDict := List (Text × JsonValue)

/-- `_SUPPORTED_FILTER_KEYS`. -/
def supportedFilterKeys : List Text :=
  ["from", "to", "subject", "after", "before", "has_attachment",
    "attachment_name", "account_ids", "folder_ids", "date_from", "date_to",
    "lang"].map text

def filterKeyError (filters : FilterDict) : Option Refusal :=
  let unknown := (filters.map Prod.fst).filter (· ∉ supportedFilterKeys)
  if unknown = [] then none else some (.unknownFilterKeys unknown)

/-- `filters.get(key)` where only a truthy value counts. -/
def truthyFilter (filters : FilterDict) (key : String) : Option JsonValue :=
  (filters.lookup (text key)).filter JsonValue.truthy

def parseIntId (value field : Text) : Except ApiError Nat :=
  match parseDigits value with
  | some id => .ok id
  | none => refuse (.badIntId field value)

/-- The ids of an id filter, each parsed strictly. -/
def idFilter (value : JsonValue) (field : String) : Except ApiError (List Nat) :=
  match value.elements with
  | none => .error .unhandled
  | some items => items.mapM fun item => parseIntId item.str (text field)

/-- The tokens of an id filter. -/
def idTokens (filters : FilterDict) (key field : String) :
    Except ApiError (List Text) :=
  match truthyFilter filters key with
  | none => .ok []
  | some value => do
      let ids ← idFilter value field
      .ok (ids.map fun id => text field ++ text ":" ++ decimal id)

/-- `quoted_filter_value`: one token, or nothing once the quotes are gone. -/
def quotedFilterValue (value : JsonValue) : Option Text :=
  let kept := (value.str.filter (· ≠ .scalar '"')).map fun ch =>
    if ch = .scalar '\n' ∨ ch = .scalar '\r' then .scalar ' ' else ch
  if kept = [] then none else some (text "\"" ++ kept ++ text "\"")

/-- The token of a free-form filter. -/
def quotedTokens (filters : FilterDict) (key : String) :
    Except ApiError (List Text) :=
  match truthyFilter filters key with
  | none => .ok []
  | some value =>
      match quotedFilterValue value with
      | none => refuse (.emptyQuotedValue (text key))
      | some quoted => .ok [text key ++ text ":" ++ quoted]

/-- `_DATE_SHAPE`. -/
def dateShape (value : Text) : Bool :=
  match value.splitOn (.scalar '-') with
  | [year, month, day] =>
      (year ++ month ++ day).all CodePoint.isAsciiDigit &&
        year.length = 4 && (month.length = 1 || month.length = 2) &&
        (day.length = 1 || day.length = 2)
  | _ => false

/-- The token of a date filter, under the operator it sets. -/
def dateTokens (rules : TextRules) (filters : FilterDict) (key op : String) :
    Except ApiError (List Text) :=
  match truthyFilter filters key with
  | none => .ok []
  | some (.text value) =>
      if dateShape value ∧ (rules.strptime value).isSome then
        .ok [text op ++ text ":" ++ value]
      else refuse (.badFilterDate (text key))
  | some _ => refuse (.badFilterDate (text key))

def langToken (rules : TextRules) (value : JsonValue) :
    Except ApiError Text :=
  let code := rules.lower (strip value.str)
  if code = [] then refuse .emptyLang
  else if code.any fun ch =>
      ch.isSpace || ch = .scalar '"' || ch = .scalar '\'' then
    refuse (.badLang value.str)
  else .ok (text "lang:" ++ code)

def langTokens (rules : TextRules) (filters : FilterDict) :
    Except ApiError (List Text) :=
  match filters.lookup (text "lang") with
  | none | some .null => .ok []
  | some (.list [] _) => refuse .emptyLangList
  | some (.list items _) => items.mapM (langToken rules)
  | some value => do
      let token ← langToken rules value
      .ok [token]

def hasTokens (filters : FilterDict) : Except ApiError (List Text) :=
  match filters.lookup (text "has_attachment") with
  | none | some .null => .ok []
  | some (.bool true) => .ok [text "has:attachment"]
  | some (.bool false) => .ok [text "has:no-attachment"]
  | some _ => refuse .badHasAttachment

/-- `_filter_tokens`. -/
def filterTokens (rules : TextRules) (filters : FilterDict) :
    Except ApiError (List Text) := do
  let accountIds ← idTokens filters "account_ids" "account_id"
  let folderIds ← idTokens filters "folder_ids" "folder_id"
  let sender ← quotedTokens filters "from"
  let recipient ← quotedTokens filters "to"
  let subject ← quotedTokens filters "subject"
  let attachmentName ← quotedTokens filters "attachment_name"
  let after ← dateTokens rules filters "after" "after"
  let before ← dateTokens rules filters "before" "before"
  let dateFrom ← dateTokens rules filters "date_from" "after"
  let dateTo ← dateTokens rules filters "date_to" "before"
  let lang ← langTokens rules filters
  let has ← hasTokens filters
  .ok (accountIds ++ folderIds ++ sender ++ recipient ++ subject ++
    attachmentName ++ after ++ before ++ dateFrom ++ dateTo ++ lang ++ has)

/-- The filter tokens first, then the free text. -/
def buildQueryString (rules : TextRules) (freeText : Text)
    (filters : FilterDict) : Except ApiError Text := do
  refuseIf (filterKeyError filters)
  let parts ← filterTokens rules filters
  .ok (joinSpaces (if freeText = [] then parts else parts ++ [freeText]))

/-- `_gate_query`. -/
def gateQuery (rules : TextRules) (query : Text) :
    Except ApiError ParsedQuery :=
  match parseQuery rules query with
  | .ok parsed => .ok parsed
  | .error error => refuse (.query error)

/-! ### The ordering axes -/

def defaultSort : SortMode := .rank

def textlessSort : SortMode := .date

def defaultSortOrder : SortOrder := .desc

def isRankable (freeText : Text) : Bool :=
  !(semanticText freeText).isEmpty

def resolveSort (requested : Option SortMode) (freeText : Text) : SortMode :=
  if isRankable freeText then requested.getD defaultSort else textlessSort

def sortApplicabilityError (requested : Option SortMode) (freeText : Text) :
    Option Refusal :=
  match requested with
  | none => none
  | some sort =>
      if isRankable freeText ∨ sort = textlessSort then none
      else some (.sortNotApplicable sort)

def sortOrderApplicabilityError (sort : SortMode) (order : SortOrder)
    (continuingPool : Bool) : Option Refusal :=
  if sort = .rank ∧ order = .asc then some (.orderNotApplicable continuingPool)
  else none

def walkForText (freeText : Text) : WalkKind :=
  if strip freeText = [] then .archive else .text

def keysetWalkError (cursorWalk : WalkKind) (freeText : Text) :
    Option Refusal :=
  if cursorWalk = .text ∧ walkForText freeText = .archive then some .cursorWalk
  else none

/-! ### Cursors -/

structure SearchCursor where
  token : Text
  page : Nat
deriving Repr, DecidableEq

/-- `_KEYSET_PREFIXES`. -/
def keysetPrefixes : List (Text × SortOrder × WalkKind) :=
  [(text "KAT|", .asc, .text), (text "KA|", .asc, .archive),
    (text "KT|", .desc, .text), (text "K|", .desc, .archive)]

/-- What the standard library decides about a cursor: `urlsafe_b64decode` to
ASCII, and `datetime.fromisoformat`. -/
structure CursorRules where
  urlsafeB64Decode : Text → Option Text
  fromIsoformat : Text → Option Int

/-- `int` of a page or an id: a digit string that passes the check can still
exceed its limit, which raises. -/
def intOrRaise (raw digits : Text) : Except ApiError Nat :=
  if digits = [] ∨ ¬ digits.all CodePoint.isAsciiDigit then
    refuse (.cursorMalformed raw)
  else
    match parseDigits digits with
    | some value => .ok value
    | none => .error .unhandled

/-- `decode_browse_cursor`. -/
def decodeBrowseCursor (rules : CursorRules) (raw : Text) :
    Except ApiError Position :=
  if raw = [] then refuse (.cursorMalformed raw)
  else
    match rules.urlsafeB64Decode raw with
    | none => refuse (.cursorMalformed raw)
    | some body =>
        match body.splitOn (.scalar '|') with
        | [kind, id] =>
            if kind = text "n" then do
              let id ← intOrRaise raw id
              .ok ⟨none, id⟩
            else refuse (.cursorMalformed raw)
        | [kind, stamp, id] =>
            if kind = text "d" then
              match rules.fromIsoformat stamp with
              | none => refuse (.cursorMalformed raw)
              | some ts => do
                  let id ← intOrRaise raw id
                  .ok ⟨some ts, id⟩
            else refuse (.cursorMalformed raw)
        | _ => refuse (.cursorMalformed raw)

/-- `is_keyset_cursor` with `decode_keyset_cursor`; `none` is no keyset
cursor. -/
def decodeKeysetCursor (rules : CursorRules) (raw : Text) :
    Option (Except ApiError KeysetCursor) :=
  (keysetPrefixes.find? fun entry => entry.1.isPrefixOf raw).map fun entry => do
    let position ← decodeBrowseCursor rules (raw.drop entry.1.length)
    .ok ⟨position.ts, position.id, entry.2.1, entry.2.2⟩

/-- `raw.rpartition(":")` when there is a colon. -/
def rpartitionColon (raw : Text) : Option (Text × Text) :=
  if CodePoint.scalar ':' ∈ raw then
    some ((raw.reverse.dropWhile (· ≠ .scalar ':')).tail.reverse,
      (raw.reverse.takeWhile (· ≠ .scalar ':')).reverse)
  else none

def decodeSearchCursor (raw : Text) : Except ApiError SearchCursor :=
  match rpartitionColon raw with
  | none => refuse (.cursorMalformed raw)
  | some (token, digits) =>
      if token = [] then refuse (.cursorMalformed raw)
      else do
        let page ← intOrRaise raw digits
        if page < 1 then refuse (.cursorMalformed raw)
        else .ok ⟨token, page⟩

/-- `CursorPlan`. -/
inductive CursorPlan where
  | fresh (sort : SortMode) (order : SortOrder)
  | keyset (cursor : KeysetCursor)
  | pool (cursor : SearchCursor) (statedSort : Option SortMode)
      (statedOrder : Option SortOrder)
deriving Repr, DecidableEq

/-- `_reject_sort_mismatch`. -/
def sortMismatch (requested : Option SortMode) (cursorSort : SortMode) :
    Option Refusal :=
  (requested.filter (· ≠ cursorSort)).map (.cursorSort cursorSort)

/-- `_reject_order_mismatch`. -/
def orderMismatch (requested : Option SortOrder) (cursorOrder : SortOrder) :
    Option Refusal :=
  (requested.filter (· ≠ cursorOrder)).map (.cursorOrder cursorOrder)

def freshPlan (requestedSort : Option SortMode)
    (requestedOrder : Option SortOrder) (freeText : Text) :
    Except ApiError CursorPlan := do
  refuseIf (sortApplicabilityError requestedSort freeText)
  let sort := resolveSort requestedSort freeText
  let order := requestedOrder.getD defaultSortOrder
  refuseIf (sortOrderApplicabilityError sort order false)
  .ok (.fresh sort order)

def keysetPlan (requestedSort : Option SortMode)
    (requestedOrder : Option SortOrder) (freeText : Text)
    (cursor : KeysetCursor) : Except ApiError CursorPlan := do
  refuseIf (sortMismatch requestedSort textlessSort)
  refuseIf (orderMismatch requestedOrder cursor.order)
  refuseIf (keysetWalkError cursor.walk freeText)
  .ok (.keyset cursor)

/-- Only a stated pair is judged: the pool knows its own ordering. -/
def poolPlan (requestedSort : Option SortMode)
    (requestedOrder : Option SortOrder) (cursor : SearchCursor) :
    Except ApiError CursorPlan := do
  refuseIf
    (match requestedSort, requestedOrder with
    | some sort, some order => sortOrderApplicabilityError sort order true
    | _, _ => none)
  .ok (.pool cursor requestedSort requestedOrder)

def resolveCursorPlan (rules : CursorRules) (cursor : Option Text)
    (requestedSort : Option SortMode) (requestedOrder : Option SortOrder)
    (freeText : Text) : Except ApiError CursorPlan :=
  match cursor with
  | none => freshPlan requestedSort requestedOrder freeText
  | some raw =>
      match decodeKeysetCursor rules raw with
      | some decoded => do
          let keyset ← decoded
          keysetPlan requestedSort requestedOrder freeText keyset
      | none => do
          let pool ← decodeSearchCursor raw
          poolPlan requestedSort requestedOrder pool

end Localmail
