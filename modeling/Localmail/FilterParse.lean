/-
The search box of the desktop client beside its filter chips: the tokens of a
typed query, the operators they name, and what a typed operator does to a chip
it contradicts.
-/
import Localmail.SearchRequest

namespace Localmail

/-- `\s` of a regular expression, which is also what `trim` removes. -/
def CodePoint.isJsSpace : CodePoint → Bool
  | .surrogate _ => false
  | .scalar char =>
      let code := char.toNat
      0x09 ≤ code && code ≤ 0x0D || code = 0x20 || code = 0xA0 ||
        code = 0x1680 || 0x2000 ≤ code && code ≤ 0x200A || code = 0x2028 ||
        code = 0x2029 || code = 0x202F || code = 0x205F || code = 0x3000 ||
        code = 0xFEFF

/-! ### Filters -/

/-- The chips.  An empty text is an unset chip, and so is an absent one. -/
structure SearchFiltersUI where
  accountIds : List Text
  folderIds : List Text
  fromChip : Text
  toChip : Text
  subject : Text
  after : Text
  before : Text
  hasAttachment : Option Bool
  dateFrom : Option Text
  dateTo : Option Text
  language : Option Text
deriving Repr, DecidableEq

def emptyFilters : SearchFiltersUI :=
  ⟨[], [], [], [], [], [], [], none, none, none, none⟩

structure SearchFiltersWire where
  accountIds : List Text
  folderIds : List Text
  fromSubstr : Option Text
  toSubstr : Option Text
  subject : Option Text
  after : Option Text
  before : Option Text
  hasAttachment : Option Bool
  dateFrom : Option Text
  dateTo : Option Text
  lang : Option Text
deriving Repr, DecidableEq

/-- `value || null`. -/
def orNull (value : Text) : Option Text :=
  if value = [] then none else some value

def filtersUiToWire (ui : SearchFiltersUI) : SearchFiltersWire where
  accountIds := ui.accountIds
  folderIds := ui.folderIds
  fromSubstr := orNull ui.fromChip
  toSubstr := orNull ui.toChip
  subject := orNull ui.subject
  after := orNull ui.after
  before := orNull ui.before
  hasAttachment := ui.hasAttachment
  dateFrom := ui.dateFrom.bind orNull
  dateTo := ui.dateTo.bind orNull
  lang := ui.language.bind orNull

/-! ### Tokens -/

/-- What `tokenizeRaw` holds between two characters; the last two fields are
the token as it stood when the quote opened. -/
structure RawLexing where
  out : List Token
  buf : Text
  raw : Text
  inQuote : Bool
  bufBeforeQuote : Text
  rawBeforeQuote : Text
deriving Repr, DecidableEq

def RawLexing.start : RawLexing := ⟨[], [], [], false, [], []⟩

def RawLexing.flush (state : RawLexing) : RawLexing :=
  { state with
    out := if state.buf = [] then state.out
      else state.out ++ [⟨state.buf, state.raw⟩]
    buf := []
    raw := [] }

def RawLexing.push (state : RawLexing) (ch : CodePoint) : RawLexing :=
  { state with buf := state.buf ++ [ch], raw := state.raw ++ [ch] }

/-- A character outside any quote. -/
def RawLexing.plain (state : RawLexing) (ch : CodePoint) : RawLexing :=
  if ch.isJsSpace then state.flush else state.push ch

def RawLexing.step (state : RawLexing) (ch : CodePoint) : RawLexing :=
  if state.inQuote then
    if ch = .scalar '"' then
      { state with inQuote := false, raw := state.raw ++ [ch] }
    else state.push ch
  else if ch = .scalar '"' then
    { state with
      inQuote := true
      bufBeforeQuote := state.buf
      rawBeforeQuote := state.raw
      raw := state.raw ++ [ch] }
  else state.plain ch

/-- The end of the text.  What follows an unclosed quote is split again. -/
def RawLexing.finish (state : RawLexing) : List Token :=
  if state.inQuote then
    ((state.buf.drop state.bufBeforeQuote.length).foldl RawLexing.plain
      { state with
        buf := state.bufBeforeQuote
        raw := state.rawBeforeQuote }).flush.out
  else state.flush.out

def tokenizeRaw (query : Text) : List Token :=
  (query.foldl RawLexing.step RawLexing.start).finish

/-- A text without its closed quotes: `replace(/"[^"]*"/g, "")`.  `run` holds
what was read since an opening quote. -/
def dropQuoted : Option Text → Text → Text
  | none, [] => []
  | some run, [] => .scalar '"' :: run
  | none, ch :: rest =>
      if ch = .scalar '"' then dropQuoted (some []) rest
      else ch :: dropQuoted none rest
  | some run, ch :: rest =>
      if ch = .scalar '"' then dropQuoted none rest
      else dropQuoted (some (run ++ [ch])) rest

/-- One token of `joinTokens`. -/
def spellToken (token : Token) : Text :=
  if token.raw ≠ token.stripped ∧
      CodePoint.scalar '\'' ∉ dropQuoted none token.raw then token.raw
  else if !token.stripped.any fun ch => ch.isJsSpace || ch = .scalar '\'' then
    token.stripped
  else match token.stripped with
    | .scalar '-' :: rest => text "-\"" ++ rest ++ text "\""
    | stripped => text "\"" ++ stripped ++ text "\""

def joinTokens (tokens : List Token) : Text :=
  joinSpaces (tokens.map spellToken)

/-! ### Typed operators -/

/-- `POPOVER_OPERATORS`. -/
def popoverOperators : List (Text × Operator) :=
  [(text "from", .fromOp), (text "to", .toOp), (text "subject", .subjectOp),
    (text "after", .afterOp), (text "before", .beforeOp), (text "has", .hasOp),
    (text "lang", .langOp)]

def popoverOperator (token : Text) : Option (Operator × Text) :=
  match partitionColon token with
  | none => none
  | some (name, value) =>
      if name = [] ∨ value = [] then none
      else (popoverOperators.lookup (lowerAscii name)).map fun op => (op, value)

/-- What `extractDslFilters` holds between two tokens. -/
structure Extracting where
  freeParts : List Token
  filters : SearchFiltersUI
deriving Repr, DecidableEq

structure ExtractedFilters where
  freeText : Text
  filters : SearchFiltersUI
deriving Repr, DecidableEq

section Extract

variable (toLowerCase : Text → Text)

def Extracting.step (state : Extracting) (token : Token) : Extracting :=
  match popoverOperator token.stripped with
  | some (.fromOp, value) =>
      { state with filters := { state.filters with fromChip := value } }
  | some (.toOp, value) =>
      { state with filters := { state.filters with toChip := value } }
  | some (.subjectOp, value) =>
      { state with filters := { state.filters with subject := value } }
  | some (.afterOp, value) =>
      { state with filters := { state.filters with
          after := value
          dateFrom := some value } }
  | some (.beforeOp, value) =>
      { state with filters := { state.filters with
          before := value
          dateTo := some value } }
  | some (.langOp, value) =>
      { state with filters := { state.filters with
          language := some (toLowerCase value) } }
  | some (.hasOp, value) =>
      if lowerAscii value = text "attachment" then
        { state with filters := { state.filters with
            hasAttachment := some true } }
      else { state with freeParts := state.freeParts ++ [token] }
  | _ => { state with freeParts := state.freeParts ++ [token] }

def extractDslFilters (query : Text) : ExtractedFilters :=
  let final := (tokenizeRaw query).foldl (Extracting.step toLowerCase)
    ⟨[], emptyFilters⟩
  ⟨joinTokens final.freeParts, final.filters⟩

end Extract

/-- A typed value takes the place of a chip that says something else. -/
def contradicts (typed chip : Text) : Bool :=
  typed ≠ [] && chip ≠ [] && typed ≠ chip

/-- `explicit || fallback || ""`. -/
def dateChip (explicit : Text) (fallback : Option Text) : Text :=
  if explicit = [] then fallback.getD [] else explicit

structure AbsorbedQuery where
  query : Text
  filters : SearchFiltersUI
deriving Repr, DecidableEq

section Absorb

variable (toLowerCase : Text → Text)

/-- The operators whose typed value contradicts a chip.  `DATE_SHAPE` is the
server's own. -/
def absorbedOperators (typed filters : SearchFiltersUI) : List Operator :=
  [(.fromOp, contradicts typed.fromChip filters.fromChip),
    (.toOp, contradicts typed.toChip filters.toChip),
    (.subjectOp, contradicts typed.subject filters.subject),
    (.afterOp, dateShape typed.after &&
      contradicts typed.after (dateChip filters.after filters.dateFrom)),
    (.beforeOp, dateShape typed.before &&
      contradicts typed.before (dateChip filters.before filters.dateTo))].filterMap
    fun (entry : Operator × Bool) => if entry.2 then some entry.1 else none

/-- `absorbConflictingOperators`; `none` is the case in which it gives back
the objects it was given. -/
def absorbConflictingOperators (query : Text) (filters : SearchFiltersUI) :
    Option AbsorbedQuery :=
  let typed := (extractDslFilters toLowerCase query).filters
  let absorbed := absorbedOperators typed filters
  let taken (op : Operator) (value chip : Text) : Text :=
    if op ∈ absorbed then value else chip
  if absorbed = [] then none
  else
    some
      { query := joinTokens ((tokenizeRaw query).filter fun token =>
          match popoverOperator token.stripped with
          | some (op, _) => op ∉ absorbed
          | none => true)
        filters :=
          { filters with
            fromChip := taken .fromOp typed.fromChip filters.fromChip
            toChip := taken .toOp typed.toChip filters.toChip
            subject := taken .subjectOp typed.subject filters.subject
            after := taken .afterOp typed.after filters.after
            before := taken .beforeOp typed.before filters.before
            dateFrom := if .afterOp ∈ absorbed then some typed.after
              else filters.dateFrom
            dateTo := if .beforeOp ∈ absorbed then some typed.before
              else filters.dateTo } }

end Absorb

/-- A typed sender replaces the chip and leaves the query. -/
example : absorbConflictingOperators id (text "from:bob plan")
    { emptyFilters with fromChip := text "alice" } =
      some ⟨text "plan", { emptyFilters with fromChip := text "bob" }⟩ := by
  decide +kernel

end Localmail
