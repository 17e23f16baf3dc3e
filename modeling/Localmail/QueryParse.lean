/-
The search query language: tokens, operators, the structured filters they set
and the free text they leave.  A text is a list of code points, so that a lone
surrogate is a text the parser can be given and refuses.
-/
import Mathlib.Algebra.GroupWithZero.Nat
import Mathlib.Data.List.Basic

namespace Localmail

/-- A code point of a Python string. -/
inductive CodePoint where
  | scalar (char : Char)
  | surrogate (offset : Fin 2048)
deriving Repr, DecidableEq

abbrev Text := List CodePoint

instance : LawfulBEq Text := inferInstance

instance neZeroSurrogates : NeZero 2048 := ⟨by decide⟩

/-- The text of a literal. -/
def text (literal : String) : Text :=
  literal.toList.map .scalar

/-- What the standard library decides about a text: its lower case,
`str.isalnum`, and `strptime` with `%Y-%m-%d` as the number of the day. -/
structure TextRules where
  lower : Text → Text
  isAlnum : CodePoint → Bool
  strptime : Text → Option Int

/-- `str.isspace` of one code point. -/
def CodePoint.isSpace : CodePoint → Bool
  | .surrogate _ => false
  | .scalar char =>
      let code := char.toNat
      0x09 ≤ code && code ≤ 0x0D || 0x1C ≤ code && code ≤ 0x20 ||
        code = 0x85 || code = 0xA0 || code = 0x1680 ||
        0x2000 ≤ code && code ≤ 0x200A || code = 0x2028 || code = 0x2029 ||
        code = 0x202F || code = 0x205F || code = 0x3000

/-- An ASCII letter in lower case.  No operator name, `has:` value or `or`
holds a letter that some other character folds to. -/
def CodePoint.lowerAscii : CodePoint → CodePoint
  | .surrogate offset => .surrogate offset
  | .scalar char => .scalar char.toLower

def CodePoint.isAsciiDigit : CodePoint → Bool
  | .surrogate _ => false
  | .scalar char => '0'.toNat ≤ char.toNat && char.toNat ≤ '9'.toNat

theorem scalar_of_isAsciiDigit {char : CodePoint}
    (hdigit : char.isAsciiDigit = true) :
    ∃ digit : Char, char = .scalar digit ∧
      48 ≤ digit.toNat ∧ digit.toNat ≤ 57 := by
  cases char with
  | surrogate offset => cases hdigit
  | scalar digit =>
      simp only [CodePoint.isAsciiDigit, Bool.and_eq_true,
        decide_eq_true_eq] at hdigit
      exact ⟨digit, rfl, hdigit⟩

def lowerAscii (value : Text) : Text :=
  value.map CodePoint.lowerAscii

/-- `str.strip()`. -/
def strip (value : Text) : Text :=
  ((value.dropWhile CodePoint.isSpace).reverse.dropWhile
    CodePoint.isSpace).reverse

/-- `" ".join(parts)`. -/
def joinSpaces (parts : List Text) : Text :=
  (text " ").intercalate parts

/-- `sys.get_int_max_str_digits()`. -/
def intMaxStrDigits : Nat := 4300

def digitValue : CodePoint → Nat
  | .surrogate _ => 0
  | .scalar char => char.toNat - '0'.toNat

/-- A non-empty run of ASCII digits within the limit of `int`. -/
def parseDigits (value : Text) : Option Nat :=
  if value ≠ [] ∧ value.all CodePoint.isAsciiDigit ∧
      value.length ≤ intMaxStrDigits then
    some (value.foldl (fun total digit => 10 * total + digitValue digit) 0)
  else none

/-! ### Tokens -/

/-- A token without its quote characters, and with them. -/
structure Token where
  stripped : Text
  raw : Text
deriving Repr, DecidableEq

/-- What the tokenizer holds between two characters. -/
structure Lexing where
  out : List Token
  buf : Text
  raw : Text
  quoted : Bool
deriving Repr, DecidableEq

def Lexing.start : Lexing := ⟨[], [], [], false⟩

/-- The token under way is emitted only if a character is in it. -/
def Lexing.flush (state : Lexing) : List Token :=
  if state.buf = [] then state.out
  else state.out ++ [⟨state.buf, state.raw⟩]

def Lexing.push (state : Lexing) (ch : CodePoint) : Lexing :=
  { state with buf := state.buf ++ [ch], raw := state.raw ++ [ch] }

def Lexing.step (state : Lexing) (ch : CodePoint) : Lexing :=
  if state.quoted then
    if ch = .scalar '"' then
      { state with quoted := false, raw := state.raw ++ [ch] }
    else state.push ch
  else if ch = .scalar '"' then
    { state with quoted := true, raw := state.raw ++ [ch] }
  else if ch.isSpace then ⟨state.flush, [], [], false⟩
  else state.push ch

/-- `_tokenize`: an unclosed quote runs to the end. -/
def tokenize (query : Text) : List Token :=
  (query.foldl Lexing.step Lexing.start).flush

def isOr (raw : Text) : Bool :=
  lowerAscii raw = text "or"

def isExclusion (raw : Text) : Bool :=
  (text "-").isPrefixOf raw && !(text "--").isPrefixOf raw

/-- The positive terms of a free text, without its web-search syntax. -/
def semanticText (freeText : Text) : Text :=
  joinSpaces (((tokenize freeText).filter fun token =>
    token.stripped ≠ [] && !isOr token.raw && !isExclusion token.raw).map
      Token.stripped)

/-- The token before position `index`, if any, and the one after it are no
`OR`. -/
def apartFromOr (tokens : List Token) (index : Nat) : Bool :=
  !((0 < index) && (tokens[index - 1]?).any fun token => isOr token.raw) &&
    !((tokens[index + 1]?).any fun token => isOr token.raw)

/-- The exclusions of a free text that every retrieval path applies. -/
def excludedText (rules : TextRules) (freeText : Text) : Text :=
  let tokens := tokenize freeText
  joinSpaces ((tokens.zipIdx.filter fun (token, index) =>
    isExclusion token.raw && token.stripped.any rules.isAlnum &&
      apartFromOr tokens index).map fun entry => entry.1.raw)

/-! ### Operators -/

inductive Operator where
  | fromOp
  | toOp
  | subjectOp
  | afterOp
  | beforeOp
  | hasOp
  | labelOp
  | accountOp
  | folderOp
  | accountIdOp
  | folderIdOp
  | langOp
  | attachmentNameOp
deriving Repr, DecidableEq

/-- `_OPERATORS`. -/
def operators : List (Text × Operator) :=
  [(text "from", .fromOp), (text "to", .toOp), (text "subject", .subjectOp),
    (text "after", .afterOp), (text "before", .beforeOp), (text "has", .hasOp),
    (text "label", .labelOp), (text "account", .accountOp),
    (text "folder", .folderOp), (text "account_id", .accountIdOp),
    (text "folder_id", .folderIdOp), (text "lang", .langOp),
    (text "attachment_name", .attachmentNameOp)]

def operatorNamed (name : Text) : Option Operator :=
  operators.lookup (lowerAscii name)

/-- `_FIXED_SHAPE_OPERATORS`: no ordinary text spells one of their values. -/
def Operator.fixedShape : Operator → Bool
  | .afterOp | .beforeOp | .hasOp | .accountIdOp | .folderIdOp => true
  | _ => false

structure SearchFilters where
  accountNames : List Text
  /-- Ids resolved from `accountNames`. -/
  accounts : Option (List Int)
  accountIds : Option (List Int)
  folders : Option (List Text)
  folderIds : Option (List Int)
  fromSubstr : Option Text
  toSubstr : Option Text
  subjectSubstr : Option Text
  after : Option Int
  before : Option Int
  hasAttachment : Option Bool
  label : Option Text
  languages : Option (List Text)
  attachmentNameSubstr : Option Text
deriving Repr, DecidableEq

def SearchFilters.unset : SearchFilters :=
  ⟨[], none, none, none, none, none, none, none, none, none, none, none, none,
    none⟩

structure ParsedQuery where
  freeText : Text
  rewrittenText : Option Text
  expansionTerms : List Text
  filters : SearchFilters
deriving Repr, DecidableEq

/-- Why a text cannot be stored. -/
inductive Unstorable where
  | nul
  | loneSurrogate (offset : Fin 2048)
deriving Repr, DecidableEq

/-- `QueryParseError`, with the operator it names (`none` is `query`). -/
inductive QueryParseError where
  | emptyValue (op : Operator)
  | badId (op : Operator) (value : Text)
  | badDate (op : Operator) (value : Text)
  | unknownHas (value : Text)
  | contradictoryHas
  | unstorable (op : Option Operator) (problem : Unstorable)
deriving Repr, DecidableEq

theorem exceptBind_eq_ok {ε α β : Type} {computation : Except ε α}
    {rest : α → Except ε β} {value : β} :
    (computation >>= rest) = .ok value ↔
      ∃ result, computation = .ok result ∧ rest result = .ok value := by
  cases computation <;> simp [bind, Except.bind]

def parseId (value : Text) (op : Operator) : Except QueryParseError Int :=
  match parseDigits value with
  | some id => .ok id
  | none => .error (.badId op value)

def parseDate (rules : TextRules) (value : Text) (op : Operator) :
    Except QueryParseError Int :=
  match rules.strptime value with
  | some day => .ok day
  | none => .error (.badDate op value)

/-- `_HAS_VALUES`. -/
def hasValues : List (Text × Bool) :=
  [(text "attachment", true), (text "no-attachment", false)]

def parseHas (value : Text) (current : Option Bool) :
    Except QueryParseError Bool :=
  match hasValues.lookup (lowerAscii value) with
  | none => .error (.unknownHas value)
  | some wanted =>
      if current = some (!wanted) then .error .contradictoryHas else .ok wanted

/-- `tok.partition(":")` when there is a colon. -/
def partitionColon (token : Text) : Option (Text × Text) :=
  if CodePoint.scalar ':' ∈ token then
    some (token.takeWhile (· ≠ .scalar ':'),
      (token.dropWhile (· ≠ .scalar ':')).tail)
  else none

def unstorableIn (token : Text) : Option Unstorable :=
  if CodePoint.scalar '\x00' ∈ token then some .nul
  else token.findSome? fun
    | .surrogate offset => some (.loneSurrogate offset)
    | .scalar _ => none

/-- `_reject_unstorable`. -/
def rejectUnstorable (token : Text) : Except QueryParseError Unit :=
  match unstorableIn token with
  | none => .ok ()
  | some problem =>
      .error (.unstorable
        ((partitionColon token).bind fun parts => operatorNamed parts.1)
        problem)

/-! ### The parser -/

/-- The parse under way; an empty list is an unset filter at the end. -/
structure Parsing where
  freeParts : List Text
  accountNames : List Text
  folders : List Text
  accountIds : List Int
  folderIds : List Int
  fromSubstr : Option Text
  toSubstr : Option Text
  subjectSubstr : Option Text
  label : Option Text
  attachmentName : Option Text
  after : Option Int
  before : Option Int
  hasAttachment : Option Bool
  languages : List Text
deriving Repr, DecidableEq

def Parsing.start : Parsing :=
  ⟨[], [], [], [], [], none, none, none, none, none, none, none, none, []⟩

/-- One operator with a value. -/
def Parsing.apply (rules : TextRules) (parse : Parsing) (op : Operator)
    (value : Text) : Except QueryParseError Parsing :=
  match op with
  | .fromOp => .ok { parse with fromSubstr := some value }
  | .toOp => .ok { parse with toSubstr := some value }
  | .subjectOp => .ok { parse with subjectSubstr := some value }
  | .labelOp => .ok { parse with label := some value }
  | .attachmentNameOp => .ok { parse with attachmentName := some value }
  | .accountOp => .ok { parse with accountNames := parse.accountNames ++ [value] }
  | .folderOp => .ok { parse with folders := parse.folders ++ [value] }
  | .accountIdOp => do
      let id ← parseId value op
      .ok { parse with accountIds := parse.accountIds ++ [id] }
  | .folderIdOp => do
      let id ← parseId value op
      .ok { parse with folderIds := parse.folderIds ++ [id] }
  | .afterOp => do
      let day ← parseDate rules value op
      .ok { parse with after := some day }
  | .beforeOp => do
      let day ← parseDate rules value op
      .ok { parse with before := some day }
  | .hasOp => do
      let wanted ← parseHas value parse.hasAttachment
      .ok { parse with hasAttachment := some wanted }
  | .langOp =>
      let normalized := rules.lower (strip value)
      if normalized = [] then .error (.emptyValue .langOp)
      else .ok { parse with languages := parse.languages ++ [normalized] }

/-- A token kept as free text, unless it is nothing but dashes. -/
def Parsing.keep (parse : Parsing) (raw : Text) : Parsing :=
  if raw.all (· = .scalar '-') then parse
  else { parse with freeParts := parse.freeParts ++ [raw] }

def Parsing.step (rules : TextRules) (parse : Parsing) (token : Token) :
    Except QueryParseError Parsing := do
  rejectUnstorable token.stripped
  match partitionColon token.stripped with
  | none => .ok (parse.keep token.raw)
  | some (name, value) =>
      match operatorNamed name with
      | none => .ok (parse.keep token.raw)
      | some op =>
          if op = .langOp then parse.apply rules op value
          else if value = [] then
            if op.fixedShape then .error (.emptyValue op)
            else .ok (parse.keep token.raw)
          else parse.apply rules op value

/-- `xs or None`. -/
def orNone {α : Type} (values : List α) : Option (List α) :=
  if values.isEmpty then none else some values

def Parsing.finish (parse : Parsing) : ParsedQuery where
  freeText := joinSpaces parse.freeParts
  rewrittenText := none
  expansionTerms := []
  filters :=
    { accountNames := parse.accountNames
      accounts := none
      accountIds := orNone parse.accountIds
      folders := orNone parse.folders
      folderIds := orNone parse.folderIds
      fromSubstr := parse.fromSubstr
      toSubstr := parse.toSubstr
      subjectSubstr := parse.subjectSubstr
      after := parse.after
      before := parse.before
      hasAttachment := parse.hasAttachment
      label := parse.label
      languages := orNone parse.languages
      attachmentNameSubstr := parse.attachmentName }

def parseQuery (rules : TextRules) (query : Text) :
    Except QueryParseError ParsedQuery := do
  let parse ← (tokenize query).foldlM (Parsing.step rules) Parsing.start
  .ok parse.finish

end Localmail
