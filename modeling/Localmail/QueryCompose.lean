/-
The two composers of a query: the filter dictionary of a request and the flags
of `localmail search`.  Both put contained tokens in front of the free text,
so the free text is parsed as it is alone, and the filters are those stated.
-/
import Localmail.Calendar
import Localmail.FilterTokens

namespace Localmail

/-! ### The flags of the command line -/

/-- A number with leading zeros. -/
def padded (width value : Nat) : Text :=
  List.replicate (width - (decimal value).length) (.scalar '0') ++ decimal value

/-- `date.isoformat()`. -/
def CalendarDate.isoformat (date : CalendarDate) : Text :=
  padded 4 date.year ++ text "-" ++ padded 2 date.month ++ text "-" ++
    padded 2 date.day

/-- The keyword arguments of `compose_cli_query`. -/
structure CliFlags where
  accounts : List Text
  folders : List Text
  after : Option CalendarDate
  before : Option CalendarDate
  fromSubstr : Option Text
  toSubstr : Option Text
  subjectSubstr : Option Text
  hasAttachment : Option Bool
  label : Option Text

/-- A flag whose value is empty once its quotes are removed. -/
structure FlagValueError where
  flag : Text
deriving Repr, DecidableEq

/-- `_quote`. -/
def quoteFlag (value : Text) (flag : String) : Except FlagValueError Text :=
  match quotedFilterValue (.text value) with
  | none => .error ⟨text flag⟩
  | some quoted => .ok quoted

/-- The tokens of a flag that may be given many times. -/
def manyTokens (values : List Text) (key flag : String) :
    Except FlagValueError (List Text) :=
  values.mapM fun value => do
    let quoted ← quoteFlag value flag
    .ok (text key ++ text ":" ++ quoted)

/-- The token of a flag, unless it is not given or empty. -/
def flagTokens (value : Option Text) (key flag : String) :
    Except FlagValueError (List Text) :=
  manyTokens (value.filter fun given => !given.isEmpty).toList key flag

def flagDateTokens (date : Option CalendarDate) (key : String) : List Text :=
  date.toList.map fun date => text key ++ text ":" ++ date.isoformat

def composeCliQuery (freeText : Text) (flags : CliFlags) :
    Except FlagValueError Text := do
  let accounts ← manyTokens flags.accounts "account" "--account"
  let folders ← manyTokens flags.folders "folder" "--folder"
  let sender ← flagTokens flags.fromSubstr "from" "--from"
  let recipient ← flagTokens flags.toSubstr "to" "--to"
  let subject ← flagTokens flags.subjectSubstr "subject" "--subject"
  let after := flagDateTokens flags.after "after"
  let before := flagDateTokens flags.before "before"
  let has := if flags.hasAttachment = some true then [text "has:attachment"]
    else []
  let label ← flagTokens flags.label "label" "--label"
  let parts := accounts ++ folders ++ sender ++ recipient ++ subject ++
    after ++ before ++ has ++ label
  .ok (joinSpaces (if freeText = [] then parts else parts ++ [freeText]))

/-! ### What the flags state -/

/-- A text flag that is given. -/
def givenText (value : Option Text) : Option Text :=
  (value.filter fun given => !given.isEmpty).map oneLine

/-- The filters the flags state, and no others; `dayOf` numbers the days. -/
def statedFlags (dayOf : CalendarDate → Int) (flags : CliFlags) :
    SearchFilters :=
  { SearchFilters.unset with
    accountNames := flags.accounts.map oneLine
    folders := orNone (flags.folders.map oneLine)
    fromSubstr := givenText flags.fromSubstr
    toSubstr := givenText flags.toSubstr
    subjectSubstr := givenText flags.subjectSubstr
    after := flags.after.map dayOf
    before := flags.before.map dayOf
    hasAttachment := flags.hasAttachment.filter id
    label := givenText flags.label }

def manyParts (values : List Text) (op : Operator) : List ComposedPart :=
  (values.map oneLine).map fun value => ⟨op, value, true⟩

def flagParts (value : Option Text) (op : Operator) : List ComposedPart :=
  (givenText value).toList.map fun value => ⟨op, value, true⟩

def flagDateParts (date : Option CalendarDate) (op : Operator) :
    List ComposedPart :=
  date.toList.map fun date => ⟨op, date.isoformat, false⟩

def flagHasParts (flags : CliFlags) : List ComposedPart :=
  (flags.hasAttachment.filter id).toList.map fun wanted =>
    ⟨.hasOp, hasValue wanted, false⟩

def cliParts (flags : CliFlags) : List ComposedPart :=
  manyParts flags.accounts .accountOp ++ manyParts flags.folders .folderOp ++
    flagParts flags.fromSubstr .fromOp ++ flagParts flags.toSubstr .toOp ++
    flagParts flags.subjectSubstr .subjectOp ++
    flagDateParts flags.after .afterOp ++
    flagDateParts flags.before .beforeOp ++ flagHasParts flags ++
    flagParts flags.label .labelOp

/-! ### The flags' tokens spell their parts -/

section Spelling

variable {op : Operator} {key flag : String} {tokens : List Text}

theorem quoteFlag_eq_ok {value quoted : Text}
    (hquoted : quoteFlag value flag = .ok quoted) :
    oneLine value ≠ [] ∧ quoted = text "\"" ++ oneLine value ++ text "\"" := by
  unfold quoteFlag at hquoted
  change (match if oneLine value = [] then none else
    some (text "\"" ++ oneLine value ++ text "\"") with
    | none => _
    | some quoted => _) = _ at hquoted
  by_cases hempty : oneLine value = []
  · rw [if_pos hempty] at hquoted
    cases hquoted
  · rw [if_neg hempty] at hquoted
    cases hquoted
    exact ⟨hempty, rfl⟩

theorem manyTokens_spells {values : List Text} (hkey : text key = op.name)
    (htokens : manyTokens values key flag = .ok tokens) :
    Spells tokens (manyParts values op) := by
  unfold manyTokens at htokens
  induction values generalizing tokens with
  | nil =>
      cases htokens
      exact ⟨rfl, nofun⟩
  | cons value rest ih =>
      rw [List.mapM_cons] at htokens
      obtain ⟨token, htoken, hmore⟩ := exceptBind_eq_ok.mp htokens
      obtain ⟨others, hothers, hlist⟩ := exceptBind_eq_ok.mp hmore
      obtain ⟨quoted, hquoted, hspelled⟩ := exceptBind_eq_ok.mp htoken
      cases hlist
      cases hspelled
      obtain ⟨hnonempty, rfl⟩ := quoteFlag_eq_ok hquoted
      have hfirst : Spells [text key ++ text ":" ++
          (text "\"" ++ oneLine value ++ text "\"")]
          [⟨op, oneLine value, true⟩] := by
        refine ⟨?_, ?_⟩
        · rw [hkey]
          rfl
        · intro part hpart
          obtain rfl := List.mem_singleton.mp hpart
          exact ⟨hnonempty, quote_not_mem_oneLine value, nofun⟩
      exact hfirst.append (ih hothers)

theorem flagTokens_spells {value : Option Text} (hkey : text key = op.name)
    (htokens : flagTokens value key flag = .ok tokens) :
    Spells tokens (flagParts value op) := by
  have hspells := manyTokens_spells hkey htokens
  unfold flagParts givenText
  rw [Option.toList_map]
  exact hspells

theorem plain_of_mem_padded {width value : Nat} :
    ∀ ch ∈ padded width value, ch ≠ .scalar '"' ∧ ch.isSpace = false := by
  intro ch hch
  rcases List.mem_append.mp hch with hzero | hdigit
  · obtain rfl := (List.mem_replicate.mp hzero).2
    exact ⟨by decide, by decide⟩
  · exact plain_of_isAsciiDigit (isAsciiDigit_of_mem_decimal ch hdigit)

theorem CalendarDate.isoformat_plain (date : CalendarDate) :
    ∀ ch ∈ date.isoformat, ch ≠ .scalar '"' ∧ ch.isSpace = false := by
  have hdash : ∀ ch ∈ text "-", ch ≠ .scalar '"' ∧ ch.isSpace = false := by
    decide
  intro ch hch
  unfold CalendarDate.isoformat at hch
  rcases List.mem_append.mp hch with hch | hday
  · rcases List.mem_append.mp hch with hch | hmark
    · rcases List.mem_append.mp hch with hch | hmonth
      · rcases List.mem_append.mp hch with hyear | hmark
        · exact plain_of_mem_padded ch hyear
        · exact hdash ch hmark
      · exact plain_of_mem_padded ch hmonth
    · exact hdash ch hmark
  · exact plain_of_mem_padded ch hday

theorem flagDateTokens_spells {date : Option CalendarDate}
    (hkey : text key = op.name) :
    Spells (flagDateTokens date key) (flagDateParts date op) := by
  cases date with
  | none => exact ⟨rfl, nofun⟩
  | some date =>
      refine ⟨?_, ?_⟩
      · rw [flagDateTokens, hkey]
        rfl
      · intro part hpart
        obtain rfl := List.mem_singleton.mp hpart
        refine ⟨?_, ?_, ?_⟩
        · simp [CalendarDate.isoformat, text]
        · exact fun hquote => (date.isoformat_plain _ hquote).1 rfl
        · exact fun _ ch hch => (date.isoformat_plain ch hch).2

theorem flagHasTokens_spells (flags : CliFlags) :
    Spells (if flags.hasAttachment = some true then [text "has:attachment"]
      else []) (flagHasParts flags) := by
  unfold flagHasParts
  cases flags.hasAttachment with
  | none => exact ⟨rfl, nofun⟩
  | some wanted =>
      cases wanted with
      | false => exact ⟨rfl, nofun⟩
      | true =>
          refine ⟨rfl, ?_⟩
          intro part hpart
          obtain rfl := List.mem_singleton.mp hpart
          exact ⟨by decide, by decide, by decide⟩

theorem composeCliQuery_spells {freeText composed : Text} {flags : CliFlags}
    (hcomposed : composeCliQuery freeText flags = .ok composed) :
    ∃ tokens, composed = composedText tokens freeText ∧
      Spells tokens (cliParts flags) := by
  unfold composeCliQuery at hcomposed
  obtain ⟨accounts, haccounts, hcomposed⟩ := exceptBind_eq_ok.mp hcomposed
  obtain ⟨folders, hfolders, hcomposed⟩ := exceptBind_eq_ok.mp hcomposed
  obtain ⟨sender, hsender, hcomposed⟩ := exceptBind_eq_ok.mp hcomposed
  obtain ⟨recipient, hrecipient, hcomposed⟩ := exceptBind_eq_ok.mp hcomposed
  obtain ⟨subject, hsubject, hcomposed⟩ := exceptBind_eq_ok.mp hcomposed
  obtain ⟨label, hlabel, hcomposed⟩ := exceptBind_eq_ok.mp hcomposed
  cases hcomposed
  refine ⟨_, rfl, ?_⟩
  refine Spells.append ?_ (flagTokens_spells rfl hlabel)
  refine Spells.append ?_ (flagHasTokens_spells flags)
  refine Spells.append ?_ (flagDateTokens_spells rfl)
  refine Spells.append ?_ (flagDateTokens_spells rfl)
  refine Spells.append ?_ (flagTokens_spells rfl hsubject)
  refine Spells.append ?_ (flagTokens_spells rfl hrecipient)
  refine Spells.append ?_ (flagTokens_spells rfl hsender)
  refine Spells.append ?_ (manyTokens_spells rfl hfolders)
  exact manyTokens_spells rfl haccounts

end Spelling

/-! ### What the flags' tokens set -/

section Effects

variable {rules : TextRules} {dayOf : CalendarDate → Int} {flags : CliFlags}

/-- The parse the flags lead to. -/
def cliParsing (dayOf : CalendarDate → Int) (flags : CliFlags) : Parsing :=
  { Parsing.start with
    accountNames := flags.accounts.map oneLine
    folders := flags.folders.map oneLine
    fromSubstr := givenText flags.fromSubstr
    toSubstr := givenText flags.toSubstr
    subjectSubstr := givenText flags.subjectSubstr
    after := flags.after.map dayOf
    before := flags.before.map dayOf
    hasAttachment := flags.hasAttachment.filter id
    label := givenText flags.label }

theorem cliParsing_filters (dayOf : CalendarDate → Int) (flags : CliFlags) :
    (cliParsing dayOf flags).finish.filters = statedFlags dayOf flags := rfl

theorem cliParts_applied
    (hdays : ∀ date, date ∈ flags.after ∨ date ∈ flags.before →
      rules.strptime date.isoformat = some (dayOf date)) :
    applyAll rules Parsing.start (cliParts flags) =
      .ok (cliParsing dayOf flags) := by
  have haccounts (before : Parsing) :
      applyAll rules before (manyParts flags.accounts .accountOp) =
        .ok { before with
          accountNames :=
            before.accountNames ++ flags.accounts.map oneLine } :=
    applyAll_list (fun before values =>
      { before with accountNames := before.accountNames ++ values }) _
      (fun _ => by simp) (fun _ _ _ => by simp) (fun _ _ _ => rfl) before
  have hfolders (before : Parsing) :
      applyAll rules before (manyParts flags.folders .folderOp) =
        .ok { before with
          folders := before.folders ++ flags.folders.map oneLine } :=
    applyAll_list (fun before values =>
      { before with folders := before.folders ++ values }) _
      (fun _ => by simp) (fun _ _ _ => by simp) (fun _ _ _ => rfl) before
  have hsender (before : Parsing) :
      applyAll rules before (flagParts flags.fromSubstr .fromOp) =
        .ok { before with
          fromSubstr := givenText flags.fromSubstr <|> before.fromSubstr } :=
    applyAll_option (fun before value =>
      { before with fromSubstr := value <|> before.fromSubstr }) _
      (fun _ => rfl) (fun _ _ _ => rfl) before
  have hrecipient (before : Parsing) :
      applyAll rules before (flagParts flags.toSubstr .toOp) =
        .ok { before with
          toSubstr := givenText flags.toSubstr <|> before.toSubstr } :=
    applyAll_option (fun before value =>
      { before with toSubstr := value <|> before.toSubstr }) _
      (fun _ => rfl) (fun _ _ _ => rfl) before
  have hsubject (before : Parsing) :
      applyAll rules before (flagParts flags.subjectSubstr .subjectOp) =
        .ok { before with
          subjectSubstr :=
            givenText flags.subjectSubstr <|> before.subjectSubstr } :=
    applyAll_option (fun before value =>
      { before with subjectSubstr := value <|> before.subjectSubstr }) _
      (fun _ => rfl) (fun _ _ _ => rfl) before
  have hlabel (before : Parsing) :
      applyAll rules before (flagParts flags.label .labelOp) =
        .ok { before with
          label := givenText flags.label <|> before.label } :=
    applyAll_option (fun before value =>
      { before with label := value <|> before.label }) _
      (fun _ => rfl) (fun _ _ _ => rfl) before
  have hafter (before : Parsing) :
      applyAll rules before (flagDateParts flags.after .afterOp) =
        .ok { before with
          after := flags.after.map dayOf <|> before.after } := by
    apply applyAll_option (fun before (value : Option CalendarDate) =>
      { before with after := value.map dayOf <|> before.after })
    · intro before
      rfl
    · intro before date hdate
      simp [Parsing.apply, parseDate, hdays date (.inl hdate), bind, Except.bind]
  have hbefore (before : Parsing) :
      applyAll rules before (flagDateParts flags.before .beforeOp) =
        .ok { before with
          before := flags.before.map dayOf <|> before.before } := by
    apply applyAll_option (fun before (value : Option CalendarDate) =>
      { before with before := value.map dayOf <|> before.before })
    · intro before
      rfl
    · intro before date hdate
      simp [Parsing.apply, parseDate, hdays date (.inr hdate), bind, Except.bind]
  simp only [cliParts, applyAll_append, haccounts, hfolders, hsender,
    hrecipient, hsubject, hafter, hbefore, bind, Except.bind]
  rw [flagHasParts, applyAll_has _ rfl]
  simp [hlabel, cliParsing, Parsing.start]

end Effects

/-- Filters of either kind in front of a free text leave it as it is alone,
and a free text without operators adds no filter to those stated. -/
theorem composed_queries_neutral_and_faithful (rules : TextRules)
    (hlower : ∀ value, rules.lower (rules.lower value) = rules.lower value)
    (dayOf : CalendarDate → Int) (freeText composed : Text)
    (parsed : ParsedQuery) (hparse : parseQuery rules composed = .ok parsed) :
    (∀ filters, buildQueryString rules freeText filters = .ok composed →
      (∃ plain, parseQuery rules freeText = .ok plain ∧
        parsed.freeText = plain.freeText) ∧
      ((∀ token ∈ tokenize freeText, token.isOperator = false) →
        parsed.filters = statedFilters rules filters)) ∧
    (∀ flags : CliFlags,
      (∀ date, date ∈ flags.after ∨ date ∈ flags.before →
        rules.strptime date.isoformat = some (dayOf date)) →
      composeCliQuery freeText flags = .ok composed →
      (∃ plain, parseQuery rules freeText = .ok plain ∧
        parsed.freeText = plain.freeText) ∧
      ((∀ token ∈ tokenize freeText, token.isOperator = false) →
        parsed.filters = statedFlags dayOf flags)) := by
  refine ⟨?_, ?_⟩
  · intro filters hbuilt
    obtain ⟨⟨⟩, -, hbuilt⟩ := exceptBind_eq_ok.mp hbuilt
    obtain ⟨tokens, htokens, hcomposed⟩ := exceptBind_eq_ok.mp hbuilt
    cases hcomposed
    have hspells := filterTokens_spells htokens
    refine ⟨hspells.neutral hparse, ?_⟩
    intro hplain
    rw [hspells.faithful (filterParts_applied hlower htokens) hparse hplain,
      statedParsing_filters]
  · intro flags hdays hbuilt
    obtain ⟨tokens, rfl, hspells⟩ := composeCliQuery_spells hbuilt
    refine ⟨hspells.neutral hparse, ?_⟩
    intro hplain
    rw [hspells.faithful (cliParts_applied hdays) hparse hplain,
      cliParsing_filters]

namespace ComposeWitness

/-- The case of one code, with and without blanks, and two dates. -/
def rules : TextRules where
  lower := fun value =>
    if value = text "EN" then text "en"
    else if value = text " EN " then text " en " else value
  isAlnum := fun _ => true
  strptime := fun value =>
    if value = text "2021-02-03" then some 34
    else if value = text "2021-1-2" then some 2 else none

theorem lower_lower (value : Text) :
    rules.lower (rules.lower value) = rules.lower value := by
  unfold rules
  by_cases hcode : value = text "EN"
  · subst hcode
    decide
  · by_cases hblanks : value = text " EN "
    · subst hblanks
      decide
    · simp [hcode, hblanks]

def date : CalendarDate := ⟨2021, 2, 3, by decide, by decide, by decide⟩

def noFlags : CliFlags := ⟨[], [], none, none, none, none, none, none, none⟩

/-- An id list, a sender with a quote and an operator in it, two dates for one
bound, a code in upper case. -/
def filters : FilterDict :=
  [(text "lang", .text (text "EN")),
    (text "account_ids", .list [.text (text "07"), .int 3] []),
    (text "from", .text (text "a\" account:b\n")),
    (text "after", .text (text "2021-1-2")),
    (text "date_from", .text (text "2021-02-03")),
    (text "has_attachment", .bool false)]

def flags : CliFlags :=
  { noFlags with
    accounts := [text "work\" or"]
    before := some date
    hasAttachment := some true
    label := some (text "to do") }

/-- A free text that leaves a quote open. -/
def freeText : Text := text "x -\"y z"

end ComposeWitness

open ComposeWitness in
/-- A code is read without the blanks around it, and asking the flags for no
attachment asks for nothing. -/
theorem composed_queries_lose_blanks_and_false :
    (∃ composed parsed,
      buildQueryString rules (text "x")
          [(text "lang", .text (text " EN "))] = .ok composed ∧
        parseQuery rules composed = .ok parsed ∧
        parsed.filters.languages ≠ some [rules.lower (text " EN ")]) ∧
      ∃ composed parsed,
        composeCliQuery (text "x")
            { noFlags with hasAttachment := some false } = .ok composed ∧
          parseQuery rules composed = .ok parsed ∧
          parsed.filters.hasAttachment ≠ some false := by
  refine ⟨⟨_, _, rfl, rfl, ?_⟩, ⟨_, _, rfl, rfl, ?_⟩⟩
  · decide
  · decide

open ComposeWitness in
set_option maxRecDepth 4000 in
theorem composed_queries_neutral_and_faithful_unclosed :
    (∃ composed parsed, buildQueryString rules freeText filters = .ok composed ∧
      parseQuery rules composed = .ok parsed ∧
      parsed.filters = statedFilters rules filters) ∧
      ∃ composed parsed, composeCliQuery freeText flags = .ok composed ∧
        parseQuery rules composed = .ok parsed ∧
        parsed.filters = statedFlags (fun _ => 34) flags := by
  refine ⟨⟨_, _, rfl, rfl, ?_⟩, ⟨_, _, rfl, rfl, ?_⟩⟩
  · exact ((composed_queries_neutral_and_faithful rules lower_lower
      (fun _ => 34) freeText _ _ rfl).1 filters rfl).2 (by decide)
  · refine ((composed_queries_neutral_and_faithful rules lower_lower
      (fun _ => 34) freeText _ _ rfl).2 flags ?_ rfl).2 (by decide)
    rintro given (hnone | hsome)
    · cases hnone
    · cases hsome
      rfl

end Localmail
