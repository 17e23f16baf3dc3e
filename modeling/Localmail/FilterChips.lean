/-
The chips of the desktop client and the filters the server applies.  A chip
travels as a structured filter in front of the typed query, and a typed
operator read by the server takes its place; so the chips say what is applied
as long as client and server read the same operators in the query, which they
do where no space that only one of them knows stands beside one.
-/
import Localmail.LoneSpaces

namespace Localmail

/-! ### The request -/

def textOrNull : Option Text → JsonValue
  | none => .null
  | some value => .text value

/-- The filters as the server receives them. -/
def SearchFiltersWire.body (wire : SearchFiltersWire) : FilterDict :=
  [(text "account_ids", .list (wire.accountIds.map JsonValue.text) []),
    (text "folder_ids", .list (wire.folderIds.map JsonValue.text) []),
    (text "from", textOrNull wire.fromSubstr),
    (text "to", textOrNull wire.toSubstr),
    (text "subject", textOrNull wire.subject),
    (text "after", textOrNull wire.after),
    (text "before", textOrNull wire.before),
    (text "has_attachment", match wire.hasAttachment with
      | none => .null
      | some wanted => .bool wanted)] ++
    wire.dateFrom.toList.map (fun value => (text "date_from", .text value)) ++
    wire.dateTo.toList.map (fun value => (text "date_to", .text value)) ++
    wire.lang.toList.map fun value => (text "lang", .text value)

/-- What `submit` sends: the query and the chips as
`absorbConflictingOperators` leaves them. -/
def settle (toLowerCase : Text → Text) (query : Text)
    (filters : SearchFiltersUI) : AbsorbedQuery :=
  (absorbConflictingOperators toLowerCase query filters).getD ⟨query, filters⟩

/-! ### What the chips promise -/

def unquoted (value : Text) : Text :=
  value.filter (· ≠ .scalar '"')

/-- The server's filters are those of the chips that are set. -/
structure ChipsApplied (rules : TextRules) (filters : SearchFiltersUI)
    (parsed : SearchFilters) : Prop where
  sender : filters.fromChip ≠ [] →
    parsed.fromSubstr = some (unquoted filters.fromChip)
  recipient : filters.toChip ≠ [] →
    parsed.toSubstr = some (unquoted filters.toChip)
  subject : filters.subject ≠ [] →
    parsed.subjectSubstr = some (unquoted filters.subject)
  after : filters.after ≠ [] →
    ∃ day, rules.strptime filters.after = some day ∧ parsed.after = some day
  before : filters.before ≠ [] →
    ∃ day, rules.strptime filters.before = some day ∧ parsed.before = some day

/-- The two spellings of a date chip agree when both are set. -/
def DatesAgree (rules : TextRules) (filters : SearchFiltersUI) : Prop :=
  (filters.after ≠ [] → ∀ value ∈ filters.dateFrom.bind orNull,
      rules.strptime value = rules.strptime filters.after) ∧
    (filters.before ≠ [] → ∀ value ∈ filters.dateTo.bind orNull,
      rules.strptime value = rules.strptime filters.before)

/-- The server accepts the request and parses it. -/
def ServerReads (rules : TextRules) (query : Text) (filters : SearchFiltersUI)
    (parsed : ParsedQuery) : Prop :=
  ∃ composed,
    buildQueryString rules query (filtersUiToWire filters).body = .ok composed ∧
      parseQuery rules composed = .ok parsed

/-- The chips say what the server applies, whatever is typed. -/
def ChipsSayWhatApplies (rules : TextRules) (toLowerCase : Text → Text) :
    Prop :=
  ∀ query filters parsed, BalancedQuotes query → DatesAgree rules filters →
    ServerReads rules (settle toLowerCase query filters).query
      (settle toLowerCase query filters).filters parsed →
    ChipsApplied rules (settle toLowerCase query filters).filters parsed.filters

/-- The value on a chip: `after || dateFrom || ""` for a date. -/
def SearchFiltersUI.shown (filters : SearchFiltersUI) : Operator → Text
  | .afterOp => dateChip filters.after filters.dateFrom
  | .beforeOp => dateChip filters.before filters.dateTo
  | op => filters.chip op

/-- The token is no operator in `absorbed`. -/
def staysTyped (absorbed : List Operator) (token : Token) : Bool :=
  match popoverOperator token.stripped with
  | some (op, _) => op ∉ absorbed
  | none => true

section Condition

variable (toLowerCase : Text → Text) (query : Text)
  (filters : SearchFiltersUI)

/-- The filters typed in the query. -/
def typedFilters : SearchFiltersUI :=
  (extractDslFilters toLowerCase query).filters

/-- The operators typed in contradiction to a chip. -/
def contradicted : List Operator :=
  absorbedOperators (typedFilters toLowerCase query) filters

/-- The operator of a chip that is set is named in no word that has, outside its
quotes, a space of one reader only. -/
def OperatorsShared : Prop :=
  ∀ op ∈ chipOperators, filters.shown op ≠ [] → OperatorShared op query

/-- Where a chip is set, client and server read the same operators in the
query: the same last value when nothing typed contradicts a chip, and
otherwise the same in every token that stays in the query. -/
def ReadAlike : Prop :=
  ∀ op ∈ chipOperators, filters.shown op ≠ [] →
    (contradicted toLowerCase query filters = [] →
      (typedValues op (tokenize query)).getLast? =
        (typedValues op (tokenizeRaw query)).getLast?) ∧
    (contradicted toLowerCase query filters ≠ [] →
      ∀ token ∈ tokenizeRaw query,
        staysTyped (contradicted toLowerCase query filters) token →
        typedValues op (tokenize (spellToken token)) = typedValues op [token])

/-- The text the server is given for a chip that is not typed as it stands has
no line break. -/
def OnOneLine : Prop :=
  ∀ op ∈ [Operator.fromOp, .toOp, .subjectOp], filters.chip op ≠ [] →
    (typedFilters toLowerCase query).chip op ≠ filters.chip op →
    ∀ ch ∈ dateChip ((typedFilters toLowerCase query).chip op)
        (some (filters.chip op)),
      ch ≠ .scalar '\n' ∧ ch ≠ .scalar '\r'

/-- A typed date that is not shaped like one is the date of the chip. -/
def DatesShaped (rules : TextRules) : Prop :=
  ∀ op ∈ [Operator.afterOp, .beforeOp], filters.chip op ≠ [] →
    (typedFilters toLowerCase query).chip op ≠ [] →
    dateShape ((typedFilters toLowerCase query).chip op) = false →
    rules.strptime ((typedFilters toLowerCase query).chip op) =
      rules.strptime (filters.chip op)

end Condition

theorem OperatorsShared.readAlike {query : Text} {filters : SearchFiltersUI}
    (hshared : OperatorsShared query filters) (hbalanced : BalancedQuotes query)
    (toLowerCase : Text → Text) : ReadAlike toLowerCase query filters := by
  intro op hop hshown
  have hop := hshared op hop hshown
  refine ⟨fun _ => ?_, fun _ token htoken _ => ?_⟩
  · rw [typedValues_tokenize hbalanced hop]
  · exact typedValues_spellToken hbalanced hop htoken

/-! ### The settled chips -/

section Settled

variable {toLowerCase : Text → Text} {query : Text}
  {filters : SearchFiltersUI} {op : Operator}

theorem settle_query :
    (settle toLowerCase query filters).query =
      if contradicted toLowerCase query filters = [] then query
      else joinTokens ((tokenizeRaw query).filter
        (staysTyped (contradicted toLowerCase query filters))) := by
  unfold settle absorbConflictingOperators
  change ((if contradicted toLowerCase query filters = [] then none
    else some _ : Option AbsorbedQuery).getD _).query = _
  split <;> rfl

theorem settle_chip (hop : op ∈ chipOperators) :
    (settle toLowerCase query filters).filters.chip op =
      if op ∈ contradicted toLowerCase query filters then
        (typedFilters toLowerCase query).chip op
      else filters.chip op := by
  unfold settle absorbConflictingOperators
  change ((if contradicted toLowerCase query filters = [] then none
    else some _ : Option AbsorbedQuery).getD _).filters.chip op = _
  split
  · rename_i hnone
    rw [hnone, if_neg List.not_mem_nil]
    rfl
  · simp only [chipOperators, List.mem_cons, List.not_mem_nil, or_false] at hop
    rcases hop with rfl | rfl | rfl | rfl | rfl <;> rfl

theorem mem_contradicted (hop : op ∈ chipOperators) :
    op ∈ contradicted toLowerCase query filters ↔
      (op ∈ [Operator.afterOp, .beforeOp] →
        dateShape ((typedFilters toLowerCase query).chip op) = true) ∧
      contradicts ((typedFilters toLowerCase query).chip op)
        (filters.shown op) = true := by
  unfold contradicted absorbedOperators
  revert hop
  cases op <;>
    simp [chipOperators, SearchFiltersUI.chip, SearchFiltersUI.shown]

end Settled

/-! ### What the server reads in the query -/

section Typed

variable {toLowerCase : Text → Text} {query : Text}
  {filters : SearchFiltersUI} {op : Operator}

/-- A token of an operator that is not absorbed stays. -/
theorem typedValues_staysTyped {absorbed : List Operator}
    (hop : op ∈ chipOperators) (tokens : List Token) :
    typedValues op (tokens.filter (staysTyped absorbed)) =
      if op ∈ absorbed then [] else typedValues op tokens := by
  have hstays (token : Token) (value : Text)
      (hvalue : operatorValue op token = some value) :
      staysTyped absorbed token = decide (op ∉ absorbed) := by
    rw [operatorValue_popover hop] at hvalue
    obtain ⟨⟨named, found⟩, hnamed, hentry⟩ := Option.bind_eq_some_iff.mp hvalue
    by_cases hsame : named = op
    · subst hsame
      simp [staysTyped, hnamed]
    · simp [hsame] at hentry
  unfold typedValues
  rw [List.filterMap_filter]
  split
  · rename_i habsorbed
    apply List.filterMap_eq_nil_iff.mpr
    intro token _
    cases hvalue : operatorValue op token with
    | none => simp
    | some value => simp [hstays token value hvalue, habsorbed]
  · rename_i habsorbed
    congr 1
    funext token
    cases hvalue : operatorValue op token with
    | none => simp
    | some value => simp [hstays token value hvalue, habsorbed]

/-- Read alike, the last value of an operator in the query that is sent is the
one typed, unless the chip took it. -/
theorem ReadAlike.last (hreads : ReadAlike toLowerCase query filters)
    (hop : op ∈ chipOperators) (hshown : filters.shown op ≠ []) :
    (typedValues op
        (tokenize (settle toLowerCase query filters).query)).getLast? =
      if op ∈ contradicted toLowerCase query filters then none
      else (typedValues op (tokenizeRaw query)).getLast? := by
  obtain ⟨hsame, heach⟩ := hreads op hop hshown
  rw [settle_query]
  split
  · rename_i hnone
    rw [hsame hnone, hnone, if_neg List.not_mem_nil]
  · rename_i hsome
    have hpaired : ∀ token ∈ (tokenizeRaw query).filter
        (staysTyped (contradicted toLowerCase query filters)),
        token.Paired := fun token htoken =>
      tokenizeRaw_paired query token (List.mem_of_mem_filter htoken)
    have hvalues : typedValues op (tokenize (joinTokens
        ((tokenizeRaw query).filter
          (staysTyped (contradicted toLowerCase query filters))))) =
        typedValues op ((tokenizeRaw query).filter
          (staysTyped (contradicted toLowerCase query filters))) := by
      rw [tokenize_joinTokens hpaired, typedValues_flatMap]
      have hone : ∀ token ∈ (tokenizeRaw query).filter
          (staysTyped (contradicted toLowerCase query filters)),
          typedValues op (tokenize (spellToken token)) =
            (operatorValue op token).toList := by
        intro token htoken
        obtain ⟨hmem, hstays⟩ := List.mem_filter.mp htoken
        rw [heach hsome token hmem hstays]
        unfold typedValues
        cases hvalue : operatorValue op token <;> simp [hvalue]
      rw [List.flatMap_congr hone, typedValues,
        List.filterMap_eq_flatMap_toList]
    rw [hvalues, typedValues_staysTyped hop]
    split <;> rfl

end Typed

/-! ### What the server is given for a chip -/

section Given

variable {filters : SearchFiltersUI}

theorem filter_textOrNull (value : Text) :
    (some (textOrNull (orNull value))).filter JsonValue.truthy =
      (orNull value).map .text := by
  unfold orNull
  by_cases hempty : value = []
  · simp [hempty, textOrNull, Option.filter, JsonValue.truthy]
  · simp [hempty, textOrNull, Option.filter, JsonValue.truthy]

theorem truthyFilter_text {key : String} {value : Text}
    (hlookup : (filtersUiToWire filters).body.lookup (text key) =
      some (textOrNull (orNull value))) :
    truthyFilter (filtersUiToWire filters).body key =
      (orNull value).map .text := by
  unfold truthyFilter
  rw [hlookup, filter_textOrNull]

theorem statedText_body {key : String} {value : Text}
    (hlookup : (filtersUiToWire filters).body.lookup (text key) =
      some (textOrNull (orNull value))) :
    statedText (filtersUiToWire filters).body key =
      (orNull value).map oneLine := by
  unfold statedText
  rw [truthyFilter_text hlookup, Option.map_map]
  rfl

/-- A date chip that is only sent when it is set. -/
theorem truthy_date (value : Option Text) :
    ((value.bind orNull).map JsonValue.text).filter JsonValue.truthy =
      (value.bind orNull).map .text := by
  cases value with
  | none => rfl
  | some value =>
      by_cases hempty : value = []
      · simp [orNull, hempty]
      · simp [orNull, hempty, Option.filter, JsonValue.truthy]

theorem truthyFilter_dates :
    truthyFilter (filtersUiToWire filters).body "date_from" =
        (filters.dateFrom.bind orNull).map .text ∧
      truthyFilter (filtersUiToWire filters).body "date_to" =
        (filters.dateTo.bind orNull).map .text := by
  have hfrom : (filtersUiToWire filters).body.lookup (text "date_from") =
      (filters.dateFrom.bind orNull).map .text := by
    unfold filtersUiToWire SearchFiltersWire.body
    cases filters.dateFrom.bind orNull <;> cases filters.dateTo.bind orNull <;>
      cases filters.language.bind orNull <;> rfl
  have hto : (filtersUiToWire filters).body.lookup (text "date_to") =
      (filters.dateTo.bind orNull).map .text := by
    unfold filtersUiToWire SearchFiltersWire.body
    cases filters.dateFrom.bind orNull <;> cases filters.dateTo.bind orNull <;>
      cases filters.language.bind orNull <;> rfl
  unfold truthyFilter
  rw [hfrom, hto, truthy_date, truthy_date]
  exact ⟨rfl, rfl⟩

theorem partValues_parts (rules : TextRules) (body : FilterDict) :
    partValues .fromOp (filterParts rules body) =
        (statedText body "from").toList ∧
      partValues .toOp (filterParts rules body) =
        (statedText body "to").toList ∧
      partValues .subjectOp (filterParts rules body) =
        (statedText body "subject").toList ∧
      partValues .afterOp (filterParts rules body) =
        (truthyFilter body "after").toList.map JsonValue.str ++
          (truthyFilter body "date_from").toList.map JsonValue.str ∧
      partValues .beforeOp (filterParts rules body) =
        (truthyFilter body "before").toList.map JsonValue.str ++
          (truthyFilter body "date_to").toList.map JsonValue.str := by
  simp [filterParts, scopeFreeParts, idParts, textParts, dateParts, langParts,
    hasParts, partValues_append, partValues_group]

theorem getLast?_toList {α : Type} (value : Option α) :
    value.toList.getLast? = value := by
  cases value <;> rfl

/-- What the server is given last for a chip: its text on one line, or the
later spelling of a date. -/
theorem partValues_last (rules : TextRules) (filters : SearchFiltersUI) :
    (∀ op ∈ [Operator.fromOp, .toOp, .subjectOp],
      (partValues op
          (filterParts rules (filtersUiToWire filters).body)).getLast? =
        (orNull (filters.chip op)).map oneLine) ∧
      (partValues .afterOp
          (filterParts rules (filtersUiToWire filters).body)).getLast? =
        (filters.dateFrom.bind orNull).or (orNull filters.after) ∧
      (partValues .beforeOp
          (filterParts rules (filtersUiToWire filters).body)).getLast? =
        (filters.dateTo.bind orNull).or (orNull filters.before) := by
  obtain ⟨hfrom, hto, hsubject, hafter, hbefore⟩ :=
    partValues_parts rules (filtersUiToWire filters).body
  obtain ⟨hdateFrom, hdateTo⟩ := @truthyFilter_dates filters
  have hafterText : truthyFilter (filtersUiToWire filters).body "after" =
      (orNull filters.after).map .text := truthyFilter_text rfl
  have hbeforeText : truthyFilter (filtersUiToWire filters).body "before" =
      (orNull filters.before).map .text := truthyFilter_text rfl
  have hshown (value : Option Text) :
      (value.map JsonValue.text).toList.map JsonValue.str = value.toList := by
    cases value <;> rfl
  refine ⟨?_, ?_, ?_⟩
  · intro op hop
    simp only [List.mem_cons, List.not_mem_nil, or_false] at hop
    rcases hop with rfl | rfl | rfl
    · rw [hfrom, getLast?_toList, statedText_body rfl]
      rfl
    · rw [hto, getLast?_toList, statedText_body rfl]
      rfl
    · rw [hsubject, getLast?_toList, statedText_body rfl]
      rfl
  · rw [hafter, hafterText, hdateFrom, hshown, hshown, List.getLast?_append,
      getLast?_toList, getLast?_toList]
  · rw [hbefore, hbeforeText, hdateTo, hshown, hshown, List.getLast?_append,
      getLast?_toList, getLast?_toList]

end Given

/-! ### One chip -/

theorem orNull_of_ne_nil {value : Text} (hvalue : value ≠ []) :
    orNull value = some value :=
  if_neg hvalue

/-- The last typed value, if any, is the typed filter. -/
theorem typedValues_last {toLowerCase : Text → Text} {query : Text}
    {op : Operator} (hop : op ∈ chipOperators) :
    (typedValues op (tokenizeRaw query)).getLast? =
      orNull ((typedFilters toLowerCase query).chip op) := by
  rw [typedFilters, extractDslFilters_chip hop]
  cases hlast : (typedValues op (tokenizeRaw query)).getLast? with
  | none => rfl
  | some value =>
      obtain ⟨token, -, hvalue⟩ :=
        List.mem_filterMap.mp (List.mem_of_getLast? hlast)
      exact (orNull_of_ne_nil (operatorValue_ne_nil hvalue)).symm

theorem quote_not_mem_typed {toLowerCase : Text → Text} {query : Text}
    {op : Operator} (hop : op ∈ chipOperators) :
    CodePoint.scalar '"' ∉ (typedFilters toLowerCase query).chip op := by
  rw [typedFilters, extractDslFilters_chip hop]
  cases hlast : (typedValues op (tokenizeRaw query)).getLast? with
  | none => exact List.not_mem_nil
  | some value =>
      obtain ⟨token, htoken, hvalue⟩ :=
        List.mem_filterMap.mp (List.mem_of_getLast? hlast)
      have hplain := (tokenizeRaw_paired query token htoken).plain
      intro hquote
      apply hplain
      unfold operatorValue partitionColon at hvalue
      split at hvalue
      · cases hvalue
      · rename_i name found hparts
        split at hparts
        · obtain ⟨-, rfl⟩ := Prod.mk.inj (Option.some.inj hparts)
          split at hvalue
          · obtain rfl := Option.some.inj hvalue
            exact (List.dropWhile_sublist _).subset
              (List.mem_of_mem_tail hquote)
          · cases hvalue
        · cases hparts

theorem unquoted_of_not_mem {value : Text}
    (hquote : CodePoint.scalar '"' ∉ value) : unquoted value = value := by
  apply List.filter_eq_self.mpr
  exact decide_ne_of_notMem hquote

/-- A text is put on one line unchanged exactly if it has no line break. -/
theorem oneLine_eq_unquoted_iff (value : Text) :
    oneLine value = unquoted value ↔
      ∀ ch ∈ value, ch ≠ .scalar '\n' ∧ ch ≠ .scalar '\r' := by
  have hmap : oneLine value = unquoted value ↔
      ∀ ch ∈ unquoted value, (if ch = .scalar '\n' ∨ ch = .scalar '\r' then
        CodePoint.scalar ' ' else ch) = id ch := by
    rw [← List.map_inj_left, List.map_id]
    rfl
  rw [hmap]
  constructor
  · intro hkept ch hch
    by_cases hbreak : ch = .scalar '\n' ∨ ch = .scalar '\r'
    · have hquote : ch ∈ unquoted value := by
        apply List.mem_filter.mpr
        rcases hbreak with rfl | rfl
        · exact ⟨hch, by decide⟩
        · exact ⟨hch, by decide⟩
      have hsame := hkept ch hquote
      rw [if_pos hbreak] at hsame
      rcases hbreak with rfl | rfl
      · revert hsame
        decide
      · revert hsame
        decide
    · exact ⟨fun hline => hbreak (.inl hline), fun hline => hbreak (.inr hline)⟩
  · intro hlines ch hch
    obtain ⟨hline, hreturn⟩ := hlines ch (List.mem_of_mem_filter hch)
    simp [hline, hreturn]

/-- What the parser keeps of an operator: the last value in the query, or else
the last one given. -/
theorem LastValueFilter.composed {rules : TextRules} {β : Type}
    (filter : LastValueFilter rules β) {query composed : Text}
    {body : FilterDict} {final : Parsing}
    (hunset : filter.read Parsing.start = none)
    (hbuilt : buildQueryString rules query body = .ok composed)
    (hfold : (tokenize composed).foldlM (Parsing.step rules) Parsing.start =
      .ok final) :
    filter.read final =
      ((typedValues filter.op (tokenize query)).getLast?.or
        (partValues filter.op (filterParts rules body)).getLast?).bind
          filter.interpret := by
  obtain ⟨⟨⟩, -, hbuilt⟩ := exceptBind_eq_ok.mp hbuilt
  obtain ⟨tokens, htokens, hcomposed⟩ := exceptBind_eq_ok.mp hbuilt
  cases hcomposed
  have hspells := filterTokens_spells htokens
  have htokenized : tokenize (joinSpaces
      (if query = [] then tokens else tokens ++ [query])) =
        (filterParts rules body).map ComposedPart.token ++ tokenize query :=
    hspells.tokenize query
  rw [filter.foldlM hfold, htokenized, typedValues_append,
    typedValues_parts filter.op hspells.contained, List.getLast?_append, hunset]
  cases (typedValues filter.op (tokenize query)).getLast? with
  | none =>
      cases (partValues filter.op (filterParts rules body)).getLast? <;> rfl
  | some value => rfl

/-- An accepted date is a date. -/
theorem strptime_of_built {rules : TextRules} {query composed : Text}
    {filters : SearchFiltersUI}
    (hbuilt : buildQueryString rules query (filtersUiToWire filters).body =
      .ok composed) :
    (filters.after ≠ [] → ∃ day, rules.strptime filters.after = some day) ∧
      (filters.before ≠ [] → ∃ day, rules.strptime filters.before = some day) := by
  obtain ⟨⟨⟩, -, hbuilt⟩ := exceptBind_eq_ok.mp hbuilt
  obtain ⟨tokens, htokens, -⟩ := exceptBind_eq_ok.mp hbuilt
  obtain ⟨pieces, hpieces, -⟩ := filterTokens_pieces htokens
  have hdate {key operator : String} {value : Text} {tokens : List Text}
      (htokens : dateTokens rules (filtersUiToWire filters).body key operator =
        .ok tokens)
      (hlookup : (filtersUiToWire filters).body.lookup (text key) =
        some (textOrNull (orNull value)))
      (hvalue : value ≠ []) : ∃ day, rules.strptime value = some day := by
    have htruthy := truthyFilter_text hlookup
    rw [orNull_of_ne_nil hvalue] at htruthy
    rcases dateTokens_stated htokens with ⟨hnone, -⟩ |
      ⟨found, day, hfound, -, hday, -⟩
    · rw [hnone] at htruthy
      cases htruthy
    · rw [hfound] at htruthy
      cases htruthy
      exact ⟨day, hday⟩
  exact ⟨hdate hpieces.after rfl, hdate hpieces.before rfl⟩

/-! ### Every chip -/

section Chips

variable {rules : TextRules} {toLowerCase : Text → Text}
  {query composed : Text} {filters : SearchFiltersUI} {op : Operator}
  {final : Parsing}

theorem mem_chipOperators_of_text
    (hop : op ∈ [Operator.fromOp, .toOp, .subjectOp]) :
    op ∈ chipOperators := by
  revert hop
  cases op <;> decide

/-- A contradicted text chip is typed and set. -/
theorem contradicts_iff {typed chip : Text} :
    contradicts typed chip = true ↔ typed ≠ [] ∧ chip ≠ [] ∧ typed ≠ chip := by
  simp [contradicts, and_assoc]

/-- One text chip: typed in contradiction it is taken over, else it stays, and
what is typed in the query comes last. -/
theorem text_settled {typed chip : Text}
    (hquote : CodePoint.scalar '"' ∉ typed) (hchip : chip ≠ [])
    {taken : Prop} [Decidable taken]
    (htaken : taken ↔ typed ≠ [] ∧ typed ≠ chip) :
    (if taken then none else orNull typed).or
        ((orNull (if taken then typed else chip)).map oneLine) =
      some (unquoted (if taken then typed else chip)) ↔
      (typed ≠ chip → ∀ ch ∈ dateChip typed (some chip),
        ch ≠ .scalar '\n' ∧ ch ≠ .scalar '\r') := by
  by_cases htyped : typed = []
  · -- nothing typed: the server is given the chip
    have hnot : ¬ taken := fun htake => (htaken.mp htake).1 htyped
    have hne : typed ≠ chip := fun hsame => hchip (hsame ▸ htyped)
    rw [if_neg hnot, if_neg hnot, htyped, orNull_of_ne_nil hchip]
    change some (oneLine chip) = _ ↔ _
    rw [Option.some_inj, oneLine_eq_unquoted_iff]
    exact ⟨fun hlines _ => hlines, fun hlines => hlines (htyped ▸ hne)⟩
  · have hshown : dateChip typed (some chip) = typed := if_neg htyped
    rw [hshown]
    by_cases hsame : typed = chip
    · -- typed as it stands on the chip
      have hnot : ¬ taken := fun htake => (htaken.mp htake).2 hsame
      rw [if_neg hnot, if_neg hnot, orNull_of_ne_nil htyped, ← hsame,
        unquoted_of_not_mem hquote]
      exact ⟨fun _ hne => absurd rfl hne, fun _ => rfl⟩
    · have htake : taken := htaken.mpr ⟨htyped, hsame⟩
      rw [if_pos htake, if_pos htake, orNull_of_ne_nil htyped]
      change some (oneLine typed) = _ ↔ _
      rw [Option.some_inj, oneLine_eq_unquoted_iff]
      exact ⟨fun hlines _ => hlines, fun hlines => hlines hsame⟩

/-- What the server keeps of a text chip that is set is the chip exactly if
the value it was given for it is on one line. -/
theorem text_applied_iff (filter : LastValueFilter rules Text)
    (hunset : filter.read Parsing.start = none)
    (hinterpret : filter.interpret = some)
    (hop : filter.op ∈ [Operator.fromOp, .toOp, .subjectOp])
    (hreads : ReadAlike toLowerCase query filters)
    (hbuilt : buildQueryString rules (settle toLowerCase query filters).query
      (filtersUiToWire (settle toLowerCase query filters).filters).body =
        .ok composed)
    (hfold : (tokenize composed).foldlM (Parsing.step rules) Parsing.start =
      .ok final) :
    ((settle toLowerCase query filters).filters.chip filter.op ≠ [] →
      filter.read final = some
        (unquoted ((settle toLowerCase query filters).filters.chip filter.op))) ↔
      (filters.chip filter.op ≠ [] →
        (typedFilters toLowerCase query).chip filter.op ≠
            filters.chip filter.op →
        ∀ ch ∈ dateChip ((typedFilters toLowerCase query).chip filter.op)
            (some (filters.chip filter.op)),
          ch ≠ .scalar '\n' ∧ ch ≠ .scalar '\r') := by
  have hchip := mem_chipOperators_of_text hop
  have hshown : filters.shown filter.op = filters.chip filter.op := by
    revert hop
    cases filter.op <;> simp [SearchFiltersUI.shown]
  have hdate : filter.op ∉ [Operator.afterOp, .beforeOp] := by
    revert hop
    cases filter.op <;> decide
  have hmem := @mem_contradicted toLowerCase query filters filter.op hchip
  rw [hshown, contradicts_iff] at hmem
  rw [settle_chip hchip]
  by_cases hset : filters.chip filter.op = []
  · -- an unset chip stays unset
    have hnot : filter.op ∉ contradicted toLowerCase query filters :=
      fun htaken => (hmem.mp htaken).2.2.1 hset
    rw [if_neg hnot]
    exact ⟨fun _ hne => absurd hset hne, fun _ hne => absurd hset hne⟩
  · have htaken : filter.op ∈ contradicted toLowerCase query filters ↔
        (typedFilters toLowerCase query).chip filter.op ≠ [] ∧
          (typedFilters toLowerCase query).chip filter.op ≠
            filters.chip filter.op :=
      ⟨fun htake => ⟨(hmem.mp htake).2.1, (hmem.mp htake).2.2.2⟩,
        fun htake => hmem.mpr
          ⟨fun hmem => absurd hmem hdate, htake.1, hset, htake.2⟩⟩
    have hnow : (if filter.op ∈ contradicted toLowerCase query filters then
        (typedFilters toLowerCase query).chip filter.op
        else filters.chip filter.op) ≠ [] := by
      split
      · rename_i htake
        exact (htaken.mp htake).1
      · exact hset
    have hread : filter.read final = _ :=
      filter.composed hunset hbuilt hfold
    rw [hinterpret, Option.bind_fun_some,
      hreads.last hchip (hshown ▸ hset), typedValues_last hchip,
      (partValues_last rules _).1 filter.op hop, settle_chip hchip] at hread
    rw [hread]
    have hsettled := text_settled (@quote_not_mem_typed toLowerCase query
      filter.op hchip) hset htaken
    exact ⟨fun hkept _ => hsettled.mp (hkept hnow),
      fun hlines _ => hsettled.mpr (hlines hset)⟩

/-- One date chip that is set. -/
theorem date_settled {typed chip : Text} {fallback : Option Text}
    (hchip : chip ≠ [])
    (hagree : ∀ value ∈ fallback.bind orNull,
      rules.strptime value = rules.strptime chip)
    {day : Int} (hday : rules.strptime chip = some day)
    (hstays : dateShape typed = true → typed ≠ [] → typed = chip) :
    ((orNull typed).or ((fallback.bind orNull).or (orNull chip))).bind
        rules.strptime = some day ↔
      (typed ≠ [] → dateShape typed = false →
        rules.strptime typed = rules.strptime chip) := by
  rw [orNull_of_ne_nil hchip]
  by_cases htyped : typed = []
  · have hgiven : ((fallback.bind orNull).or (some chip)).bind rules.strptime =
        some day := by
      cases hlater : fallback.bind orNull with
      | none => exact hday
      | some value => exact (hagree value hlater).trans hday
    subst htyped
    exact ⟨fun _ hne => absurd rfl hne, fun _ => hgiven⟩
  · rw [orNull_of_ne_nil htyped, Option.some_or, Option.bind_some]
    cases hshape : dateShape typed with
    | true =>
        have hsame := hstays hshape htyped
        subst hsame
        exact ⟨fun _ _ hunshaped => absurd hunshaped (by simp), fun _ => hday⟩
    | false =>
        rw [hday]
        exact ⟨fun hread _ _ => hread, fun hread => hread htyped rfl⟩

/-- What the server keeps of a date chip that is set is its date exactly if a
typed date without the shape of one is that date. -/
theorem date_applied_iff (filter : LastValueFilter rules Int)
    (fallback : SearchFiltersUI → Option Text)
    (hunset : filter.read Parsing.start = none)
    (hinterpret : filter.interpret = rules.strptime)
    (hop : filter.op ∈ [Operator.afterOp, .beforeOp])
    (hparts : ∀ given : SearchFiltersUI,
      (partValues filter.op
          (filterParts rules (filtersUiToWire given).body)).getLast? =
        ((fallback given).bind orNull).or (orNull (given.chip filter.op)))
    (hfallback : fallback (settle toLowerCase query filters).filters =
      if filter.op ∈ contradicted toLowerCase query filters then
        some ((typedFilters toLowerCase query).chip filter.op)
      else fallback filters)
    (hshown : filters.shown filter.op =
      dateChip (filters.chip filter.op) (fallback filters))
    (hagree : filters.chip filter.op ≠ [] →
      ∀ value ∈ (fallback filters).bind orNull,
        rules.strptime value = rules.strptime (filters.chip filter.op))
    (hreads : ReadAlike toLowerCase query filters)
    (hbuilt : buildQueryString rules (settle toLowerCase query filters).query
      (filtersUiToWire (settle toLowerCase query filters).filters).body =
        .ok composed)
    (hdate : (settle toLowerCase query filters).filters.chip filter.op ≠ [] →
      ∃ day, rules.strptime
        ((settle toLowerCase query filters).filters.chip filter.op) = some day)
    (hfold : (tokenize composed).foldlM (Parsing.step rules) Parsing.start =
      .ok final) :
    ((settle toLowerCase query filters).filters.chip filter.op ≠ [] →
      ∃ day, rules.strptime
          ((settle toLowerCase query filters).filters.chip filter.op) =
            some day ∧ filter.read final = some day) ↔
      (filters.chip filter.op ≠ [] →
        (typedFilters toLowerCase query).chip filter.op ≠ [] →
        dateShape ((typedFilters toLowerCase query).chip filter.op) = false →
        rules.strptime ((typedFilters toLowerCase query).chip filter.op) =
          rules.strptime (filters.chip filter.op)) := by
  have hchip : filter.op ∈ chipOperators := by
    revert hop
    cases filter.op <;> decide
  have hmem := @mem_contradicted toLowerCase query filters filter.op hchip
  rw [contradicts_iff] at hmem
  have hread : filter.read final = _ := filter.composed hunset hbuilt hfold
  rw [hinterpret, hparts, hfallback] at hread
  rw [settle_chip hchip] at hread hdate ⊢
  by_cases htaken : filter.op ∈ contradicted toLowerCase query filters
  · -- the typed date is on the chip in both spellings
    obtain ⟨hshape, htyped, hset, -⟩ := hmem.mp htaken
    simp only [if_pos htaken] at hread hdate ⊢
    rw [hreads.last hchip hset, if_pos htaken, Option.none_or,
      Option.bind_some, orNull_of_ne_nil htyped, Option.some_or,
      Option.bind_some] at hread
    refine ⟨fun _ _ _ hunshaped => ?_, fun _ hnow => ?_⟩
    · rw [hshape hop] at hunshaped
      cases hunshaped
    · obtain ⟨day, hday⟩ := hdate hnow
      exact ⟨day, hday, hread.trans hday⟩
  · simp only [if_neg htaken] at hread hdate ⊢
    by_cases hset : filters.chip filter.op = []
    · exact ⟨fun _ hne => absurd hset hne, fun _ hne => absurd hset hne⟩
    · have hvalue : filters.shown filter.op = filters.chip filter.op :=
        hshown.trans (if_neg hset)
      obtain ⟨day, hday⟩ := hdate hset
      have hstays : dateShape ((typedFilters toLowerCase query).chip filter.op) =
          true → (typedFilters toLowerCase query).chip filter.op ≠ [] →
          (typedFilters toLowerCase query).chip filter.op =
            filters.chip filter.op := by
        intro hshape htyped
        by_contra hne
        exact htaken (hmem.mpr ⟨fun _ => hshape, htyped, hvalue ▸ hset,
          fun hsame => hne (hsame.trans hvalue)⟩)
      rw [hreads.last hchip (hvalue ▸ hset), if_neg htaken,
        typedValues_last hchip] at hread
      have hsettled := date_settled hset (hagree hset) hday hstays
      rw [← hread] at hsettled
      constructor
      · intro hkept _
        obtain ⟨found, hfound, hgot⟩ := hkept hset
        obtain rfl := Option.some.inj (hday.symm.trans hfound)
        exact hsettled.mp hgot
      · intro hshaped _
        exact ⟨day, hday, hsettled.mpr (hshaped hset)⟩

theorem settle_dates :
    (settle toLowerCase query filters).filters.dateFrom =
        (if .afterOp ∈ contradicted toLowerCase query filters then
          some ((typedFilters toLowerCase query).chip .afterOp)
        else filters.dateFrom) ∧
      (settle toLowerCase query filters).filters.dateTo =
        (if .beforeOp ∈ contradicted toLowerCase query filters then
          some ((typedFilters toLowerCase query).chip .beforeOp)
        else filters.dateTo) := by
  unfold settle absorbConflictingOperators
  change ((if contradicted toLowerCase query filters = [] then none
      else some _ : Option AbsorbedQuery).getD _).filters.dateFrom = _ ∧
    ((if contradicted toLowerCase query filters = [] then none
      else some _ : Option AbsorbedQuery).getD _).filters.dateTo = _
  split
  · rename_i hnone
    rw [hnone, if_neg List.not_mem_nil, if_neg List.not_mem_nil]
    exact ⟨rfl, rfl⟩
  · exact ⟨rfl, rfl⟩

end Chips

/-- Where client and server read the query alike, the chips say what the
server applies exactly if no text is given to it with a line break and no date
is typed without the shape of one. -/
theorem chips_applied_iff_of_readAlike (rules : TextRules)
    (toLowerCase : Text → Text) (query : Text) (filters : SearchFiltersUI)
    (parsed : ParsedQuery) (hagree : DatesAgree rules filters)
    (hreads : ReadAlike toLowerCase query filters)
    (hserver : ServerReads rules (settle toLowerCase query filters).query
      (settle toLowerCase query filters).filters parsed) :
    ChipsApplied rules (settle toLowerCase query filters).filters
        parsed.filters ↔
      OnOneLine toLowerCase query filters ∧
        DatesShaped toLowerCase query filters rules := by
  obtain ⟨composed, hbuilt, hparse⟩ := hserver
  obtain ⟨final, hfold, rfl⟩ := parseQuery_eq_ok.mp hparse
  obtain ⟨hafterDate, hbeforeDate⟩ := strptime_of_built hbuilt
  obtain ⟨hdateFrom, hdateTo⟩ := @settle_dates toLowerCase query filters
  have hfrom := text_applied_iff (fromFilter rules) rfl rfl
    (by simp [fromFilter]) hreads hbuilt hfold
  have hto := text_applied_iff (toFilter rules) rfl rfl
    (by simp [toFilter]) hreads hbuilt hfold
  have hsubject := text_applied_iff (subjectFilter rules) rfl rfl
    (by simp [subjectFilter]) hreads hbuilt hfold
  have hafter := date_applied_iff (afterFilter rules)
    SearchFiltersUI.dateFrom rfl rfl (by simp [afterFilter])
    (fun given => (partValues_last rules given).2.1) hdateFrom rfl hagree.1
    hreads hbuilt hafterDate hfold
  have hbefore := date_applied_iff (beforeFilter rules)
    SearchFiltersUI.dateTo rfl rfl (by simp [beforeFilter])
    (fun given => (partValues_last rules given).2.2) hdateTo rfl hagree.2
    hreads hbuilt hbeforeDate hfold
  constructor
  · intro happlied
    refine ⟨?_, ?_⟩
    · intro op hop
      simp only [List.mem_cons, List.not_mem_nil, or_false] at hop
      rcases hop with rfl | rfl | rfl
      · exact hfrom.mp happlied.sender
      · exact hto.mp happlied.recipient
      · exact hsubject.mp happlied.subject
    · intro op hop
      simp only [List.mem_cons, List.not_mem_nil, or_false] at hop
      rcases hop with rfl | rfl
      · exact hafter.mp happlied.after
      · exact hbefore.mp happlied.before
  · rintro ⟨hlines, hshaped⟩
    exact ⟨hfrom.mpr (hlines .fromOp (by simp)),
      hto.mpr (hlines .toOp (by simp)),
      hsubject.mpr (hlines .subjectOp (by simp)),
      hafter.mpr (hshaped .afterOp (by simp)),
      hbefore.mpr (hshaped .beforeOp (by simp))⟩

/-- Where every quote is closed and no space that only client or server knows
stands in a word that names the operator of a chip, the chips say what the
server applies exactly if no text is given to it with a line break and no date
is typed without the shape of one. -/
theorem chips_applied_iff (rules : TextRules) (toLowerCase : Text → Text)
    (query : Text) (filters : SearchFiltersUI) (parsed : ParsedQuery)
    (hbalanced : BalancedQuotes query) (hagree : DatesAgree rules filters)
    (hshared : OperatorsShared query filters)
    (hserver : ServerReads rules (settle toLowerCase query filters).query
      (settle toLowerCase query filters).filters parsed) :
    ChipsApplied rules (settle toLowerCase query filters).filters
        parsed.filters ↔
      OnOneLine toLowerCase query filters ∧
        DatesShaped toLowerCase query filters rules :=
  chips_applied_iff_of_readAlike rules toLowerCase query filters parsed hagree
    (hshared.readAlike hbalanced toLowerCase) hserver

namespace ChipWitness

/-- Two spellings of one day, and another day. -/
def rules : TextRules where
  lower := id
  isAlnum := fun _ => true
  strptime := fun value =>
    if value = text "2020-01-01" then some 1
    else if value = text "2020-01-02" then some 2 else none

def query : Text := text "from:bob after:2020-01-02 plan"

/-- A sender and a date that the query contradicts. -/
def filters : SearchFiltersUI :=
  { emptyFilters with
    fromChip := text "alice"
    after := text "2020-01-01"
    dateFrom := some (text "2020-01-01") }

def bobChips : SearchFiltersUI :=
  { emptyFilters with
    fromChip := text "bob"
    after := text "2020-01-02"
    dateFrom := some (text "2020-01-02") }

/-- An operator behind a space that only the server knows. -/
def hiddenSender : Text := text "x\u0085from:bob"

def alice : SearchFiltersUI :=
  { emptyFilters with fromChip := text "alice" }

end ChipWitness

open ChipWitness in
set_option maxRecDepth 4000 in
theorem chips_applied_iff_bob :
    ∃ parsed, ServerReads rules (settle id query filters).query
        (settle id query filters).filters parsed ∧
      ChipsApplied rules (settle id query filters).filters parsed.filters ∧
      parsed.filters.fromSubstr = some (text "bob") := by
  have hsettle : settle id query filters = ⟨text "plan", bobChips⟩ := by
    decide +kernel
  have hbalanced : BalancedQuotes query := by decide
  have hshared : OperatorsShared query filters := by
    unfold OperatorsShared
    decide +kernel
  have hlines : OnOneLine id query filters := by
    unfold OnOneLine
    decide +kernel
  have hshaped : DatesShaped id query filters rules := by
    unfold DatesShaped
    decide +kernel
  have hagree : DatesAgree rules filters := by
    unfold DatesAgree
    decide +kernel
  obtain ⟨parsed, hserver, hsender⟩ :
      ∃ parsed, ServerReads rules (text "plan") bobChips parsed ∧
        parsed.filters.fromSubstr = some (text "bob") :=
    ⟨_, ⟨_, rfl, rfl⟩, rfl⟩
  have hsent : ServerReads rules (settle id query filters).query
      (settle id query filters).filters parsed := by
    rw [hsettle]
    exact hserver
  refine ⟨parsed, hsent, ?_, hsender⟩
  exact (chips_applied_iff rules id query filters parsed hbalanced hagree
    hshared hsent).mpr ⟨hlines, hshaped⟩

open ChipWitness in
set_option maxRecDepth 4000 in
/-- A space that only the server knows hides an operator from the client. -/
theorem hidden_operator_applied : ¬ ChipsSayWhatApplies rules id := by
  intro hclaim
  have hsettle : settle id hiddenSender alice = ⟨hiddenSender, alice⟩ := by
    decide +kernel
  obtain ⟨parsed, hserver, hsender⟩ :
      ∃ parsed, ServerReads rules hiddenSender alice parsed ∧
        parsed.filters.fromSubstr = some (text "bob") :=
    ⟨_, ⟨_, rfl, rfl⟩, rfl⟩
  have hsent : ServerReads rules (settle id hiddenSender alice).query
      (settle id hiddenSender alice).filters parsed := by
    rw [hsettle]
    exact hserver
  have happlied := (hclaim hiddenSender alice parsed (by decide +kernel)
    (by unfold DatesAgree; decide +kernel) hsent).sender
  rw [hsettle, hsender] at happlied
  revert happlied
  decide +kernel

end Localmail
