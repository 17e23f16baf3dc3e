/-
The values an operator has among the tokens of a query.  The parser keeps the
last one of an operator that holds a single value, and texts that leave no
quote open are read one after the other when they are joined by spaces.
-/
import Localmail.FilterTokens

namespace Localmail

/-! ### Values -/

/-- The value of `op` a token gives, if it gives one. -/
def operatorValue (op : Operator) (token : Token) : Option Text :=
  match partitionColon token.stripped with
  | none => none
  | some (name, value) =>
      if operatorNamed name = some op ∧ value ≠ [] then some value else none

def typedValues (op : Operator) (tokens : List Token) : List Text :=
  tokens.filterMap (operatorValue op)

theorem typedValues_append (op : Operator) (tokens more : List Token) :
    typedValues op (tokens ++ more) =
      typedValues op tokens ++ typedValues op more :=
  List.filterMap_append

theorem typedValues_flatMap {α : Type} (op : Operator) (items : List α)
    (read : α → List Token) :
    typedValues op (items.flatMap read) =
      items.flatMap fun item => typedValues op (read item) :=
  List.filterMap_flatMap

theorem operatorValue_ne_nil {op : Operator} {token : Token} {value : Text}
    (hvalue : operatorValue op token = some value) : value ≠ [] := by
  unfold operatorValue at hvalue
  split at hvalue
  · cases hvalue
  · split at hvalue
    · rename_i hnamed
      obtain rfl := Option.some.inj hvalue
      exact hnamed.2
    · cases hvalue

/-- A part gives its value to its own operator only. -/
theorem ComposedPart.operatorValue {part : ComposedPart} (op : Operator)
    (hvalue : part.value ≠ []) :
    operatorValue op part.token =
      if part.op = op then some part.value else none := by
  unfold Localmail.operatorValue
  change (match partitionColon (part.op.name ++ text ":" ++ part.value) with
    | none => none
    | some (name, value) => _) = _
  rw [partitionColon_append part.op.colon_not_mem_name]
  simp [operatorNamed_name, hvalue]

/-- The values of an operator among parts. -/
def partValues (op : Operator) (parts : List ComposedPart) : List Text :=
  (parts.filter fun part => part.op = op).map ComposedPart.value

theorem typedValues_parts {parts : List ComposedPart} (op : Operator)
    (hcontained : ∀ part ∈ parts, part.Contained) :
    typedValues op (parts.map ComposedPart.token) = partValues op parts := by
  induction parts with
  | nil => rfl
  | cons part rest ih =>
      have hrest := ih fun other hother =>
        hcontained other (List.mem_cons_of_mem _ hother)
      have hvalue :=
        part.operatorValue op (hcontained part List.mem_cons_self).nonempty
      unfold typedValues at hrest ⊢
      unfold partValues at hrest ⊢
      rw [List.map_cons, List.filterMap_cons, hvalue, hrest]
      by_cases hop : part.op = op <;> simp [hop]

theorem partValues_append (op : Operator) (parts more : List ComposedPart) :
    partValues op (parts ++ more) =
      partValues op parts ++ partValues op more := by
  simp [partValues]

/-- Parts of one operator. -/
theorem partValues_group {α : Type} (op other : Operator) (quoted : Bool)
    (spelled : α → Text) (values : List α) :
    partValues op (values.map fun value => ⟨other, spelled value, quoted⟩) =
      if other = op then values.map spelled else [] := by
  unfold partValues
  by_cases hop : other = op
  · rw [if_pos hop, List.filter_eq_self.mpr, List.map_map]
    · rfl
    · intro part hpart
      obtain ⟨value, -, rfl⟩ := List.mem_map.mp hpart
      exact decide_eq_true hop
  · rw [if_neg hop, List.filter_eq_nil_iff.mpr]
    · rfl
    · intro part hpart
      obtain ⟨value, -, rfl⟩ := List.mem_map.mp hpart
      simpa using hop

/-! ### The value the parser keeps -/

/-- A filter that the parser sets from the values of one operator, each
replacing the one before. -/
structure LastValueFilter (rules : TextRules) (β : Type) where
  op : Operator
  read : Parsing → Option β
  interpret : Text → Option β
  set : ∀ {before : Parsing} {value : Text} {after : Parsing},
    before.apply rules op value = .ok after → read after = interpret value
  other : ∀ {before : Parsing} {named : Operator} {value : Text}
    {after : Parsing}, named ≠ op →
    before.apply rules named value = .ok after → read after = read before
  kept : ∀ (before : Parsing) (raw : Text),
    read (before.keep raw) = read before
  single : op ≠ .langOp

namespace LastValueFilter

variable {rules : TextRules} {β : Type} (filter : LastValueFilter rules β)

theorem step {before after : Parsing} {token : Token}
    (hstep : Parsing.step rules before token = .ok after) :
    filter.read after =
      match operatorValue filter.op token with
      | some value => filter.interpret value
      | none => filter.read before := by
  obtain ⟨⟨⟩, -, hrest⟩ := exceptBind_eq_ok.mp hstep
  unfold operatorValue
  cases hparts : partitionColon token.stripped with
  | none =>
      rw [hparts] at hrest
      cases hrest
      exact filter.kept before token.raw
  | some parts =>
      obtain ⟨name, value⟩ := parts
      simp only [hparts] at hrest ⊢
      cases hnamed : operatorNamed name with
      | none =>
          rw [hnamed] at hrest
          cases hrest
          simpa using filter.kept before token.raw
      | some named =>
          simp only [hnamed] at hrest
          by_cases hop : named = filter.op
          · subst hop
            rw [if_neg filter.single] at hrest
            by_cases hempty : value = []
            · rw [if_pos hempty] at hrest
              split at hrest
              · cases hrest
              · cases hrest
                simpa [hempty] using filter.kept before token.raw
            · rw [if_neg hempty] at hrest
              simpa [hempty] using filter.set hrest
          · have hother : filter.read after = filter.read before := by
              split at hrest
              · exact filter.other hop hrest
              · split at hrest
                · split at hrest
                  · cases hrest
                  · cases hrest
                    exact filter.kept before token.raw
                · exact filter.other hop hrest
            simpa [hop] using hother

/-- The last value read counts. -/
theorem foldlM {before after : Parsing} {tokens : List Token}
    (hfold : tokens.foldlM (Parsing.step rules) before = .ok after) :
    filter.read after =
      match (typedValues filter.op tokens).getLast? with
      | some value => filter.interpret value
      | none => filter.read before := by
  induction tokens generalizing before with
  | nil =>
      cases hfold
      rfl
  | cons token rest ih =>
      rw [List.foldlM_cons] at hfold
      obtain ⟨middle, hstep, hrest⟩ := exceptBind_eq_ok.mp hfold
      rw [ih hrest, filter.step hstep]
      unfold typedValues
      rw [List.filterMap_cons]
      cases operatorValue filter.op token with
      | none => rfl
      | some value =>
          rw [List.getLast?_cons]
          cases (rest.filterMap (operatorValue filter.op)).getLast? <;> rfl

end LastValueFilter

/-! ### The filters of one value -/

/-- An operator changes no filter of one value but its own. -/
theorem Parsing.apply_other {rules : TextRules} {before after : Parsing}
    {op : Operator} {value : Text}
    (happly : before.apply rules op value = .ok after) :
    (op ≠ .fromOp → after.fromSubstr = before.fromSubstr) ∧
      (op ≠ .toOp → after.toSubstr = before.toSubstr) ∧
      (op ≠ .subjectOp → after.subjectSubstr = before.subjectSubstr) ∧
      (op ≠ .afterOp → after.after = before.after) ∧
      (op ≠ .beforeOp → after.before = before.before) := by
  cases op with
  | fromOp | toOp | subjectOp | labelOp | attachmentNameOp | accountOp
  | folderOp =>
      cases happly
      simp
  | accountIdOp | folderIdOp | afterOp | beforeOp | hasOp =>
      obtain ⟨result, -, hnext⟩ := exceptBind_eq_ok.mp happly
      cases hnext
      simp
  | langOp =>
      simp only [Parsing.apply] at happly
      split at happly
      · cases happly
      · cases happly
        simp

theorem Parsing.keep_filters (before : Parsing) (raw : Text) :
    before.keep raw = { before with freeParts := (before.keep raw).freeParts } := by
  unfold Parsing.keep
  split <;> rfl

/-- A date is set as it is read. -/
theorem parseDate_eq_ok {rules : TextRules} {value : Text} {op : Operator}
    {day : Int} : parseDate rules value op = .ok day ↔
      rules.strptime value = some day := by
  unfold parseDate
  cases rules.strptime value <;> simp

section Filters

variable (rules : TextRules)

def fromFilter : LastValueFilter rules Text where
  op := .fromOp
  read := Parsing.fromSubstr
  interpret := some
  set happly := by cases happly; rfl
  other hne happly := (Parsing.apply_other happly).1 hne
  kept before raw := by rw [before.keep_filters raw]
  single := nofun

def toFilter : LastValueFilter rules Text where
  op := .toOp
  read := Parsing.toSubstr
  interpret := some
  set happly := by cases happly; rfl
  other hne happly := (Parsing.apply_other happly).2.1 hne
  kept before raw := by rw [before.keep_filters raw]
  single := nofun

def subjectFilter : LastValueFilter rules Text where
  op := .subjectOp
  read := Parsing.subjectSubstr
  interpret := some
  set happly := by cases happly; rfl
  other hne happly := (Parsing.apply_other happly).2.2.1 hne
  kept before raw := by rw [before.keep_filters raw]
  single := nofun

def afterFilter : LastValueFilter rules Int where
  op := .afterOp
  read := Parsing.after
  interpret := rules.strptime
  set happly := by
    obtain ⟨day, hday, hnext⟩ := exceptBind_eq_ok.mp happly
    cases hnext
    exact (parseDate_eq_ok.mp hday).symm
  other hne happly := (Parsing.apply_other happly).2.2.2.1 hne
  kept before raw := by rw [before.keep_filters raw]
  single := nofun

def beforeFilter : LastValueFilter rules Int where
  op := .beforeOp
  read := Parsing.before
  interpret := rules.strptime
  set happly := by
    obtain ⟨day, hday, hnext⟩ := exceptBind_eq_ok.mp happly
    cases hnext
    exact (parseDate_eq_ok.mp hday).symm
  other hne happly := (Parsing.apply_other happly).2.2.2.2 hne
  kept before raw := by rw [before.keep_filters raw]
  single := nofun

end Filters

/-! ### Texts joined by spaces -/

/-- The quotes of the text come in pairs. -/
def BalancedQuotes (query : Text) : Prop :=
  query.count (.scalar '"') % 2 = 0

instance decideBalancedQuotes (query : Text) :
    Decidable (BalancedQuotes query) :=
  inferInstanceAs (Decidable (_ = _))

theorem BalancedQuotes.append {first second : Text}
    (hfirst : BalancedQuotes first) (hsecond : BalancedQuotes second) :
    BalancedQuotes (first ++ second) := by
  unfold BalancedQuotes at *
  rw [List.count_append]
  omega

theorem balancedQuotes_of_not_mem {query : Text}
    (hquote : CodePoint.scalar '"' ∉ query) : BalancedQuotes query := by
  unfold BalancedQuotes
  rw [List.count_eq_zero.mpr hquote]

theorem Lexing.step_quoted (state : Lexing) (ch : CodePoint) :
    (state.step ch).quoted = (state.quoted ^^ ch == .scalar '"') := by
  unfold Lexing.step
  by_cases hquote : ch = .scalar '"'
  · cases hquoted : state.quoted <;> simp [hquote]
  · have hbeq : (ch == CodePoint.scalar '"') = false :=
      beq_eq_false_iff_ne.mpr hquote
    cases hquoted : state.quoted with
    | true => simp [hquote, hbeq, Lexing.push, hquoted]
    | false =>
        simp only [hquote, hbeq, Bool.false_eq_true, ↓reduceIte]
        split
        · rfl
        · exact hquoted

theorem oddQuotes_cons (ch : CodePoint) (rest : Text) :
    ((ch :: rest).count (.scalar '"') % 2 == 1) =
      (ch == .scalar '"' ^^ rest.count (.scalar '"') % 2 == 1) := by
  rw [List.count_cons]
  by_cases hquote : ch = .scalar '"'
  · rcases Nat.mod_two_eq_zero_or_one (rest.count (.scalar '"')) with
      heven | hodd
    · simp [hquote, Nat.add_mod, heven]
    · simp [hquote, Nat.add_mod, hodd]
  · have hbeq : (ch == CodePoint.scalar '"') = false :=
      beq_eq_false_iff_ne.mpr hquote
    simp [hbeq]

/-- Whether a quote is open depends on how many were read. -/
theorem Lexing.foldl_parity (query : Text) (state : Lexing) :
    (query.foldl Lexing.step state).quoted =
      (state.quoted ^^ query.count (.scalar '"') % 2 == 1) := by
  induction query generalizing state with
  | nil => simp
  | cons ch rest ih =>
      rw [List.foldl_cons, ih, Lexing.step_quoted, oddQuotes_cons,
        Bool.xor_assoc]

theorem BalancedQuotes.tokenize_append {query : Text}
    (hquery : BalancedQuotes query) (rest : Text) :
    tokenize (query ++ .scalar ' ' :: rest) =
      tokenize query ++ tokenize rest := by
  have hclosed : (query.foldl Lexing.step Lexing.start).quoted = false := by
    rw [Lexing.foldl_parity, hquery]
    rfl
  unfold tokenize
  rw [List.foldl_append, List.foldl_cons]
  generalize query.foldl Lexing.step Lexing.start = state at hclosed ⊢
  have hspace : state.step (.scalar ' ') = Lexing.start.after state.flush := by
    simp [Lexing.step, hclosed, CodePoint.isSpace, Lexing.after, Lexing.start]
  rw [hspace, Lexing.foldl_after, Lexing.flush_after]

theorem tokenize_joinSpaces_flatMap {texts : List Text}
    (hbalanced : ∀ query ∈ texts, BalancedQuotes query) :
    tokenize (joinSpaces texts) = texts.flatMap tokenize := by
  induction texts with
  | nil => rfl
  | cons first rest ih =>
      cases rest with
      | nil => simp [joinSpaces_singleton]
      | cons second more =>
          have hfirst := hbalanced first List.mem_cons_self
          have hrest := ih fun query hquery =>
            hbalanced query (List.mem_cons_of_mem _ hquery)
          rw [joinSpaces_cons_cons, hfirst.tokenize_append, hrest]
          rfl

end Localmail
