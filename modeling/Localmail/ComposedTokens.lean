/-
Filter tokens written in front of a free text.  Each is an operator with a
value that cannot end the token early, so the tokenizer reads the tokens back,
the parser applies them, and the free text starts where it would start alone.
-/
import Localmail.FreeText
import Localmail.StripText

namespace Localmail

/-! ### One composed token -/

def Operator.name : Operator → Text
  | .fromOp => text "from"
  | .toOp => text "to"
  | .subjectOp => text "subject"
  | .afterOp => text "after"
  | .beforeOp => text "before"
  | .hasOp => text "has"
  | .labelOp => text "label"
  | .accountOp => text "account"
  | .folderOp => text "folder"
  | .accountIdOp => text "account_id"
  | .folderIdOp => text "folder_id"
  | .langOp => text "lang"
  | .attachmentNameOp => text "attachment_name"

theorem operatorNamed_name (op : Operator) :
    operatorNamed op.name = some op := by
  cases op <;> rfl

theorem Operator.name_plain (op : Operator) :
    ∀ ch ∈ op.name ++ text ":", ch ≠ .scalar '"' ∧ ch.isSpace = false := by
  cases op <;> decide

theorem Operator.colon_not_mem_name (op : Operator) :
    CodePoint.scalar ':' ∉ op.name := by
  cases op <;> decide

/-- A filter token as a composer writes it. -/
structure ComposedPart where
  op : Operator
  value : Text
  quoted : Bool
deriving Repr, DecidableEq

def ComposedPart.spelling (part : ComposedPart) : Text :=
  part.op.name ++ text ":" ++
    if part.quoted then text "\"" ++ part.value ++ text "\"" else part.value

def ComposedPart.token (part : ComposedPart) : Token where
  stripped := part.op.name ++ text ":" ++ part.value
  raw := part.spelling

/-- The value is there and cannot end its token. -/
structure ComposedPart.Contained (part : ComposedPart) : Prop where
  nonempty : part.value ≠ []
  noQuote : CodePoint.scalar '"' ∉ part.value
  noSpace : part.quoted = false → ∀ ch ∈ part.value, ch.isSpace = false

/-! ### Runs of characters -/

/-- Outside quotes, characters that are no quote and no space are taken in. -/
theorem Lexing.foldl_plain {value : Text}
    (hplain : ∀ ch ∈ value, ch ≠ .scalar '"' ∧ ch.isSpace = false)
    (out : List Token) (buf raw : Text) :
    value.foldl Lexing.step ⟨out, buf, raw, false⟩ =
      ⟨out, buf ++ value, raw ++ value, false⟩ := by
  induction value generalizing buf raw with
  | nil => simp
  | cons ch rest ih =>
      obtain ⟨hquote, hspace⟩ := hplain ch List.mem_cons_self
      have hstep : Lexing.step ⟨out, buf, raw, false⟩ ch =
          ⟨out, buf ++ [ch], raw ++ [ch], false⟩ := by
        simp [Lexing.step, Lexing.push, hquote, hspace]
      rw [List.foldl_cons, hstep,
        ih fun other hother => hplain other (List.mem_cons_of_mem _ hother)]
      simp

/-- Inside quotes, only a quote is not taken in. -/
theorem Lexing.foldl_quoted {value : Text}
    (hquote : CodePoint.scalar '"' ∉ value)
    (out : List Token) (buf raw : Text) :
    value.foldl Lexing.step ⟨out, buf, raw, true⟩ =
      ⟨out, buf ++ value, raw ++ value, true⟩ := by
  induction value generalizing buf raw with
  | nil => simp
  | cons ch rest ih =>
      obtain ⟨hne, hrest⟩ := List.ne_and_not_mem_of_not_mem_cons hquote
      have hstep : Lexing.step ⟨out, buf, raw, true⟩ ch =
          ⟨out, buf ++ [ch], raw ++ [ch], true⟩ := by
        simp [Lexing.step, Lexing.push, Ne.symm hne]
      rw [List.foldl_cons, hstep, ih hrest]
      simp

/-- A contained part is read back as its token, with no quote left open. -/
theorem ComposedPart.Contained.closedWord {part : ComposedPart}
    (hpart : part.Contained) : ClosedWord part.token := by
  have hstart : Lexing.start = ⟨[], [], [], false⟩ := rfl
  refine ⟨?_, ?_⟩
  · simp [ComposedPart.token, hpart.nonempty]
  · unfold ComposedPart.token ComposedPart.spelling
    cases hquoted : part.quoted with
    | false =>
        have hplain : ∀ ch ∈ part.value,
            ch ≠ .scalar '"' ∧ ch.isSpace = false := by
          intro ch hch
          exact ⟨fun hquote => hpart.noQuote (hquote ▸ hch),
            hpart.noSpace hquoted ch hch⟩
        rw [List.foldl_append, hstart, Lexing.foldl_plain part.op.name_plain]
        simpa using Lexing.foldl_plain hplain [] (part.op.name ++ text ":")
          (part.op.name ++ text ":")
    | true =>
        have hopen (buf raw : Text) :
            (text "\"").foldl Lexing.step ⟨[], buf, raw, false⟩ =
              ⟨[], buf, raw ++ text "\"", true⟩ := rfl
        have hclose (buf raw : Text) :
            (text "\"").foldl Lexing.step ⟨[], buf, raw, true⟩ =
              ⟨[], buf, raw ++ text "\"", false⟩ := rfl
        rw [if_pos rfl, List.foldl_append, hstart,
          Lexing.foldl_plain part.op.name_plain, List.foldl_append,
          List.foldl_append, hopen, Lexing.foldl_quoted hpart.noQuote, hclose]
        simp

/-! ### What the parser makes of it -/

theorem partitionColon_append {name : Text}
    (hname : CodePoint.scalar ':' ∉ name) (value : Text) :
    partitionColon (name ++ text ":" ++ value) = some (name, value) := by
  have hmem : CodePoint.scalar ':' ∈ name ++ text ":" ++ value := by
    simp [text]
  have hname' := decide_ne_of_notMem hname
  unfold partitionColon
  rw [if_pos hmem, List.append_assoc, List.takeWhile_append_of_pos hname',
    List.dropWhile_append_of_pos hname']
  simp [text]

section Parts

variable {rules : TextRules} {parse next : Parsing} {part : ComposedPart}
  {parts : List ComposedPart}

theorem ComposedPart.partition (part : ComposedPart) :
    partitionColon part.token.stripped = some (part.op.name, part.value) :=
  partitionColon_append part.op.colon_not_mem_name part.value

/-- Its operator applied to its value, unless the token is unstorable. -/
theorem ComposedPart.step (hvalue : part.value ≠ []) :
    Parsing.step rules parse part.token =
      rejectUnstorable part.token.stripped >>= fun _ =>
        parse.apply rules part.op part.value := by
  unfold Parsing.step
  congr 1
  funext _
  rw [part.partition]
  simp only [operatorNamed_name, hvalue, ↓reduceIte, ite_self]

theorem ComposedPart.Contained.isOperator (hpart : part.Contained) :
    part.token.isOperator = true := by
  unfold Token.isOperator
  rw [part.partition]
  simp [operatorNamed_name, hpart.nonempty]

/-- The parts applied one after the other. -/
def applyAll (rules : TextRules) (parse : Parsing)
    (parts : List ComposedPart) : Except QueryParseError Parsing :=
  parts.foldlM (fun parse part => parse.apply rules part.op part.value) parse

theorem foldlM_of_applyAll (hparts : ∀ part ∈ parts, part.Contained)
    (hstorable : ∀ part ∈ parts,
      rejectUnstorable part.token.stripped = .ok ())
    (happly : applyAll rules parse parts = .ok next) :
    (parts.map ComposedPart.token).foldlM (Parsing.step rules) parse =
      .ok next := by
  induction parts generalizing parse with
  | nil => exact happly
  | cons part rest ih =>
      rw [applyAll, List.foldlM_cons] at happly
      obtain ⟨middle, hpart, hrest⟩ := exceptBind_eq_ok.mp happly
      have hstep : Parsing.step rules parse part.token = .ok middle := by
        rw [ComposedPart.step (hparts part List.mem_cons_self).nonempty,
          hstorable part List.mem_cons_self]
        exact hpart
      rw [List.map_cons, List.foldlM_cons, hstep]
      exact ih (fun other hother => hparts other (List.mem_cons_of_mem _ hother))
        (fun other hother => hstorable other (List.mem_cons_of_mem _ hother))
        hrest

theorem applyAll_of_foldlM (hparts : ∀ part ∈ parts, part.Contained)
    (hfold : (parts.map ComposedPart.token).foldlM (Parsing.step rules) parse =
      .ok next) :
    applyAll rules parse parts = .ok next := by
  induction parts generalizing parse with
  | nil => exact hfold
  | cons part rest ih =>
      rw [List.map_cons, List.foldlM_cons] at hfold
      obtain ⟨middle, hstep, hrest⟩ := exceptBind_eq_ok.mp hfold
      rw [ComposedPart.step (hparts part List.mem_cons_self).nonempty] at hstep
      obtain ⟨_, -, hpart⟩ := exceptBind_eq_ok.mp hstep
      rw [applyAll, List.foldlM_cons, hpart]
      exact ih (fun other hother => hparts other (List.mem_cons_of_mem _ hother))
        hrest

theorem applyAll_append (more : List ComposedPart) :
    applyAll rules parse (parts ++ more) =
      applyAll rules parse parts >>= fun next => applyAll rules next more :=
  List.foldlM_append

/-- An operator that holds one value, given at most once. -/
theorem applyAll_option {α : Type} {op : Operator} {quoted : Bool}
    {spelled : α → Text} (set : Parsing → Option α → Parsing)
    (value : Option α) (hnone : ∀ before : Parsing, set before none = before)
    (hsome : ∀ before : Parsing, ∀ given ∈ value,
      before.apply rules op (spelled given) = .ok (set before (some given)))
    (before : Parsing) :
    applyAll rules before
        (value.toList.map fun given => ⟨op, spelled given, quoted⟩) =
      .ok (set before value) := by
  cases value with
  | none =>
      rw [hnone]
      rfl
  | some given =>
      change Except.bind (before.apply rules op (spelled given)) _ = _
      rw [hsome before given rfl]
      rfl

/-- An operator that collects its values. -/
theorem applyAll_list {α : Type} {op : Operator} {quoted : Bool}
    {spelled : α → Text} (collect : Parsing → List α → Parsing)
    (values : List α) (hnil : ∀ before : Parsing, collect before [] = before)
    (hcons : ∀ (before : Parsing) (first : α) (rest : List α),
      collect (collect before [first]) rest = collect before (first :: rest))
    (hone : ∀ before : Parsing, ∀ given ∈ values,
      before.apply rules op (spelled given) = .ok (collect before [given]))
    (before : Parsing) :
    applyAll rules before
        (values.map fun given => ⟨op, spelled given, quoted⟩) =
      .ok (collect before values) := by
  induction values generalizing before with
  | nil =>
      rw [hnil]
      rfl
  | cons first rest ih =>
      have hrest := ih
        (fun before given hgiven =>
          hone before given (List.mem_cons_of_mem _ hgiven))
        (collect before [first])
      change Except.bind (before.apply rules op (spelled first)) _ = _
      rw [hone before first List.mem_cons_self]
      exact hrest.trans (congrArg Except.ok (hcons before first rest))

end Parts

/-! ### Token groups -/

/-- The tokens spell contained parts. -/
structure Spells (tokens : List Text) (parts : List ComposedPart) : Prop where
  spelled : tokens = parts.map ComposedPart.spelling
  contained : ∀ part ∈ parts, part.Contained

/-- The tokens with the free text behind them. -/
def composedText (tokens : List Text) (freeText : Text) : Text :=
  joinSpaces (if freeText = [] then tokens else tokens ++ [freeText])

section Groups

variable {rules : TextRules} {tokens more : List Text}
  {parts others : List ComposedPart} {parse next : Parsing}

theorem Spells.append (hfirst : Spells tokens parts)
    (hsecond : Spells more others) :
    Spells (tokens ++ more) (parts ++ others) := by
  refine ⟨?_, ?_⟩
  · rw [hfirst.spelled, hsecond.spelled, List.map_append]
  · intro part hpart
    rcases List.mem_append.mp hpart with hleft | hright
    · exact hfirst.contained part hleft
    · exact hsecond.contained part hright

/-- The composition is read as the parts' tokens and then the free text's. -/
theorem Spells.tokenize (hspells : Spells tokens parts) (freeText : Text) :
    tokenize (composedText tokens freeText) =
      parts.map ComposedPart.token ++ Localmail.tokenize freeText := by
  have hclosed : ∀ token ∈ parts.map ComposedPart.token, ClosedWord token := by
    intro token htoken
    obtain ⟨part, hpart, rfl⟩ := List.mem_map.mp htoken
    exact (hspells.contained part hpart).closedWord
  have hraw : tokens = (parts.map ComposedPart.token).map Token.raw := by
    rw [hspells.spelled, List.map_map]
    rfl
  unfold composedText
  split
  · rename_i hempty
    rw [hraw, (wordList_of_closed hclosed).tokenize_joinSpaces, hempty]
    exact (List.append_nil _).symm
  · rw [hraw, tokenize_joinSpaces_append hclosed]

/-- No part is kept as free text. -/
theorem Spells.freeTokens (hspells : Spells tokens parts) (freeText : Text) :
    freeTokens (composedText tokens freeText) =
      Localmail.freeTokens freeText := by
  have hnone : (parts.map ComposedPart.token).filter Token.isFree = [] := by
    rw [List.filter_eq_nil_iff]
    intro token htoken
    obtain ⟨part, hpart, rfl⟩ := List.mem_map.mp htoken
    simp [Token.isFree, (hspells.contained part hpart).isOperator]
  unfold Localmail.freeTokens
  rw [hspells.tokenize, List.filter_append, hnone, List.nil_append]

/-- Parsing the composition parses the free text from where the parts lead. -/
theorem Spells.parseQuery {freeText : Text} {parsed : ParsedQuery}
    (hspells : Spells tokens parts)
    (hparse : parseQuery rules (composedText tokens freeText) = .ok parsed) :
    (∀ part ∈ parts, rejectUnstorable part.token.stripped = .ok ()) ∧
      ∃ next final, applyAll rules Parsing.start parts = .ok next ∧
        (Localmail.tokenize freeText).foldlM (Parsing.step rules) next =
          .ok final ∧ final.finish = parsed := by
  obtain ⟨final, hfold, hfinish⟩ := parseQuery_eq_ok.mp hparse
  rw [hspells.tokenize, List.foldlM_append] at hfold
  obtain ⟨next, hparts, hfree⟩ := exceptBind_eq_ok.mp hfold
  have happly := applyAll_of_foldlM hspells.contained hparts
  refine ⟨?_, next, final, happly, hfree, hfinish⟩
  intro part hpart
  exact storable_of_foldlM hparts part.token (List.mem_map_of_mem hpart)

end Groups

/-! ### The free text behind the parts -/

section Free

variable {rules : TextRules} {tokens : List Token}
  {parse next final : Parsing}

/-- As far as the parser's refusals go: no `has:` seen that the other has not
seen too. -/
def Parsing.Under (parse other : Parsing) : Prop :=
  parse.hasAttachment = none ∨ parse.hasAttachment = other.hasAttachment

theorem Parsing.Under.apply {other : Parsing} {op : Operator} {value : Text}
    (hunder : parse.Under other)
    (happly : other.apply rules op value = .ok next) :
    ∃ reached, parse.apply rules op value = .ok reached ∧ reached.Under next := by
  cases op with
  | fromOp | toOp | subjectOp | labelOp | attachmentNameOp | accountOp
  | folderOp =>
      cases happly
      exact ⟨_, rfl, hunder⟩
  | accountIdOp | folderIdOp | afterOp | beforeOp =>
      obtain ⟨result, hresult, hnext⟩ := exceptBind_eq_ok.mp happly
      cases hnext
      exact ⟨_, exceptBind_eq_ok.mpr ⟨result, hresult, rfl⟩, hunder⟩
  | hasOp =>
      obtain ⟨wanted, hwanted, hnext⟩ := exceptBind_eq_ok.mp happly
      cases hnext
      refine ⟨_, exceptBind_eq_ok.mpr ⟨wanted, ?_, rfl⟩, .inr rfl⟩
      rcases hunder with hnone | hsame
      · unfold parseHas at hwanted ⊢
        split at hwanted
        · cases hwanted
        · split at hwanted
          · cases hwanted
          · simpa [hnone] using hwanted
      · rw [hsame]
        exact hwanted
  | langOp =>
      simp only [Parsing.apply] at happly ⊢
      split at happly
      · cases happly
      · rename_i hcode
        cases happly
        exact ⟨_, if_neg hcode, hunder⟩

theorem Parsing.Under.step {other : Parsing} {token : Token}
    (hunder : parse.Under other)
    (hstep : Parsing.step rules other token = .ok next) :
    ∃ reached, Parsing.step rules parse token = .ok reached ∧
      reached.Under next := by
  have hkeep : (parse.keep token.raw).Under (other.keep token.raw) := by
    unfold Parsing.keep
    split
    · exact hunder
    · exact hunder
  obtain ⟨⟨⟩, hstorable, hrest⟩ := exceptBind_eq_ok.mp hstep
  have hbind (rest : Except QueryParseError Parsing) :
      (rejectUnstorable token.stripped >>= fun _ => rest) = rest := by
    rw [hstorable]
    rfl
  rw [Parsing.step, hbind]
  cases hparts : partitionColon token.stripped with
  | none =>
      rw [hparts] at hrest
      cases hrest
      exact ⟨_, rfl, hkeep⟩
  | some parts =>
      obtain ⟨name, value⟩ := parts
      simp only [hparts] at hrest ⊢
      cases hop : operatorNamed name with
      | none =>
          rw [hop] at hrest
          cases hrest
          exact ⟨_, rfl, hkeep⟩
      | some op =>
          simp only [hop] at hrest ⊢
          split at hrest
          · rename_i hlang
            rw [if_pos hlang]
            exact hunder.apply hrest
          · rename_i hlang
            rw [if_neg hlang]
            split at hrest
            · rename_i hempty
              rw [if_pos hempty]
              split at hrest
              · cases hrest
              · rename_i hshape
                cases hrest
                rw [if_neg hshape]
                exact ⟨_, rfl, hkeep⟩
            · rename_i hempty
              rw [if_neg hempty]
              exact hunder.apply hrest

/-- What one parse accepts, a parse under it accepts. -/
theorem Parsing.Under.foldlM {other : Parsing} (hunder : parse.Under other)
    (hfold : tokens.foldlM (Parsing.step rules) other = .ok final) :
    ∃ reached, tokens.foldlM (Parsing.step rules) parse = .ok reached := by
  induction tokens generalizing parse other with
  | nil => exact ⟨parse, rfl⟩
  | cons token rest ih =>
      rw [List.foldlM_cons] at hfold
      obtain ⟨middle, hstep, hrest⟩ := exceptBind_eq_ok.mp hfold
      obtain ⟨reached, hreached, hnext⟩ := hunder.step hstep
      rw [List.foldlM_cons, hreached]
      exact ih hnext hrest

/-- Tokens without an operator change no filter. -/
theorem foldlM_plain (hplain : ∀ token ∈ tokens, token.isOperator = false)
    (hfold : tokens.foldlM (Parsing.step rules) parse = .ok final) :
    final = { parse with freeParts := final.freeParts } := by
  induction tokens generalizing parse with
  | nil => cases hfold; rfl
  | cons token rest ih =>
      rw [List.foldlM_cons] at hfold
      obtain ⟨middle, hstep, hrest⟩ := exceptBind_eq_ok.mp hfold
      rw [Parsing.step_plain (hplain token List.mem_cons_self)] at hstep
      obtain ⟨_, -, hkept⟩ := exceptBind_eq_ok.mp hstep
      cases hkept
      rw [ih (fun other hother => hplain other (List.mem_cons_of_mem _ hother))
        hrest]
      unfold Parsing.keep
      split
      · rfl
      · rfl

end Free

section Composition

variable {rules : TextRules} {tokens : List Text} {parts : List ComposedPart}
  {freeText : Text} {parsed : ParsedQuery}

/-- A free text behind filter tokens is parsed as it is alone. -/
theorem Spells.neutral (hspells : Spells tokens parts)
    (hparse : Localmail.parseQuery rules (composedText tokens freeText) =
      .ok parsed) :
    ∃ plain, Localmail.parseQuery rules freeText = .ok plain ∧
      parsed.freeText = plain.freeText := by
  obtain ⟨-, next, final, -, hfold, -⟩ := hspells.parseQuery hparse
  have hunder : Parsing.start.Under next := .inl rfl
  obtain ⟨reached, hreached⟩ := hunder.foldlM hfold
  have hplain : Localmail.parseQuery rules freeText = .ok reached.finish :=
    parseQuery_eq_ok.mpr ⟨reached, hreached, rfl⟩
  refine ⟨reached.finish, hplain, ?_⟩
  rw [parseQuery_freeText hparse, parseQuery_freeText hplain,
    hspells.freeTokens]

/-- Behind filter tokens, a free text without operators sets no filter. -/
theorem Spells.faithful {next : Parsing} (hspells : Spells tokens parts)
    (happly : applyAll rules Parsing.start parts = .ok next)
    (hparse : Localmail.parseQuery rules (composedText tokens freeText) =
      .ok parsed)
    (hplain : ∀ token ∈ Localmail.tokenize freeText, token.isOperator = false) :
    parsed.filters = next.finish.filters := by
  obtain ⟨-, reached, final, hreached, hfold, rfl⟩ := hspells.parseQuery hparse
  obtain rfl := Except.ok.inj (happly.symm.trans hreached)
  rw [foldlM_plain hplain hfold]
  rfl

end Composition

end Localmail
