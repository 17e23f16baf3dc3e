/-
The free text of a query.  Which tokens the parser keeps is decided by each
token alone, and the text it joins them into is read back as exactly them.
-/
import Localmail.QueryTokens
import Localmail.SearchRequest

namespace Localmail

/-- The parser reads an operator off the token, or refuses it as one. -/
def Token.isOperator (token : Token) : Bool :=
  match partitionColon token.stripped with
  | none => false
  | some (name, value) =>
      match operatorNamed name with
      | none => false
      | some op => op = .langOp || op.fixedShape || !value.isEmpty

/-- Nothing but dashes, as typed. -/
def Token.isDashes (token : Token) : Bool :=
  token.raw.all (· = .scalar '-')

def Token.isFree (token : Token) : Bool :=
  !token.isOperator && !token.isDashes

/-- The tokens of a query kept as free text. -/
def freeTokens (query : Text) : List Token :=
  (tokenize query).filter Token.isFree

/-! ### What is read off the tokens -/

/-- `semantic_text` of a text with these tokens. -/
def semanticOf (tokens : List Token) : Text :=
  joinSpaces ((tokens.filter fun token =>
    token.stripped ≠ [] && !isOr token.raw && !isExclusion token.raw).map
      Token.stripped)

/-- The tokens `excluded_text` is made of. -/
def excludedTokens (rules : TextRules) (tokens : List Token) : List Token :=
  (tokens.zipIdx.filter fun (token, index) =>
    isExclusion token.raw && token.stripped.any rules.isAlnum &&
      apartFromOr tokens index).map Prod.fst

/-- `excluded_text` of a text with these tokens. -/
def excludedOf (rules : TextRules) (tokens : List Token) : Text :=
  joinSpaces ((excludedTokens rules tokens).map Token.raw)

theorem semanticText_eq (freeText : Text) :
    semanticText freeText = semanticOf (tokenize freeText) := rfl

theorem excludedText_eq (rules : TextRules) (freeText : Text) :
    excludedText rules freeText = excludedOf rules (tokenize freeText) := by
  unfold excludedText excludedOf excludedTokens
  rw [List.map_map]
  rfl

/-! ### One token -/

section Tokens

variable {rules : TextRules} {parse next : Parsing} {token : Token}
  {tokens : List Token}

/-- A token that is no operator is kept, or dropped as dashes. -/
theorem Parsing.step_plain (hplain : token.isOperator = false) :
    Parsing.step rules parse token =
      rejectUnstorable token.stripped >>= fun _ => .ok (parse.keep token.raw) := by
  unfold Parsing.step
  congr 1
  funext _
  unfold Token.isOperator at hplain
  cases hparts : partitionColon token.stripped with
  | none => rfl
  | some parts =>
      obtain ⟨name, value⟩ := parts
      simp only [hparts] at hplain ⊢
      cases hop : operatorNamed name with
      | none => rfl
      | some op =>
          simp only [hop, Bool.or_eq_false_iff, decide_eq_false_iff_not,
            Bool.not_eq_false'] at hplain ⊢
          obtain ⟨⟨hlang, hshape⟩, hempty⟩ := hplain
          rw [if_neg hlang, if_pos (List.isEmpty_iff.mp hempty),
            if_neg (by simp [hshape])]

theorem Parsing.keep_free (hfree : token.isFree = true) :
    parse.keep token.raw =
      { parse with freeParts := parse.freeParts ++ [token.raw] } := by
  have hdashes : token.isDashes = false := by
    simpa [Token.isFree] using (Bool.and_eq_true_iff.mp hfree).2
  unfold Parsing.keep
  rw [if_neg (by simpa [Token.isDashes] using hdashes)]

/-- No operator touches the free text. -/
theorem Parsing.apply_freeParts {op : Operator} {value : Text}
    (happly : parse.apply rules op value = .ok next) :
    next.freeParts = parse.freeParts := by
  cases op with
  | fromOp | toOp | subjectOp | labelOp | attachmentNameOp | accountOp
  | folderOp =>
      cases happly
      rfl
  | accountIdOp | folderIdOp | afterOp | beforeOp | hasOp =>
      obtain ⟨_, -, hnext⟩ := exceptBind_eq_ok.mp happly
      cases hnext
      rfl
  | langOp =>
      simp only [Parsing.apply] at happly
      split at happly
      · cases happly
      · cases happly
        rfl

/-- An accepted operator token leaves the free text alone. -/
theorem Parsing.step_operator (hoperator : token.isOperator = true)
    (hstep : Parsing.step rules parse token = .ok next) :
    ∃ op value, parse.apply rules op value = .ok next := by
  obtain ⟨_, -, hrest⟩ := exceptBind_eq_ok.mp hstep
  unfold Token.isOperator at hoperator
  cases hparts : partitionColon token.stripped with
  | none => simp [hparts] at hoperator
  | some parts =>
      obtain ⟨name, value⟩ := parts
      simp only [hparts] at hoperator hrest
      cases hop : operatorNamed name with
      | none => simp [hop] at hoperator
      | some op =>
          simp only [hop] at hoperator hrest
          split at hrest
          · exact ⟨op, value, hrest⟩
          · rename_i hlang
            split at hrest
            · rename_i hempty
              split at hrest
              · cases hrest
              · rename_i hshape
                simp [hlang, hshape, hempty] at hoperator
            · exact ⟨op, value, hrest⟩

/-- What one accepted token adds to the free text. -/
theorem Parsing.step_freeParts
    (hstep : Parsing.step rules parse token = .ok next) :
    next.freeParts = parse.freeParts ++
      ([token].filter Token.isFree).map Token.raw := by
  cases hoperator : token.isOperator with
  | true =>
      obtain ⟨op, value, happly⟩ := Parsing.step_operator hoperator hstep
      rw [Parsing.apply_freeParts happly]
      simp [Token.isFree, hoperator]
  | false =>
      rw [Parsing.step_plain hoperator] at hstep
      obtain ⟨_, -, hnext⟩ := exceptBind_eq_ok.mp hstep
      cases hnext
      cases hdashes : token.isDashes with
      | true =>
          have hall : token.raw.all (· = .scalar '-') = true := hdashes
          simp [Parsing.keep, hall, Token.isFree, hdashes]
      | false =>
          have hfree : token.isFree = true := by
            simp [Token.isFree, hoperator, hdashes]
          rw [Parsing.keep_free hfree]
          simp [hfree]

/-! ### All tokens -/

theorem foldlM_freeParts (hfold : tokens.foldlM (Parsing.step rules) parse =
      .ok next) :
    next.freeParts = parse.freeParts ++
      (tokens.filter Token.isFree).map Token.raw := by
  induction tokens generalizing parse with
  | nil =>
      cases hfold
      simp
  | cons token rest ih =>
      rw [List.foldlM_cons] at hfold
      obtain ⟨middle, hstep, hrest⟩ := exceptBind_eq_ok.mp hfold
      rw [ih hrest, Parsing.step_freeParts hstep, List.append_assoc,
        ← List.map_append, ← List.filter_append, List.singleton_append]

theorem storable_of_foldlM (hfold : tokens.foldlM (Parsing.step rules) parse =
      .ok next) :
    ∀ token ∈ tokens, rejectUnstorable token.stripped = .ok () := by
  induction tokens generalizing parse with
  | nil => nofun
  | cons token rest ih =>
      rw [List.foldlM_cons] at hfold
      obtain ⟨middle, hstep, hrest⟩ := exceptBind_eq_ok.mp hfold
      obtain ⟨⟨⟩, haccepted, -⟩ := exceptBind_eq_ok.mp hstep
      intro other hother
      rcases List.mem_cons.mp hother with rfl | hlater
      · exact haccepted
      · exact ih hrest other hlater

/-- Free tokens are kept one after the other. -/
theorem foldlM_free (hfree : ∀ token ∈ tokens, token.isFree = true)
    (haccepted : ∀ token ∈ tokens, rejectUnstorable token.stripped = .ok ()) :
    tokens.foldlM (Parsing.step rules) parse =
      .ok { parse with
        freeParts := parse.freeParts ++ tokens.map Token.raw } := by
  induction tokens generalizing parse with
  | nil => simp [pure, Except.pure]
  | cons token rest ih =>
      have htoken := hfree token List.mem_cons_self
      have hplain : token.isOperator = false := by
        simpa [Token.isFree] using (Bool.and_eq_true_iff.mp htoken).1
      have hstep : Parsing.step rules parse token =
          .ok { parse with freeParts := parse.freeParts ++ [token.raw] } := by
        rw [Parsing.step_plain hplain, haccepted token List.mem_cons_self,
          Parsing.keep_free htoken]
        rfl
      rw [List.foldlM_cons, hstep]
      change List.foldlM _ _ rest = _
      rw [ih (fun other hother => hfree other (List.mem_cons_of_mem _ hother))
        fun other hother => haccepted other (List.mem_cons_of_mem _ hother)]
      simp [List.append_assoc]

end Tokens

theorem parseQuery_eq_ok {rules : TextRules} {query : Text}
    {parsed : ParsedQuery} :
    parseQuery rules query = .ok parsed ↔
      ∃ final, (tokenize query).foldlM (Parsing.step rules) Parsing.start =
        .ok final ∧ final.finish = parsed := by
  unfold parseQuery
  rw [exceptBind_eq_ok]
  simp only [Except.ok.injEq]

theorem parseQuery_freeText {rules : TextRules} {query : Text}
    {parsed : ParsedQuery} (hparse : parseQuery rules query = .ok parsed) :
    parsed.freeText = joinSpaces ((freeTokens query).map Token.raw) := by
  obtain ⟨final, hfold, rfl⟩ := parseQuery_eq_ok.mp hparse
  have hparts := foldlM_freeParts hfold
  change joinSpaces final.freeParts = _
  rw [hparts]
  rfl

/-- The free text is read back as the tokens it was made of. -/
theorem tokenize_freeText {rules : TextRules} {query : Text}
    {parsed : ParsedQuery} (hparse : parseQuery rules query = .ok parsed) :
    tokenize parsed.freeText = freeTokens query := by
  rw [parseQuery_freeText hparse]
  have hwords := (tokenize_wordList query).sublist
    (List.filter_sublist : (freeTokens query).Sublist (tokenize query))
  exact hwords.tokenize_joinSpaces

/-- Free text round-trips: it is the tokens kept from the query, is read back as
exactly them, parses to itself with no filter set, and says the same about
meaning, exclusions and rankability. -/
theorem free_text_round_trips (rules : TextRules) (query : Text)
    (parsed : ParsedQuery) (hparse : parseQuery rules query = .ok parsed) :
    parsed.freeText = joinSpaces ((freeTokens query).map Token.raw) ∧
      tokenize parsed.freeText = freeTokens query ∧
      parseQuery rules parsed.freeText =
        .ok ⟨parsed.freeText, none, [], SearchFilters.unset⟩ ∧
      semanticText parsed.freeText = semanticOf (freeTokens query) ∧
      excludedText rules parsed.freeText =
        excludedOf rules (freeTokens query) ∧
      isRankable parsed.freeText = !(semanticOf (freeTokens query)).isEmpty := by
  have htokens := tokenize_freeText hparse
  obtain ⟨final, hfold, -⟩ := parseQuery_eq_ok.mp hparse
  have haccepted := storable_of_foldlM hfold
  have hagain : parseQuery rules parsed.freeText =
      .ok ⟨parsed.freeText, none, [], SearchFilters.unset⟩ := by
    have hread : (tokenize parsed.freeText).foldlM (Parsing.step rules)
          Parsing.start =
        .ok { Parsing.start with
          freeParts := [] ++ (freeTokens query).map Token.raw } := by
      rw [htokens]
      apply foldlM_free
      · intro token htoken
        exact (List.mem_filter.mp htoken).2
      · intro token htoken
        exact haccepted token (List.mem_filter.mp htoken).1
    refine parseQuery_eq_ok.mpr ⟨_, hread, ?_⟩
    rw [parseQuery_freeText hparse]
    rfl
  refine ⟨parseQuery_freeText hparse, htokens, hagain, ?_, ?_, ?_⟩
  · rw [semanticText_eq, htokens]
  · rw [excludedText_eq, htokens]
  · rw [isRankable, semanticText_eq, htokens]

namespace FreeTextWitness

/-- Nothing folds, nothing is a date. -/
def plainRules : TextRules := ⟨id, fun _ => true, fun _ => none⟩

/-- An operator among a phrase, an exclusion and an unclosed quote. -/
def query : Text := text "\"OR\" from:bob -\"a b\" -- subject: x\"y z"

end FreeTextWitness

open FreeTextWitness in
theorem free_text_round_trips_unclosed :
    ∃ parsed, parseQuery plainRules query = .ok parsed ∧
      parsed.freeText = text "\"OR\" -\"a b\" subject: x\"y z" ∧
      tokenize parsed.freeText = freeTokens query := by
  refine ⟨_, rfl, by decide, ?_⟩
  exact (free_text_round_trips plainRules query _ rfl).2.1

end Localmail
