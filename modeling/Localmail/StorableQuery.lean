/-
The texts a search binds into its statements.  Those typed by the user were
checked token by token; those a rewriter answered were not checked at all.
-/
import Localmail.FreeText
import Localmail.SearchGate
import Localmail.StorableText

namespace Localmail

universe v

/-! ### The rewriter's answer -/

/-- A validated `_RewriteSchema`. -/
structure RewriteSchema where
  rewrittenText : Text
  expansionTerms : List Text
  after : Option Int
  before : Option Int
  sender : Option Text
  recipient : Option Text
  subject : Option Text
  hasAttachment : Option Bool

/-- `parse_rewrite_response`; `validate` is `model_validate_json`, and `none`
is an answer the search goes on without. -/
def parseRewriteResponse (validate : Text → Option RewriteSchema)
    (raw : Text) : Option RewriteResult :=
  (validate raw).map fun model =>
    { rewrittenText := model.rewrittenText
      expansionTerms := model.expansionTerms
      extractedFilters :=
        { SearchFilters.unset with
          after := model.after
          before := model.before
          fromSubstr := model.sender
          toSubstr := model.recipient
          subjectSubstr := model.subject
          hasAttachment := model.hasAttachment } }

/-- The outside world with a rewriter whose backend answers JSON. -/
def Answers.withRewriter {σ : Type v} (answers : Answers σ)
    (validate : Text → Option RewriteSchema) (backend : Text → Option Text) :
    Answers σ :=
  { answers with
    rewrite := fun freeText =>
      (backend freeText).bind (parseRewriteResponse validate) }

/-! ### What is bound -/

/-- A substring as `ILIKE` takes it. -/
def likePattern (value : Text) : Text :=
  text "%" ++ value ++ text "%"

/-- The text parameters of a clause. -/
def FilterClause.texts : FilterClause → List Text
  | .fromLike value => [likePattern value, likePattern value]
  | .toLike value | .subjectLike value => [likePattern value]
  | .attachmentNameContains value | .labelLike value => [value]
  | .folderNameAny names => names
  | .languageAny codes => codes
  | .excluding excluded => [excluded, excluded]
  | .accountAny _ | .sentFrom _ | .sentBefore _ | .hasAttachment _
  | .folderIdAny _ => []

/-- The text parameters of `build_lexical_tsquery`; a blank free text makes no
lexical match, in the arms and in the date walk alike. -/
def lexicalTexts (parsed : ParsedQuery) : List Text :=
  if strip parsed.freeText = [] then []
  else parsed.freeText :: parsed.expansionTerms

/-- Every text parameter of a retrieval: the account names, the clauses on the
message and the lexical match. -/
def searchTexts (rules : TextRules) (parsed : ParsedQuery) : List Text :=
  parsed.filters.accountNames ++
    (messageWhere rules parsed).flatMap FilterClause.texts ++
    lexicalTexts parsed

/-- A scalar slot of the rewrite, where the user left it open. -/
def filledSlot (user extracted : Option Text) : List Text :=
  if user = none then extracted.toList else []

/-- The texts of a rewrite that the query takes over into its statements. -/
def rewriteTexts (parsed : ParsedQuery) (result : RewriteResult)
    (maxExpansionTerms : Nat) : List Text :=
  (result.expansionTerms.filter fun term => strip term ≠ []).take
      maxExpansionTerms ++
    filledSlot parsed.filters.fromSubstr result.extractedFilters.fromSubstr ++
    filledSlot parsed.filters.toSubstr result.extractedFilters.toSubstr ++
    filledSlot parsed.filters.subjectSubstr
      result.extractedFilters.subjectSubstr

/-! ### The clauses' texts -/

structure FiltersStorable (filters : SearchFilters) : Prop where
  sender : ∀ value ∈ filters.fromSubstr, Storable value
  recipient : ∀ value ∈ filters.toSubstr, Storable value
  subject : ∀ value ∈ filters.subjectSubstr, Storable value
  attachmentName : ∀ value ∈ filters.attachmentNameSubstr, Storable value
  label : ∀ value ∈ filters.label, Storable value
  folders : ∀ names ∈ filters.folders, ∀ name ∈ names, Storable name
  languages : ∀ codes ∈ filters.languages, ∀ code ∈ codes, Storable code

section Clauses

variable {filters : SearchFilters}

def FilterClause.TextsStorable (clause : FilterClause) : Prop :=
  ∀ value ∈ clause.texts, Storable value

theorem storable_likePattern {value : Text} :
    Storable (likePattern value) ↔ Storable value := by
  have hmark : Storable (text "%") := by decide
  simp [likePattern, storable_append, hmark]

theorem scalarClause_storable {α : Type} {clause : α → FilterClause}
    {value : Option α} :
    (∀ made ∈ scalarClause clause value, made.TextsStorable) ↔
      ∀ given ∈ value, (clause given).TextsStorable := by
  cases value with
  | none => simp [scalarClause]
  | some given => simp [scalarClause]

/-- An empty substring binds nothing, and would be storable. -/
theorem substrClause_storable {clause : Text → FilterClause}
    {value : Option Text}
    (hclause : ∀ given, (clause given).TextsStorable ↔ Storable given) :
    (∀ made ∈ substrClause clause value, made.TextsStorable) ↔
      ∀ given ∈ value, Storable given := by
  unfold substrClause
  rw [scalarClause_storable]
  cases value with
  | none => simp
  | some given =>
      cases given with
      | nil => simp [Storable.nil]
      | cons first rest => simp [hclause]

theorem listClause_storable {clause : List Text → FilterClause}
    {values : Option (List Text)}
    (hclause : ∀ given, (clause given).texts = given) :
    (∀ made ∈ listClause clause values, made.TextsStorable) ↔
      ∀ given ∈ values, ∀ value ∈ given, Storable value := by
  cases values with
  | none => simp [listClause]
  | some given =>
      cases given with
      | nil => simp [listClause]
      | cons first rest =>
          simp [listClause, FilterClause.TextsStorable, hclause]

theorem filterSql_storable :
    (∀ clause ∈ filterSql filters, clause.TextsStorable) ↔
      FiltersStorable filters := by
  have hids {α : Type} {clause : List α → FilterClause}
      {values : Option (List α)} (hclause : ∀ given, (clause given).texts = []) :
      ∀ made ∈ listClause clause values, made.TextsStorable := by
    intro made hmade
    unfold listClause at hmade
    split at hmade
    · cases hmade
    · cases hmade
    · obtain rfl := List.mem_singleton.mp hmade
      simp [FilterClause.TextsStorable, hclause]
  have hdays {α : Type} {clause : α → FilterClause} {value : Option α}
      (hclause : ∀ given, (clause given).texts = []) :
      ∀ made ∈ scalarClause clause value, made.TextsStorable := by
    rw [scalarClause_storable]
    simp [FilterClause.TextsStorable, hclause]
  have hsubstr {clause : Text → FilterClause} {value : Option Text}
      (hclause : ∀ given, (clause given).texts = [given] ∨
        (clause given).texts = [likePattern given] ∨
        (clause given).texts = [likePattern given, likePattern given]) :
      (∀ made ∈ substrClause clause value, made.TextsStorable) ↔
        ∀ given ∈ value, Storable given := by
    apply substrClause_storable
    intro given
    unfold FilterClause.TextsStorable
    rcases hclause given with htexts | htexts | htexts
    · simp [htexts]
    · simp [htexts, storable_likePattern]
    · simp [htexts, storable_likePattern]
  unfold filterSql
  simp only [List.forall_mem_append]
  rw [hsubstr fun _ => .inr (.inr rfl), hsubstr fun _ => .inr (.inl rfl),
    hsubstr fun _ => .inr (.inl rfl), hsubstr fun _ => .inl rfl,
    hsubstr fun _ => .inl rfl, listClause_storable fun _ => rfl,
    listClause_storable fun _ => rfl]
  constructor
  · rintro ⟨⟨⟨⟨⟨⟨⟨⟨⟨⟨⟨⟨-, -⟩, hsender⟩, hrecipient⟩, hsubject⟩, hname⟩, -⟩, -⟩,
      -⟩, hfolders⟩, -⟩, hlabel⟩, hlanguages⟩
    exact ⟨hsender, hrecipient, hsubject, hname, hlabel, hfolders, hlanguages⟩
  · rintro ⟨hsender, hrecipient, hsubject, hname, hlabel, hfolders, hlanguages⟩
    exact ⟨⟨⟨⟨⟨⟨⟨⟨⟨⟨⟨⟨hids fun _ => rfl, hids fun _ => rfl⟩, hsender⟩,
      hrecipient⟩, hsubject⟩, hname⟩, hdays fun _ => rfl⟩, hdays fun _ => rfl⟩,
      hdays fun _ => rfl⟩, hfolders⟩, hids fun _ => rfl⟩, hlabel⟩, hlanguages⟩

end Clauses

/-! ### What the user typed -/

/-- The texts a parse holds. -/
structure Parsing.TextsStorable (parse : Parsing) : Prop where
  free : ∀ part ∈ parse.freeParts, Storable part
  accounts : ∀ name ∈ parse.accountNames, Storable name
  folders : ∀ name ∈ parse.folders, Storable name
  sender : ∀ value ∈ parse.fromSubstr, Storable value
  recipient : ∀ value ∈ parse.toSubstr, Storable value
  subject : ∀ value ∈ parse.subjectSubstr, Storable value
  label : ∀ value ∈ parse.label, Storable value
  attachmentName : ∀ value ∈ parse.attachmentName, Storable value
  languages : ∀ code ∈ parse.languages, Storable code

section Typed

variable {rules : TextRules} {parse next : Parsing} {token : Token}
  {tokens : List Token}

theorem Storable.snoc {values : List Text} {value : Text}
    (hvalues : ∀ given ∈ values, Storable given) (hvalue : Storable value) :
    ∀ given ∈ values ++ [value], Storable given := by
  intro given hgiven
  rcases List.mem_append.mp hgiven with hold | hnew
  · exact hvalues given hold
  · exact List.mem_singleton.mp hnew ▸ hvalue

theorem Storable.strip {value : Text} (hvalue : Storable value) :
    Storable (strip value) := by
  apply hvalue.of_subset
  intro ch hch
  unfold Localmail.strip at hch
  have hdropped := List.mem_reverse.mp
    ((List.dropWhile_sublist _).subset (List.mem_reverse.mp hch))
  exact (List.dropWhile_sublist _).subset hdropped

/-- The spelling of a token adds nothing but quotes. -/
theorem storable_raw (hstripped : Storable token.stripped)
    (hquotes : token.stripped = token.raw.filter (· ≠ .scalar '"')) :
    Storable token.raw := by
  intro ch hch
  by_cases hquote : ch = .scalar '"'
  · subst hquote
    decide
  · apply hstripped
    rw [hquotes]
    exact List.mem_filter.mpr ⟨hch, decide_eq_true hquote⟩

theorem Parsing.TextsStorable.apply {op : Operator} {value : Text}
    (hlower : ∀ value, Storable value → Storable (rules.lower value))
    (hparse : parse.TextsStorable) (hvalue : Storable value)
    (happly : parse.apply rules op value = .ok next) :
    next.TextsStorable := by
  have hsome : ∀ given ∈ some value, Storable given := by
    rintro given ⟨⟩
    exact hvalue
  cases op with
  | fromOp =>
      cases happly
      exact { hparse with sender := hsome }
  | toOp =>
      cases happly
      exact { hparse with recipient := hsome }
  | subjectOp =>
      cases happly
      exact { hparse with subject := hsome }
  | labelOp =>
      cases happly
      exact { hparse with label := hsome }
  | attachmentNameOp =>
      cases happly
      exact { hparse with attachmentName := hsome }
  | accountOp =>
      cases happly
      exact { hparse with accounts := Storable.snoc hparse.accounts hvalue }
  | folderOp =>
      cases happly
      exact { hparse with folders := Storable.snoc hparse.folders hvalue }
  | accountIdOp | folderIdOp | afterOp | beforeOp | hasOp =>
      obtain ⟨_, -, hnext⟩ := exceptBind_eq_ok.mp happly
      cases hnext
      exact { hparse with }
  | langOp =>
      simp only [Parsing.apply] at happly
      split at happly
      · cases happly
      · cases happly
        exact { hparse with
          languages := Storable.snoc hparse.languages (hlower _ hvalue.strip) }

theorem Parsing.TextsStorable.keep (hparse : parse.TextsStorable)
    (hraw : Storable token.raw) : (parse.keep token.raw).TextsStorable := by
  unfold Parsing.keep
  split
  · exact hparse
  · exact { hparse with free := Storable.snoc hparse.free hraw }

/-- An accepted token adds only what its check let through. -/
theorem Parsing.TextsStorable.step
    (hlower : ∀ value, Storable value → Storable (rules.lower value))
    (hparse : parse.TextsStorable)
    (hquotes : token.stripped = token.raw.filter (· ≠ .scalar '"'))
    (hstep : Parsing.step rules parse token = .ok next) :
    next.TextsStorable := by
  obtain ⟨⟨⟩, hstorable, hrest⟩ := exceptBind_eq_ok.mp hstep
  have hstripped := rejectUnstorable_eq_ok.mp hstorable
  have hkeep := hparse.keep (storable_raw hstripped hquotes)
  split at hrest
  · cases hrest
    exact hkeep
  · rename_i name value hparts
    have hvalue : Storable value := by
      apply hstripped.of_subset
      intro ch hch
      unfold partitionColon at hparts
      split at hparts
      · obtain ⟨-, rfl⟩ := Prod.mk.inj (Option.some.inj hparts)
        exact (List.dropWhile_sublist _).subset (List.mem_of_mem_tail hch)
      · cases hparts
    split at hrest
    · cases hrest
      exact hkeep
    · split at hrest
      · exact hparse.apply hlower hvalue hrest
      · split at hrest
        · split at hrest
          · cases hrest
          · cases hrest
            exact hkeep
        · exact hparse.apply hlower hvalue hrest

theorem Parsing.TextsStorable.foldlM
    (hlower : ∀ value, Storable value → Storable (rules.lower value))
    (hparse : parse.TextsStorable)
    (hquotes : ∀ token ∈ tokens,
      token.stripped = token.raw.filter (· ≠ .scalar '"'))
    (hfold : tokens.foldlM (Parsing.step rules) parse = .ok next) :
    next.TextsStorable := by
  induction tokens generalizing parse with
  | nil =>
      cases hfold
      exact hparse
  | cons token rest ih =>
      rw [List.foldlM_cons] at hfold
      obtain ⟨middle, hstep, hrest⟩ := exceptBind_eq_ok.mp hfold
      exact ih (hparse.step hlower (hquotes token List.mem_cons_self) hstep)
        (fun other hother => hquotes other (List.mem_cons_of_mem _ hother)) hrest

theorem Parsing.TextsStorable.finish (hparse : parse.TextsStorable) :
    FiltersStorable parse.finish.filters ∧ Storable parse.finish.freeText ∧
      ∀ name ∈ parse.finish.filters.accountNames, Storable name := by
  have hlist {values : List Text} (hvalues : ∀ given ∈ values, Storable given) :
      ∀ stated ∈ orNone values, ∀ given ∈ stated, Storable given := by
    intro stated hstated
    unfold orNone at hstated
    split at hstated
    · cases hstated
    · cases hstated
      exact hvalues
  exact ⟨⟨hparse.sender, hparse.recipient, hparse.subject,
    hparse.attachmentName, hparse.label, hlist hparse.folders,
    hlist hparse.languages⟩, Storable.joinSpaces hparse.free, hparse.accounts⟩

/-- What an accepted query leaves is storable. -/
theorem parseQuery_storable {query : Text} {parsed : ParsedQuery}
    (hlower : ∀ value, Storable value → Storable (rules.lower value))
    (hparse : parseQuery rules query = .ok parsed) :
    FiltersStorable parsed.filters ∧ Storable parsed.freeText ∧
      (∀ name ∈ parsed.filters.accountNames, Storable name) ∧
      Storable (excludedText rules parsed.freeText) := by
  obtain ⟨final, hfold, hfinish⟩ := parseQuery_eq_ok.mp hparse
  have hstart : Parsing.start.TextsStorable := by
    constructor <;> nofun
  have hfinal := hstart.foldlM hlower
    (fun token htoken => stripped_of_mem_tokenize htoken) hfold
  rw [← hfinish]
  obtain ⟨hfilters, hfree, hnames⟩ := hfinal.finish
  refine ⟨hfilters, hfree, hnames, ?_⟩
  rw [hfinish, excludedText_eq, tokenize_freeText hparse]
  apply Storable.joinSpaces
  intro raw hraw
  obtain ⟨token, htoken, rfl⟩ := List.mem_map.mp hraw
  obtain ⟨⟨given, index⟩, hentry, rfl⟩ := List.mem_map.mp htoken
  have hmem := List.mem_map_of_mem (f := Prod.fst) (List.mem_filter.mp hentry).1
  rw [List.zipIdx_map_fst] at hmem
  have hquery := (List.mem_filter.mp hmem).1
  exact storable_raw
    (rejectUnstorable_eq_ok.mp (storable_of_foldlM hfold _ hquery))
    (stripped_of_mem_tokenize hquery)

end Typed

/-! ### A whole search -/

section Search

variable {σ : Type v} {rules : TextRules} {config : SearchConfig σ}

theorem searchTexts_storable {parsed : ParsedQuery} :
    (∀ bound ∈ searchTexts rules parsed, Storable bound) ↔
      (∀ name ∈ parsed.filters.accountNames, Storable name) ∧
        FiltersStorable parsed.filters ∧
        Storable (excludedText rules parsed.freeText) ∧
        (strip parsed.freeText ≠ [] → Storable parsed.freeText ∧
          ∀ term ∈ parsed.expansionTerms, Storable term) := by
  have hlexical : (∀ bound ∈ lexicalTexts parsed, Storable bound) ↔
      (strip parsed.freeText ≠ [] → Storable parsed.freeText ∧
        ∀ term ∈ parsed.expansionTerms, Storable term) := by
    unfold lexicalTexts
    split
    · rename_i hblank
      simp [hblank]
    · rename_i hterms
      simp [hterms]
  have hwhere : (∀ bound ∈ (messageWhere rules parsed).flatMap
      FilterClause.texts, Storable bound) ↔
        FiltersStorable parsed.filters ∧
          Storable (excludedText rules parsed.freeText) := by
    rw [← filterSql_storable]
    unfold messageWhere
    simp only [List.flatMap_append, List.forall_mem_append]
    apply and_congr
    · simp only [List.mem_flatMap, forall_exists_index, and_imp]
      exact ⟨fun hall clause hclause value hvalue => hall value clause hclause hvalue,
        fun hall value clause hclause hvalue => hall clause hclause value hvalue⟩
    · split
      · rename_i hempty
        simp [hempty, Storable.nil]
      · simp [FilterClause.texts]
  unfold searchTexts
  rw [List.forall_mem_append, List.forall_mem_append, hwhere, hlexical,
    and_assoc, and_assoc]

/-- The query after the rewrite, as `search` merges it. -/
def rewrittenQuery (config : SearchConfig σ) (answers : Answers σ)
    (parsed : ParsedQuery) (smart : Bool) : ParsedQuery :=
  if smart ∧ strip parsed.freeText ≠ [] then
    match answers.rewrite parsed.freeText with
    | some result => applyRewrite parsed result config.rewriterMaxExpansionTerms
    | none => parsed
  else parsed

/-- The rewrite's texts that reach the statements. -/
def boundRewriteTexts (config : SearchConfig σ) (answers : Answers σ)
    (parsed : ParsedQuery) (smart : Bool) : List Text :=
  if smart ∧ strip parsed.freeText ≠ [] then
    match answers.rewrite parsed.freeText with
    | some result => rewriteTexts parsed result config.rewriterMaxExpansionTerms
    | none => []
  else []

/-- After the rewrite only account ids change. -/
theorem retrievalQuery_eq (answers : Answers σ) (parsed : ParsedQuery)
    (smart : Bool) (allowed : Option (List Int)) :
    ∃ accountIds accounts, retrievalQuery config answers parsed smart allowed =
      { rewrittenQuery config answers parsed smart with
        filters :=
          { (rewrittenQuery config answers parsed smart).filters with
            accountIds := accountIds
            accounts := accounts } } := by
  unfold retrievalQuery
  change ∃ accountIds accounts, resolveAccountNames answers.accountNamed
    (clampAccountIdsToAcl (rewrittenQuery config answers parsed smart) allowed) =
      _
  generalize rewrittenQuery config answers parsed smart = rewritten
  unfold resolveAccountNames
  cases allowed with
  | none =>
      split
      · exact ⟨_, _, rfl⟩
      · exact ⟨_, _, rfl⟩
  | some granted =>
      split
      · exact ⟨_, _, rfl⟩
      · exact ⟨_, _, rfl⟩

/-- A slot is storable with what fills it. -/
theorem filledSlot_storable {user extracted : Option Text}
    (huser : ∀ value ∈ user, Storable value) :
    (∀ value ∈ (user <|> extracted), Storable value) ↔
      ∀ value ∈ filledSlot user extracted, Storable value := by
  cases user with
  | none => simp [filledSlot]
  | some given => simpa [filledSlot] using huser given rfl

theorem rewrittenQuery_storable {answers : Answers σ} {parsed : ParsedQuery}
    {smart : Bool} (hfilters : FiltersStorable parsed.filters)
    (hterms : parsed.expansionTerms = []) :
    (FiltersStorable (rewrittenQuery config answers parsed smart).filters ∧
      ∀ term ∈ (rewrittenQuery config answers parsed smart).expansionTerms,
        Storable term) ↔
      ∀ bound ∈ boundRewriteTexts config answers parsed smart,
        Storable bound := by
  unfold rewrittenQuery boundRewriteTexts
  split
  · cases hanswer : answers.rewrite parsed.freeText with
    | none => simp [hfilters, hterms]
    | some result =>
        simp only [rewriteTexts, List.forall_mem_append,
          ← filledSlot_storable hfilters.sender,
          ← filledSlot_storable hfilters.recipient,
          ← filledSlot_storable hfilters.subject]
        constructor
        · rintro ⟨hall, hexpansion⟩
          exact ⟨⟨⟨hexpansion, hall.sender⟩, hall.recipient⟩, hall.subject⟩
        · rintro ⟨⟨⟨hexpansion, hsender⟩, hrecipient⟩, hsubject⟩
          exact ⟨{ hfilters with
            sender := hsender
            recipient := hrecipient
            subject := hsubject }, hexpansion⟩
  · simp [hfilters, hterms]

end Search

section Bound

variable {σ : Type v} [LinearOrder σ] [Add σ] [Zero σ]

/-- A search reaches its statements only with a query that parses. -/
theorem parsed_of_searcherSearch {rules : TextRules} {accountOf : Nat → Nat}
    {config : SearchConfig σ} {answers : Answers σ} {query token : Text}
    {pageSize : Nat} {userId : Option Nat} {sort : Option SortMode}
    {order : Option SortOrder} {keyset : Option KeysetCursor} {smart : Bool}
    {allowed : Option (List Int)} {found : Found σ}
    {pool : Option (CachedPool σ)}
    (hsearch : searcherSearch rules accountOf config answers query pageSize
      userId sort order keyset smart allowed token = .ok (found, pool)) :
    ∃ parsed, parseQuery rules query = .ok parsed := by
  cases hparse : parseQuery rules query with
  | ok parsed => exact ⟨parsed, rfl⟩
  | error error =>
      obtain ⟨refusal, hrefused⟩ :
          ∃ refusal, searcherSearch rules accountOf config answers query pageSize
            userId sort order keyset smart allowed token = .error refusal :=
        searcherSearch_unparsed hparse
      rw [hsearch] at hrefused
      cases hrefused

/-- When a search reaches its statements, every text it binds is storable
exactly if the rewrite's texts that it takes over are. -/
theorem search_binds_storable_iff (rules : TextRules)
    (hlower : ∀ value, Storable value → Storable (rules.lower value))
    (accountOf : Nat → Nat) (config : SearchConfig σ) (answers : Answers σ)
    (validate : Text → Option RewriteSchema) (backend : Text → Option Text)
    (query token : Text) (pageSize : Nat) (userId : Option Nat)
    (sort : Option SortMode) (order : Option SortOrder)
    (keyset : Option KeysetCursor) (smart : Bool)
    (allowed : Option (List Int)) (found : Found σ)
    (pool : Option (CachedPool σ))
    (hsearch : searcherSearch rules accountOf config
      (answers.withRewriter validate backend) query pageSize userId sort order
      keyset smart allowed token = .ok (found, pool)) :
    ∃ parsed, parseQuery rules query = .ok parsed ∧
      ((∀ bound ∈ searchTexts rules (retrievalQuery config
          (answers.withRewriter validate backend) parsed smart allowed),
        Storable bound) ↔
        ∀ bound ∈ boundRewriteTexts config
          (answers.withRewriter validate backend) parsed smart,
          Storable bound) := by
  obtain ⟨parsed, hparse⟩ := parsed_of_searcherSearch hsearch
  refine ⟨parsed, hparse, ?_⟩
  generalize answers.withRewriter validate backend = world
  obtain ⟨hfilters, hfree, hnames, hexcluded⟩ := parseQuery_storable hlower hparse
  have hterms : parsed.expansionTerms = [] := by
    obtain ⟨final, -, rfl⟩ := parseQuery_eq_ok.mp hparse
    rfl
  rw [← rewrittenQuery_storable hfilters hterms, searchTexts_storable,
    retrievalQuery_freeText]
  obtain ⟨accountIds, accounts, hquery⟩ :=
    @retrievalQuery_eq σ config world parsed smart allowed
  rw [hquery]
  have haccountNames : (rewrittenQuery config world parsed smart).filters.accountNames =
      parsed.filters.accountNames := by
    unfold rewrittenQuery
    split
    · split
      · rfl
      · rfl
    · rfl
  -- Without a free text there is no rewrite, and no term.
  have hblank : strip parsed.freeText = [] →
      (rewrittenQuery config world parsed smart).expansionTerms = [] := by
    intro hempty
    unfold rewrittenQuery
    rw [if_neg fun hboth => hboth.2 hempty, hterms]
  constructor
  · rintro ⟨-, hall, -, hlexical⟩
    refine ⟨⟨hall.sender, hall.recipient, hall.subject, hall.attachmentName,
      hall.label, hall.folders, hall.languages⟩, ?_⟩
    by_cases hempty : strip parsed.freeText = []
    · rw [hblank hempty]
      nofun
    · exact (hlexical hempty).2
  · rintro ⟨hall, hexpansion⟩
    refine ⟨?_, ⟨hall.sender, hall.recipient, hall.subject,
      hall.attachmentName, hall.label, hall.folders, hall.languages⟩,
      hexcluded, fun _ => ⟨hfree, hexpansion⟩⟩
    rw [haccountNames]
    exact hnames

end Bound

namespace RewriteWitness

/-- A rewrite with a sender in it, as the backend spells it. -/
def answered (sender : String) : Text :=
  text ("\x7b\"rewritten_text\":\"invoice\",\"filters\":\x7b\"from\":\"" ++
    sender ++ "\"\x7d\x7d")

/-- The two answers of the backend, validated. -/
def validate (raw : Text) : Option RewriteSchema :=
  if raw = answered "bo\\u0000b" then
    some ⟨text "invoice", [], none, none, some (text "bo\x00b"), none, none, none⟩
  else if raw = answered "bob" then
    some ⟨text "invoice", [], none, none, some (text "bob"), none, none, none⟩
  else none

def world (sender : String) : Answers Nat :=
  GateWitness.answers.withRewriter validate fun _ => some (answered sender)

/-- The query as parsed. -/
def parsed : ParsedQuery :=
  ⟨text "invoice", none, [], SearchFilters.unset⟩

end RewriteWitness

open GateWitness RewriteWitness in
set_option maxRecDepth 8000 in
/-- A rewrite whose sender holds a NUL is bound as it is. -/
theorem search_binds_rewritten_nul :
    ∃ found pool,
      searcherSearch rules (fun _ => 2) config (world "bo\\u0000b")
          (text "invoice") 10 none none none none true none (text "f0") =
        .ok (found, pool) ∧
      parseQuery rules (text "invoice") = .ok parsed ∧
      ∃ bound ∈ searchTexts rules (retrievalQuery config
        (world "bo\\u0000b") parsed true none), ¬Storable bound := by
  refine ⟨_, _, rfl, rfl, likePattern (text "bo\x00b"), ?_, ?_⟩
  · decide
  · decide

open GateWitness RewriteWitness in
set_option maxRecDepth 8000 in
theorem search_binds_storable_iff_bob :
    likePattern (text "bob") ∈ searchTexts rules
        (retrievalQuery config (world "bob") parsed true none) ∧
      ∀ bound ∈ searchTexts rules (retrievalQuery config (world "bob") parsed
        true none), Storable bound := by
  obtain ⟨query, hquery, hstorable⟩ := search_binds_storable_iff rules
    (fun _ hvalue => hvalue) (fun _ => 2) config answers validate
    (fun _ => some (answered "bob")) (text "invoice") (text "f0") 10 none none
    none none true none _ _ rfl
  obtain rfl : parsed = query := Except.ok.inj hquery
  exact ⟨by decide, hstorable.mpr (by decide)⟩

end Localmail
