/-
`run_search` from the request to the hits: the account scope injected as query
tokens, the searcher's own clamp, the date walk, the fresh pool, and the pages
and grows of a cached one.  The statements the database answers and the
reranker's scores are arguments; the clauses that bind the account are not.
-/
import Localmail.LabelledRun
import Localmail.SearchRequest

namespace Localmail

universe v

/-! ### The filter clauses -/

/-- One `AND` part of the `WHERE` fragment, with its parameters. -/
inductive FilterClause where
  | accountAny (ids : List Int)
  | fromLike (value : Text)
  | toLike (value : Text)
  | subjectLike (value : Text)
  | attachmentNameContains (value : Text)
  | sentFrom (day : Int)
  | sentBefore (day : Int)
  | hasAttachment (wanted : Bool)
  | folderNameAny (names : List Text)
  | folderIdAny (ids : List Int)
  | labelLike (value : Text)
  | languageAny (codes : List Text)
  | excluding (excluded : Text)
deriving Repr, DecidableEq

/-- A clause for a list filter; an empty list makes none. -/
def listClause {α : Type} (clause : List α → FilterClause)
    (values : Option (List α)) : List FilterClause :=
  match values with
  | none | some [] => []
  | some values => [clause values]

/-- A clause for a scalar filter. -/
def scalarClause {α : Type} (clause : α → FilterClause) (value : Option α) :
    List FilterClause :=
  (value.map clause).toList

/-- A clause for a substring filter; an empty substring makes none. -/
def substrClause (clause : Text → FilterClause) (value : Option Text) :
    List FilterClause :=
  scalarClause clause (value.filter fun substr => !substr.isEmpty)

/-- `_filter_sql`. -/
def filterSql (filters : SearchFilters) : List FilterClause :=
  listClause .accountAny filters.accounts ++
    listClause .accountAny filters.accountIds ++
    substrClause .fromLike filters.fromSubstr ++
    substrClause .toLike filters.toSubstr ++
    substrClause .subjectLike filters.subjectSubstr ++
    substrClause .attachmentNameContains filters.attachmentNameSubstr ++
    scalarClause .sentFrom filters.after ++
    scalarClause .sentBefore filters.before ++
    scalarClause .hasAttachment filters.hasAttachment ++
    listClause .folderNameAny filters.folders ++
    listClause .folderIdAny filters.folderIds ++
    substrClause .labelLike filters.label ++
    listClause .languageAny filters.languages

/-- `_message_where`: the filters and the query's exclusions. -/
def messageWhere (rules : TextRules) (parsed : ParsedQuery) :
    List FilterClause :=
  let excluded := excludedText rules parsed.freeText
  filterSql parsed.filters ++ if excluded = [] then [] else [.excluding excluded]

/-- The conjunction, on a message of the given account. -/
def whereHolds (holds : FilterClause → Nat → Bool) (accountId messageId : Nat)
    (clauses : List FilterClause) : Bool :=
  clauses.all fun
    | .accountAny ids => (accountId : Int) ∈ ids
    | clause => holds clause messageId

/-! ### The searcher's query -/

structure RewriteResult where
  rewrittenText : Text
  expansionTerms : List Text
  extractedFilters : SearchFilters
deriving Repr, DecidableEq

/-- `apply_rewrite`: only scalar slots the user left open are filled. -/
def applyRewrite (parsed : ParsedQuery) (result : RewriteResult)
    (maxExpansionTerms : Nat) : ParsedQuery :=
  let user := parsed.filters
  let extracted := result.extractedFilters
  { parsed with
    rewrittenText :=
      if result.rewrittenText = [] then none else some result.rewrittenText
    expansionTerms :=
      (result.expansionTerms.filter fun term => strip term ≠ []).take
        maxExpansionTerms
    filters :=
      { user with
        after := user.after <|> extracted.after
        before := user.before <|> extracted.before
        fromSubstr := user.fromSubstr <|> extracted.fromSubstr
        toSubstr := user.toSubstr <|> extracted.toSubstr
        subjectSubstr := user.subjectSubstr <|> extracted.subjectSubstr
        hasAttachment := user.hasAttachment <|> extracted.hasAttachment } }

def noAccountSentinel : Int := -1

/-- `sorted(set(ids))`. -/
def sortedSet (ids : List Int) : List Int :=
  ids.dedup.insertionSort (· ≤ ·)

/-- The account ids a query may read under a grant. -/
def clampedIds (current : Option (List Int)) (allowed : List Int) : List Int :=
  let clamped :=
    match current with
    | none | some [] => sortedSet allowed
    | some ids => sortedSet (ids.filter (· ∈ allowed))
  if clamped = [] then [noAccountSentinel] else clamped

/-- `_clamp_account_ids_to_acl`; without a grant the query is left alone. -/
def clampAccountIdsToAcl (parsed : ParsedQuery) (allowed : Option (List Int)) :
    ParsedQuery :=
  match allowed with
  | none => parsed
  | some allowed =>
      { parsed with
        filters :=
          { parsed.filters with
            accountIds := some (clampedIds parsed.filters.accountIds allowed) } }

/-- `_resolve_account_names`; names that resolve to nothing match nothing. -/
def resolveAccountNames (accountNamed : Text → Option Nat)
    (parsed : ParsedQuery) : ParsedQuery :=
  if parsed.filters.accountNames = [] then parsed
  else
    let ids := (parsed.filters.accountNames.dedup.filterMap accountNamed).map
      Int.ofNat
    { parsed with
      filters :=
        { parsed.filters with
          accounts := some (if ids = [] then [noAccountSentinel] else ids) } }

/-! ### Retrieval -/

inductive Arm where
  | bm25Messages
  | bm25Chunks
  | vectorChunks
  | vectorAttachmentChunks
deriving Repr, DecidableEq

def Arm.lexical : Arm → Bool
  | .bm25Messages | .bm25Chunks => true
  | .vectorChunks | .vectorAttachmentChunks => false

def Arm.chunkTable : Arm → ChunkTable
  | .bm25Messages => .message
  | .bm25Chunks | .vectorChunks => .messageChunks
  | .vectorAttachmentChunks => .attachmentChunks

def allArms : List Arm :=
  [.bm25Messages, .bm25Chunks, .vectorChunks, .vectorAttachmentChunks]

/-- What the outside world answers the statements of one retrieval. -/
structure Answers (σ : Type v) where
  accountNamed : Text → Option Nat
  /-- A clause other than an account clause, on a message. -/
  holds : FilterClause → Nat → Bool
  /-- The lexical match of the date walk. -/
  matchesText : ParsedQuery → Nat → Bool
  /-- The message and chunk of each row an arm ranks, best first. -/
  armRows : Arm → ParsedQuery → Nat → List (Nat × Option Nat)
  sortDates : Nat → Option Int
  /-- The dates of a message that is still there. -/
  dates : Nat → Option (Option Int × Option Int)
  rerank : Option (Nat → σ)
  /-- `messages` with their accounts, for the two statements of the walk. -/
  dated : Snapshot Nat
  undated : Snapshot Nat
  rewrite : Text → Option RewriteResult

section Retrieve

variable {σ : Type v} (rules : TextRules) (accountOf : Nat → Nat)

/-- One arm: its rows within the clauses, at most `limit` of them. -/
def armHits (answers : Answers σ) (parsed : ParsedQuery) (limit : Nat)
    (arm : Arm) : List ArmHit :=
  if arm.lexical && (strip parsed.freeText).isEmpty then []
  else
    (((answers.armRows arm parsed limit).filter fun row =>
      whereHolds answers.holds (accountOf row.1) row.1
        (messageWhere rules parsed)).take limit).mapIdx fun index row =>
          ⟨row.1, row.2, arm.chunkTable, index + 1⟩

/-- The retrieval of the ranked path.  The account of a message never
changes. -/
def Answers.retrieval (answers : Answers σ) : Retrieval ParsedQuery σ where
  resolve := resolveAccountNames answers.accountNamed
  arms := fun parsed limit => allArms.map (armHits rules accountOf answers parsed limit)
  sortDates := answers.sortDates
  messages := fun id => (answers.dates id).map fun dates =>
    ⟨accountOf id, dates.1, dates.2⟩
  rerank := answers.rerank

/-- The walk query of `_date_keyset_search`. -/
def walkQuery (answers : Answers σ) (parsed : ParsedQuery) (pageSize : Nat)
    (order : SortOrder) : WalkQuery Nat where
  pageSize := pageSize
  order := order
  walk := walkForText parsed.freeText
  matching := fun row =>
    (walkForText parsed.freeText = .archive || answers.matchesText parsed row.id) &&
      whereHolds answers.holds row.header row.id (messageWhere rules parsed)

end Retrieve

/-! ### One call -/

/-- The `SearchConfig` fields a search reads. -/
structure SearchConfig (σ : Type v) extends RankConfig σ where
  pageSizeDefault : Nat
  pageSizeMax : Nat
  candidatesPerArm : Nat
  rerankPoolSize : Nat
  rewriterMaxExpansionTerms : Nat
  smartAvailable : Bool

/-- A cached pool with the direction it was built for. -/
structure CachedPool (σ : Type v) where
  entry : PoolEntry ParsedQuery σ
  order : SortOrder

/-- A page with what it was served from. -/
structure Found (σ : Type v) where
  page : SearchPage σ
  token : Option Text
  nextKeyset : Option KeysetCursor
  sortApplied : SortMode
  rankable : Bool

/-- The arguments of one `run_search` call. -/
structure SearchCall where
  freeText : Text
  filters : FilterDict
  limit : Nat
  allowed : List Int
  userId : Nat
  sort : Option SortMode
  order : Option SortOrder
  cursor : Option Text
  smart : Bool

/-- What a cursor string of the response encodes. -/
inductive NextCursor where
  | keyset (cursor : KeysetCursor)
  | pool (cursor : SearchCursor)
deriving Repr, DecidableEq

structure SearchResponse (σ : Type v) where
  results : List (SearchResult σ)
  nextCursor : Option NextCursor
  sortApplied : SortMode
  rankable : Bool

section Call

variable {σ : Type v} [LinearOrder σ] [Add σ] [Zero σ]
variable (rules : TextRules) (cursors : CursorRules) (accountOf : Nat → Nat)
  (config : SearchConfig σ)

/-- What the searcher refuses about its arguments once the query is parsed. -/
def searchRefusal (parsed : ParsedQuery) (sort : Option SortMode)
    (order : Option SortOrder) (keyset : Option KeysetCursor) :
    Option Refusal :=
  let effectiveOrder := (keyset.map KeysetCursor.order).getD
    (order.getD defaultSortOrder)
  let effectiveSort := resolveSort sort parsed.freeText
  (keyset.bind fun cursor => keysetWalkError cursor.walk parsed.freeText) <|>
    sortApplicabilityError sort parsed.freeText <|>
    sortOrderApplicabilityError effectiveSort effectiveOrder false <|>
    if effectiveSort ≠ .date ∧ keyset.isSome then some .cursorNeedsDateSort
    else none

/-- The parsed query as retrieval reads it: rewritten, then clamped, then its
account names resolved. -/
def retrievalQuery (answers : Answers σ) (parsed : ParsedQuery) (smart : Bool)
    (allowed : Option (List Int)) : ParsedQuery :=
  let rewritten :=
    if smart ∧ strip parsed.freeText ≠ [] then
      match answers.rewrite parsed.freeText with
      | some result =>
          applyRewrite parsed result config.rewriterMaxExpansionTerms
      | none => parsed
    else parsed
  resolveAccountNames answers.accountNamed
    (clampAccountIdsToAcl rewritten allowed)

def toDateResult (row : DatedRow Nat) (rank : Nat) : SearchResult σ where
  messageId := row.id
  accountId := row.header
  rank := rank
  score := config.reciprocal rank
  rrfScore := 0
  matchedChunkId := none
  matchedChunkTable := .message

/-- The date branch of `search`. -/
def dateFound (answers : Answers σ) (parsed : ParsedQuery) (pageSize : Nat)
    (order : SortOrder) (keyset : Option KeysetCursor) : Found σ :=
  let page := dateKeysetSearch (walkQuery rules answers parsed pageSize order)
    keyset order answers.dated answers.undated
  let results := page.rows.mapIdx fun index row =>
    toDateResult config row (index + 1)
  { page :=
      { results := results
        page := 1
        pageSize := pageSize
        poolSize := results.length
        candidatesPerArm := config.candidatesPerArm
        hasMoreInPool := page.next.isSome
        canGrowPool := false }
    token := none
    nextKeyset := page.next
    sortApplied := .date
    rankable := isRankable parsed.freeText }

/-- The pool a fresh ranked search caches. -/
def searchPool (answers : Answers σ) (parsed : ParsedQuery) (pageSize : Nat)
    (userId : Option Nat) (order : SortOrder) : CachedPool σ where
  entry := freshPool config.toRankConfig (answers.retrieval rules accountOf)
    parsed config.candidatesPerArm config.rerankPoolSize pageSize userId
  order := order

/-- `Searcher.search`: the page, and the pool to cache under `token` if the
ranked branch answered. -/
def searcherSearch (answers : Answers σ) (query : Text) (pageSize : Nat)
    (userId : Option Nat) (sort : Option SortMode) (order : Option SortOrder)
    (keyset : Option KeysetCursor) (smart : Bool)
    (allowed : Option (List Int)) (token : Text) :
    Except Refusal (Found σ × Option (CachedPool σ)) :=
  match keyset.bind fun cursor => orderMismatch order cursor.order,
      parseQuery rules query with
  | some refusal, _ => .error refusal
  | none, .error error => .error (.query error)
  | none, .ok parsed =>
      match searchRefusal parsed sort order keyset with
      | some refusal => .error refusal
      | none =>
          let effectiveOrder := (keyset.map KeysetCursor.order).getD
            (order.getD defaultSortOrder)
          let size := min (if pageSize = 0 then config.pageSizeDefault
            else pageSize) config.pageSizeMax
          let parsed := retrievalQuery config answers parsed smart allowed
          match resolveSort sort parsed.freeText with
          | .date =>
              .ok (dateFound rules config answers parsed size effectiveOrder
                keyset, none)
          | .rank =>
              let pool := searchPool rules accountOf config answers parsed size
                userId effectiveOrder
              .ok (⟨pageAnswer pool.entry 1, some token, none, .rank,
                isRankable parsed.freeText⟩, some pool)

/-- `_scope_filters_by_acl`; `none` grants nothing. -/
def scopeFiltersByAcl (filters : FilterDict) (allowed : List Int) :
    Except ApiError (Option FilterDict) :=
  let withIds := fun ids : List Int =>
    (text "account_ids", JsonValue.list
      (ids.map fun id => .text (intText id)) []) ::
      filters.filter fun entry => entry.1 ≠ text "account_ids"
  if allowed = [] then .ok none
  else
    match truthyFilter filters "account_ids" with
    | none => .ok (some (withIds (allowed.insertionSort (· ≤ ·))))
    | some value => do
        let ids ← idFilter value "account_id"
        let kept := sortedSet ((ids.map Int.ofNat).filter (· ∈ allowed))
        .ok (if kept = [] then none else some (withIds kept))

/-- `_check_pool_sort`: a stated ordering the pool cannot serve. -/
def checkPoolSort (pool : Option (CachedPool σ)) (cursor : SearchCursor)
    (statedSort : Option SortMode) (statedOrder : Option SortOrder) :
    Except ApiError Unit :=
  if statedSort = none ∧ statedOrder = none then .ok ()
  else
    match pool with
    | none => .error (.searchCursorExpired cursor.token)
    | some pool => do
        refuseIf (sortMismatch statedSort pool.entry.sort)
        refuseIf (orderMismatch statedOrder pool.order)

/-- `_next_cursor`. -/
def nextCursorOf (found : Found σ) : Option NextCursor :=
  match found.nextKeyset with
  | some cursor => some (.keyset cursor)
  | none =>
      match found.token with
      | none => none
      | some token =>
          (nextCursor config.toRankConfig found.page).map fun page =>
            .pool ⟨token, page⟩

def toResponse (found : Found σ) : SearchResponse σ where
  results := found.page.results
  nextCursor := nextCursorOf config found
  sortApplied := found.sortApplied
  rankable := found.rankable

/-- The empty page of a call that is granted nothing. -/
def emptyResponse (plan : CursorPlan) (freeText : Text) :
    SearchResponse σ where
  results := []
  nextCursor := none
  sortApplied :=
    match plan with
    | .fresh sort _ => resolveSort (some sort) freeText
    | .keyset _ => resolveSort (some textlessSort) freeText
    | .pool _ statedSort _ => resolveSort statedSort freeText
  rankable := isRankable freeText

end Call

/-! ### Calls against the cache -/

/-- The cache, and what every call so far was granted and returned. -/
structure SearchState (σ : Type v) where
  cache : Text → Option (CachedPool σ)
  served : List (SearchCall × List (SearchResult σ))

def SearchState.empty {σ : Type v} : SearchState σ := ⟨fun _ => none, []⟩

def SearchState.put {σ : Type v} (state : SearchState σ) (token : Text)
    (pool : Option (CachedPool σ)) : SearchState σ :=
  { state with cache := Function.update state.cache token pool }

/-- A call, what the world answers each retrieval of it, and the token a fresh
pool would get; or the cache dropping a pool. -/
inductive SearchEvent (σ : Type v) where
  | call (args : SearchCall) (answers : Nat → Answers σ) (token : Text)
  | evict (token : Text)

section Run

variable {σ : Type v} [LinearOrder σ] [Add σ] [Zero σ]
variable (rules : TextRules) (cursors : CursorRules) (accountOf : Nat → Nat)
  (config : SearchConfig σ)

/-- What the gate reads: the free text and the plan. -/
def searchGate (args : SearchCall) : Except ApiError (Text × CursorPlan) := do
  let query ← buildQueryString rules args.freeText args.filters
  let parsed ← gateQuery rules query
  let plan ← resolveCursorPlan cursors args.cursor args.sort args.order
    parsed.freeText
  .ok (parsed.freeText, plan)

/-- The fresh and keyset branches: a search of the scoped composition. -/
def runScoped (state : SearchState σ) (args : SearchCall)
    (answers : Nat → Answers σ) (token : Text) (scopedFilters : FilterDict)
    (sort : Option SortMode) (order : Option SortOrder)
    (keyset : Option KeysetCursor) (smart : Bool) :
    Except ApiError (SearchResponse σ) × SearchState σ :=
  match buildQueryString rules args.freeText scopedFilters with
  | .error error => (.error error, state)
  | .ok query =>
      match searcherSearch rules accountOf config (answers 0) query args.limit
          (some args.userId) sort order keyset smart (some args.allowed)
          token with
      | .error refusal => (.error (.validationFailed refusal), state)
      | .ok (found, none) => (.ok (toResponse config found), state)
      | .ok (found, some pool) =>
          (.ok (toResponse config found), state.put token (some pool))

/-- The cached pool a user's token reads; another user's pool is a miss. -/
def SearchState.poolFor (state : SearchState σ) (token : Text) (userId : Nat) :
    Option (CachedPool σ) :=
  (state.cache token).filter fun pool => pool.entry.userId = some userId

/-- A miss is an expired cursor; nothing maps a page outside the pool. -/
def poolError (token : Text) : PoolError → ApiError
  | .cacheMiss => .searchCursorExpired token
  | .pageOutOfPool => .unhandled

/-- The pool branch. -/
def runPool (state : SearchState σ) (args : SearchCall)
    (answers : Nat → Answers σ) (cursor : SearchCursor)
    (statedSort : Option SortMode) (statedOrder : Option SortOrder) :
    Except ApiError (SearchResponse σ) × SearchState σ :=
  let pool := state.poolFor cursor.token args.userId
  match checkPoolSort pool cursor statedSort statedOrder, pool with
  | .error error, _ => (.error error, state)
  | .ok (), none => (.error (.searchCursorExpired cursor.token), state)
  | .ok (), some pool =>
      match continueOrGrow config.toRankConfig
          (fun index => (answers index).retrieval rules accountOf)
          (some args.userId) cursor.page pool.entry with
      | none => (.error .unhandled, state)
      | some ⟨.error raised, entry, _⟩ =>
          (.error (poolError cursor.token raised),
            state.put cursor.token (some { pool with entry := entry }))
      | some ⟨.ok page, entry, _⟩ =>
          (.ok (toResponse config ⟨page, some cursor.token, none,
              pool.entry.sort, isRankable pool.entry.parsed.freeText⟩),
            state.put cursor.token (some { pool with entry := entry }))

/-- `run_search`. -/
def runSearch (state : SearchState σ) (args : SearchCall)
    (answers : Nat → Answers σ) (token : Text) :
    Except ApiError (SearchResponse σ) × SearchState σ :=
  match searchGate rules cursors args with
  | .error error => (.error error, state)
  | .ok (freeText, plan) =>
      match scopeFiltersByAcl args.filters args.allowed with
      | .error error => (.error error, state)
      | .ok none => (.ok (emptyResponse plan freeText), state)
      | .ok (some scopedFilters) =>
          match plan with
          | .fresh _ _ =>
              runScoped rules accountOf config state args answers token
                scopedFilters args.sort args.order none (args.smart && config.smartAvailable)
          | .keyset cursor =>
              runScoped rules accountOf config state args answers token
                scopedFilters (some textlessSort) (some cursor.order) (some cursor) false
          | .pool cursor statedSort statedOrder =>
              runPool rules accountOf config state args answers cursor
                statedSort statedOrder

/-- A call leaves its hits on record; a failed one returned none. -/
def searchStep (state : SearchState σ) :
    SearchEvent σ → Option (SearchState σ)
  | .evict token => some (state.put token none)
  | .call args answers token =>
      match runSearch rules cursors accountOf config state args answers token with
      | (.ok response, next) =>
          some { next with served := (args, response.results) :: next.served }
      | (.error _, next) => some next

end Run

end Localmail
