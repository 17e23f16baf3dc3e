/-
Every hit lies within the grant of the call that returns it.  A search clamps
its query to the grant, and the clamp becomes a clause of every statement it
runs; a cached pool keeps the clamp it was built with.  A page served from it
is therefore within the grant of the call only as long as that clamp is.
-/
import Localmail.DateWalkOnce
import Localmail.RunSearch

namespace Localmail

universe v

/-! ### The clamp as a clause -/

theorem mem_of_whereHolds {holds : FilterClause → Nat → Bool}
    {accountId messageId : Nat} {clauses : List FilterClause} {ids : List Int}
    (hclause : .accountAny ids ∈ clauses)
    (hholds : whereHolds holds accountId messageId clauses = true) :
    (accountId : Int) ∈ ids := by
  unfold whereHolds at hholds
  simpa using List.all_eq_true.mp hholds _ hclause

theorem accountAny_mem_messageWhere (rules : TextRules) {parsed : ParsedQuery}
    {ids : List Int} (hids : parsed.filters.accountIds = some ids)
    (hnonempty : ids ≠ []) :
    .accountAny ids ∈ messageWhere rules parsed := by
  have hclause : listClause .accountAny parsed.filters.accountIds =
      [.accountAny ids] := by
    rw [hids]
    cases ids with
    | nil => exact absurd rfl hnonempty
    | cons _ _ => rfl
  simp [messageWhere, filterSql, hclause]

theorem mem_sortedSet {ids : List Int} {id : Int} :
    id ∈ sortedSet ids ↔ id ∈ ids := by
  simp [sortedSet]

theorem clampedIds_nonempty (current : Option (List Int)) (allowed : List Int) :
    clampedIds current allowed ≠ [] := by
  unfold clampedIds
  dsimp only
  split
  all_goals
    split
    · simp
    · assumption

/-- What the clamp leaves, apart from the sentinel, is granted. -/
theorem mem_allowed_of_mem_clampedIds {current : Option (List Int)}
    {allowed : List Int} {accountId : Nat}
    (hmem : (accountId : Int) ∈ clampedIds current allowed) :
    (accountId : Int) ∈ allowed := by
  unfold clampedIds at hmem
  dsimp only at hmem
  -- The sentinel is negative, so it is no account id.
  have hkept : ∀ clamped : List Int,
      (accountId : Int) ∈ (if clamped = [] then [noAccountSentinel]
        else clamped) → (accountId : Int) ∈ clamped := by
    intro clamped hclamped
    split at hclamped
    · simp [noAccountSentinel] at hclamped
    · exact hclamped
  split at hmem
  · exact mem_sortedSet.mp (hkept _ hmem)
  · exact mem_sortedSet.mp (hkept _ hmem)
  · have hfilter := mem_sortedSet.mp (hkept _ hmem)
    exact of_decide_eq_true (List.mem_filter.mp hfilter).2

@[simp] theorem resolveAccountNames_accountIds
    (accountNamed : Text → Option Nat) (parsed : ParsedQuery) :
    (resolveAccountNames accountNamed parsed).filters.accountIds =
      parsed.filters.accountIds := by
  unfold resolveAccountNames
  split <;> rfl

section Retrieval

variable {σ : Type v} [LinearOrder σ] [Add σ]
variable {rules : TextRules} {accountOf : Nat → Nat} {config : SearchConfig σ}

omit [LinearOrder σ] [Add σ] in
theorem retrievalQuery_accountIds (answers : Answers σ) (parsed : ParsedQuery)
    (smart : Bool) (allowed : List Int) :
    ∃ current, (retrievalQuery config answers parsed smart
        (some allowed)).filters.accountIds =
      some (clampedIds current allowed) := by
  unfold retrievalQuery
  simp only [resolveAccountNames_accountIds, clampAccountIdsToAcl]
  exact ⟨_, rfl⟩

omit [LinearOrder σ] [Add σ] in
theorem armHits_account {answers : Answers σ} {parsed : ParsedQuery}
    {limit : Nat} {arm : Arm} {ids : List Int}
    (hids : parsed.filters.accountIds = some ids) (hnonempty : ids ≠ []) :
    ∀ hit ∈ armHits rules accountOf answers parsed limit arm,
      (accountOf hit.messageId : Int) ∈ ids := by
  intro hit hhit
  unfold armHits at hhit
  split at hhit
  · simp at hhit
  · obtain ⟨index, hindex, rfl⟩ := List.mem_mapIdx.mp hhit
    have hrow := List.mem_filter.mp
      (List.mem_of_mem_take (List.getElem_mem hindex))
    exact mem_of_whereHolds (accountAny_mem_messageWhere rules hids hnonempty)
      hrow.2

/-- The pool was retrieved under a non-empty account clause, and holds nothing
outside it. -/
structure PoolScoped (ids : List Int) (entry : PoolEntry ParsedQuery σ) :
    Prop where
  scope : entry.parsed.filters.accountIds = some ids
  nonempty : ids ≠ []
  within : ∀ item ∈ entry.hydrated, (item.msg.accountId : Int) ∈ ids

theorem hydrated_account {answers : Answers σ} {parsed : ParsedQuery}
    {candidates poolSize : Nat} {exclude : List Nat} {ids : List Int}
    (hids : parsed.filters.accountIds = some ids) (hnonempty : ids ≠ []) :
    ∀ item ∈ hydrate (answers.retrieval rules accountOf).messages
        (retrievePool config.toRankConfig (answers.retrieval rules accountOf)
          parsed candidates poolSize exclude),
      (item.msg.accountId : Int) ∈ ids := by
  intro item hitem
  obtain ⟨hfused, hmessage⟩ := mem_hydrate.mp hitem
  have haccount : item.msg.accountId = accountOf item.fused.messageId := by
    simp only [Answers.retrieval, Option.map_eq_some_iff] at hmessage
    obtain ⟨dates, -, hmsg⟩ := hmessage
    rw [← hmsg]
  have hfuse := (List.mem_filter.mp (mem_of_mem_cutPool hfused)).1
  have harms : ∀ arm ∈ (answers.retrieval rules accountOf).arms parsed candidates,
      ∀ hit ∈ arm, (accountOf hit.messageId : Int) ∈ ids := by
    intro arm harm hit hhit
    obtain ⟨kind, -, rfl⟩ := List.mem_map.mp harm
    exact armHits_account hids hnonempty hit hhit
  rw [haccount]
  exact rrfFuse_forall (fun id => (accountOf id : Int) ∈ ids)
    config.toRankConfig harms _ hfuse

theorem PoolScoped.grownPool {ids : List Int}
    {entry : PoolEntry ParsedQuery σ} (hscoped : PoolScoped ids entry)
    (answers : Answers σ) (candidates page : Nat) :
    PoolScoped ids (grownPool config.toRankConfig
      (answers.retrieval rules accountOf) entry candidates page) := by
  have hids : (resolveAccountNames answers.accountNamed
      entry.parsed).filters.accountIds = some ids := by
    rw [resolveAccountNames_accountIds, hscoped.scope]
  exact ⟨hids, hscoped.nonempty, hydrated_account hids hscoped.nonempty⟩

omit [Add σ] in
/-- A page holds rows of its pool. -/
theorem PoolScoped.page {ids : List Int} {entry : PoolEntry ParsedQuery σ}
    (hscoped : PoolScoped ids entry) (page : Nat) :
    ∀ hit ∈ (pageAnswer entry page).results, (hit.accountId : Int) ∈ ids := by
  intro hit hhit
  obtain ⟨index, hindex, rfl⟩ := List.mem_mapIdx.mp hhit
  have hrow := List.mem_of_mem_drop
    (List.mem_of_mem_take (List.getElem_mem hindex))
  have hordered : entry.ordered.Perm (entry.hydrated.zip entry.scores) := by
    unfold PoolEntry.ordered orderedPool
    split
    · exact List.perm_insertionSort _ _
    · exact List.perm_insertionSort _ _
  exact hscoped.within _ (List.of_mem_zip (hordered.mem_iff.mp hrow)).1

omit [Add σ] in
theorem PoolScoped.continuePage {ids : List Int}
    {entry : PoolEntry ParsedQuery σ} (hscoped : PoolScoped ids entry)
    {userId : Option Nat} {page : Nat} {answer : SearchPage σ}
    (hanswer : continuePage entry userId page = .ok answer) :
    ∀ hit ∈ answer.results, (hit.accountId : Int) ∈ ids := by
  unfold Localmail.continuePage at hanswer
  split at hanswer
  · cases hanswer
  · split at hanswer
    · cases hanswer
    · split at hanswer
      · cases hanswer
      · cases hanswer
        exact hscoped.page page

/-- The pool left behind is scoped, and so is every hit answered. -/
structure OutcomeScoped (ids : List Int)
    (outcome : PoolOutcome ParsedQuery σ) : Prop where
  entry : PoolScoped ids outcome.entry
  answer : ∀ page, outcome.answer = .ok page →
    ∀ hit ∈ page.results, (hit.accountId : Int) ∈ ids

theorem growLoop_scoped {ids : List Int} {userId : Option Nat} {page : Nat}
    (answers : Nat → Answers σ) (fuel index : Nat)
    {entry : PoolEntry ParsedQuery σ} {outcome : PoolOutcome ParsedQuery σ}
    (hscoped : PoolScoped ids entry)
    (houtcome : growLoop config.toRankConfig
      (fun index => (answers index).retrieval rules accountOf) userId page fuel
      index entry = some outcome) :
    OutcomeScoped ids outcome := by
  induction fuel generalizing index entry outcome with
  | zero => simp [growLoop] at houtcome
  | succ fuel ih =>
      have hgrown : PoolScoped ids (Localmail.grownPool config.toRankConfig
          ((answers index).retrieval rules accountOf) entry
          (min (entry.candidatesPerArm * 2) config.candidatesPerArmMax) page) :=
        hscoped.grownPool (answers index) _ page
      unfold growLoop at houtcome
      split at houtcome
      · obtain rfl := Option.some.inj houtcome
        refine ⟨hscoped, ?_⟩
        rintro _ ⟨⟩
        simp [emptyGrownPage]
      · split at houtcome
        · obtain rfl := Option.some.inj houtcome
          exact ⟨hscoped, by rintro _ ⟨⟩⟩
        · dsimp only at houtcome
          split at houtcome
          · obtain rfl := Option.some.inj houtcome
            exact ⟨hgrown, by rintro _ ⟨⟩⟩
          · rename_i answer hanswer
            split at houtcome
            · obtain rfl := Option.some.inj houtcome
              refine ⟨hgrown, ?_⟩
              rintro _ ⟨⟩
              exact hgrown.continuePage hanswer
            · obtain ⟨rest, hrest, rfl⟩ := Option.map_eq_some_iff.mp houtcome
              have hinner := ih (index + 1) hgrown hrest
              exact ⟨hinner.entry, hinner.answer⟩

theorem continueOrGrow_scoped {ids : List Int} {userId : Option Nat}
    {page : Nat} (answers : Nat → Answers σ)
    {entry : PoolEntry ParsedQuery σ} {outcome : PoolOutcome ParsedQuery σ}
    (hscoped : PoolScoped ids entry)
    (houtcome : continueOrGrow config.toRankConfig
      (fun index => (answers index).retrieval rules accountOf) userId page
      entry = some outcome) :
    OutcomeScoped ids outcome := by
  unfold continueOrGrow at houtcome
  split at houtcome
  · rename_i answer hanswer
    obtain rfl := Option.some.inj houtcome
    refine ⟨hscoped, ?_⟩
    rintro _ ⟨⟩
    exact hscoped.continuePage hanswer
  · obtain rfl := Option.some.inj houtcome
    exact ⟨hscoped, by rintro _ ⟨⟩⟩
  · exact growLoop_scoped answers _ 0 hscoped houtcome

end Retrieval

/-! ### Calls -/

section Run

variable {σ : Type v} [LinearOrder σ] [Add σ] [Zero σ]
variable {rules : TextRules} {cursors : CursorRules} {accountOf : Nat → Nat}
  {config : SearchConfig σ}

theorem searcherSearch_scoped {answers : Answers σ} {query token : Text}
    {pageSize : Nat} {userId : Option Nat} {sort : Option SortMode}
    {order : Option SortOrder} {keyset : Option KeysetCursor} {smart : Bool}
    {allowed : List Int} {found : Found σ} {pool : Option (CachedPool σ)}
    (hsearch : searcherSearch rules accountOf config answers query pageSize
      userId sort order keyset smart (some allowed) token = .ok (found, pool)) :
    (∀ hit ∈ found.page.results, (hit.accountId : Int) ∈ allowed) ∧
      ∀ cached ∈ pool, ∃ ids, PoolScoped ids cached.entry := by
  unfold searcherSearch at hsearch
  split at hsearch
  · cases hsearch
  · cases hsearch
  · rename_i parsed _ _
    split at hsearch
    · cases hsearch
    · obtain ⟨current, hids⟩ := retrievalQuery_accountIds
        (σ := σ) answers parsed smart allowed
      have hnonempty := clampedIds_nonempty current allowed
      dsimp only at hsearch
      split at hsearch
      · obtain ⟨rfl, rfl⟩ := Prod.mk.inj (Except.ok.inj hsearch)
        refine ⟨?_, by simp⟩
        intro hit hhit
        obtain ⟨index, hindex, rfl⟩ := List.mem_mapIdx.mp hhit
        obtain ⟨-, -, -, hmatching⟩ :=
          exists_snapshot_of_served (List.getElem_mem hindex)
        have hwhere := (Bool.and_eq_true_iff.mp hmatching).2
        exact mem_allowed_of_mem_clampedIds (mem_of_whereHolds
          (accountAny_mem_messageWhere rules hids hnonempty) hwhere)
      · obtain ⟨rfl, rfl⟩ := Prod.mk.inj (Except.ok.inj hsearch)
        have hpool : PoolScoped (clampedIds current allowed)
            (freshPool config.toRankConfig (answers.retrieval rules accountOf)
              (retrievalQuery config answers parsed smart (some allowed))
              config.candidatesPerArm config.rerankPoolSize
              (min (if pageSize = 0 then config.pageSizeDefault else pageSize)
                config.pageSizeMax) userId) :=
          ⟨hids, hnonempty, hydrated_account hids hnonempty⟩
        refine ⟨?_, ?_⟩
        · intro hit hhit
          exact mem_allowed_of_mem_clampedIds (hpool.page 1 hit hhit)
        · rintro _ ⟨⟩
          exact ⟨_, hpool⟩

/-- Every cached pool is scoped. -/
def CacheScoped (state : SearchState σ) : Prop :=
  ∀ token pool, state.cache token = some pool →
    ∃ ids, PoolScoped ids pool.entry

/-- Every hit of every call so far is in an account that call was granted. -/
def WithinGrants (state : SearchState σ) : Prop :=
  ∀ answer ∈ state.served, ∀ hit ∈ answer.2,
    (hit.accountId : Int) ∈ answer.1.allowed

omit [LinearOrder σ] [Add σ] [Zero σ] in
theorem CacheScoped.put {state : SearchState σ} (hcache : CacheScoped state)
    (token : Text) {pool : Option (CachedPool σ)}
    (hpool : ∀ cached ∈ pool, ∃ ids, PoolScoped ids cached.entry) :
    CacheScoped (state.put token pool) := by
  intro other cached hcached
  simp only [SearchState.put, Function.update_apply] at hcached
  split at hcached
  · exact hpool cached hcached
  · exact hcache other cached hcached

/-- What one call leaves: a scoped cache, the record untouched, and no hit
outside its grant. -/
structure CallWithinGrant (state : SearchState σ) (args : SearchCall)
    (outcome : Except ApiError (SearchResponse σ) × SearchState σ) : Prop where
  cache : CacheScoped outcome.2
  served : outcome.2.served = state.served
  hits : ∀ response, outcome.1 = .ok response →
    ∀ hit ∈ response.results, (hit.accountId : Int) ∈ args.allowed

omit [LinearOrder σ] [Add σ] [Zero σ] in
theorem CallWithinGrant.of_error {state : SearchState σ} {args : SearchCall}
    (hcache : CacheScoped state) (error : ApiError) :
    CallWithinGrant state args (.error error, state) :=
  ⟨hcache, rfl, by rintro _ ⟨⟩⟩

theorem runScoped_within {state : SearchState σ} {args : SearchCall}
    {answers : Nat → Answers σ} {token : Text} {scopedFilters : FilterDict}
    {sort : Option SortMode} {order : Option SortOrder}
    {keyset : Option KeysetCursor} {smart : Bool} (hcache : CacheScoped state) :
    CallWithinGrant state args (runScoped rules accountOf config state args
      answers token scopedFilters sort order keyset smart) := by
  unfold runScoped
  split
  · exact .of_error hcache _
  · split
    · exact .of_error hcache _
    · rename_i found hsearch
      refine ⟨hcache, rfl, ?_⟩
      rintro _ ⟨⟩
      exact (searcherSearch_scoped hsearch).1
    · rename_i found pool hsearch
      refine ⟨hcache.put token (searcherSearch_scoped hsearch).2, rfl, ?_⟩
      rintro _ ⟨⟩
      exact (searcherSearch_scoped hsearch).1

/-- The account clause of a cached pool. -/
def CachedPool.scope (pool : CachedPool σ) : List Int :=
  pool.entry.parsed.filters.accountIds.getD []

/-- The cached pool that the cursor of a call reads, if it is a pool cursor
and the user's own. -/
def SearchState.cursorPool (cursors : CursorRules) (state : SearchState σ)
    (args : SearchCall) : Option (CachedPool σ) :=
  match args.cursor with
  | none => none
  | some raw =>
      match decodeKeysetCursor cursors raw, decodeSearchCursor raw with
      | none, .ok cursor => state.poolFor cursor.token args.userId
      | _, _ => none

/-- The call is answered empty before any search. -/
def SearchCall.grantsNothing (args : SearchCall) : Bool :=
  match scopeFiltersByAcl args.filters args.allowed with
  | .ok none => true
  | _ => false

/-- The accounts the pool behind the cursor was clamped to are still
granted. -/
def GrantCoversPool (cursors : CursorRules) (state : SearchState σ) :
    SearchEvent σ → Prop
  | .evict _ => True
  | .call args _ _ =>
      args.grantsNothing = true ∨
        ∀ pool ∈ state.cursorPool cursors args, ∀ account ∈ pool.scope,
          0 ≤ account → account ∈ args.allowed

instance (cursors : CursorRules) (state : SearchState σ)
    (event : SearchEvent σ) : Decidable (GrantCoversPool cursors state event) :=
  match event with
  | .evict _ => isTrue trivial
  | .call _ _ _ => inferInstanceAs (Decidable (_ ∨ _))

omit [Zero σ] in
theorem runPool_within {state : SearchState σ} {args : SearchCall}
    {answers : Nat → Answers σ} {cursor : SearchCursor}
    {statedSort : Option SortMode} {statedOrder : Option SortOrder}
    (hcache : CacheScoped state)
    (hcovered : ∀ pool ∈ state.poolFor cursor.token args.userId,
      ∀ account ∈ pool.scope, 0 ≤ account → account ∈ args.allowed) :
    CallWithinGrant state args (runPool rules accountOf config state args
      answers cursor statedSort statedOrder) := by
  unfold runPool
  dsimp only
  split
  · exact .of_error hcache _
  · exact .of_error hcache _
  · rename_i pool _ hpool
    have hcached := (Option.filter_eq_some_iff.mp hpool).1
    obtain ⟨ids, hscoped⟩ := hcache _ _ hcached
    have hgranted : ∀ account : Nat, (account : Int) ∈ ids →
        (account : Int) ∈ args.allowed := by
      intro account haccount
      refine hcovered pool hpool account ?_ (Int.natCast_nonneg account)
      simpa [CachedPool.scope, hscoped.scope] using haccount
    split
    · exact .of_error hcache _
    · rename_i houtcome
      have houtcome := continueOrGrow_scoped answers hscoped houtcome
      refine ⟨hcache.put _ ?_, rfl, by rintro _ ⟨⟩⟩
      rintro _ ⟨⟩
      exact ⟨ids, houtcome.entry⟩
    · rename_i page _ _ houtcome
      have houtcome := continueOrGrow_scoped answers hscoped houtcome
      refine ⟨hcache.put _ ?_, rfl, ?_⟩
      · rintro _ ⟨⟩
        exact ⟨ids, houtcome.entry⟩
      · rintro _ ⟨⟩ hit hhit
        exact hgranted _ (houtcome.answer page rfl hit hhit)

omit [LinearOrder σ] [Add σ] [Zero σ] in
/-- Only a pool cursor makes a pool plan. -/
theorem cursorPool_of_pool_plan {state : SearchState σ} {args : SearchCall}
    {freeText : Text} {cursor : SearchCursor} {statedSort : Option SortMode}
    {statedOrder : Option SortOrder}
    (hgate : searchGate rules cursors args =
      .ok (freeText, .pool cursor statedSort statedOrder)) :
    state.cursorPool cursors args =
      state.poolFor cursor.token args.userId := by
  obtain ⟨_, -, hgate⟩ := exceptBind_eq_ok.mp hgate
  obtain ⟨parsed, -, hgate⟩ := exceptBind_eq_ok.mp hgate
  obtain ⟨plan, hplan, hpair⟩ := exceptBind_eq_ok.mp hgate
  obtain rfl : plan = .pool cursor statedSort statedOrder :=
    congrArg Prod.snd (Except.ok.inj hpair)
  unfold resolveCursorPlan at hplan
  unfold SearchState.cursorPool
  cases hcursor : args.cursor with
  | none =>
      rw [hcursor] at hplan
      obtain ⟨_, -, hplan⟩ := exceptBind_eq_ok.mp hplan
      obtain ⟨_, -, hplan⟩ := exceptBind_eq_ok.mp hplan
      cases hplan
  | some raw =>
      rw [hcursor] at hplan
      dsimp only at hplan ⊢
      cases hkeyset : decodeKeysetCursor cursors raw with
      | some decoding =>
          rw [hkeyset] at hplan
          obtain ⟨keyset, -, hplan⟩ := exceptBind_eq_ok.mp hplan
          obtain ⟨_, -, hplan⟩ := exceptBind_eq_ok.mp hplan
          obtain ⟨_, -, hplan⟩ := exceptBind_eq_ok.mp hplan
          obtain ⟨_, -, hplan⟩ := exceptBind_eq_ok.mp hplan
          cases hplan
      | none =>
          rw [hkeyset] at hplan
          obtain ⟨decoded, hdecoded, hplan⟩ := exceptBind_eq_ok.mp hplan
          obtain ⟨_, -, hplan⟩ := exceptBind_eq_ok.mp hplan
          cases hplan
          rw [hdecoded]

theorem runSearch_within {state : SearchState σ} {args : SearchCall}
    {answers : Nat → Answers σ} {token : Text} (hcache : CacheScoped state)
    (hcovers : GrantCoversPool cursors state (.call args answers token)) :
    CallWithinGrant state args
      (runSearch rules cursors accountOf config state args answers token) := by
  unfold runSearch
  split
  · exact .of_error hcache _
  · rename_i freeText plan hgate
    split
    · exact .of_error hcache _
    · refine ⟨hcache, rfl, ?_⟩
      rintro _ ⟨⟩
      simp [emptyResponse]
    · rename_i hscope
      split
      · exact runScoped_within hcache
      · exact runScoped_within hcache
      · refine runPool_within hcache ?_
        rw [← cursorPool_of_pool_plan hgate]
        refine hcovers.resolve_left ?_
        simp [SearchCall.grantsNothing, hscope]

theorem searchStep_within {state next : SearchState σ}
    {event : SearchEvent σ}
    (hinv : CacheScoped state ∧ WithinGrants state)
    (hcovers : GrantCoversPool cursors state event)
    (hstep : searchStep rules cursors accountOf config state event =
      some next) :
    CacheScoped next ∧ WithinGrants next := by
  cases event with
  | evict token =>
      obtain rfl := Option.some.inj hstep
      exact ⟨hinv.1.put token (by simp), hinv.2⟩
  | call args answers token =>
      have hcall : CallWithinGrant state args (runSearch rules cursors
          accountOf config state args answers token) :=
        runSearch_within hinv.1 hcovers
      simp only [searchStep] at hstep
      split at hstep
      · rename_i response after hrun
        rw [hrun] at hcall
        obtain rfl := Option.some.inj hstep
        refine ⟨hcall.cache, ?_⟩
        intro answer hanswer
        rcases List.mem_cons.mp hanswer with rfl | hold
        · exact hcall.hits response rfl
        · exact hinv.2 answer (hcall.served ▸ hold)
      · rename_i after hrun
        rw [hrun] at hcall
        obtain rfl := Option.some.inj hstep
        refine ⟨hcall.cache, ?_⟩
        intro answer hanswer
        exact hinv.2 answer (hcall.served ▸ hanswer)

/-- In every run of calls by any users, with grants that change from call to
call, in which the pool behind each pool cursor was clamped to accounts that
are still granted, every hit of every call is within that call's grant. -/
theorem search_stays_within_grant (rules : TextRules) (cursors : CursorRules)
    (accountOf : Nat → Nat) (config : SearchConfig σ) {state : SearchState σ}
    (hreach : GuardedReach (searchStep rules cursors accountOf config)
      (GrantCoversPool cursors) SearchState.empty state) :
    ∀ answer ∈ state.served, ∀ hit ∈ answer.2,
      (hit.accountId : Int) ∈ answer.1.allowed := by
  have hstart : CacheScoped (SearchState.empty (σ := σ)) ∧
      WithinGrants (SearchState.empty (σ := σ)) := by
    constructor
    · intro token pool hcached
      cases hcached
    · intro answer hanswer
      cases hanswer
  exact (hreach.invariant hstart fun _ _ _ hinv hcovers hstep =>
    searchStep_within hinv hcovers hstep).2

end Run

namespace SearchGrantWitness

def rules : TextRules where
  lower := lowerAscii
  isAlnum := fun
    | .scalar char => char.isAlphanum
    | .surrogate _ => false
  strptime := fun _ => none

def cursors : CursorRules where
  urlsafeB64Decode := fun _ => none
  fromIsoformat := fun _ => none

def config : SearchConfig Nat where
  rrfK := 60
  reciprocal := fun n => 10000 - n
  candidatesPerArmMax := 8
  pageSizeDefault := 1
  pageSizeMax := 10
  candidatesPerArm := 4
  rerankPoolSize := 4
  rewriterMaxExpansionTerms := 0
  smartAvailable := false

/-- Messages 10 and 11, both of account 1 and both matching. -/
def answers : Answers Nat where
  accountNamed := fun _ => none
  holds := fun _ _ => true
  matchesText := fun _ _ => true
  armRows := fun _ _ _ => [(10, none), (11, none)]
  sortDates := fun _ => some 0
  dates := fun _ => some (some 0, none)
  rerank := none
  dated := ⟨[], List.nodup_nil⟩
  undated := ⟨[], List.nodup_nil⟩
  rewrite := fun _ => none

def call (allowed : List Int) (cursor : Option Text) : SearchEvent Nat :=
  .call ⟨text "invoice", [], 1, allowed, 7, none, none, cursor, false⟩
    (fun _ => answers) (text "f0")

def step : SearchState Nat → SearchEvent Nat → Option (SearchState Nat) :=
  searchStep rules cursors (fun _ => 1) config

end SearchGrantWitness

open SearchGrantWitness in
/-- The second page of a search is asked for after the grant of account 1 was
replaced by one of account 2: the cached pool still answers with account 1. -/
theorem search_serves_revoked_account :
    ∃ final, Reach step SearchState.empty final ∧
      ¬ ∀ answer ∈ final.served, ∀ hit ∈ answer.2,
        (hit.accountId : Int) ∈ answer.1.allowed := by
  obtain ⟨final, hfinal, hoffending⟩ : ∃ final,
      replayGuarded step (fun _ _ => True) SearchState.empty
        [call [1] none, call [2] (some (text "f0:2"))] = some final ∧
      ∃ answer ∈ final.served, answer.1.allowed = [2] ∧
        answer.2.map SearchResult.accountId = [1] := by
    refine ⟨_, rfl, ?_⟩
    decide
  obtain ⟨answer, hanswer, hallowed, hhits⟩ := hoffending
  refine ⟨final, .of_replay _ hfinal, ?_⟩
  intro hwithin
  obtain ⟨hit, hhit, haccount⟩ : ∃ hit ∈ answer.2, hit.accountId = 1 := by
    have hmem : 1 ∈ answer.2.map SearchResult.accountId := by simp [hhits]
    simpa using hmem
  have hgranted := hwithin answer hanswer hit hhit
  rw [hallowed, haccount] at hgranted
  simp at hgranted

open SearchGrantWitness in
/-- A search and its second page under one grant, then an empty grant. -/
theorem search_stays_within_grant_paged :
    ∃ final, replayGuarded step (GrantCoversPool cursors) SearchState.empty
        [call [1] none, call [1] (some (text "f0:2")),
          call [] (some (text "f0:3"))] = some final ∧
      final.served.map (fun answer => answer.2.map SearchResult.accountId) =
        [[], [1], [1]] ∧
      ∀ answer ∈ final.served, ∀ hit ∈ answer.2,
        (hit.accountId : Int) ∈ answer.1.allowed := by
  obtain ⟨final, hfinal, hhits⟩ : ∃ final,
      replayGuarded step (GrantCoversPool cursors) SearchState.empty
        [call [1] none, call [1] (some (text "f0:2")),
          call [] (some (text "f0:3"))] = some final ∧
      final.served.map (fun answer => answer.2.map SearchResult.accountId) =
        [[], [1], [1]] := by
    refine ⟨_, rfl, ?_⟩
    decide
  exact ⟨final, hfinal, hhits,
    search_stays_within_grant rules cursors (fun _ => 1) config
      (.of_replay _ hfinal)⟩

end Localmail
