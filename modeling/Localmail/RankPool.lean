/-
The ranked search path: reciprocal rank fusion of the retrieval arms, the pool
cut, hydration, the cached pool, and the pages and grows served from it.  A
score is any linearly ordered value that can be added; what the arms, the
database and the reranker answer is an argument of each retrieval.
-/
import Mathlib.Data.Int.ConditionallyCompleteOrder
import Mathlib.Data.Prod.Lex
import Mathlib.Order.ConditionallyCompleteLattice.Basic
import Mathlib.Order.WithBot
import Localmail.KeysetWalk

namespace Localmail

universe u v

inductive ChunkTable where
  | message
  | messageChunks
  | attachmentChunks
deriving Repr, DecidableEq

/-- One hit from one retrieval arm, `rank` counting from one. -/
structure ArmHit where
  messageId : Nat
  chunkId : Option Nat
  chunkTable : ChunkTable
  rank : Nat
deriving Repr, DecidableEq

/-- Post-RRF hit, one per message. -/
structure FusedHit (σ : Type v) where
  messageId : Nat
  bestChunkId : Option Nat
  bestChunkTable : ChunkTable
  rrfScore : σ
  contributingArms : List Nat
deriving Repr, DecidableEq

/-- The columns of `messages` that hydration reads and paging uses. -/
structure MessageInfo where
  accountId : Nat
  internalDate : Option Int
  dateSent : Option Int
deriving Repr, DecidableEq

structure HydratedHit (σ : Type v) where
  fused : FusedHit σ
  msg : MessageInfo
deriving Repr, DecidableEq

inductive SortMode where
  | rank
  | date
deriving Repr, DecidableEq

/-- The `SearchConfig` fields the ranked path reads; `reciprocal n` is the
score `1.0 / n`. -/
structure RankConfig (σ : Type v) where
  rrfK : Nat
  reciprocal : Nat → σ
  candidatesPerArmMax : Nat

/-- What the outside world answers one retrieval: the account names resolved,
the arms for a query at a candidate limit, the sort dates of the pool cut, the
messages still there at hydration, and the score the reranker gives the `i`-th
snippet (`none` without a usable reranker). -/
structure Retrieval (ρ : Type u) (σ : Type v) where
  resolve : ρ → ρ
  arms : ρ → Nat → List (List ArmHit)
  sortDates : Nat → Option Int
  messages : Nat → Option MessageInfo
  rerank : Option (Nat → σ)

/-- `sorted(rows, key=key, reverse=True)`. -/
def sortDescending {α : Type u} {κ : Type v} [LinearOrder κ] (key : α → κ)
    (rows : List α) : List α :=
  rows.insertionSort (NotAfter (· > ·) key)

section Fuse

variable {σ : Type v} [LinearOrder σ] [Add σ]

/-- The aggregation of one message during fusion. -/
structure AggEntry (σ : Type v) where
  messageId : Nat
  score : σ
  arms : List Nat
  chunks : List ((Option Nat × ChunkTable) × σ)

/-- Keep the largest contribution of each chunk.  A contribution is positive,
so a chunk seen for the first time is always entered. -/
def noteChunk (chunks : List ((Option Nat × ChunkTable) × σ))
    (key : Option Nat × ChunkTable) (contrib : σ) :
    List ((Option Nat × ChunkTable) × σ) :=
  if chunks.any fun chunk => chunk.1 = key then
    chunks.map fun chunk =>
      if chunk.1 = key ∧ chunk.2 < contrib then (key, contrib) else chunk
  else chunks ++ [(key, contrib)]

def AggEntry.add (entry : AggEntry σ) (arm : Nat) (hit : ArmHit) (contrib : σ) :
    AggEntry σ where
  messageId := entry.messageId
  score := entry.score + contrib
  arms := if arm ∈ entry.arms then entry.arms else entry.arms ++ [arm]
  chunks := noteChunk entry.chunks (hit.chunkId, hit.chunkTable) contrib

def addHit (config : RankConfig σ) (arm : Nat) (agg : List (AggEntry σ))
    (hit : ArmHit) : List (AggEntry σ) :=
  let contrib := config.reciprocal (config.rrfK + hit.rank)
  if hit.messageId ∈ agg.map AggEntry.messageId then
    agg.map fun entry =>
      if entry.messageId = hit.messageId then entry.add arm hit contrib
      else entry
  else
    agg ++ [⟨hit.messageId, contrib, [arm],
      [((hit.chunkId, hit.chunkTable), contrib)]⟩]

/-- The first chunk of largest contribution; an entry has at least one. -/
def bestChunk (chunks : List ((Option Nat × ChunkTable) × σ)) :
    Option Nat × ChunkTable :=
  match chunks with
  | [] => (none, .message)
  | first :: rest =>
      (rest.foldl (fun best chunk => if best.2 < chunk.2 then chunk else best)
        first).1

def AggEntry.toFused (entry : AggEntry σ) : FusedHit σ where
  messageId := entry.messageId
  bestChunkId := (bestChunk entry.chunks).1
  bestChunkTable := (bestChunk entry.chunks).2
  rrfScore := entry.score
  contributingArms := entry.arms.insertionSort (· ≤ ·)

def aggregate (config : RankConfig σ) (arms : List (List ArmHit)) :
    List (AggEntry σ) :=
  arms.zipIdx.foldl
    (fun agg arm => arm.1.foldl (addHit config arm.2) agg) []

/-- `rrf_fuse`: sorted by descending `(rrf_score, message_id)`. -/
def rrfFuse (config : RankConfig σ) (arms : List (List ArmHit)) :
    List (FusedHit σ) :=
  sortDescending (fun hit => toLex (hit.rrfScore, hit.messageId))
    ((aggregate config arms).map AggEntry.toFused)

end Fuse

section Pool

variable {ρ : Type u} {σ : Type v} [LinearOrder σ]

/-- `relevance_key`, a larger key sorting earlier: the score, then the date
with undated rows lowest, then the id. -/
def relevanceKey (score : σ) (date : Option Int) (messageId : Nat) :
    σ ×ₗ WithBot Int ×ₗ Nat :=
  toLex (score, toLex (date, messageId))

/-- The key of the pool cut. -/
def cutKey (sortDates : Nat → Option Int) (hit : FusedHit σ) :
    σ ×ₗ WithBot Int ×ₗ Nat :=
  relevanceKey hit.rrfScore (sortDates hit.messageId) hit.messageId

def cutPool (sortDates : Nat → Option Int) (fused : List (FusedHit σ))
    (limit : Nat) : List (FusedHit σ) :=
  if fused.length ≤ limit then fused
  else orderLimit (NotAfter (· > ·) (cutKey sortDates)) limit fused

/-- `_hydrate`: a hit whose message no longer exists is dropped. -/
def hydrate (messages : Nat → Option MessageInfo) (fused : List (FusedHit σ)) :
    List (HydratedHit σ) :=
  fused.filterMap fun hit =>
    (messages hit.messageId).map fun msg => ⟨hit, msg⟩

def HydratedHit.msgDate (item : HydratedHit σ) : Option Int :=
  item.msg.internalDate <|> item.msg.dateSent

/-- `_date_sort_key`: an undated row is lowest. -/
def HydratedHit.dateSortKey (item : HydratedHit σ) : WithBot Int :=
  item.msgDate

/-- The key of the served order. -/
def servedKey (row : HydratedHit σ × σ) : σ ×ₗ WithBot Int ×ₗ Nat :=
  relevanceKey row.2 row.1.msgDate row.1.fused.messageId

/-- The cached pool in served order. -/
def orderedPool (hydrated : List (HydratedHit σ)) (scores : List σ)
    (sort : SortMode) : List (HydratedHit σ × σ) :=
  match sort with
  | .date => sortDescending (fun row => row.1.dateSortKey) (hydrated.zip scores)
  | .rank => sortDescending servedKey (hydrated.zip scores)

/-- The scores of a fresh pool: the reranker's, or the fused ones. -/
def poolScores (rerank : Option (Nat → σ)) (hydrated : List (HydratedHit σ)) :
    List σ :=
  match rerank with
  | some score => (List.range hydrated.length).map score
  | none => hydrated.map fun item => item.fused.rrfScore

omit [LinearOrder σ] in
theorem poolScores_length (rerank : Option (Nat → σ))
    (hydrated : List (HydratedHit σ)) :
    (poolScores rerank hydrated).length = hydrated.length := by
  cases rerank with
  | none => simp [poolScores]
  | some score => simp [poolScores]

/-- A cached pool.  `scores` is parallel to `hydrated`; `firstPage` is the
page a grow started it at, `excludedIds` what the pages before it served. -/
structure PoolEntry (ρ : Type u) (σ : Type v) where
  parsed : ρ
  hydrated : List (HydratedHit σ)
  scores : List σ
  parallel : scores.length = hydrated.length
  candidatesPerArm : Nat
  rerankPoolSize : Nat
  pageSize : Nat
  userId : Option Nat
  sort : SortMode
  firstPage : Nat
  excludedIds : List Nat

structure SearchResult (σ : Type v) where
  messageId : Nat
  accountId : Nat
  rank : Nat
  score : σ
  rrfScore : σ
  matchedChunkId : Option Nat
  matchedChunkTable : ChunkTable
deriving Repr, DecidableEq

structure SearchPage (σ : Type v) where
  results : List (SearchResult σ)
  page : Nat
  pageSize : Nat
  poolSize : Nat
  candidatesPerArm : Nat
  hasMoreInPool : Bool
  canGrowPool : Bool
deriving Repr, DecidableEq

inductive PoolError where
  | cacheMiss
  | pageOutOfPool
deriving Repr, DecidableEq

def PoolEntry.ordered (entry : PoolEntry ρ σ) : List (HydratedHit σ × σ) :=
  orderedPool entry.hydrated entry.scores entry.sort

def toSearchResult (item : HydratedHit σ) (score : σ) (rank : Nat) :
    SearchResult σ where
  messageId := item.fused.messageId
  accountId := item.msg.accountId
  rank := rank
  score := score
  rrfScore := item.fused.rrfScore
  matchedChunkId := item.fused.bestChunkId
  matchedChunkTable := item.fused.bestChunkTable

/-- The rows of page `page` of the pool, counting from one. -/
def buildResults (entry : PoolEntry ρ σ) (page : Nat) :
    List (SearchResult σ) :=
  ((entry.ordered.drop ((page - 1) * entry.pageSize)).take
    entry.pageSize).mapIdx fun index row =>
      toSearchResult row.1 row.2 (index + 1)

/-- `max(1, ceil(pool_size / page_size))`. -/
def maxPage (poolSize pageSize : Nat) : Nat :=
  max 1 ((poolSize + pageSize - 1) / pageSize)

/-- Page `page` of the session, served from the pool. -/
def pageAnswer (entry : PoolEntry ρ σ) (page : Nat) : SearchPage σ :=
  let localPage := page + 1 - entry.firstPage
  { results := buildResults entry localPage
    page := page
    pageSize := entry.pageSize
    poolSize := entry.hydrated.length
    candidatesPerArm := entry.candidatesPerArm
    hasMoreInPool := localPage * entry.pageSize < entry.hydrated.length
    canGrowPool := true }

def continuePage (entry : PoolEntry ρ σ) (userId : Option Nat) (page : Nat) :
    Except PoolError (SearchPage σ) :=
  if userId ≠ none ∧ entry.userId ≠ userId then .error .cacheMiss
  else if 1 ≤ page ∧ page < entry.firstPage then .error .cacheMiss
  else if page < 1 ∨ maxPage entry.hydrated.length entry.pageSize <
      page + 1 - entry.firstPage then
    .error .pageOutOfPool
  else .ok (pageAnswer entry page)

variable [Add σ]

/-- `_retrieve_pool`: fuse the arms, leave out what was served, cut. -/
def retrievePool (config : RankConfig σ) (world : Retrieval ρ σ) (parsed : ρ)
    (candidatesPerArm rerankPoolSize : Nat) (exclude : List Nat) :
    List (FusedHit σ) :=
  cutPool world.sortDates
    ((rrfFuse config (world.arms parsed candidatesPerArm)).filter
      fun hit => hit.messageId ∉ exclude)
    rerankPoolSize

/-- The pool of a fresh ranked search. -/
def freshPool (config : RankConfig σ) (world : Retrieval ρ σ) (parsed : ρ)
    (candidatesPerArm rerankPoolSize pageSize : Nat) (userId : Option Nat) :
    PoolEntry ρ σ :=
  let hydrated := hydrate world.messages (retrievePool config world parsed
    candidatesPerArm rerankPoolSize [])
  { parsed := parsed
    hydrated := hydrated
    scores := poolScores world.rerank hydrated
    parallel := poolScores_length _ _
    candidatesPerArm := candidatesPerArm
    rerankPoolSize := rerankPoolSize
    pageSize := pageSize
    userId := userId
    sort := .rank
    firstPage := 1
    excludedIds := [] }

/-- The ids a grow at `page` leaves out. -/
def PoolEntry.excludedBefore (entry : PoolEntry ρ σ) (page : Nat) : List Nat :=
  entry.excludedIds ++
    (entry.ordered.take ((page - entry.firstPage) * entry.pageSize)).map
      fun row => row.1.fused.messageId

/-- The pool `grow_pool` puts in the place of `entry`. -/
def grownPool (config : RankConfig σ) (world : Retrieval ρ σ)
    (entry : PoolEntry ρ σ) (candidatesPerArm page : Nat) : PoolEntry ρ σ :=
  let excluded := entry.excludedBefore page
  let rerankPoolSize := max candidatesPerArm entry.rerankPoolSize
  let parsed := world.resolve entry.parsed
  let hydrated := hydrate world.messages (retrievePool config world parsed
    candidatesPerArm rerankPoolSize excluded)
  { entry with
    parsed := parsed
    hydrated := hydrated
    scores := poolScores world.rerank hydrated
    parallel := poolScores_length _ _
    candidatesPerArm := candidatesPerArm
    rerankPoolSize := rerankPoolSize
    firstPage := page
    excludedIds := excluded }

/-- `_empty_grown_page`: the pool is exhausted at the cap. -/
def emptyGrownPage (pageSize : Nat) : SearchPage σ where
  results := []
  page := 1
  pageSize := pageSize
  poolSize := 0
  candidatesPerArm := 0
  hasMoreInPool := false
  canGrowPool := false

/-- One call of `grow_pool`. -/
structure Grow (ρ : Type u) (σ : Type v) where
  world : Retrieval ρ σ
  before : PoolEntry ρ σ
  candidatesPerArm : Nat
  page : Nat

def Grow.after (config : RankConfig σ) (grow : Grow ρ σ) : PoolEntry ρ σ :=
  grownPool config grow.world grow.before grow.candidatesPerArm grow.page

/-- What a pool request leaves: its answer, the pool then cached, and the
grows it took. -/
structure PoolOutcome (ρ : Type u) (σ : Type v) where
  answer : Except PoolError (SearchPage σ)
  entry : PoolEntry ρ σ
  grows : List (Grow ρ σ)

/-- The loop of `_continue_or_grow`, grow number `index` answered by
`worlds index`; `none` when the fuel runs out. -/
def growLoop (config : RankConfig σ) (worlds : Nat → Retrieval ρ σ)
    (userId : Option Nat) (page : Nat) :
    Nat → Nat → PoolEntry ρ σ → Option (PoolOutcome ρ σ)
  | 0, _, _ => none
  | fuel + 1, index, entry =>
      if config.candidatesPerArmMax ≤ entry.candidatesPerArm then
        some ⟨.ok (emptyGrownPage entry.pageSize), entry, []⟩
      else
        let candidates :=
          min (entry.candidatesPerArm * 2) config.candidatesPerArmMax
        if page < entry.firstPage then some ⟨.error .cacheMiss, entry, []⟩
        else
          let grow : Grow ρ σ := ⟨worlds index, entry, candidates, page⟩
          let grown := grow.after config
          match continuePage grown userId page with
          | .error raised => some ⟨.error raised, grown, [grow]⟩
          | .ok answer =>
              if answer.results ≠ [] ∨
                  config.candidatesPerArmMax ≤ candidates ∨
                  candidates ≤ entry.candidatesPerArm then
                some ⟨.ok answer, grown, [grow]⟩
              else
                (growLoop config worlds userId page fuel (index + 1) grown).map
                  fun rest => { rest with grows := grow :: rest.grows }

/-- `_continue_or_grow`.  A pool of another user is a miss. -/
def continueOrGrow (config : RankConfig σ) (worlds : Nat → Retrieval ρ σ)
    (userId : Option Nat) (page : Nat) (entry : PoolEntry ρ σ) :
    Option (PoolOutcome ρ σ) :=
  match continuePage entry userId page with
  | .ok answer => some ⟨.ok answer, entry, []⟩
  | .error .cacheMiss => some ⟨.error .cacheMiss, entry, []⟩
  | .error .pageOutOfPool =>
      growLoop config worlds userId page (config.candidatesPerArmMax + 1) 0
        entry

omit [LinearOrder σ] [Add σ] in
/-- `_next_cursor` of a pool page: the page to ask for next. -/
def nextCursor (config : RankConfig σ) (answer : SearchPage σ) : Option Nat :=
  if answer.hasMoreInPool then some (answer.page + 1)
  else if answer.canGrowPool ∧
      answer.candidatesPerArm < config.candidatesPerArmMax then
    some (answer.page + 1)
  else none

end Pool

/-! ### One row per message -/

section Facts

variable {ρ : Type u} {σ : Type v} [LinearOrder σ]

theorem addHit_nodup [Add σ] (config : RankConfig σ) (arm : Nat)
    {agg : List (AggEntry σ)} (hit : ArmHit)
    (hnodup : (agg.map AggEntry.messageId).Nodup) :
    ((addHit config arm agg hit).map AggEntry.messageId).Nodup := by
  unfold addHit
  dsimp only
  split
  · have hsame : (agg.map fun entry =>
        if entry.messageId = hit.messageId then
          entry.add arm hit (config.reciprocal (config.rrfK + hit.rank))
        else entry).map AggEntry.messageId = agg.map AggEntry.messageId := by
      rw [List.map_map]
      apply List.map_congr_left
      intro entry _
      simp only [Function.comp_apply]
      split <;> rfl
    rw [hsame]
    exact hnodup
  · rename_i hnew
    rw [List.map_append]
    refine List.nodup_append.mpr ⟨hnodup, List.nodup_singleton _, ?_⟩
    intro id hid other hother
    rw [List.mem_singleton.mp hother]
    rintro rfl
    exact hnew hid

theorem aggregate_nodup [Add σ] (config : RankConfig σ)
    (arms : List (List ArmHit)) :
    ((aggregate config arms).map AggEntry.messageId).Nodup := by
  unfold aggregate
  refine List.foldlRecOn
    (motive := fun agg : List (AggEntry σ) =>
      (agg.map AggEntry.messageId).Nodup)
    arms.zipIdx _ List.nodup_nil ?_
  intro agg hagg arm _
  refine List.foldlRecOn
    (motive := fun agg : List (AggEntry σ) =>
      (agg.map AggEntry.messageId).Nodup)
    arm.1 _ hagg ?_
  intro inner hinner hit _
  exact addHit_nodup config arm.2 hit hinner

/-- Fusion emits one hit per message. -/
theorem rrfFuse_nodup [Add σ] (config : RankConfig σ)
    (arms : List (List ArmHit)) :
    ((rrfFuse config arms).map FusedHit.messageId).Nodup := by
  have hperm : (rrfFuse config arms).Perm
      ((aggregate config arms).map AggEntry.toFused) :=
    List.perm_insertionSort _ _
  rw [(hperm.map FusedHit.messageId).nodup_iff, List.map_map]
  exact aggregate_nodup config arms

theorem addHit_forall [Add σ] {chosen : Nat → Prop} (config : RankConfig σ)
    (arm : Nat) {agg : List (AggEntry σ)} {hit : ArmHit}
    (hagg : ∀ entry ∈ agg, chosen entry.messageId) (hhit : chosen hit.messageId) :
    ∀ entry ∈ addHit config arm agg hit, chosen entry.messageId := by
  intro entry hentry
  unfold addHit at hentry
  dsimp only at hentry
  split at hentry
  · obtain ⟨old, hold, rfl⟩ := List.mem_map.mp hentry
    split
    · exact hagg old hold
    · exact hagg old hold
  · rcases List.mem_append.mp hentry with hold | hnew
    · exact hagg entry hold
    · rw [List.mem_singleton.mp hnew]
      exact hhit

/-- Fusion brings in no message that is in no arm. -/
theorem rrfFuse_forall [Add σ] (chosen : Nat → Prop) (config : RankConfig σ)
    {arms : List (List ArmHit)}
    (harms : ∀ arm ∈ arms, ∀ hit ∈ arm, chosen hit.messageId) :
    ∀ hit ∈ rrfFuse config arms, chosen hit.messageId := by
  have haggregate : ∀ entry ∈ aggregate config arms, chosen entry.messageId := by
    unfold aggregate
    refine List.foldlRecOn
      (motive := fun agg : List (AggEntry σ) =>
        ∀ entry ∈ agg, chosen entry.messageId)
      arms.zipIdx _ (by simp) ?_
    intro agg hagg arm harm
    refine List.foldlRecOn
      (motive := fun agg : List (AggEntry σ) =>
        ∀ entry ∈ agg, chosen entry.messageId)
      arm.1 _ hagg ?_
    intro inner hinner hit hhit
    exact addHit_forall config arm.2 hinner
      (harms arm.1 (List.fst_mem_of_mem_zipIdx harm) hit hhit)
  intro hit hhit
  obtain ⟨entry, hentry, rfl⟩ :=
    List.mem_map.mp ((List.mem_insertionSort _).mp hhit)
  exact haggregate entry hentry

omit [LinearOrder σ] in
theorem cutKey_nodup (sortDates : Nat → Option Int)
    {fused : List (FusedHit σ)}
    (hnodup : (fused.map FusedHit.messageId).Nodup) :
    (fused.map (cutKey sortDates)).Nodup := by
  refine List.Nodup.of_map (fun key => (ofLex (ofLex key).2).2) ?_
  simpa [List.map_map, Function.comp_def, cutKey, relevanceKey] using hnodup

/-- The pool cut keeps a hit, or keeps `limit` hits that all rank above it. -/
theorem mem_cutPool_or_below (sortDates : Nat → Option Int)
    {fused : List (FusedHit σ)} (limit : Nat)
    (hnodup : (fused.map FusedHit.messageId).Nodup) {hit : FusedHit σ}
    (hhit : hit ∈ fused) :
    hit ∈ cutPool sortDates fused limit ∨
      limit ≤ (cutPool sortDates fused limit).length ∧
        ∀ kept ∈ cutPool sortDates fused limit,
          cutKey sortDates hit < cutKey sortDates kept := by
  unfold cutPool
  split
  · exact Or.inl hhit
  · exact mem_orderLimit_or_full (cutKey_nodup sortDates hnodup) hhit

theorem mem_of_mem_cutPool {sortDates : Nat → Option Int}
    {fused : List (FusedHit σ)} {limit : Nat} {hit : FusedHit σ}
    (hhit : hit ∈ cutPool sortDates fused limit) : hit ∈ fused := by
  unfold cutPool at hhit
  split at hhit
  · exact hhit
  · exact mem_of_mem_orderLimit hhit

theorem cutPool_nodup (sortDates : Nat → Option Int)
    {fused : List (FusedHit σ)} (limit : Nat)
    (hnodup : (fused.map FusedHit.messageId).Nodup) :
    ((cutPool sortDates fused limit).map FusedHit.messageId).Nodup := by
  unfold cutPool
  split
  · exact hnodup
  · have hperm := (List.perm_insertionSort
      (NotAfter (· > ·) (cutKey sortDates)) fused).map FusedHit.messageId
    exact (hperm.nodup_iff.mpr hnodup).sublist ((List.take_sublist _ _).map _)

omit [LinearOrder σ] in
theorem mem_hydrate {messages : Nat → Option MessageInfo}
    {fused : List (FusedHit σ)} {item : HydratedHit σ} :
    item ∈ hydrate messages fused ↔
      item.fused ∈ fused ∧ messages item.fused.messageId = some item.msg := by
  simp only [hydrate, List.mem_filterMap, Option.map_eq_some_iff]
  constructor
  · rintro ⟨hit, hhit, msg, hmsg, rfl⟩
    exact ⟨hhit, hmsg⟩
  · rintro ⟨hhit, hmsg⟩
    exact ⟨item.fused, hhit, item.msg, hmsg, rfl⟩

omit [LinearOrder σ] in
theorem hydrate_ids_sublist (messages : Nat → Option MessageInfo)
    (fused : List (FusedHit σ)) :
    ((hydrate messages fused).map fun item => item.fused.messageId).Sublist
      (fused.map FusedHit.messageId) := by
  induction fused with
  | nil => simp [hydrate]
  | cons hit rest ih =>
      cases hmsg : messages hit.messageId with
      | none =>
          simp only [hydrate, List.filterMap_cons, hmsg, Option.map_none,
            List.map_cons]
          exact ih.cons _
      | some msg =>
          simp only [hydrate, List.filterMap_cons, hmsg, Option.map_some,
            List.map_cons]
          exact ih.cons_cons _

def PoolEntry.ids (entry : PoolEntry ρ σ) : List Nat :=
  entry.hydrated.map fun item => item.fused.messageId

/-- Serving order is a rearrangement of the pool. -/
theorem ordered_ids_perm (entry : PoolEntry ρ σ) :
    (entry.ordered.map fun row => row.1.fused.messageId).Perm entry.ids := by
  have hperm : entry.ordered.Perm (entry.hydrated.zip entry.scores) := by
    unfold PoolEntry.ordered orderedPool
    split
    · exact List.perm_insertionSort _ _
    · exact List.perm_insertionSort _ _
  have hfirst : (entry.hydrated.zip entry.scores).map Prod.fst =
      entry.hydrated :=
    List.map_fst_zip (Nat.le_of_eq entry.parallel.symm)
  have hids : (entry.hydrated.zip entry.scores).map
      (fun row => row.1.fused.messageId) = entry.ids :=
    calc
      _ = ((entry.hydrated.zip entry.scores).map Prod.fst).map
          (fun item => item.fused.messageId) := by rw [List.map_map]; rfl
      _ = entry.ids := by rw [hfirst]; rfl
  exact hids ▸ hperm.map _

theorem ordered_length (entry : PoolEntry ρ σ) :
    entry.ordered.length = entry.hydrated.length := by
  have := (ordered_ids_perm entry).length_eq
  simpa [PoolEntry.ids] using this

end Facts

end Localmail
