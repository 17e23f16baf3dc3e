/-
One client paging a ranked search.  It presents the latest cursor it was given
or repeats its last request; the pool behind the token is replaced whenever a
page runs past its end.  Across all grows the pages stay disjoint and an answer
once given stays the same.
-/
import Localmail.LabelledRun
import Localmail.RankPool

namespace Localmail

universe u v

variable {ρ : Type u} {σ : Type v} [LinearOrder σ] [Add σ]

/-- The session as client and server know it together. -/
structure RankSession (ρ : Type u) (σ : Type v) where
  userId : Option Nat
  /-- The pool cached under the session's token. -/
  entry : PoolEntry ρ σ
  /-- The page asked for last. -/
  presented : Nat
  /-- The page of the latest `next_cursor`. -/
  latest : Option Nat
  /-- Every answer so far, with the page it answered. -/
  answers : List (Nat × List (SearchResult σ))
  /-- Every grow so far, with the ids served before it. -/
  grows : List (Grow ρ σ × List Nat)

def resultIds (results : List (SearchResult σ)) : List Nat :=
  results.map SearchResult.messageId

def RankSession.servedIds (session : RankSession ρ σ) : List Nat :=
  session.answers.flatMap fun answer => resultIds answer.2

/-- The first page: `search` on the ranked path. -/
def startSession (config : RankConfig σ) (world : Retrieval ρ σ) (parsed : ρ)
    (candidatesPerArm rerankPoolSize pageSize : Nat) (userId : Option Nat) :
    RankSession ρ σ :=
  let entry := freshPool config world parsed candidatesPerArm rerankPoolSize
    pageSize userId
  let answer := pageAnswer entry 1
  { userId := userId
    entry := entry
    presented := 1
    latest := nextCursor config answer
    answers := [(1, answer.results)]
    grows := [] }

/-- A request for `page` of the pool.  A refused one leaves no answer. -/
def RankSession.ask (config : RankConfig σ) (session : RankSession ρ σ)
    (page : Nat) (worlds : Nat → Retrieval ρ σ) : Option (RankSession ρ σ) :=
  match continueOrGrow config worlds session.userId page session.entry with
  | some ⟨.ok answer, entry, grows⟩ =>
      some { session with
        entry := entry
        presented := page
        latest := nextCursor config answer
        answers := (page, answer.results) :: session.answers
        grows := grows.map (fun grow => (grow, session.servedIds)) ++
          session.grows }
  | some ⟨.error _, entry, _⟩ => some { session with entry := entry }
  | none => none

/-- The client follows the latest cursor, or repeats its last request. -/
inductive SessionEvent (ρ : Type u) (σ : Type v) where
  | next (worlds : Nat → Retrieval ρ σ)
  | retry (worlds : Nat → Retrieval ρ σ)

def sessionStep (config : RankConfig σ) (session : RankSession ρ σ) :
    SessionEvent ρ σ → Option (RankSession ρ σ)
  | .next worlds =>
      match session.latest with
      | some page => session.ask config page worlds
      | none => none
  | .retry worlds =>
      if session.presented = 1 then none
      else session.ask config session.presented worlds

/-! ### What paging promises -/

/-- The hits a grow retrieved, before anything is left out. -/
def Grow.retrieved (config : RankConfig σ) (grow : Grow ρ σ) :
    List (FusedHit σ) :=
  rrfFuse config (grow.world.arms (grow.world.resolve grow.before.parsed)
    grow.candidatesPerArm)

/-- The hits that survive the exclusion and the `rerank_pool_size` cut. -/
def Grow.kept (config : RankConfig σ) (grow : Grow ρ σ) : List (FusedHit σ) :=
  retrievePool config grow.world (grow.world.resolve grow.before.parsed)
    grow.candidatesPerArm (max grow.candidatesPerArm grow.before.rerankPoolSize)
    (grow.before.excludedBefore grow.page)

/-- The cut is full, and every hit it keeps ranks above this one. -/
def Grow.BelowCut (config : RankConfig σ) (grow : Grow ρ σ)
    (hit : FusedHit σ) : Prop :=
  max grow.candidatesPerArm grow.before.rerankPoolSize ≤
      (grow.kept config).length ∧
    ∀ kept ∈ grow.kept config,
      cutKey grow.world.sortDates hit < cutKey grow.world.sortDates kept

/-- A grow drops a hit it retrieved only if it was served before, fell below
the cut, or has the given excuse. -/
def Grow.DropsOnly (config : RankConfig σ)
    (excuse : Grow ρ σ → FusedHit σ → Prop) (grow : Grow ρ σ)
    (served : List Nat) : Prop :=
  ∀ hit ∈ grow.retrieved config,
    (∃ item ∈ (grow.after config).hydrated, item.fused = hit) ∨
      hit.messageId ∈ served ∨ grow.BelowCut config hit ∨ excuse grow hit

/-- The message of the hit was gone when the grow hydrated its pool. -/
def GoneAtHydration (grow : Grow ρ σ) (hit : FusedHit σ) : Prop :=
  grow.world.messages hit.messageId = none

/-- Each message is served on one page only, a pool is served before it is
grown, a grow drops no more than it must, and a page once answered keeps its
answer. -/
structure PagedOnce (config : RankConfig σ)
    (excuse : Grow ρ σ → FusedHit σ → Prop) (session : RankSession ρ σ) :
    Prop where
  distinct : ∀ answer ∈ session.answers, (resultIds answer.2).Nodup
  once : ∀ answer ∈ session.answers, ∀ other ∈ session.answers,
    answer.1 ≠ other.1 → (resultIds answer.2).Disjoint (resultIds other.2)
  stable : ∀ answer ∈ session.answers, ∀ other ∈ session.answers,
    answer.1 = other.1 → answer.2 = other.2
  served : ∀ grow ∈ session.grows, ∀ id ∈ grow.1.before.ids, id ∈ grow.2
  kept : ∀ grow ∈ session.grows, grow.1.DropsOnly config excuse grow.2

/-- Every request the client can make is answered with a page. -/
def Answered (config : RankConfig σ) (session : RankSession ρ σ) : Prop :=
  ∀ page worlds, session.latest = some page ∨
      session.presented = page ∧ page ≠ 1 →
    ∃ outcome answer,
      continueOrGrow config worlds session.userId page session.entry =
        some outcome ∧ outcome.answer = .ok answer

/-! ### The pages of one pool -/

section Pages

omit [Add σ]

/-- The ids of page `page` of a pool. -/
def pageIds (entry : PoolEntry ρ σ) (page : Nat) : List Nat :=
  ((entry.ordered.map fun row => row.1.fused.messageId).drop
    ((page - 1) * entry.pageSize)).take entry.pageSize

theorem buildResults_ids (entry : PoolEntry ρ σ) (page : Nat) :
    resultIds (buildResults entry page) = pageIds entry page := by
  rw [resultIds, buildResults, pageIds, ← List.map_drop, ← List.map_take]
  apply List.ext_getElem
  · simp
  · intro index hleft hright
    simp [toSearchResult]

theorem ordered_ids_nodup {entry : PoolEntry ρ σ} (hnodup : entry.ids.Nodup) :
    (entry.ordered.map fun row => row.1.fused.messageId).Nodup :=
  (ordered_ids_perm entry).nodup_iff.mpr hnodup

theorem mem_ids_of_mem_pageIds {entry : PoolEntry ρ σ} {page id : Nat}
    (hid : id ∈ pageIds entry page) : id ∈ entry.ids :=
  (ordered_ids_perm entry).mem_iff.mp
    (List.mem_of_mem_drop (List.mem_of_mem_take hid))

theorem pageIds_nodup {entry : PoolEntry ρ σ} (hnodup : entry.ids.Nodup)
    (page : Nat) : (pageIds entry page).Nodup :=
  (ordered_ids_nodup hnodup).sublist
    ((List.take_sublist _ _).trans (List.drop_sublist _ _))

theorem pageIds_disjoint_of_lt {entry : PoolEntry ρ σ}
    (hnodup : entry.ids.Nodup) {page other : Nat} (hpage : 1 ≤ page)
    (hlt : page < other) :
    (pageIds entry page).Disjoint (pageIds entry other) := by
  have hbound : (page - 1) * entry.pageSize + entry.pageSize ≤
      (other - 1) * entry.pageSize := by
    calc
      _ = (page - 1 + 1) * entry.pageSize := by rw [Nat.succ_mul]
      _ ≤ _ := Nat.mul_le_mul_right _ (by omega)
  have hdisjoint := List.disjoint_take_drop (ordered_ids_nodup hnodup) hbound
  intro id hid hother
  refine hdisjoint ?_ (List.mem_of_mem_take hother)
  rw [pageIds, List.take_drop] at hid
  exact List.mem_of_mem_drop hid

theorem pageIds_disjoint {entry : PoolEntry ρ σ} (hnodup : entry.ids.Nodup)
    {page other : Nat} (hpage : 1 ≤ page) (hother : 1 ≤ other)
    (hne : page ≠ other) :
    (pageIds entry page).Disjoint (pageIds entry other) := by
  rcases Nat.lt_or_gt_of_ne hne with hlt | hgt
  · exact pageIds_disjoint_of_lt hnodup hpage hlt
  · exact (pageIds_disjoint_of_lt hnodup hother hgt).symm

/-- As many pages as cover the pool show every row of it. -/
theorem exists_page_of_mem_ids {entry : PoolEntry ρ σ}
    (hsize : 0 < entry.pageSize) {pages id : Nat}
    (hcover : entry.hydrated.length ≤ pages * entry.pageSize)
    (hid : id ∈ entry.ids) :
    ∃ page, 1 ≤ page ∧ page ≤ pages ∧ id ∈ pageIds entry page := by
  obtain ⟨index, hindex, hat⟩ :=
    List.mem_iff_getElem.mp ((ordered_ids_perm entry).mem_iff.mpr hid)
  have hlt : index < entry.hydrated.length := by
    simpa [ordered_length] using hindex
  have hquot : index / entry.pageSize < pages :=
    Nat.div_lt_of_lt_mul (by rw [Nat.mul_comm]; omega)
  have hrem := Nat.mod_lt index hsize
  have hsplit := Nat.div_add_mod' index entry.pageSize
  refine ⟨index / entry.pageSize + 1, Nat.succ_pos _, hquot, ?_⟩
  refine List.mem_iff_getElem.mpr ⟨index % entry.pageSize, ?_, ?_⟩
  · simp only [pageIds, List.length_take, List.length_drop,
      Nat.add_sub_cancel]
    omega
  · simp only [pageIds, List.getElem_take, List.getElem_drop,
      Nat.add_sub_cancel, hsplit]
    exact hat

theorem le_maxPage_mul (poolSize : Nat) {pageSize : Nat} (hsize : 0 < pageSize) :
    poolSize ≤ maxPage poolSize pageSize * pageSize := by
  have hceil : poolSize ≤
      (poolSize + pageSize - 1) / pageSize * pageSize := by
    have := Nat.div_add_mod' (poolSize + pageSize - 1) pageSize
    have := Nat.mod_lt (poolSize + pageSize - 1) hsize
    omega
  exact Nat.le_trans hceil (Nat.mul_le_mul_right _ (Nat.le_max_right _ _))

end Pages

/-! ### Growing an exhausted pool -/

/-- The pool is served to its end, and with what it leaves out makes up all
that was served. -/
structure Exhausted (userId : Option Nat) (served : List Nat) (page : Nat)
    (entry : PoolEntry ρ σ) : Prop where
  size_pos : 0 < entry.pageSize
  user : entry.userId = userId
  page_pos : 1 ≤ page
  first_le : entry.firstPage ≤ page
  past : entry.hydrated.length ≤ (page - entry.firstPage) * entry.pageSize
  served_iff : ∀ id, id ∈ served ↔ id ∈ entry.excludedIds ∨ id ∈ entry.ids

/-- A pool grown at `page`: one row per message, none of them served. -/
structure GrownAt (userId : Option Nat) (served : List Nat) (page : Nat)
    (entry : PoolEntry ρ σ) : Prop where
  size_pos : 0 < entry.pageSize
  user : entry.userId = userId
  page_pos : 1 ≤ page
  first : entry.firstPage = page
  excluded : ∀ id, id ∈ entry.excludedIds ↔ id ∈ served
  nodup : entry.ids.Nodup
  fresh : ∀ id ∈ entry.ids, id ∉ served

section Grows

variable {config : RankConfig σ} {userId : Option Nat} {served : List Nat}
  {page : Nat} {entry : PoolEntry ρ σ}

omit [Add σ] in
theorem Exhausted.mem_excludedBefore (hexhausted : Exhausted userId served page
    entry) (id : Nat) : id ∈ entry.excludedBefore page ↔ id ∈ served := by
  have hall : entry.ordered.take
      ((page - entry.firstPage) * entry.pageSize) = entry.ordered := by
    apply List.take_of_length_le
    rw [ordered_length]
    exact hexhausted.past
  rw [PoolEntry.excludedBefore, hall, List.mem_append,
    (ordered_ids_perm entry).mem_iff, hexhausted.served_iff]

/-- What is left of the fused hits once the served ones are out. -/
theorem unseen_nodup (config : RankConfig σ) (arms : List (List ArmHit))
    (exclude : List Nat) :
    (((rrfFuse config arms).filter fun hit => hit.messageId ∉ exclude).map
      FusedHit.messageId).Nodup :=
  (rrfFuse_nodup config arms).sublist (List.filter_sublist.map _)

theorem not_mem_of_mem_retrievePool {world : Retrieval ρ σ} {parsed : ρ}
    {candidatesPerArm rerankPoolSize : Nat} {exclude : List Nat}
    {hit : FusedHit σ}
    (hhit : hit ∈ retrievePool config world parsed candidatesPerArm
      rerankPoolSize exclude) : hit.messageId ∉ exclude := by
  have hmem := mem_of_mem_cutPool hhit
  simpa using (List.mem_filter.mp hmem).2

theorem Exhausted.grownPool (hexhausted : Exhausted userId served page entry)
    (world : Retrieval ρ σ) (candidatesPerArm : Nat) :
    GrownAt userId served page
      (Localmail.grownPool config world entry candidatesPerArm page) where
  size_pos := hexhausted.size_pos
  user := hexhausted.user
  page_pos := hexhausted.page_pos
  first := rfl
  excluded := hexhausted.mem_excludedBefore
  nodup := (cutPool_nodup _ _ (unseen_nodup _ _ _)).sublist
    (hydrate_ids_sublist _ _)
  fresh := by
    intro id hid hserved
    obtain ⟨item, hitem, rfl⟩ := List.mem_map.mp hid
    exact not_mem_of_mem_retrievePool (mem_hydrate.mp hitem).1
      ((hexhausted.mem_excludedBefore _).mpr hserved)

/-- A grow of an exhausted pool drops a hit only for a reason. -/
theorem Exhausted.dropsOnly (hexhausted : Exhausted userId served page entry)
    (world : Retrieval ρ σ) (candidatesPerArm : Nat) :
    Grow.DropsOnly config GoneAtHydration
      ⟨world, entry, candidatesPerArm, page⟩ served := by
  intro hit hhit
  by_cases hserved : hit.messageId ∈ served
  · exact Or.inr (Or.inl hserved)
  have hunseen : hit ∈ (Grow.retrieved config
      ⟨world, entry, candidatesPerArm, page⟩).filter
        fun hit => hit.messageId ∉ entry.excludedBefore page := by
    refine List.mem_filter.mpr ⟨hhit, ?_⟩
    simpa [hexhausted.mem_excludedBefore] using hserved
  rcases mem_cutPool_or_below world.sortDates
    (max candidatesPerArm entry.rerankPoolSize) (unseen_nodup _ _ _) hunseen
    with hkept | hbelow
  · cases hmessage : world.messages hit.messageId with
    | none => exact Or.inr (Or.inr (Or.inr hmessage))
    | some msg =>
        exact Or.inl ⟨⟨hit, msg⟩, mem_hydrate.mpr ⟨hkept, hmessage⟩, rfl⟩
  · exact Or.inr (Or.inr (Or.inl hbelow))

omit [Add σ] in
theorem GrownAt.continuePage (hgrown : GrownAt userId served page entry) :
    Localmail.continuePage entry userId page = .ok (pageAnswer entry page) := by
  have hpos := hgrown.page_pos
  have hmax : 1 ≤ maxPage entry.hydrated.length entry.pageSize :=
    Nat.le_max_left _ _
  simp only [Localmail.continuePage, hgrown.user, hgrown.first]
  rw [if_neg (by simp), if_neg (by omega), if_neg (by omega)]

omit [Add σ] in
/-- A grown page is empty only if the grow found nothing. -/
theorem GrownAt.exhausted (hgrown : GrownAt userId served page entry)
    (hempty : (pageAnswer entry page).results = []) :
    Exhausted userId served page entry := by
  have hlocal : page + 1 - entry.firstPage = 1 := by
    rw [hgrown.first]
    omega
  have hnil : entry.hydrated = [] := by
    have hlength : (buildResults entry 1).length = 0 := by
      rw [← hlocal]
      exact congrArg List.length hempty
    simp only [buildResults, List.length_mapIdx, List.length_take,
      List.length_drop, ordered_length] at hlength
    have := hgrown.size_pos
    exact List.length_eq_zero_iff.mp (by omega)
  refine ⟨hgrown.size_pos, hgrown.user, hgrown.page_pos, by rw [hgrown.first],
    by simp [hnil], ?_⟩
  intro id
  simp [hgrown.excluded, PoolEntry.ids, hnil]

/-- The loop ends with a grown pool and its first page; every grow on the way
is of an exhausted pool. -/
theorem growLoop_spec (worlds : Nat → Retrieval ρ σ) (fuel index : Nat)
    (hexhausted : Exhausted userId served page entry)
    (hcandidates : entry.candidatesPerArm < config.candidatesPerArmMax)
    (hfuel : config.candidatesPerArmMax - entry.candidatesPerArm ≤ fuel) :
    ∃ outcome,
      growLoop config worlds userId page fuel index entry = some outcome ∧
      outcome.answer = .ok (pageAnswer outcome.entry page) ∧
      GrownAt userId served page outcome.entry ∧
      ∀ grow ∈ outcome.grows, (∀ id ∈ grow.before.ids, id ∈ served) ∧
        grow.DropsOnly config GoneAtHydration served := by
  induction fuel generalizing index entry with
  | zero => omega
  | succ fuel ih =>
      have hfirst := hexhausted.first_le
      generalize hgrow : (⟨worlds index, entry,
        min (entry.candidatesPerArm * 2) config.candidatesPerArmMax, page⟩ :
          Grow ρ σ) = grow
      have hgrown : GrownAt userId served page (grow.after config) := by
        subst hgrow
        exact hexhausted.grownPool _ _
      have hok : (∀ id ∈ grow.before.ids, id ∈ served) ∧
          grow.DropsOnly config GoneAtHydration served := by
        subst hgrow
        exact ⟨fun id hid => (hexhausted.served_iff id).mpr (Or.inr hid),
          hexhausted.dropsOnly _ _⟩
      have hgrownCandidates : (grow.after config).candidatesPerArm =
          min (entry.candidatesPerArm * 2) config.candidatesPerArmMax := by
        subst hgrow
        rfl
      simp only [growLoop, hgrow, hgrown.continuePage]
      rw [if_neg (by omega), if_neg (by omega)]
      split
      · exact ⟨_, rfl, rfl, hgrown, by simpa using hok⟩
      · rename_i hagain
        obtain ⟨hempty, hbelow, hmore⟩ : (pageAnswer (grow.after config)
            page).results = [] ∧ _ ∧ _ := by
          simpa [not_or] using hagain
        obtain ⟨outcome, hloop, hanswer, hentry, hgrows⟩ := ih (index + 1)
          (hgrown.exhausted hempty) (by omega) (by omega)
        refine ⟨{ outcome with grows := grow :: outcome.grows },
          by rw [hloop]; rfl, hanswer, hentry, ?_⟩
        intro other hother
        rcases List.mem_cons.mp hother with rfl | hlater
        · exact hok
        · exact hgrows other hlater

end Grows

/-! ### The session -/

structure SessionInv (config : RankConfig σ) (session : RankSession ρ σ) :
    Prop where
  size_pos : 0 < session.entry.pageSize
  user : session.entry.userId = session.userId
  first_pos : 1 ≤ session.entry.firstPage
  first_le : session.entry.firstPage ≤ session.presented
  in_pool : session.presented + 1 - session.entry.firstPage ≤
    maxPage session.entry.hydrated.length session.entry.pageSize
  nodup : session.entry.ids.Nodup
  fresh : ∀ id ∈ session.entry.ids, id ∉ session.entry.excludedIds
  earlier : ∀ answer ∈ session.answers, answer.1 < session.entry.firstPage →
    ∀ id ∈ resultIds answer.2, id ∈ session.entry.excludedIds
  current : ∀ answer ∈ session.answers, session.entry.firstPage ≤ answer.1 →
    answer.1 ≤ session.presented ∧ answer.2 =
      buildResults session.entry (answer.1 + 1 - session.entry.firstPage)
  answered : ∀ page, session.entry.firstPage ≤ page →
    page ≤ session.presented →
      (page, buildResults session.entry (page + 1 - session.entry.firstPage)) ∈
        session.answers
  excluded : ∀ id ∈ session.entry.excludedIds, id ∈ session.servedIds
  latest : ∀ page ∈ session.latest, page = session.presented + 1 ∧
    ((session.presented + 1 - session.entry.firstPage) *
        session.entry.pageSize < session.entry.hydrated.length ∨
      session.entry.candidatesPerArm < config.candidatesPerArmMax)
  paged : PagedOnce config GoneAtHydration session

section Session

variable {config : RankConfig σ} {session : RankSession ρ σ}

omit [Add σ] in
theorem nextCursor_pageAnswer {entry : PoolEntry ρ σ} {page next : Nat}
    (hnext : next ∈ nextCursor config (pageAnswer entry page)) :
    next = page + 1 ∧
      ((page + 1 - entry.firstPage) * entry.pageSize < entry.hydrated.length ∨
        entry.candidatesPerArm < config.candidatesPerArmMax) := by
  unfold nextCursor at hnext
  split at hnext
  · rename_i hmore
    cases hnext
    exact ⟨rfl, Or.inl (by simpa [pageAnswer] using hmore)⟩
  · split at hnext
    · rename_i hgrow
      cases hnext
      exact ⟨rfl, Or.inr hgrow.2⟩
    · cases hnext

theorem SessionInv.page_le (hinv : SessionInv config session)
    {answer : Nat × List (SearchResult σ)} (hanswer : answer ∈ session.answers) :
    answer.1 ≤ session.presented := by
  by_cases hfirst : session.entry.firstPage ≤ answer.1
  · exact (hinv.current answer hanswer hfirst).1
  · have := hinv.first_le
    omega

/-- One more answer, on a page of its own or the same as before, and grows
that keep the promise. -/
theorem PagedOnce.answer {page : Nat} {results : List (SearchResult σ)}
    {entry : PoolEntry ρ σ} {latest : Option Nat}
    {grows : List (Grow ρ σ × List Nat)}
    {excuse : Grow ρ σ → FusedHit σ → Prop}
    (hpaged : PagedOnce config excuse session)
    (hdistinct : (resultIds results).Nodup)
    (hsame : ∀ answer ∈ session.answers, answer.1 = page → answer.2 = results)
    (hother : ∀ answer ∈ session.answers, answer.1 ≠ page →
      (resultIds answer.2).Disjoint (resultIds results))
    (hgrows : ∀ grow ∈ grows, (∀ id ∈ grow.1.before.ids, id ∈ grow.2) ∧
      grow.1.DropsOnly config excuse grow.2) :
    PagedOnce config excuse { session with
      entry := entry
      presented := page
      latest := latest
      answers := (page, results) :: session.answers
      grows := grows ++ session.grows } where
  distinct := by
    intro answer hanswer
    rcases List.mem_cons.mp hanswer with rfl | hold
    · exact hdistinct
    · exact hpaged.distinct answer hold
  once := by
    intro answer hanswer other hmem hne
    rcases List.mem_cons.mp hanswer with rfl | hold
    · rcases List.mem_cons.mp hmem with rfl | holdOther
      · exact absurd rfl hne
      · exact (hother other holdOther (Ne.symm hne)).symm
    · rcases List.mem_cons.mp hmem with rfl | holdOther
      · exact hother answer hold hne
      · exact hpaged.once answer hold other holdOther hne
  stable := by
    intro answer hanswer other hmem heq
    rcases List.mem_cons.mp hanswer with rfl | hold
    · rcases List.mem_cons.mp hmem with rfl | holdOther
      · rfl
      · exact (hsame other holdOther heq.symm).symm
    · rcases List.mem_cons.mp hmem with rfl | holdOther
      · exact hsame answer hold heq
      · exact hpaged.stable answer hold other holdOther heq
  served := by
    intro grow hgrow
    rcases List.mem_append.mp hgrow with hnew | hold
    · exact (hgrows grow hnew).1
    · exact hpaged.served grow hold
  kept := by
    intro grow hgrow
    rcases List.mem_append.mp hgrow with hnew | hold
    · exact (hgrows grow hnew).2
    · exact hpaged.kept grow hold

/-- A page inside the pool: the pool stays, and the answer is its slice. -/
theorem SessionInv.answerInPool (hinv : SessionInv config session) {page : Nat}
    (hfirst : session.entry.firstPage ≤ page)
    (hpage : page = session.presented ∨ page = session.presented + 1)
    (hinPool : page + 1 - session.entry.firstPage ≤
      maxPage session.entry.hydrated.length session.entry.pageSize) :
    SessionInv config { session with
      presented := page
      latest := nextCursor config (pageAnswer session.entry page)
      answers := (page, (pageAnswer session.entry page).results) ::
        session.answers
      grows := [] ++ session.grows } := by
  have hpaged : PagedOnce config GoneAtHydration { session with
      presented := page
      latest := nextCursor config (pageAnswer session.entry page)
      answers := (page, (pageAnswer session.entry page).results) ::
        session.answers
      grows := [] ++ session.grows } := by
    refine hinv.paged.answer ?_ ?_ ?_ (by simp)
    · change (resultIds (buildResults _ _)).Nodup
      rw [buildResults_ids]
      exact pageIds_nodup hinv.nodup _
    · rintro answer hanswer rfl
      exact (hinv.current answer hanswer hfirst).2
    · intro answer hanswer hne
      change (resultIds answer.2).Disjoint (resultIds (buildResults _ _))
      rw [buildResults_ids]
      by_cases hearlier : answer.1 < session.entry.firstPage
      · intro id hid hother
        exact hinv.fresh id (mem_ids_of_mem_pageIds hother)
          (hinv.earlier answer hanswer hearlier id hid)
      · rw [(hinv.current answer hanswer (by omega)).2, buildResults_ids]
        exact pageIds_disjoint hinv.nodup (by omega) (by omega) (by omega)
  refine ⟨hinv.size_pos, hinv.user, hinv.first_pos, hfirst, hinPool, hinv.nodup,
    hinv.fresh, ?_, ?_, ?_, ?_, fun next => nextCursor_pageAnswer, hpaged⟩
  · intro answer hanswer hearlier
    rcases List.mem_cons.mp hanswer with rfl | hold
    · exact absurd hearlier (Nat.not_lt.mpr hfirst)
    · exact hinv.earlier answer hold hearlier
  · intro answer hanswer hlater
    rcases List.mem_cons.mp hanswer with rfl | hold
    · exact ⟨Nat.le_refl _, rfl⟩
    · have hle := (hinv.current answer hold hlater).1
      exact ⟨by dsimp only; omega, (hinv.current answer hold hlater).2⟩
  · intro asked hlower hupper
    by_cases hsame : asked = page
    · subst hsame
      exact List.mem_cons_self
    · exact List.mem_cons_of_mem _ (hinv.answered asked hlower
        (by dsimp only at hupper; omega))
  · intro id hid
    exact List.mem_append_right _ (hinv.excluded id hid)

/-- Running past the pool's end finds it served to the last row. -/
theorem SessionInv.exhausted (hinv : SessionInv config session)
    (hpast : maxPage session.entry.hydrated.length session.entry.pageSize <
      session.presented + 1 + 1 - session.entry.firstPage) :
    Exhausted session.userId session.servedIds (session.presented + 1)
      session.entry := by
  have hfirst := hinv.first_le
  have hcover : session.entry.hydrated.length ≤
      (session.presented + 1 - session.entry.firstPage) *
        session.entry.pageSize :=
    Nat.le_trans (le_maxPage_mul _ hinv.size_pos)
      (Nat.mul_le_mul_right _ (by omega))
  refine ⟨hinv.size_pos, hinv.user, Nat.succ_pos _, by omega, hcover, ?_⟩
  intro id
  constructor
  · intro hserved
    obtain ⟨answer, hanswer, hid⟩ := List.mem_flatMap.mp hserved
    by_cases hearlier : answer.1 < session.entry.firstPage
    · exact Or.inl (hinv.earlier answer hanswer hearlier id hid)
    · rw [(hinv.current answer hanswer (by omega)).2, buildResults_ids] at hid
      exact Or.inr (mem_ids_of_mem_pageIds hid)
  · rintro (hexcluded | hpool)
    · exact hinv.excluded id hexcluded
    · obtain ⟨page, hpos, hle, hid⟩ :=
        exists_page_of_mem_ids hinv.size_pos hcover hpool
      have hanswered := hinv.answered
        (session.entry.firstPage + page - 1) (by omega) (by omega)
      refine List.mem_flatMap.mpr ⟨_, hanswered, ?_⟩
      have hlocal : session.entry.firstPage + page - 1 + 1 -
          session.entry.firstPage = page := by omega
      dsimp only
      rwa [hlocal, buildResults_ids]

/-- A page past the pool's end: the pool is replaced by a grown one. -/
theorem SessionInv.answerGrown (hinv : SessionInv config session)
    {entry : PoolEntry ρ σ} {grows : List (Grow ρ σ)}
    (hgrown : GrownAt session.userId session.servedIds (session.presented + 1)
      entry)
    (hgrows : ∀ grow ∈ grows, (∀ id ∈ grow.before.ids, id ∈ session.servedIds) ∧
      grow.DropsOnly config GoneAtHydration session.servedIds) :
    SessionInv config { session with
      entry := entry
      presented := session.presented + 1
      latest := nextCursor config (pageAnswer entry (session.presented + 1))
      answers := (session.presented + 1,
        (pageAnswer entry (session.presented + 1)).results) :: session.answers
      grows := grows.map (fun grow => (grow, session.servedIds)) ++
        session.grows } := by
  have hpaged : PagedOnce config GoneAtHydration { session with
      entry := entry
      presented := session.presented + 1
      latest := nextCursor config (pageAnswer entry (session.presented + 1))
      answers := (session.presented + 1,
        (pageAnswer entry (session.presented + 1)).results) :: session.answers
      grows := grows.map (fun grow => (grow, session.servedIds)) ++
        session.grows } := by
    refine hinv.paged.answer ?_ ?_ ?_ ?_
    · change (resultIds (buildResults _ _)).Nodup
      rw [buildResults_ids]
      exact pageIds_nodup hgrown.nodup _
    · intro answer hanswer heq
      have := hinv.page_le hanswer
      omega
    · intro answer hanswer _ id hid hother
      change id ∈ resultIds (buildResults _ _) at hother
      rw [buildResults_ids] at hother
      exact hgrown.fresh id (mem_ids_of_mem_pageIds hother)
        (List.mem_flatMap.mpr ⟨answer, hanswer, hid⟩)
    · intro grow hgrow
      obtain ⟨taken, htaken, rfl⟩ := List.mem_map.mp hgrow
      exact hgrows taken htaken
  have hfirst : entry.firstPage = session.presented + 1 := hgrown.first
  have hpos : 1 ≤ entry.firstPage := by omega
  refine ⟨hgrown.size_pos, hgrown.user, hpos,
    Nat.le_of_eq hfirst, ?_, hgrown.nodup,
    fun id hid hexcluded => hgrown.fresh id hid ((hgrown.excluded id).mp hexcluded),
    ?_, ?_, ?_, ?_, fun next => nextCursor_pageAnswer, hpaged⟩
  · dsimp only
    rw [hfirst, Nat.add_sub_cancel_left]
    exact Nat.le_max_left _ _
  · intro answer hanswer _ id hid
    rcases List.mem_cons.mp hanswer with rfl | hold
    · dsimp only at *
      omega
    · exact (hgrown.excluded id).mpr (List.mem_flatMap.mpr ⟨answer, hold, hid⟩)
  · intro answer hanswer hlater
    rcases List.mem_cons.mp hanswer with rfl | hold
    · exact ⟨Nat.le_refl _, rfl⟩
    · have := hinv.page_le hold
      dsimp only at hlater
      omega
  · intro page hlower hupper
    dsimp only at hlower hupper
    obtain rfl : page = session.presented + 1 := by omega
    exact List.mem_cons_self
  · intro id hid
    exact List.mem_append_right _ ((hgrown.excluded id).mp hid)

/-- The session after an answered request. -/
def RankSession.answered (config : RankConfig σ) (session : RankSession ρ σ)
    (page : Nat) (outcome : PoolOutcome ρ σ) : RankSession ρ σ :=
  { session with
    entry := outcome.entry
    presented := page
    latest := nextCursor config (pageAnswer outcome.entry page)
    answers := (page, (pageAnswer outcome.entry page).results) ::
      session.answers
    grows := outcome.grows.map (fun grow => (grow, session.servedIds)) ++
      session.grows }

/-- Any request the client can make is answered by a page of the pool it
leaves cached, and keeps the invariant. -/
theorem SessionInv.request (hinv : SessionInv config session) {page : Nat}
    (hasked : session.latest = some page ∨ session.presented = page)
    (worlds : Nat → Retrieval ρ σ) :
    ∃ outcome,
      continueOrGrow config worlds session.userId page session.entry =
        some outcome ∧
      outcome.answer = .ok (pageAnswer outcome.entry page) ∧
      SessionInv config (session.answered config page outcome) := by
  have hfirstPos := hinv.first_pos
  have hfirst := hinv.first_le
  have hpage : page = session.presented ∨ page = session.presented + 1 :=
    hasked.symm.imp Eq.symm fun hlatest => (hinv.latest page hlatest).1
  have hcontinue : continuePage session.entry session.userId page =
      if maxPage session.entry.hydrated.length session.entry.pageSize <
          page + 1 - session.entry.firstPage then .error .pageOutOfPool
      else .ok (pageAnswer session.entry page) := by
    simp only [continuePage, hinv.user]
    rw [if_neg (by simp), if_neg (by omega)]
    simp only [show ¬ page < 1 by omega, false_or]
  by_cases hpast : maxPage session.entry.hydrated.length
      session.entry.pageSize < page + 1 - session.entry.firstPage
  · -- A repeated request is inside the pool, so this one is new.
    have hinPool := hinv.in_pool
    obtain rfl : page = session.presented + 1 := by
      rcases hpage with rfl | hnew
      · omega
      · exact hnew
    have hlatest : session.latest = some (session.presented + 1) := by
      rcases hasked with hlatest | hrepeat
      · exact hlatest
      · omega
    have hexhausted := hinv.exhausted hpast
    have hcandidates : session.entry.candidatesPerArm <
        config.candidatesPerArmMax :=
      (hinv.latest _ hlatest).2.resolve_left
        (Nat.not_lt.mpr hexhausted.past)
    obtain ⟨outcome, hloop, hanswer, hgrown, hgrows⟩ :=
      growLoop_spec worlds (config.candidatesPerArmMax + 1) 0 hexhausted
        hcandidates (by omega)
    refine ⟨outcome, ?_, hanswer, hinv.answerGrown hgrown hgrows⟩
    simp only [continueOrGrow, hcontinue, hpast, ↓reduceIte]
    exact hloop
  · refine ⟨⟨.ok (pageAnswer session.entry page), session.entry, []⟩, ?_, rfl,
      hinv.answerInPool (by omega) hpage (Nat.not_lt.mp hpast)⟩
    simp only [continueOrGrow, hcontinue, hpast, ↓reduceIte]

theorem SessionInv.ask (hinv : SessionInv config session) {page : Nat}
    (hasked : session.latest = some page ∨ session.presented = page)
    {worlds : Nat → Retrieval ρ σ} {next : RankSession ρ σ}
    (hstep : session.ask config page worlds = some next) :
    SessionInv config next := by
  obtain ⟨⟨answer, entry, grows⟩, houtcome, hanswer, hnext⟩ :=
    hinv.request hasked worlds
  dsimp only at hanswer
  subst hanswer
  simp only [RankSession.ask, houtcome, Option.some.injEq] at hstep
  subst hstep
  exact hnext

theorem sessionInv_start (config : RankConfig σ) (world : Retrieval ρ σ)
    (parsed : ρ) (candidatesPerArm rerankPoolSize : Nat) {pageSize : Nat}
    (hsize : 1 ≤ pageSize) (userId : Option Nat) :
    SessionInv config (startSession config world parsed candidatesPerArm
      rerankPoolSize pageSize userId) := by
  generalize hentry : freshPool config world parsed candidatesPerArm
    rerankPoolSize pageSize userId = entry
  have hfirst : entry.firstPage = 1 := by rw [← hentry]; rfl
  have hexcluded : entry.excludedIds = [] := by rw [← hentry]; rfl
  have hnodup : entry.ids.Nodup := by
    rw [← hentry]
    exact (cutPool_nodup _ _ (unseen_nodup _ _ _)).sublist
      (hydrate_ids_sublist _ _)
  have hlocal : ∀ page, page + 1 - entry.firstPage = page := by
    intro page
    omega
  simp only [startSession, hentry]
  refine ⟨?_, ?_, Nat.le_of_eq hfirst.symm, Nat.le_of_eq hfirst, ?_, hnodup,
    by simp [hexcluded], ?_, ?_, ?_, by simp [hexcluded],
    fun next => nextCursor_pageAnswer, ?_⟩
  · rw [← hentry]
    exact hsize
  · rw [← hentry]
    rfl
  · dsimp only
    rw [hlocal]
    exact Nat.le_max_left _ _
  · intro answer hanswer hearlier
    rw [List.mem_singleton.mp hanswer] at hearlier
    dsimp only at hearlier
    omega
  · intro answer hanswer _
    rw [List.mem_singleton.mp hanswer]
    exact ⟨Nat.le_refl _, rfl⟩
  · intro page hlower hupper
    dsimp only at hlower hupper
    obtain rfl : page = 1 := by omega
    exact List.mem_singleton.mpr rfl
  · refine ⟨?_, ?_, ?_, by simp, by simp⟩
    · intro answer hanswer
      rw [List.mem_singleton.mp hanswer]
      change (resultIds (buildResults _ _)).Nodup
      rw [buildResults_ids]
      exact pageIds_nodup hnodup _
    · intro answer hanswer other hother hne
      rw [List.mem_singleton.mp hanswer, List.mem_singleton.mp hother] at hne
      exact absurd rfl hne
    · intro answer hanswer other hother _
      rw [List.mem_singleton.mp hanswer, List.mem_singleton.mp hother]

theorem SessionInv.step (hinv : SessionInv config session)
    {event : SessionEvent ρ σ} {next : RankSession ρ σ}
    (hstep : sessionStep config session event = some next) :
    SessionInv config next := by
  cases event with
  | next worlds =>
      simp only [sessionStep] at hstep
      split at hstep
      · rename_i page hlatest
        exact hinv.ask (Or.inl hlatest) hstep
      · cases hstep
  | retry worlds =>
      simp only [sessionStep] at hstep
      split at hstep
      · cases hstep
      · exact hinv.ask (Or.inr rfl) hstep

end Session

/-- Ranked paging by one sequential client: in every session each message is
on one page only, a pool is served whole before it is grown, a grow drops a
retrieved hit only if it was served, fell below the cut or was gone at
hydration, a repeated request gets the same answer, and every request is
answered. -/
theorem rank_paging_serves_once (config : RankConfig σ) (world : Retrieval ρ σ)
    (parsed : ρ) (candidatesPerArm rerankPoolSize pageSize : Nat)
    (userId : Option Nat) (hsize : 1 ≤ pageSize) (session : RankSession ρ σ)
    (hreach : Reach (sessionStep config) (startSession config world parsed
      candidatesPerArm rerankPoolSize pageSize userId) session) :
    PagedOnce config GoneAtHydration session ∧ Answered config session := by
  have hinv : SessionInv config session :=
    hreach.invariant
      (sessionInv_start config world parsed candidatesPerArm rerankPoolSize
        hsize userId)
      (fun _ _ _ hbefore _ hstep => hbefore.step hstep)
  refine ⟨hinv.paged, ?_⟩
  intro page worlds hasked
  obtain ⟨outcome, houtcome, hanswer, -⟩ :=
    hinv.request (hasked.imp_right And.left) worlds
  exact ⟨outcome, _, houtcome, hanswer⟩

namespace RankWitness

/-- Scores as multiples of a millionth. -/
def config : RankConfig Nat where
  rrfK := 60
  reciprocal := fun divisor => 1000000 / divisor
  candidatesPerArmMax := 4

/-- One arm, which returns as many of three messages as it is asked for. -/
def world : Retrieval Unit Nat where
  resolve := id
  arms := fun _ limit =>
    [[⟨1, none, .message, 1⟩, ⟨3, none, .message, 2⟩,
      ⟨2, none, .message, 3⟩].take limit]
  sortDates := fun _ => none
  messages := fun _ => some ⟨7, none, none⟩
  rerank := none

/-- The same, but message 3 is deleted before it is hydrated. -/
def worldWithoutThree : Retrieval Unit Nat :=
  { world with
    messages := fun id => if id = 3 then none else some ⟨7, none, none⟩ }

/-- Page 1 holds message 1; the arm is asked for one candidate. -/
def start : RankSession Unit Nat := startSession config world () 1 4 1 none

/-- The first of the two grows that page 2 takes. -/
def emptyGrow : Grow Unit Nat := ⟨worldWithoutThree, start.entry, 2, 2⟩

def missingHit : FusedHit Nat := ⟨3, none, .message, 16129, [0]⟩

end RankWitness

open RankWitness in
/-- A hit can also be missing because its message was deleted meanwhile. -/
theorem rank_grow_drops_deleted_message :
    ¬ ∀ (config : RankConfig Nat) (world : Retrieval Unit Nat) (parsed : Unit)
      (candidatesPerArm rerankPoolSize pageSize : Nat) (userId : Option Nat)
      (session : RankSession Unit Nat), 1 ≤ pageSize →
      Reach (sessionStep config) (startSession config world parsed
        candidatesPerArm rerankPoolSize pageSize userId) session →
      PagedOnce config (fun _ _ => False) session := by
  intro hclaim
  obtain ⟨final, hstep, hgrow⟩ : ∃ final,
      sessionStep config start (.next fun _ => worldWithoutThree) =
        some final ∧ (emptyGrow, start.servedIds) ∈ final.grows :=
    ⟨_, rfl, List.mem_cons_self⟩
  have hpaged := hclaim config world () 1 4 1 none final (by decide)
    (GuardedReach.refl.tail trivial hstep)
  rcases hpaged.kept _ hgrow missingHit (by decide) with
    ⟨item, hitem, -⟩ | hserved | hbelow | hexcuse
  · have hempty : (emptyGrow.after config).hydrated = [] := by decide
    rw [hempty] at hitem
    exact List.not_mem_nil hitem
  · exact absurd hserved (by decide)
  · exact absurd hbelow.1 (by decide)
  · exact hexcuse

open RankWitness in
/-- Following the cursor and repeating the request that grew the pool. -/
theorem rank_paging_serves_once_grown :
    ∃ session : RankSession Unit Nat,
      session.answers.map (fun answer => (answer.1, resultIds answer.2)) =
          [(2, [2]), (2, [2]), (1, [1])] ∧
        PagedOnce config GoneAtHydration session := by
  refine ⟨_, rfl, (rank_paging_serves_once config world () 1 4 1 none
    (by decide) _ ((GuardedReach.refl.tail trivial
      (rfl : sessionStep config start (.next fun _ => worldWithoutThree) =
        some _)).tail trivial
      (rfl : sessionStep config _ (.retry fun _ => world) = some _))).1⟩

end Localmail
