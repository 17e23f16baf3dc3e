/-
The result list of the desktop client: `SearchStore` with its calls, and the
answers to its requests in whatever order they arrive.  A submit counter drops
the answers of an earlier search; a page whose cursor has expired is asked for
again from the top, and the rows beyond those already shown are appended.
-/
import Localmail.CursorChain
import Localmail.FilterParse
import Localmail.KeyedRows
import Localmail.LabelledRun
import Localmail.RankPool

namespace Localmail

universe u

/-! ### The store -/

/-- A row of the results; `header` is what the store only carries along. -/
structure SearchResultRow (π : Type u) where
  messageId : Text
  header : π
deriving Repr, DecidableEq

structure SearchStoreState (π : Type u) where
  query : Text
  filters : SearchFiltersUI
  sort : SortMode
  sortApplied : Option SortMode
  rankable : Option Bool
  results : List (SearchResultRow π)
  cursor : Option Text
  hasMore : Bool
  tookMs : Option Nat
  loading : Bool
  loadingMore : Bool
  errorMessage : Option Text
deriving Repr, DecidableEq

def SearchStoreState.initial {π : Type u} : SearchStoreState π where
  query := []
  filters := emptyFilters
  sort := .rank
  sortApplied := none
  rankable := none
  results := []
  cursor := none
  hasMore := false
  tookMs := none
  loading := false
  loadingMore := false
  errorMessage := none

/-- The part of a request that says what is searched for. -/
structure SearchKey where
  query : Text
  filters : SearchFiltersWire
deriving Repr, DecidableEq

/-- The call a request was made by.  `recover` is the second request of a
`loadMore` whose cursor had expired. -/
inductive SearchKind where
  | submit
  | more (priorCount : Nat)
  | recover (priorCount : Nat)
deriving Repr, DecidableEq

/-- A `runSearch` call that has no answer yet, with the submit counter its
caller read. -/
structure SentSearch where
  number : Nat
  seq : Nat
  kind : SearchKind
  key : SearchKey
  limit : Nat
  cursor : Option Text
  sort : Option SortMode
deriving Repr, DecidableEq

structure SearchAnswer (π : Type u) where
  results : List (SearchResultRow π)
  nextCursor : Option Text
  tookMs : Nat
  sortApplied : Option Text
  /-- A value that is no boolean reads as none. -/
  rankable : Option Bool
deriving Repr, DecidableEq

/-- An error of `runSearch`: whether it names the expired-cursor problem, the
HTTP status within it, and its text. -/
structure SearchFailure where
  cursorExpired : Bool
  status : Option Nat
  message : Text
deriving Repr, DecidableEq

def isCursorRejected (failure : SearchFailure) : Bool :=
  failure.status = some 400

def statedSort (cursor : Option Text) (sort : SortMode) : Option SortMode :=
  match cursor, sort with
  | some _, _ => none
  | none, .rank => none
  | none, .date => some .date

def asSortMode (value : Option Text) : Option SortMode :=
  if value = some (text "rank") then some .rank
  else if value = some (text "date") then some .date
  else none

/-- The store with the settings it reads and the requests under way.  The
fields from `searches` on record what happened: the submitted searches with
the newest first, the number of requests made before the latest submit or
reset, the cursors answered as expired, the requests made to recover from
that, and every page the server returned. -/
structure SearchClient (π : Type u) where
  state : SearchStoreState π
  submitSeq : Nat
  pageSize : Nat
  defaultLanguage : Option Text
  sent : List SentSearch
  nextRequest : Nat
  searches : List (Nat × SearchKey)
  lastSearch : Nat
  expired : List Text
  recoveries : List Nat
  answered : List (AnsweredPage SearchKey Text (SearchResultRow π))
deriving Repr, DecidableEq

def SearchClient.start {π : Type u} (pageSize : Nat)
    (defaultLanguage : Option Text) : SearchClient π where
  state := .initial
  submitSeq := 0
  pageSize := pageSize
  defaultLanguage := defaultLanguage
  sent := []
  nextRequest := 0
  searches := []
  lastSearch := 0
  expired := []
  recoveries := []
  answered := []

namespace SearchClient

variable {π : Type u} (client : SearchClient π)

/-- `#wireFilters`. -/
def wireFilters : SearchFiltersWire :=
  let filters := client.state.filters
  match filters.language.bind orNull, client.defaultLanguage.bind orNull with
  | none, some language =>
      filtersUiToWire { filters with language := some language }
  | _, _ => filtersUiToWire filters

/-- What a request made now asks for. -/
def liveKey : SearchKey :=
  ⟨client.state.query, client.wireFilters⟩

def send (kind : SearchKind) (seq : Nat) (cursor : Option Text) :
    SearchClient π :=
  { client with
    sent := ⟨client.nextRequest, seq, kind, client.liveKey, client.pageSize,
      cursor, statedSort cursor client.state.sort⟩ :: client.sent
    nextRequest := client.nextRequest + 1 }

/-- `submit` up to the absorbed operators and the cleared error. -/
def prepare (toLowerCase : Text → Text) : SearchClient π :=
  let state := { client.state with loading := true, errorMessage := none }
  match absorbConflictingOperators toLowerCase client.state.query
      client.state.filters with
  | none => { client with state := state }
  | some absorbed =>
      { client with state := { state with
          query := absorbed.query
          filters := absorbed.filters } }

def submit (toLowerCase : Text → Text) : SearchClient π :=
  let prepared := client.prepare toLowerCase
  let seq := client.submitSeq + 1
  { prepared with
    submitSeq := seq
    searches := (client.nextRequest, prepared.liveKey) :: client.searches
    lastSearch := client.nextRequest }.send .submit seq none

/-- The cursor `loadMore` pages from, unless it returns at once. -/
def pagesFrom : Option Text :=
  if client.state.hasMore ∧ !client.state.loading ∧ !client.state.loadingMore
  then client.state.cursor
  else none

def loadMore : SearchClient π :=
  match client.pagesFrom with
  | none => client
  | some cursor =>
      { client with state := { client.state with loadingMore := true } }.send
        (.more client.state.results.length) client.submitSeq (some cursor)

def reset : SearchClient π :=
  { client with
    state := .initial
    submitSeq := client.submitSeq + 1
    lastSearch := client.nextRequest }

/-- The requests still under way once `number` is settled. -/
def remaining (number : Nat) : List SentSearch :=
  client.sent.filter fun other => other.number ≠ number

/-- `request` has its page. -/
def received (request : SentSearch) (answer : SearchAnswer π) :
    SearchClient π :=
  { client with
    sent := client.remaining request.number
    answered := ⟨request.number, request.key, request.cursor, answer.results,
      answer.nextCursor⟩ :: client.answered }

/-- The cursor of `request` has expired, and the next request makes up for
it. -/
def expire (request : SentSearch) : SearchClient π :=
  { client with
    sent := client.remaining request.number
    expired := request.cursor.toList ++ client.expired
    recoveries := client.nextRequest :: client.recoveries }

end SearchClient

section Answers

variable {π : Type u}

/-- The part of the state every applied page sets. -/
def SearchStoreState.report (state : SearchStoreState π)
    (results : List (SearchResultRow π)) (answer : SearchAnswer π) :
    SearchStoreState π :=
  { state with
    results := results
    cursor := answer.nextCursor
    hasMore := answer.nextCursor.isSome
    sortApplied := asSortMode answer.sortApplied
    rankable := answer.rankable }

/-- `submit` after its answer, if no later search was made. -/
def submitAnswered (state : SearchStoreState π) (answer : SearchAnswer π) :
    SearchStoreState π :=
  { state.report answer.results answer with
    tookMs := some answer.tookMs
    loading := false }

/-- `submit` after a failure. -/
def submitFailed (state : SearchStoreState π) (failure : SearchFailure) :
    SearchStoreState π :=
  { state with
    results := []
    tookMs := none
    cursor := none
    hasMore := false
    sortApplied := none
    rankable := none
    errorMessage := some failure.message
    loading := false }

def moreAnswered (state : SearchStoreState π) (answer : SearchAnswer π) :
    SearchStoreState π :=
  state.report (state.results ++ answer.results) answer

/-- The page asked for again from the top: all of it if it is no longer than
what was shown, else the rows beyond. -/
def recoverAnswered (state : SearchStoreState π) (priorCount : Nat)
    (answer : SearchAnswer π) : SearchStoreState π :=
  if answer.results.length ≤ priorCount then state.report answer.results answer
  else
    state.report (state.results ++ answer.results.drop priorCount) answer

/-- `loadMore` after a failure that is not recovered from. -/
def moreFailed (state : SearchStoreState π) (failure : SearchFailure) :
    SearchStoreState π :=
  if isCursorRejected failure then
    { state with
      cursor := none
      hasMore := false
      errorMessage := some failure.message }
  else { state with errorMessage := some failure.message }

/-- The `finally` of `loadMore`. -/
def doneLoading (state : SearchStoreState π) : SearchStoreState π :=
  { state with loadingMore := false }

def searchAnswered (client : SearchClient π) (request : SentSearch)
    (answer : SearchAnswer π) : SearchClient π :=
  let base := client.received request answer
  let state := client.state
  let current := request.seq = client.submitSeq
  match request.kind with
  | .submit =>
      if current then { base with state := submitAnswered state answer }
      else base
  | .more _ =>
      let shown := if current then moreAnswered state answer else state
      { base with state := doneLoading shown }
  | .recover priorCount =>
      let shown :=
        if current then recoverAnswered state priorCount answer else state
      { base with state := doneLoading shown }

def searchFailed (client : SearchClient π) (request : SentSearch)
    (failure : SearchFailure) : SearchClient π :=
  let base := { client with sent := client.remaining request.number }
  let state := client.state
  let current := request.seq = client.submitSeq
  let shown := if current then moreFailed state failure else state
  let givenUp := { base with state := doneLoading shown }
  match request.kind with
  | .submit =>
      if current then { base with state := submitFailed state failure }
      else base
  | .more priorCount =>
      if failure.cursorExpired then
        (client.expire request).send (.recover priorCount) request.seq none
      else givenUp
  | .recover _ => givenUp

end Answers

/-- A call of the store or a setting it reads, or an answer to one of its
requests. -/
inductive SearchStoreEvent (π : Type u) where
  | setQuery (query : Text)
  | setFilters (filters : SearchFiltersUI)
  | setSort (sort : SortMode)
  | setPageSize (pageSize : Nat)
  | setDefaultLanguage (language : Option Text)
  | submit
  | loadMore
  | reset
  | answered (number : Nat) (answer : SearchAnswer π)
  | failed (number : Nat) (failure : SearchFailure)

def searchStoreStep {π : Type u} (toLowerCase : Text → Text)
    (client : SearchClient π) : SearchStoreEvent π → Option (SearchClient π)
  | .setQuery query =>
      some { client with state := { client.state with query := query } }
  | .setFilters filters =>
      some { client with state := { client.state with filters := filters } }
  | .setSort sort =>
      some { client with state := { client.state with sort := sort } }
  | .setPageSize pageSize => some { client with pageSize := pageSize }
  | .setDefaultLanguage language =>
      some { client with defaultLanguage := language }
  | .submit => some (client.submit toLowerCase)
  | .loadMore => some client.loadMore
  | .reset => some client.reset
  | .answered number answer =>
      (client.sent.find? fun request => request.number = number).map
        fun request => searchAnswered client request answer
  | .failed number failure =>
      (client.sent.find? fun request => request.number = number).map
        fun request => searchFailed client request failure

/-! ### What the results promise -/

section Promise

variable {π : Type u}

/-- Rows built from the pages of one search.  A further page continues the one
before it, or it was asked for again from the top because the cursor of the
one before it had expired; then the rows already shown are left out of it. -/
inductive ResultPages (search : Nat × SearchKey) (recoveries : List Nat)
    (expired : List Text) :
    List (AnsweredPage SearchKey Text (SearchResultRow π)) →
      List (SearchResultRow π) → Prop
  | first (page : AnsweredPage SearchKey Text (SearchResultRow π))
      (key : page.key = search.2) (cursor : page.cursor = none)
      (number : page.number = search.1 ∨ page.number ∈ recoveries) :
      ResultPages search recoveries expired [page] page.rows
  | more {pages : List (AnsweredPage SearchKey Text (SearchResultRow π))}
      {rows : List (SearchResultRow π)}
      {last : AnsweredPage SearchKey Text (SearchResultRow π)}
      (page : AnsweredPage SearchKey Text (SearchResultRow π))
      (before : ResultPages search recoveries expired pages rows)
      (final : pages.getLast? = some last) (continues : Continues last page)
      (fresh : page.number ∉ pages.map AnsweredPage.number) :
      ResultPages search recoveries expired (pages ++ [page])
        (rows ++ page.rows)
  | recovered {pages : List (AnsweredPage SearchKey Text (SearchResultRow π))}
      {rows : List (SearchResultRow π)}
      {last : AnsweredPage SearchKey Text (SearchResultRow π)} {old : Text}
      (page : AnsweredPage SearchKey Text (SearchResultRow π))
      (before : ResultPages search recoveries expired pages rows)
      (final : pages.getLast? = some last) (key : page.key = search.2)
      (cursor : page.cursor = none) (number : page.number ∈ recoveries)
      (next : last.next = some old) (lost : old ∈ expired)
      (longer : rows.length < page.rows.length)
      (fresh : page.number ∉ pages.map AnsweredPage.number) :
      ResultPages search recoveries expired (pages ++ [page])
        (rows ++ page.rows.drop rows.length)

def rowIds (page : AnsweredPage SearchKey Text (SearchResultRow π)) :
    List Text :=
  page.rows.map SearchResultRow.messageId

/-- The server's pages of one search are disjoint. -/
def DisjointPages
    (answered : List (AnsweredPage SearchKey Text (SearchResultRow π))) :
    Prop :=
  ∀ key first pages, CursorChain key first pages →
    (∀ page ∈ pages, page ∈ answered) →
    (∀ page ∈ pages, (rowIds page).Nodup) ∧
      pages.Pairwise fun page later => (rowIds page).Disjoint (rowIds later)

/-- The results are those of `search`, made of `pages`. -/
structure ShowsSearch (client : SearchClient π) (search : Nat × SearchKey)
    (pages : List (AnsweredPage SearchKey Text (SearchResultRow π))) :
    Prop where
  built : ResultPages search client.recoveries client.expired pages
    client.state.results
  answered : ∀ page ∈ pages, page ∈ client.answered
  keys : ∀ page ∈ pages, page.key = search.2
  once : (pages.map AnsweredPage.number).Nodup
  distinct : DisjointPages client.answered →
    (∀ page ∈ pages.tail, page.cursor.isSome) →
    (client.state.results.map SearchResultRow.messageId).Nodup

/-- The results are empty or those of one search. -/
def ResultsOfOneSearch (client : SearchClient π) : Prop :=
  client.state.results = [] ∨
    ∃ search ∈ client.searches, ∃ pages, ShowsSearch client search pages

/-- The part of the state that describes the rows on screen. -/
structure SameResults (state after : SearchStoreState π) : Prop where
  results : after.results = state.results
  cursor : after.cursor = state.cursor
  hasMore : after.hasMore = state.hasMore
  sortApplied : after.sortApplied = state.sortApplied
  rankable : after.rankable = state.rankable

/-- The request an event answers. -/
def SearchStoreEvent.answers : SearchStoreEvent π → Option Nat
  | .answered number _ => some number
  | .failed number _ => some number
  | _ => none

/-- The query box and the filters are as they were submitted. -/
def SearchClient.AsSubmitted (client : SearchClient π) : Prop :=
  ∀ search ∈ client.searches.head?, client.liveKey = search.2

/-- No page of the search on screen is under way. -/
def SearchClient.NoPageSent (client : SearchClient π) : Prop :=
  ∀ request ∈ client.sent, request.seq = client.submitSeq →
    request.kind = .submit

def SearchKind.isMore : SearchKind → Bool
  | .more _ => true
  | _ => false

/-- A page is asked for only as submitted, and one at a time. -/
def PagesAsSubmitted (client : SearchClient π) : SearchStoreEvent π → Prop
  | .loadMore =>
      client.pagesFrom.isSome → client.AsSubmitted ∧ client.NoPageSent
  | .failed number failure =>
      failure.cursorExpired →
        (∃ request ∈ client.sent, request.number = number ∧
          request.kind.isMore ∧ request.seq = client.submitSeq) →
        client.AsSubmitted
  | _ => True

instance (client : SearchClient π) : Decidable client.AsSubmitted :=
  match hhead : client.searches.head? with
  | none => isTrue (by simp [SearchClient.AsSubmitted, hhead])
  | some search =>
      if hkey : client.liveKey = search.2 then
        isTrue (by simpa [SearchClient.AsSubmitted, hhead] using hkey)
      else isFalse (by simpa [SearchClient.AsSubmitted, hhead] using hkey)

instance (client : SearchClient π) : Decidable client.NoPageSent :=
  inferInstanceAs (Decidable (∀ request ∈ client.sent,
    request.seq = client.submitSeq → request.kind = .submit))

instance (client : SearchClient π) (event : SearchStoreEvent π) :
    Decidable (PagesAsSubmitted client event) :=
  match event with
  | .loadMore => inferInstanceAs (Decidable (client.pagesFrom.isSome →
      client.AsSubmitted ∧ client.NoPageSent))
  | .failed number failure => inferInstanceAs (Decidable
      (failure.cursorExpired →
        (∃ request ∈ client.sent, request.number = number ∧
          request.kind.isMore ∧ request.seq = client.submitSeq) →
        client.AsSubmitted))
  | .setQuery _ | .setFilters _ | .setSort _ | .setPageSize _
  | .setDefaultLanguage _ | .submit | .reset | .answered _ _ => isTrue trivial

end Promise

/-! ### Pages of one search -/

namespace ResultPages

variable {π : Type u} {search : Nat × SearchKey} {recoveries : List Nat}
  {expired : List Text}
  {pages : List (AnsweredPage SearchKey Text (SearchResultRow π))}
  {rows : List (SearchResultRow π)}

theorem ne_nil (hpages : ResultPages search recoveries expired pages rows) :
    pages ≠ [] := by
  cases hpages with
  | first => exact List.cons_ne_nil _ _
  | more => simp
  | recovered => simp

theorem exists_last
    (hpages : ResultPages search recoveries expired pages rows) :
    ∃ last, pages.getLast? = some last :=
  ⟨_, List.getLast?_eq_some_getLast hpages.ne_nil⟩

/-- Every page was asked for with the key of the search. -/
theorem key_eq (hpages : ResultPages search recoveries expired pages rows) :
    ∀ page ∈ pages, page.key = search.2 := by
  induction hpages with
  | first page hkey =>
      intro other hother
      exact List.mem_singleton.mp hother ▸ hkey
  | more page before hlast hcontinues hfresh ih =>
      intro other hother
      rcases List.mem_append.mp hother with hold | hnew
      · exact ih other hold
      · rw [List.mem_singleton.mp hnew, hcontinues.1]
        exact ih _ (List.mem_of_getLast? hlast)
  | recovered page before hlast hkey hcursor hnumber hnext hlost hlonger hfresh
      ih =>
      intro other hother
      rcases List.mem_append.mp hother with hold | hnew
      · exact ih other hold
      · rw [List.mem_singleton.mp hnew, hkey]

theorem once (hpages : ResultPages search recoveries expired pages rows) :
    (pages.map AnsweredPage.number).Nodup := by
  induction hpages with
  | first page => exact List.nodup_singleton _
  | more page before hlast hcontinues hfresh ih =>
      rw [List.map_append, List.map_singleton]
      exact ih.append (List.nodup_singleton _)
        (List.disjoint_singleton.mpr hfresh)
  | recovered page before hlast hkey hcursor hnumber hnext hlost hlonger hfresh
      ih =>
      rw [List.map_append, List.map_singleton]
      exact ih.append (List.nodup_singleton _)
        (List.disjoint_singleton.mpr hfresh)

/-- More recoveries on record change nothing. -/
theorem mono {recoveries' : List Nat} {expired' : List Text}
    (hpages : ResultPages search recoveries expired pages rows)
    (hrecoveries : ∀ number ∈ recoveries, number ∈ recoveries')
    (hexpired : ∀ cursor ∈ expired, cursor ∈ expired') :
    ResultPages search recoveries' expired' pages rows := by
  induction hpages with
  | first page hkey hcursor hnumber =>
      exact .first page hkey hcursor (hnumber.imp_right (hrecoveries _))
  | more page before hlast hcontinues hfresh ih =>
      exact .more page ih hlast hcontinues hfresh
  | recovered page before hlast hkey hcursor hnumber hnext hlost hlonger hfresh
      ih =>
      exact .recovered page ih hlast hkey hcursor (hrecoveries _ hnumber) hnext
        (hexpired _ hlost) hlonger hfresh

/-- Without a recovered page after the first, the pages are a walk of their
own. -/
theorem chain (hpages : ResultPages search recoveries expired pages rows)
    (htail : ∀ page ∈ pages.tail, page.cursor.isSome) :
    rows = shownRows pages ∧ ∃ first, CursorChain search.2 first pages := by
  induction hpages with
  | first page hkey hcursor hnumber =>
      exact ⟨(shownRows_singleton page).symm, page.number,
        CursorChain.singleton page hkey hcursor⟩
  | @more pages rows last page before hlast hcontinues hfresh ih =>
      rw [List.tail_append_of_ne_nil before.ne_nil] at htail
      obtain ⟨hrows, start, hchain⟩ := ih fun other hother =>
        htail other (List.mem_append_left _ hother)
      refine ⟨?_, start, hchain.snoc hlast hcontinues hfresh⟩
      rw [shownRows_append, shownRows_singleton, hrows]
  | @recovered pages rows last old page before hlast hkey hcursor hnumber hnext
      hlost hlonger hfresh ih =>
      rw [List.tail_append_of_ne_nil before.ne_nil] at htail
      have hsome := htail page (List.mem_append_right _ (List.mem_singleton_self _))
      rw [hcursor] at hsome
      cases hsome

end ResultPages

/-! ### Answers of an earlier search -/

section Stale

variable {π : Type u} {client : SearchClient π} {toLowerCase : Text → Text}

/-- A request made before the latest submit or reset carries an older
counter. -/
structure SeqInv (client : SearchClient π) : Prop where
  issued : ∀ request ∈ client.sent, request.number < client.nextRequest
  seq : ∀ request ∈ client.sent, request.seq ≤ client.submitSeq
  older : ∀ request ∈ client.sent, request.number < client.lastSearch →
    request.seq < client.submitSeq
  last : client.lastSearch ≤ client.nextRequest

theorem seqInv_start (pageSize : Nat) (language : Option Text) :
    SeqInv (SearchClient.start pageSize language : SearchClient π) := by
  constructor <;> simp [SearchClient.start]

/-- Fewer requests under way. -/
theorem SeqInv.drop (hinv : SeqInv client) {after : SearchClient π}
    (hsent : ∀ request ∈ after.sent, request ∈ client.sent)
    (hseq : after.submitSeq = client.submitSeq)
    (hlast : after.lastSearch = client.lastSearch)
    (hnext : after.nextRequest = client.nextRequest) : SeqInv after where
  issued := by
    intro request hrequest
    rw [hnext]
    exact hinv.issued request (hsent request hrequest)
  seq := by
    intro request hrequest
    rw [hseq]
    exact hinv.seq request (hsent request hrequest)
  older := by
    intro request hrequest
    rw [hseq, hlast]
    exact hinv.older request (hsent request hrequest)
  last := by
    rw [hlast, hnext]
    exact hinv.last

theorem SeqInv.send (hinv : SeqInv client) (kind : SearchKind) {seq : Nat}
    (cursor : Option Text) (hseq : seq ≤ client.submitSeq) :
    SeqInv (client.send kind seq cursor) where
  issued := by
    intro request hrequest
    rcases List.mem_cons.mp hrequest with rfl | hold
    · exact Nat.lt_succ_self _
    · exact Nat.lt_succ_of_lt (hinv.issued request hold)
  seq := by
    intro request hrequest
    rcases List.mem_cons.mp hrequest with rfl | hold
    · exact hseq
    · exact hinv.seq request hold
  older := by
    intro request hrequest hbefore
    rcases List.mem_cons.mp hrequest with rfl | hold
    · exact absurd hbefore (Nat.not_lt.mpr hinv.last)
    · exact hinv.older request hold hbefore
  last := Nat.le_succ_of_le hinv.last

/-- A new search makes every request under way an older one. -/
theorem SeqInv.newSearch (hinv : SeqInv client) {after : SearchClient π}
    (hsent : after.sent = client.sent)
    (hseq : after.submitSeq = client.submitSeq + 1)
    (hlast : after.lastSearch = client.nextRequest)
    (hnext : after.nextRequest = client.nextRequest) : SeqInv after where
  issued := by
    rw [hsent, hnext]
    exact hinv.issued
  seq := by
    rw [hsent, hseq]
    intro request hrequest
    exact Nat.le_succ_of_le (hinv.seq request hrequest)
  older := by
    rw [hsent, hseq]
    intro request hrequest _
    exact Nat.lt_succ_of_le (hinv.seq request hrequest)
  last := by
    rw [hlast, hnext]

theorem mem_remaining_searches {number : Nat} {request : SentSearch} :
    request ∈ client.remaining number ↔
      request ∈ client.sent ∧ request.number ≠ number := by
  simp [SearchClient.remaining]

theorem prepare_fields (client : SearchClient π) (toLowerCase : Text → Text) :
    (client.prepare toLowerCase).sent = client.sent ∧
      (client.prepare toLowerCase).nextRequest = client.nextRequest ∧
      (client.prepare toLowerCase).answered = client.answered ∧
      (client.prepare toLowerCase).expired = client.expired ∧
      (client.prepare toLowerCase).recoveries = client.recoveries ∧
      SameResults client.state (client.prepare toLowerCase).state ∧
      (client.prepare toLowerCase).state.loading = true := by
  unfold SearchClient.prepare
  split
  · exact ⟨rfl, rfl, rfl, rfl, rfl, ⟨rfl, rfl, rfl, rfl, rfl⟩, rfl⟩
  · exact ⟨rfl, rfl, rfl, rfl, rfl, ⟨rfl, rfl, rfl, rfl, rfl⟩, rfl⟩

/-- The answer to a request leaves the others under way and the counters as
they are. -/
theorem searchAnswered_fields (request : SentSearch) (answer : SearchAnswer π) :
    ∃ state, searchAnswered client request answer =
      { client.received request answer with state := state } := by
  unfold searchAnswered
  cases request.kind with
  | submit =>
      by_cases hseq : request.seq = client.submitSeq
      · exact ⟨_, if_pos hseq⟩
      · exact ⟨client.state, if_neg hseq⟩
  | more priorCount => exact ⟨_, rfl⟩
  | recover priorCount => exact ⟨_, rfl⟩

theorem SeqInv.step (hinv : SeqInv client) {event : SearchStoreEvent π}
    {after : SearchClient π}
    (hstep : searchStoreStep toLowerCase client event = some after) :
    SeqInv after := by
  cases event with
  | setQuery | setFilters | setSort | setPageSize | setDefaultLanguage =>
      obtain rfl := Option.some.inj hstep
      exact hinv.drop (fun _ hrequest => hrequest) rfl rfl rfl
  | submit =>
      obtain rfl := Option.some.inj hstep
      obtain ⟨hsent, hnext, -⟩ := prepare_fields client toLowerCase
      apply SeqInv.send _ _ _ (Nat.le_refl _)
      exact hinv.newSearch hsent rfl rfl hnext
  | loadMore =>
      obtain rfl := Option.some.inj hstep
      unfold SearchClient.loadMore
      split
      · exact hinv
      · apply SeqInv.send _ _ _ (Nat.le_refl _)
        exact hinv.drop (fun _ hrequest => hrequest) rfl rfl rfl
  | reset =>
      obtain rfl := Option.some.inj hstep
      exact hinv.newSearch rfl rfl rfl rfl
  | answered number answer =>
      obtain ⟨request, hfind, rfl⟩ := Option.map_eq_some_iff.mp hstep
      obtain ⟨state, hafter⟩ := searchAnswered_fields request answer
      rw [hafter]
      exact hinv.drop (fun _ hother => (mem_remaining_searches.mp hother).1)
        rfl rfl rfl
  | failed number failure =>
      obtain ⟨request, hfind, rfl⟩ := Option.map_eq_some_iff.mp hstep
      have hmem := List.mem_of_find?_eq_some hfind
      have hdrop : ∀ after : SearchClient π,
          after.sent = client.remaining request.number →
          after.submitSeq = client.submitSeq →
          after.lastSearch = client.lastSearch →
          after.nextRequest = client.nextRequest → SeqInv after := by
        intro after hsent
        apply hinv.drop
        rw [hsent]
        exact fun _ hother => (mem_remaining_searches.mp hother).1
      unfold searchFailed
      cases request.kind with
      | submit =>
          dsimp only
          split
          · exact hdrop _ rfl rfl rfl rfl
          · exact hdrop _ rfl rfl rfl rfl
      | more priorCount =>
          dsimp only
          split
          · have hexpire : SeqInv (client.expire request) :=
              hdrop _ rfl rfl rfl rfl
            exact hexpire.send _ _ (hinv.seq request hmem)
          · exact hdrop _ rfl rfl rfl rfl
      | recover priorCount => exact hdrop _ rfl rfl rfl rfl

/-- An answer that comes too late for its search leaves the rows alone. -/
theorem SeqInv.unchanged (hinv : SeqInv client) {event : SearchStoreEvent π}
    {after : SearchClient π} {number : Nat}
    (hanswers : event.answers = some number)
    (hbefore : number < client.lastSearch)
    (hstep : searchStoreStep toLowerCase client event = some after) :
    SameResults client.state after.state := by
  have hsame : SameResults client.state client.state :=
    ⟨rfl, rfl, rfl, rfl, rfl⟩
  have hstale : ∀ request ∈ client.sent, request.number = number →
      request.seq ≠ client.submitSeq := by
    intro request hrequest hnumber
    exact Nat.ne_of_lt (hinv.older request hrequest (hnumber ▸ hbefore))
  cases event with
  | answered given answer =>
      obtain rfl := Option.some.inj hanswers
      obtain ⟨request, hfind, rfl⟩ := Option.map_eq_some_iff.mp hstep
      have hseq := hstale request (List.mem_of_find?_eq_some hfind)
        (key_of_find? hfind)
      unfold searchAnswered
      cases request.kind with
      | submit => simpa [hseq, SearchClient.received] using hsame
      | more priorCount =>
          simpa [hseq, doneLoading] using
            (⟨rfl, rfl, rfl, rfl, rfl⟩ :
              SameResults client.state (doneLoading client.state))
      | recover priorCount =>
          simpa [hseq, doneLoading] using
            (⟨rfl, rfl, rfl, rfl, rfl⟩ :
              SameResults client.state (doneLoading client.state))
  | failed given failure =>
      obtain rfl := Option.some.inj hanswers
      obtain ⟨request, hfind, rfl⟩ := Option.map_eq_some_iff.mp hstep
      have hseq := hstale request (List.mem_of_find?_eq_some hfind)
        (key_of_find? hfind)
      unfold searchFailed
      cases request.kind with
      | submit => simpa [hseq] using hsame
      | more priorCount =>
          dsimp only
          split
          · exact ⟨rfl, rfl, rfl, rfl, rfl⟩
          · exact ⟨rfl, rfl, rfl, rfl, rfl⟩
      | recover priorCount =>
          dsimp only
          rw [if_neg hseq]
          exact ⟨rfl, rfl, rfl, rfl, rfl⟩
  | setQuery | setFilters | setSort | setPageSize | setDefaultLanguage
  | submit | loadMore | reset => cases hanswers

end Stale

/-! ### The invariant -/

section Invariant

variable {π : Type u} {client : SearchClient π} {toLowerCase : Text → Text}

/-- A page under way asks for what follows the rows on screen. -/
def AsksRest (client : SearchClient π) (request : SentSearch) : Prop :=
  match request.kind with
  | .submit => False
  | .more priorCount => request.cursor = client.state.cursor ∧
      request.cursor.isSome ∧ priorCount = client.state.results.length
  | .recover priorCount => request.cursor = none ∧
      request.number ∈ client.recoveries ∧
      (∃ cursor ∈ client.state.cursor, cursor ∈ client.expired) ∧
      priorCount = client.state.results.length

/-- The rows on screen and the cursor that continues them. -/
def ShowsPages (client : SearchClient π) (search : Nat × SearchKey)
    (pages : List (AnsweredPage SearchKey Text (SearchResultRow π))) : Prop :=
  ResultPages search client.recoveries client.expired pages
      client.state.results ∧
    (∀ page ∈ pages, page ∈ client.answered) ∧
    (∀ last ∈ pages.getLast?, client.state.cursor.isSome →
      client.state.cursor = last.next) ∧
    (client.state.loading = false → client.searches.head? = some search)

structure SearchInv (client : SearchClient π) : Prop where
  seqs : SeqInv client
  answered : ∀ page ∈ client.answered, page.number < client.nextRequest ∧
    page.number ∉ client.sent.map SentSearch.number
  submitted : ∀ request ∈ client.sent, request.seq = client.submitSeq →
    request.kind = .submit → client.state.loading = true ∧
      request.cursor = none ∧
      client.searches.head? = some (request.number, request.key)
  paging : ∀ request ∈ client.sent, request.seq = client.submitSeq →
    request.kind ≠ .submit → client.state.loading = false ∧
      (∀ search ∈ client.searches.head?, request.key = search.2) ∧
      AsksRest client request
  single : ∀ request ∈ client.sent, ∀ other ∈ client.sent,
    request.seq = client.submitSeq → other.seq = client.submitSeq →
      other.number = request.number
  shown : client.state.results = [] ∧ client.state.cursor = none ∨
    ∃ search ∈ client.searches, ∃ pages, ShowsPages client search pages

theorem searchInv_start (pageSize : Nat) (language : Option Text) :
    SearchInv (SearchClient.start pageSize language : SearchClient π) where
  seqs := seqInv_start pageSize language
  answered := by simp [SearchClient.start]
  submitted := by simp [SearchClient.start]
  paging := by simp [SearchClient.start]
  single := by simp [SearchClient.start]
  shown := .inl ⟨rfl, rfl⟩

/-- What a step leaves alone that does not touch the rows on screen. -/
structure SameScreen (client after : SearchClient π) : Prop where
  results : after.state.results = client.state.results
  cursor : after.state.cursor = client.state.cursor
  loading : after.state.loading = client.state.loading
  submitSeq : after.submitSeq = client.submitSeq
  nextRequest : after.nextRequest = client.nextRequest
  searches : after.searches = client.searches
  expired : ∀ cursor ∈ client.expired, cursor ∈ after.expired
  recoveries : ∀ number ∈ client.recoveries, number ∈ after.recoveries

theorem AsksRest.keep {after : SearchClient π} {request : SentSearch}
    (hasks : AsksRest client request) (hscreen : SameScreen client after) :
    AsksRest after request := by
  unfold AsksRest at hasks ⊢
  rw [hscreen.results, hscreen.cursor]
  cases hkind : request.kind with
  | submit => simp [hkind] at hasks
  | more priorCount => simpa [hkind] using hasks
  | recover priorCount =>
      simp only [hkind] at hasks
      obtain ⟨hcursor, hnumber, ⟨old, hold, hlost⟩, hcount⟩ := hasks
      exact ⟨hcursor, hscreen.recoveries _ hnumber,
        ⟨old, hold, hscreen.expired _ hlost⟩, hcount⟩

/-- Requests may be dropped and pages recorded while the screen stays. -/
theorem SearchInv.keep (hinv : SearchInv client) {after : SearchClient π}
    (hseqs : SeqInv after) (hscreen : SameScreen client after)
    (hsent : ∀ request ∈ after.sent, request ∈ client.sent)
    (hanswered : ∀ page ∈ client.answered, page ∈ after.answered)
    (hfresh : ∀ page ∈ after.answered, page.number < client.nextRequest ∧
      page.number ∉ after.sent.map SentSearch.number) :
    SearchInv after where
  seqs := hseqs
  answered := by
    rw [hscreen.nextRequest]
    exact hfresh
  submitted := by
    intro request hrequest
    rw [hscreen.submitSeq, hscreen.loading, hscreen.searches]
    exact hinv.submitted request (hsent request hrequest)
  paging := by
    intro request hrequest hseq hkind
    rw [hscreen.submitSeq] at hseq
    obtain ⟨hloading, hkey, hasks⟩ :=
      hinv.paging request (hsent request hrequest) hseq hkind
    rw [hscreen.loading, hscreen.searches]
    exact ⟨hloading, hkey, hasks.keep hscreen⟩
  single := by
    intro request hrequest other hother
    rw [hscreen.submitSeq]
    exact hinv.single request (hsent request hrequest) other
      (hsent other hother)
  shown := by
    rw [hscreen.results, hscreen.cursor, hscreen.searches]
    rcases hinv.shown with hempty | ⟨search, hsearch, pages, hpages⟩
    · exact .inl hempty
    · refine .inr ⟨search, hsearch, pages, ?_⟩
      obtain ⟨hbuilt, hpagesAnswered, hcursor, hhead⟩ := hpages
      rw [ShowsPages, hscreen.results, hscreen.cursor, hscreen.loading,
        hscreen.searches]
      exact ⟨hbuilt.mono hscreen.recoveries hscreen.expired,
        fun page hpage => hanswered page (hpagesAnswered page hpage), hcursor,
        hhead⟩

/-- The pages on record answer none of the requests that remain. -/
theorem SearchInv.fresh_remaining (hinv : SearchInv client)
    {request : SentSearch} (hmem : request ∈ client.sent)
    (answer : SearchAnswer π) :
    ∀ page ∈ (client.received request answer).answered,
      page.number < client.nextRequest ∧
        page.number ∉ (client.remaining request.number).map
          SentSearch.number := by
  intro page hpage
  rcases List.mem_cons.mp hpage with rfl | hold
  · refine ⟨hinv.seqs.issued request hmem, ?_⟩
    intro hin
    obtain ⟨other, hother, hnumber⟩ := List.mem_map.mp hin
    exact (mem_remaining_searches.mp hother).2 hnumber
  · obtain ⟨hlt, hout⟩ := hinv.answered page hold
    refine ⟨hlt, fun hin => hout ?_⟩
    obtain ⟨other, hother, hnumber⟩ := List.mem_map.mp hin
    exact List.mem_map.mpr ⟨other, (mem_remaining_searches.mp hother).1, hnumber⟩

/-- Once the current request is settled, none of the search on screen is
under way. -/
theorem SearchInv.none_current (hinv : SearchInv client) {request : SentSearch}
    (hmem : request ∈ client.sent) (hseq : request.seq = client.submitSeq) :
    ∀ other ∈ client.remaining request.number,
      other.seq ≠ client.submitSeq := by
  intro other hother hcurrent
  obtain ⟨hin, hne⟩ := mem_remaining_searches.mp hother
  exact hne (hinv.single request hmem other hin hseq hcurrent)

/-- A step after which no request of the search on screen is under way. -/
theorem SearchInv.ofIdle {after : SearchClient π} (hseqs : SeqInv after)
    (hanswered : ∀ page ∈ after.answered, page.number < after.nextRequest ∧
      page.number ∉ after.sent.map SentSearch.number)
    (hidle : ∀ request ∈ after.sent, request.seq ≠ after.submitSeq)
    (hshown : after.state.results = [] ∧ after.state.cursor = none ∨
      ∃ search ∈ after.searches, ∃ pages, ShowsPages after search pages) :
    SearchInv after where
  seqs := hseqs
  answered := hanswered
  submitted := fun request hrequest hseq => absurd hseq (hidle request hrequest)
  paging := fun request hrequest hseq => absurd hseq (hidle request hrequest)
  single := fun request hrequest _ _ hseq => absurd hseq (hidle request hrequest)
  shown := hshown

/-- The only request of the search on screen is the one made now. -/
theorem SearchInv.send (hinv : SearchInv client) {kind : SearchKind}
    {seq : Nat} {cursor : Option Text} (hseq : seq ≤ client.submitSeq)
    (hidle : seq = client.submitSeq →
      ∀ request ∈ client.sent, request.seq ≠ client.submitSeq)
    (hsubmit : seq = client.submitSeq → kind = .submit →
      client.state.loading = true ∧ cursor = none ∧
      client.searches.head? = some (client.nextRequest, client.liveKey))
    (hpaging : seq = client.submitSeq → kind ≠ .submit →
      client.state.loading = false ∧ client.AsSubmitted ∧
      AsksRest client ⟨client.nextRequest, seq, kind, client.liveKey,
        client.pageSize, cursor, statedSort cursor client.state.sort⟩) :
    SearchInv (client.send kind seq cursor) where
  seqs := hinv.seqs.send kind cursor hseq
  answered := by
    intro page hpage
    obtain ⟨hlt, hout⟩ := hinv.answered page hpage
    refine ⟨Nat.lt_succ_of_lt hlt, ?_⟩
    change page.number ∉ client.nextRequest :: client.sent.map SentSearch.number
    rw [List.mem_cons, not_or]
    exact ⟨Nat.ne_of_lt hlt, hout⟩
  submitted := by
    intro request hrequest hcurrent hkind
    rcases List.mem_cons.mp hrequest with rfl | hold
    · exact hsubmit hcurrent hkind
    · exact hinv.submitted request hold hcurrent hkind
  paging := by
    intro request hrequest hcurrent hkind
    rcases List.mem_cons.mp hrequest with rfl | hold
    · exact hpaging hcurrent hkind
    · exact hinv.paging request hold hcurrent hkind
  single := by
    intro request hrequest other hother hcurrent hothers
    rcases List.mem_cons.mp hrequest with rfl | hold
    · rcases List.mem_cons.mp hother with rfl | holdOther
      · rfl
      · exact absurd hothers (hidle hcurrent other holdOther)
    · rcases List.mem_cons.mp hother with rfl | holdOther
      · exact absurd hcurrent (hidle hothers request hold)
      · exact hinv.single request hold other holdOther hcurrent hothers
  shown := hinv.shown

theorem SearchInv.submit (hinv : SearchInv client) :
    SearchInv (client.submit toLowerCase) := by
  obtain ⟨hsent, hnext, hanswered, hexpired, hrecoveries, hsame, hloading⟩ :=
    prepare_fields client toLowerCase
  have hidle : ∀ request ∈ (client.prepare toLowerCase).sent,
      request.seq ≠ client.submitSeq + 1 := by
    rw [hsent]
    intro request hrequest
    exact Nat.ne_of_lt (Nat.lt_succ_of_le (hinv.seqs.seq request hrequest))
  unfold SearchClient.submit
  apply SearchInv.send
  · refine SearchInv.ofIdle (hinv.seqs.newSearch hsent rfl rfl hnext) ?_ hidle ?_
    · change ∀ page ∈ (client.prepare toLowerCase).answered,
        page.number < (client.prepare toLowerCase).nextRequest ∧
          page.number ∉ (client.prepare toLowerCase).sent.map SentSearch.number
      rw [hanswered, hnext, hsent]
      exact hinv.answered
    · change (client.prepare toLowerCase).state.results = [] ∧
        (client.prepare toLowerCase).state.cursor = none ∨ _
      rw [hsame.results, hsame.cursor]
      rcases hinv.shown with hempty | ⟨search, hsearch, pages, hpages⟩
      · exact .inl hempty
      · obtain ⟨hbuilt, hpagesAnswered, hcursor, -⟩ := hpages
        refine .inr ⟨search, List.mem_cons_of_mem _ hsearch, pages, ?_⟩
        simp only [ShowsPages]
        rw [hsame.results, hsame.cursor, hrecoveries, hexpired, hanswered,
          hloading]
        exact ⟨hbuilt, hpagesAnswered, hcursor, fun hfalse => nomatch hfalse⟩
  · exact Nat.le_refl _
  · exact fun _ => hidle
  · intro _ _
    refine ⟨hloading, rfl, ?_⟩
    rw [← hnext]
    rfl
  · exact fun _ hkind => absurd rfl hkind

theorem SearchInv.loadMore (hinv : SearchInv client)
    (hguard : PagesAsSubmitted client .loadMore) :
    SearchInv client.loadMore := by
  unfold SearchClient.loadMore
  split
  · exact hinv
  · rename_i cursor hfrom
    obtain ⟨hkey, hnone⟩ := hguard (by rw [hfrom]; rfl)
    unfold SearchClient.pagesFrom at hfrom
    obtain ⟨⟨-, hloading, -⟩, hcursor⟩ :=
      Option.ite_none_right_eq_some.mp hfrom
    have hquiet : client.state.loading = false := by simpa using hloading
    have hidle : ∀ request ∈ client.sent, request.seq ≠ client.submitSeq := by
      intro request hrequest hseq
      have hbusy := (hinv.submitted request hrequest hseq
        (hnone request hrequest hseq)).1
      rw [hquiet] at hbusy
      cases hbusy
    apply SearchInv.send
    · exact hinv.keep (hinv.seqs.drop (fun _ hrequest => hrequest) rfl rfl rfl)
        ⟨rfl, rfl, rfl, rfl, rfl, rfl, fun _ h => h, fun _ h => h⟩
        (fun _ hrequest => hrequest)
        (fun _ hpage => hpage) hinv.answered
    · exact Nat.le_refl _
    · exact fun _ => hidle
    · intro _ hkind
      cases hkind
    · intro _ _
      exact ⟨hquiet, hkey, hcursor.symm, rfl, rfl⟩

theorem SearchInv.reset (hinv : SearchInv client) : SearchInv client.reset := by
  refine SearchInv.ofIdle (hinv.seqs.newSearch rfl rfl rfl rfl) hinv.answered
    ?_ (.inl ⟨rfl, rfl⟩)
  intro request hrequest
  exact Nat.ne_of_lt (Nat.lt_succ_of_le (hinv.seqs.seq request hrequest))

/-- A current page under way follows the pages of the newest search. -/
theorem SearchInv.current_pages (hinv : SearchInv client)
    {request : SentSearch} (hmem : request ∈ client.sent)
    (hseq : request.seq = client.submitSeq) (hkind : request.kind ≠ .submit)
    (hcursor : client.state.cursor.isSome) :
    ∃ search ∈ client.searches, ∃ pages,
      ResultPages search client.recoveries client.expired pages
        client.state.results ∧
      (∀ page ∈ pages, page ∈ client.answered) ∧
      (∃ last, pages.getLast? = some last ∧
        client.state.cursor = last.next) ∧
      client.state.loading = false ∧
      client.searches.head? = some search ∧ request.key = search.2 ∧
      request.number ∉ pages.map AnsweredPage.number := by
  obtain ⟨hloading, hkey, -⟩ := hinv.paging request hmem hseq hkind
  rcases hinv.shown with hempty | ⟨search, hsearch, pages, hpages⟩
  · rw [hempty.2] at hcursor
    cases hcursor
  · obtain ⟨hbuilt, hanswered, hnext, hhead⟩ := hpages
    obtain ⟨last, hlast⟩ := hbuilt.exists_last
    refine ⟨search, hsearch, pages, hbuilt, hanswered,
      ⟨last, hlast, hnext last hlast hcursor⟩, hloading, hhead hloading,
      hkey search (hhead hloading), ?_⟩
    intro hin
    obtain ⟨page, hpage, hnumber⟩ := List.mem_map.mp hin
    apply (hinv.answered page (hanswered page hpage)).2
    exact List.mem_map.mpr ⟨request, hmem, hnumber.symm⟩

/-- The page of a current request is on screen, and nothing else of its search
is under way. -/
theorem SearchInv.applied (hinv : SearchInv client) {request : SentSearch}
    (hmem : request ∈ client.sent) (hseq : request.seq = client.submitSeq)
    (answer : SearchAnswer π) {state : SearchStoreState π}
    (hshown : ∃ search ∈ client.searches, ∃ pages,
      ShowsPages { client.received request answer with state := state } search
        pages) :
    SearchInv { client.received request answer with state := state } := by
  apply SearchInv.ofIdle
  · refine hinv.seqs.drop ?_ rfl rfl rfl
    exact fun _ hother => (mem_remaining_searches.mp hother).1
  · exact hinv.fresh_remaining hmem answer
  · exact hinv.none_current hmem hseq
  · exact .inr hshown

theorem SearchInv.submit_answered (hinv : SearchInv client)
    {request : SentSearch} (hmem : request ∈ client.sent)
    (hseq : request.seq = client.submitSeq) (hkind : request.kind = .submit)
    (answer : SearchAnswer π) :
    SearchInv { client.received request answer with
      state := submitAnswered client.state answer } := by
  obtain ⟨-, hcursor, hhead⟩ := hinv.submitted request hmem hseq hkind
  apply hinv.applied hmem hseq
  refine ⟨_, List.mem_of_mem_head? hhead, _,
    .first ⟨request.number, request.key, request.cursor, answer.results,
      answer.nextCursor⟩ rfl hcursor (.inl rfl), ?_, ?_, fun _ => hhead⟩
  · intro page hpage
    rw [List.mem_singleton.mp hpage]
    exact List.mem_cons_self
  · intro last hlast _
    obtain rfl := Option.some.inj hlast
    rfl

/-- The pages stay answers when the latest one joins them. -/
theorem mem_answered_more
    {pages answered : List (AnsweredPage SearchKey Text (SearchResultRow π))}
    {latest : AnsweredPage SearchKey Text (SearchResultRow π)}
    (hanswered : ∀ page ∈ pages, page ∈ answered) :
    ∀ page ∈ pages ++ [latest], page ∈ latest :: answered := by
  intro page hpage
  rcases List.mem_append.mp hpage with hearlier | hnew
  · exact List.mem_cons_of_mem _ (hanswered page hearlier)
  · rw [List.mem_singleton.mp hnew]
    exact List.mem_cons_self

theorem SearchInv.more_answered (hinv : SearchInv client)
    {request : SentSearch} {priorCount : Nat} (hmem : request ∈ client.sent)
    (hseq : request.seq = client.submitSeq)
    (hkind : request.kind = .more priorCount) (answer : SearchAnswer π) :
    SearchInv { client.received request answer with
      state := doneLoading (moreAnswered client.state answer) } := by
  have hpaging : request.kind ≠ .submit := by
    rw [hkind]
    exact nofun
  have hasks := (hinv.paging request hmem hseq hpaging).2.2
  rw [AsksRest, hkind] at hasks
  obtain ⟨hcursor, hsome, -⟩ := hasks
  obtain ⟨search, hsearch, pages, hbuilt, hanswered, ⟨last, hlast, hnext⟩,
    hloading, hhead, hkey, hfresh⟩ :=
    hinv.current_pages hmem hseq hpaging (hcursor ▸ hsome)
  have hcontinues : Continues last
      ⟨request.number, request.key, request.cursor, answer.results,
        answer.nextCursor⟩ := by
    refine ⟨?_, hnext ▸ hcursor ▸ hsome, hcursor.trans hnext⟩
    exact hkey.trans (hbuilt.key_eq last (List.mem_of_getLast? hlast)).symm
  apply hinv.applied hmem hseq
  refine ⟨search, hsearch, _, .more _ hbuilt hlast hcontinues hfresh, ?_, ?_,
    fun _ => hhead⟩
  · exact mem_answered_more hanswered
  · intro final hfinal _
    rw [List.getLast?_append, List.getLast?_singleton] at hfinal
    obtain rfl := Option.some.inj hfinal
    rfl

/-- The page asked for again takes the place of the rows or goes behind
them. -/
theorem SearchInv.recover_answered (hinv : SearchInv client)
    {request : SentSearch} {priorCount : Nat} (hmem : request ∈ client.sent)
    (hseq : request.seq = client.submitSeq)
    (hkind : request.kind = .recover priorCount) (answer : SearchAnswer π) :
    SearchInv { client.received request answer with
      state := doneLoading (recoverAnswered client.state priorCount answer) } := by
  have hpaging : request.kind ≠ .submit := by
    rw [hkind]
    exact nofun
  have hasks := (hinv.paging request hmem hseq hpaging).2.2
  rw [AsksRest, hkind] at hasks
  obtain ⟨hcursor, hrecovery, ⟨old, hold, hlost⟩, hcount⟩ := hasks
  obtain ⟨search, hsearch, pages, hbuilt, hanswered, ⟨last, hlast, hnext⟩,
    hloading, hhead, hkey, hfresh⟩ :=
    hinv.current_pages hmem hseq hpaging (by rw [hold]; rfl)
  apply hinv.applied hmem hseq
  unfold recoverAnswered
  split
  · refine ⟨search, hsearch, _,
      .first ⟨request.number, request.key, request.cursor, answer.results,
        answer.nextCursor⟩ hkey hcursor (.inr hrecovery), ?_, ?_,
      fun _ => hhead⟩
    · intro page hpage
      rw [List.mem_singleton.mp hpage]
      exact List.mem_cons_self
    · intro final hfinal _
      obtain rfl := Option.some.inj hfinal
      rfl
  · rename_i hlonger
    subst hcount
    refine ⟨search, hsearch, _,
      .recovered ⟨request.number, request.key, request.cursor, answer.results,
        answer.nextCursor⟩ hbuilt hlast hkey hcursor hrecovery
        (hnext.symm.trans hold) hlost (Nat.not_le.mp hlonger) hfresh, ?_, ?_,
      fun _ => hhead⟩
    · exact mem_answered_more hanswered
    · intro final hfinal _
      rw [List.getLast?_append, List.getLast?_singleton] at hfinal
      obtain rfl := Option.some.inj hfinal
      rfl

theorem SearchInv.searchAnswered (hinv : SearchInv client)
    {request : SentSearch} (hmem : request ∈ client.sent)
    (answer : SearchAnswer π) :
    SearchInv (Localmail.searchAnswered client request answer) := by
  -- an answer that is too late only ends the wait for it
  have hstale : ∀ state : SearchStoreState π,
      state.results = client.state.results →
      state.cursor = client.state.cursor →
      state.loading = client.state.loading →
      SearchInv { client.received request answer with state := state } := by
    intro state hresults hcursor hloading
    have hsent : ∀ other ∈ client.remaining request.number,
        other ∈ client.sent :=
      fun _ hother => (mem_remaining_searches.mp hother).1
    exact hinv.keep (hinv.seqs.drop hsent rfl rfl rfl)
      ⟨hresults, hcursor, hloading, rfl, rfl, rfl, fun _ h => h, fun _ h => h⟩
      hsent
      (fun _ hpage => List.mem_cons_of_mem _ hpage)
      (hinv.fresh_remaining hmem answer)
  by_cases hseq : request.seq = client.submitSeq
  · cases hkind : request.kind with
    | submit =>
        simpa [Localmail.searchAnswered, hkind, hseq] using
          hinv.submit_answered hmem hseq hkind answer
    | more priorCount =>
        simpa [Localmail.searchAnswered, hkind, hseq] using
          hinv.more_answered hmem hseq hkind answer
    | recover priorCount =>
        simpa [Localmail.searchAnswered, hkind, hseq] using
          hinv.recover_answered hmem hseq hkind answer
  · cases hkind : request.kind with
    | submit =>
        simpa [Localmail.searchAnswered, SearchClient.received, hkind, hseq]
          using hstale client.state rfl rfl rfl
    | more priorCount =>
        simpa [Localmail.searchAnswered, hkind, hseq] using
          hstale (doneLoading client.state) rfl rfl rfl
    | recover priorCount =>
        simpa [Localmail.searchAnswered, hkind, hseq] using
          hstale (doneLoading client.state) rfl rfl rfl

/-- The pages on record answer none of the requests that remain after a
failure. -/
theorem SearchInv.answered_remaining (hinv : SearchInv client)
    (number : Nat) : ∀ page ∈ client.answered,
      page.number < client.nextRequest ∧
        page.number ∉ (client.remaining number).map SentSearch.number := by
  intro page hpage
  obtain ⟨hlt, hout⟩ := hinv.answered page hpage
  refine ⟨hlt, fun hin => hout ?_⟩
  obtain ⟨other, hother, hnumber⟩ := List.mem_map.mp hin
  exact List.mem_map.mpr ⟨other, (mem_remaining_searches.mp hother).1, hnumber⟩

/-- A failure ends a request; the cursor may be given up with it. -/
theorem SearchInv.settled (hinv : SearchInv client) (number : Nat)
    {state : SearchStoreState π} (hresults : state.results = client.state.results)
    (hcursor : state.cursor = client.state.cursor)
    (hloading : state.loading = client.state.loading) :
    SearchInv { client with
      sent := client.remaining number
      state := state } := by
  have hsent : ∀ other ∈ client.remaining number, other ∈ client.sent :=
    fun _ hother => (mem_remaining_searches.mp hother).1
  exact hinv.keep (hinv.seqs.drop hsent rfl rfl rfl)
    ⟨hresults, hcursor, hloading, rfl, rfl, rfl, fun _ h => h, fun _ h => h⟩
    hsent (fun _ hpage => hpage) (hinv.answered_remaining number)

/-- A rejected cursor is retired while the rows stay. -/
theorem SearchInv.retired (hinv : SearchInv client) {request : SentSearch}
    (hmem : request ∈ client.sent) (hseq : request.seq = client.submitSeq)
    {state : SearchStoreState π} (hresults : state.results = client.state.results)
    (hcursor : state.cursor = none)
    (hloading : state.loading = client.state.loading) :
    SearchInv { client with
      sent := client.remaining request.number
      state := state } := by
  apply SearchInv.ofIdle
  · refine hinv.seqs.drop ?_ rfl rfl rfl
    exact fun _ hother => (mem_remaining_searches.mp hother).1
  · exact hinv.answered_remaining request.number
  · exact hinv.none_current hmem hseq
  · change state.results = [] ∧ state.cursor = none ∨ _
    rcases hinv.shown with hempty | ⟨search, hsearch, pages, hpages⟩
    · exact .inl ⟨hresults.trans hempty.1, hcursor⟩
    · obtain ⟨hbuilt, hanswered, -, hhead⟩ := hpages
      refine .inr ⟨search, hsearch, pages, ?_, hanswered, ?_, ?_⟩
      · change ResultPages search client.recoveries client.expired pages
          state.results
        rw [hresults]
        exact hbuilt
      · intro last _ hsome
        change state.cursor.isSome at hsome
        rw [hcursor] at hsome
        cases hsome
      · intro hquiet
        exact hhead (hloading.symm.trans hquiet)

theorem SearchInv.givenUp (hinv : SearchInv client) {request : SentSearch}
    (hmem : request ∈ client.sent) (failure : SearchFailure) :
    SearchInv { client with
      sent := client.remaining request.number
      state := doneLoading (if request.seq = client.submitSeq then
        moreFailed client.state failure else client.state) } := by
  split
  · rename_i hseq
    unfold moreFailed
    split
    · exact hinv.retired hmem hseq rfl rfl rfl
    · exact hinv.settled _ rfl rfl rfl
  · exact hinv.settled _ rfl rfl rfl

/-- A page whose cursor has expired is asked for again. -/
theorem SearchInv.expired_resent (hinv : SearchInv client)
    {request : SentSearch} {priorCount : Nat} (hmem : request ∈ client.sent)
    (hkind : request.kind = .more priorCount)
    (hguard : request.seq = client.submitSeq → client.AsSubmitted) :
    SearchInv ((client.expire request).send (.recover priorCount) request.seq
      none) := by
  have hpaging : request.kind ≠ .submit := by
    rw [hkind]
    exact nofun
  have hsent : ∀ other ∈ client.remaining request.number,
      other ∈ client.sent :=
    fun _ hother => (mem_remaining_searches.mp hother).1
  apply SearchInv.send
  · exact hinv.keep (hinv.seqs.drop hsent rfl rfl rfl)
      ⟨rfl, rfl, rfl, rfl, rfl, rfl,
        fun _ hcursor => List.mem_append_right _ hcursor,
        fun _ hnumber => List.mem_cons_of_mem _ hnumber⟩
      hsent (fun _ hpage => hpage) (hinv.answered_remaining _)
  · exact hinv.seqs.seq request hmem
  · exact fun hseq => hinv.none_current hmem hseq
  · intro _ hsubmit
    cases hsubmit
  · intro hseq _
    obtain ⟨hloading, -, hasks⟩ := hinv.paging request hmem hseq hpaging
    rw [AsksRest, hkind] at hasks
    obtain ⟨hcursor, hsome, hcount⟩ := hasks
    obtain ⟨old, hold⟩ := Option.isSome_iff_exists.mp hsome
    refine ⟨hloading, hguard hseq, rfl, List.mem_cons_self,
      ⟨old, hcursor.symm.trans hold, List.mem_append_left _ ?_⟩, hcount⟩
    rw [hold]
    exact List.mem_singleton_self old

theorem SearchInv.searchFailed (hinv : SearchInv client)
    {request : SentSearch} (hmem : request ∈ client.sent)
    (failure : SearchFailure)
    (hguard : failure.cursorExpired → request.kind.isMore →
      request.seq = client.submitSeq → client.AsSubmitted) :
    SearchInv (Localmail.searchFailed client request failure) := by
  unfold Localmail.searchFailed
  cases hkind : request.kind with
  | submit =>
      dsimp only
      split
      · rename_i hseq
        refine SearchInv.ofIdle (hinv.seqs.drop ?_ rfl rfl rfl)
          (hinv.answered_remaining _) (hinv.none_current hmem hseq)
          (.inl ⟨rfl, rfl⟩)
        exact fun _ hother => (mem_remaining_searches.mp hother).1
      · exact hinv.settled _ rfl rfl rfl
  | more priorCount =>
      dsimp only
      by_cases hexpired : failure.cursorExpired
      · rw [if_pos hexpired]
        apply hinv.expired_resent hmem hkind
        apply hguard hexpired
        rw [hkind]
        rfl
      · rw [if_neg hexpired]
        exact hinv.givenUp hmem failure
  | recover priorCount => exact hinv.givenUp hmem failure

theorem SearchInv.step (hinv : SearchInv client) {event : SearchStoreEvent π}
    {after : SearchClient π} (hguard : PagesAsSubmitted client event)
    (hstep : searchStoreStep toLowerCase client event = some after) :
    SearchInv after := by
  cases event with
  | setQuery | setFilters | setSort | setPageSize | setDefaultLanguage =>
      obtain rfl := Option.some.inj hstep
      exact hinv.keep (hinv.seqs.drop (fun _ hrequest => hrequest) rfl rfl rfl)
        ⟨rfl, rfl, rfl, rfl, rfl, rfl, fun _ h => h, fun _ h => h⟩
        (fun _ hrequest => hrequest) (fun _ hpage => hpage) hinv.answered
  | submit =>
      obtain rfl := Option.some.inj hstep
      exact hinv.submit
  | loadMore =>
      obtain rfl := Option.some.inj hstep
      exact hinv.loadMore hguard
  | reset =>
      obtain rfl := Option.some.inj hstep
      exact hinv.reset
  | answered number answer =>
      obtain ⟨request, hfind, rfl⟩ := Option.map_eq_some_iff.mp hstep
      exact hinv.searchAnswered (List.mem_of_find?_eq_some hfind) answer
  | failed number failure =>
      obtain ⟨request, hfind, rfl⟩ := Option.map_eq_some_iff.mp hstep
      have hmem := List.mem_of_find?_eq_some hfind
      have hnumber : request.number = number := key_of_find? hfind
      apply hinv.searchFailed hmem
      intro hexpired hmore hseq
      exact hguard hexpired ⟨request, hmem, hnumber, hmore, hseq⟩

/-- The rows on screen are those of one search. -/
theorem SearchInv.oneSearch (hinv : SearchInv client) :
    ResultsOfOneSearch client := by
  rcases hinv.shown with hempty | ⟨search, hsearch, pages, hpages⟩
  · exact .inl hempty.1
  · obtain ⟨hbuilt, hanswered, -, -⟩ := hpages
    refine .inr ⟨search, hsearch, pages, hbuilt, hanswered, hbuilt.key_eq,
      hbuilt.once, ?_⟩
    intro hdisjoint htail
    obtain ⟨hrows, first, hchain⟩ := hbuilt.chain htail
    obtain ⟨hnodup, hpairwise⟩ := hdisjoint search.2 first pages hchain hanswered
    rw [hrows, shownRows, List.map_flatMap, List.nodup_flatMap]
    exact ⟨hnodup, hpairwise⟩

end Invariant

/-! ### Every run -/

/-- As long as pages are asked for as submitted and one at a time, the results
are those of one search.  An answer to a request made before the latest submit
or reset never changes them, in any run. -/
theorem results_of_one_search {π : Type u} (toLowerCase : Text → Text)
    (pageSize : Nat) (language : Option Text) :
    (∀ client : SearchClient π,
      GuardedReach (searchStoreStep toLowerCase) PagesAsSubmitted
        (SearchClient.start pageSize language) client →
      ResultsOfOneSearch client) ∧
    ∀ client : SearchClient π,
      Reach (searchStoreStep toLowerCase) (SearchClient.start pageSize language)
        client →
      ∀ event number after, event.answers = some number →
        number < client.lastSearch →
        searchStoreStep toLowerCase client event = some after →
        SameResults client.state after.state := by
  constructor
  · intro client hreach
    have hinv : SearchInv client :=
      hreach.invariant (searchInv_start pageSize language)
        (fun _ _ _ hbefore hguard hstep => hbefore.step hguard hstep)
    exact hinv.oneSearch
  · intro client hreach event number after hanswers hbefore hstep
    have hinv : SeqInv client :=
      hreach.invariant (seqInv_start pageSize language)
        (fun _ _ _ hold _ henabled => hold.step henabled)
    exact hinv.unchanged hanswers hbefore hstep

namespace SearchWitness

def row (messageId : String) : SearchResultRow Unit :=
  ⟨text messageId, ()⟩

def page (ids : List String) (next : Option String) : SearchAnswer Unit where
  results := ids.map row
  nextCursor := next.map text
  tookMs := 7
  sortApplied := some (text "rank")
  rankable := some true

def gone : SearchFailure := ⟨true, some 409, text "cursor expired"⟩

/-- The second page is asked for again because its cursor has expired. -/
def recovering : List (SearchStoreEvent Unit) :=
  [.setQuery (text "plan"), .submit, .answered 0 (page ["a", "b"] (some "p2")),
    .loadMore, .failed 1 gone, .answered 2 (page ["a", "b", "c"] (some "p3"))]

/-- And one more page after that. -/
def paged : List (SearchStoreEvent Unit) :=
  recovering ++ [.loadMore, .answered 3 (page ["d"] none)]

/-- A further page is under way when the store is reset. -/
def resetWhilePaging : List (SearchStoreEvent Unit) :=
  [.setQuery (text "plan"), .submit, .answered 0 (page ["a"] (some "p2")),
    .loadMore, .reset]

/-- What was searched for in these runs. -/
def plan : SearchKey :=
  ⟨text "plan", filtersUiToWire emptyFilters⟩

end SearchWitness

open SearchWitness in
theorem results_of_one_search_recovered :
    (∃ client, replayGuarded (searchStoreStep id) PagesAsSubmitted
        (SearchClient.start 2 none) paged = some client ∧
      client.state.results = ["a", "b", "c", "d"].map row ∧
      ResultsOfOneSearch client) ∧
    ∃ client after, replayGuarded (searchStoreStep id) (fun _ _ => True)
        (SearchClient.start 2 none) resetWhilePaging = some client ∧
      searchStoreStep id client (.answered 1 (page ["z"] none)) = some after ∧
      SameResults client.state after.state := by
  constructor
  · refine ⟨_, rfl, rfl, ?_⟩
    exact (results_of_one_search id 2 none).1 _
      (GuardedReach.of_replay paged rfl)
  · refine ⟨_, _, rfl, rfl, ?_⟩
    exact (results_of_one_search id 2 none).2 _
      (GuardedReach.of_replay resetWhilePaging rfl)
      (.answered 1 (page ["z"] none)) 1 _ rfl (by decide) rfl

/-- The results as consecutive pages of one walk from the submit's own first
page on. -/
def ResultsOfOneWalk {π : Type u} (client : SearchClient π) : Prop :=
  client.state.results = [] ∨ ∃ search ∈ client.searches, ∃ pages,
    CursorChain search.2 search.1 pages ∧
    (∀ page ∈ pages, page ∈ client.answered) ∧
    client.state.results = shownRows pages

open SearchWitness in
/-- A recovered page was not asked for with the cursor before it. -/
theorem recovered_results_no_walk :
    ∃ client : SearchClient Unit,
      Reach (searchStoreStep id) (SearchClient.start 2 none) client ∧
      client.sent = [] ∧ client.state.results = ["a", "b", "c"].map row ∧
      ¬ ResultsOfOneWalk client := by
  obtain ⟨client, hreplay, hsent, hresults, hsearches, hanswered⟩ :
      ∃ client, replayGuarded (searchStoreStep id) (fun _ _ => True)
          (SearchClient.start 2 none) recovering = some client ∧
        client.sent = [] ∧ client.state.results = ["a", "b", "c"].map row ∧
        client.searches = [(0, plan)] ∧
        client.answered =
          [⟨2, plan, none, ["a", "b", "c"].map row, some (text "p3")⟩,
            ⟨0, plan, none, ["a", "b"].map row, some (text "p2")⟩] :=
    ⟨_, rfl, rfl, rfl, rfl, rfl⟩
  refine ⟨client, .of_replay recovering hreplay, hsent, hresults, ?_⟩
  rintro (hempty | ⟨search, hsearch, pages, hchain, hpages, hrows⟩)
  · rw [hresults] at hempty
    cases hempty
  · rw [hsearches, List.mem_singleton] at hsearch
    subst hsearch
    have hcursors : ∀ page ∈ pages, page.cursor = none := by
      intro page hpage
      have hmem := hpages page hpage
      rw [hanswered, List.mem_cons, List.mem_singleton] at hmem
      rcases hmem with rfl | rfl
      · rfl
      · rfl
    obtain ⟨start, hhead, hnumber, -, -⟩ := hchain.head
    cases pages with
    | nil => cases hhead
    | cons head rest =>
        obtain rfl := Option.some.inj hhead
        cases rest with
        | nil =>
            have hmem := hpages head List.mem_cons_self
            rw [hanswered, List.mem_cons, List.mem_singleton] at hmem
            rcases hmem with rfl | rfl
            · cases hnumber
            · rw [hresults, shownRows_singleton] at hrows
              revert hrows
              decide
        | cons next rest =>
            -- a second page would need a cursor
            obtain ⟨-, hsome, hcursor⟩ :=
              (List.isChain_cons_cons.mp hchain.linked).1
            rw [← hcursor, hcursors next (by simp)] at hsome
            cases hsome

end Localmail
