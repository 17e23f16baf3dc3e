/-
The message list of the desktop client: `MailStore` with its calls, and the
answers to its requests in whatever order they arrive.  A list request carries
no sequence number, so the list belongs to the latest selection as long as no
answer overtakes the one that filled it.
-/
import Localmail.CursorChain
import Localmail.FilterParse
import Localmail.KeyedRows
import Localmail.LabelledRun

namespace Localmail

universe u

/-! ### The store -/

/-- A row of the list; `header` is what the store only carries along. -/
structure MessageSummary (π : Type u) where
  messageId : Text
  header : π
deriving Repr, DecidableEq

inductive Selection where
  | all
  | account (accountId : Text)
  | folder (accountId folderId : Text)
deriving Repr, DecidableEq

structure FilterOpts where
  accountIds : List Text
  folderIds : List Text
deriving Repr, DecidableEq

def selectionToFilterOpts : Selection → FilterOpts
  | .all => ⟨[], []⟩
  | .account accountId => ⟨[accountId], []⟩
  | .folder accountId folderId => ⟨[accountId], [folderId]⟩

/-- `MAX_PENDING_NEW_MESSAGES`. -/
def maxPendingNewMessages : Nat := 500

/-- `MAX_POLL_FAILURES`. -/
def maxPollFailures : Nat := 5

def parseCursor (raw : Option Text) : Option Text :=
  raw.filter fun cursor => !cursor.all CodePoint.isJsSpace

/-- The fields of `MailStore` its list calls read and write.
`loadMoreInFlight` is the request of the promise it holds. -/
structure MailStore (π : Type u) where
  messages : List (MessageSummary π)
  pendingNewMessages : List (MessageSummary π)
  selection : Selection
  loadingMessages : Bool
  loadingMore : Bool
  errorMessage : Option Text
  changeCursor : Option Text
  polling : Bool
  pollFailureCount : Nat
  messagesCursor : Option Text
  messagesHasMore : Bool
  loadMoreInFlight : Option Nat
  currentFilterOpts : FilterOpts
deriving Repr, DecidableEq

def MailStore.initial {π : Type u} : MailStore π where
  messages := []
  pendingNewMessages := []
  selection := .all
  loadingMessages := false
  loadingMore := false
  errorMessage := none
  changeCursor := none
  polling := false
  pollFailureCount := 0
  messagesCursor := none
  messagesHasMore := false
  loadMoreInFlight := none
  currentFilterOpts := ⟨[], []⟩

inductive ListKind where
  | initial
  | more
deriving Repr, DecidableEq

/-- A `listMessages` call that has no answer yet. -/
structure ListRequest where
  number : Nat
  kind : ListKind
  opts : FilterOpts
  limit : Nat
  cursor : Option Text
deriving Repr, DecidableEq

/-- What became of a `loadInitialMessages` call.  `succeeded before` keeps the
number of the first request made after its answer. -/
inductive LoadOutcome where
  | waiting
  | failed
  | succeeded (before : Nat)
deriving Repr, DecidableEq

structure InitialLoad where
  number : Nat
  opts : FilterOpts
  outcome : LoadOutcome
deriving Repr, DecidableEq

/-- The store with the requests under way.  `latest`, `merged` and `answered`
record what happened: the latest initial load, the rows of the list that came
from the poll buffer, and every page the server returned. -/
structure MailClient (π : Type u) where
  store : MailStore π
  pageSize : Nat
  lists : List ListRequest
  polls : List Nat
  nextRequest : Nat
  latest : Option InitialLoad
  merged : List (MessageSummary π)
  answered : List (AnsweredPage FilterOpts Text (MessageSummary π))
deriving Repr, DecidableEq

def MailClient.start {π : Type u} (pageSize : Nat) : MailClient π where
  store := .initial
  pageSize := pageSize
  lists := []
  polls := []
  nextRequest := 0
  latest := none
  merged := []
  answered := []

section Calls

variable {π : Type u} (client : MailClient π)

def loadInitialMessages (opts : FilterOpts) : MailClient π :=
  { client with
    store := { client.store with
      loadingMessages := true
      errorMessage := none
      messages := []
      messagesCursor := none
      messagesHasMore := false
      currentFilterOpts := opts }
    lists := ⟨client.nextRequest, .initial, opts, client.pageSize, none⟩ ::
      client.lists
    nextRequest := client.nextRequest + 1
    latest := some ⟨client.nextRequest, opts, .waiting⟩
    merged := [] }

/-- `loadMoreMessages`; a call while one is under way joins it. -/
def loadMoreMessages : MailClient π :=
  match client.store.messagesHasMore, client.store.messagesCursor,
      client.store.loadMoreInFlight with
  | true, some cursor, none =>
      { client with
        store := { client.store with
          loadingMore := true
          loadMoreInFlight := some client.nextRequest }
        lists := ⟨client.nextRequest, .more, client.store.currentFilterOpts,
          client.pageSize, some cursor⟩ :: client.lists
        nextRequest := client.nextRequest + 1 }
  | _, _, _ => client

def setSelection (sel : Selection) : MailClient π :=
  if client.store.selection = sel then client
  else
    loadInitialMessages
      { client with store := { client.store with selection := sel } }
      (selectionToFilterOpts sel)

/-- The rows of a poll that are neither shown nor waiting already. -/
def freshRows (store : MailStore π) (incoming : List (MessageSummary π)) :
    List (MessageSummary π) :=
  incoming.filter fun row =>
    row.messageId ∉ (store.messages ++ store.pendingNewMessages).map
      MessageSummary.messageId

/-- `mergePendingNewMessages_internal`. -/
def bufferPending (store : MailStore π) (incoming : List (MessageSummary π)) :
    MailStore π :=
  match freshRows store incoming with
  | [] => store
  | fresh =>
      { store with
        pendingNewMessages :=
          (fresh ++ store.pendingNewMessages).take maxPendingNewMessages }

def mergePendingNewMessages : MailClient π :=
  { client with
    store := { client.store with
      messages := client.store.pendingNewMessages ++ client.store.messages
      pendingNewMessages := [] }
    merged := client.store.pendingNewMessages ++ client.merged }

def pollOnce : MailClient π :=
  { client with
    polls := client.nextRequest :: client.polls
    nextRequest := client.nextRequest + 1 }

/-- `pollOnce` after its answer. -/
def pollAnswered (store : MailStore π) (newMessages : List (MessageSummary π))
    (nextCursor : Option Text) : MailStore π :=
  let changeCursor := parseCursor nextCursor <|> store.changeCursor
  { bufferPending { store with changeCursor := changeCursor } newMessages with
    pollFailureCount := 0 }

/-- `pollOnce` after a failure; too many in a row stop the polling. -/
def pollFailed (store : MailStore π) (error : Text) : MailStore π :=
  let failures := store.pollFailureCount + 1
  if maxPollFailures ≤ failures ∧ store.polling then
    { store with
      pollFailureCount := failures
      polling := false
      errorMessage := some (text "polling stopped after 5 consecutive failures"
        ++ text " (last: " ++ error ++ text ")") }
  else { store with pollFailureCount := failures, errorMessage := some error }

/-- The record of an initial load once request `number` is answered. -/
def settleLoad (number : Nat) (outcome : LoadOutcome) (load : InitialLoad) :
    InitialLoad :=
  if load.number = number then { load with outcome := outcome } else load

/-- The rest of a list call after its answer. -/
def listAnswered (request : ListRequest) (rows : List (MessageSummary π))
    (next : Option Text) : MailClient π :=
  let base :=
    { client with
      lists := client.lists.filter fun other => other.number ≠ request.number
      answered := ⟨request.number, request.opts, request.cursor, rows, next⟩ ::
        client.answered }
  match request.kind with
  | .initial =>
      { base with
        store := { client.store with
          messages := rows
          messagesCursor := next
          messagesHasMore := next.isSome
          loadingMessages := false }
        latest := client.latest.map
          (settleLoad request.number (.succeeded client.nextRequest))
        merged := [] }
  | .more =>
      { base with
        store := { client.store with
          messages := client.store.messages ++ rows
          messagesCursor := next
          messagesHasMore := next.isSome
          loadingMore := false
          loadMoreInFlight := none } }

/-- The rest of a list call after a failure. -/
def listFailed (request : ListRequest) (error : Text) : MailClient π :=
  let base :=
    { client with
      lists := client.lists.filter fun other => other.number ≠ request.number }
  match request.kind with
  | .initial =>
      { base with
        store := { client.store with
          errorMessage := some error
          loadingMessages := false }
        latest := client.latest.map (settleLoad request.number .failed) }
  | .more =>
      { base with
        store := { client.store with
          errorMessage := some error
          loadingMore := false
          loadMoreInFlight := none } }

end Calls

/-- A call of the store, or an answer to one of its requests. -/
inductive MailEvent (π : Type u) where
  | setSelection (sel : Selection)
  | loadInitialMessages (opts : FilterOpts)
  | loadMoreMessages
  | pollOnce
  | mergePendingNewMessages
  | setPageSize (pageSize : Nat)
  | startPolling
  | stopPolling
  | listAnswered (number : Nat) (rows : List (MessageSummary π))
      (next : Option Text)
  | listFailed (number : Nat) (error : Text)
  | pollAnswered (number : Nat) (newMessages : List (MessageSummary π))
      (next : Option Text)
  | pollFailed (number : Nat) (error : Text)

def mailStep {π : Type u} (client : MailClient π) :
    MailEvent π → Option (MailClient π)
  | .setSelection sel => some (setSelection client sel)
  | .loadInitialMessages opts => some (loadInitialMessages client opts)
  | .loadMoreMessages => some (loadMoreMessages client)
  | .pollOnce => some (pollOnce client)
  | .mergePendingNewMessages => some (mergePendingNewMessages client)
  | .setPageSize pageSize => some { client with pageSize := pageSize }
  | .startPolling =>
      some { client with store := { client.store with polling := true } }
  | .stopPolling =>
      some { client with store := { client.store with polling := false } }
  | .listAnswered number rows next =>
      (client.lists.find? fun request => request.number = number).map
        fun request => listAnswered client request rows next
  | .listFailed number error =>
      (client.lists.find? fun request => request.number = number).map
        fun request => listFailed client request error
  | .pollAnswered number newMessages next =>
      if number ∈ client.polls then
        some { client with
          store := pollAnswered client.store newMessages next
          polls := client.polls.filter (· ≠ number) }
      else none
  | .pollFailed number error =>
      if number ∈ client.polls then
        some { client with
          store := pollFailed client.store error
          polls := client.polls.filter (· ≠ number) }
      else none

/-! ### What the list promises -/

section Promise

variable {π : Type u}

/-- Apart from the rows merged from the poll buffer, the list is made of
consecutive pages for the load's options, from its own first page on, and the
cursor is the one the last of them returned. -/
structure Shows (client : MailClient π) (load : InitialLoad)
    (pages : List (AnsweredPage FilterOpts Text (MessageSummary π))) :
    Prop where
  chain : CursorChain load.opts load.number pages
  answered : ∀ page ∈ pages, page ∈ client.answered
  messages : client.store.messages = client.merged ++ shownRows pages
  cursor : ∀ last ∈ pages.getLast?, client.store.messagesCursor = last.next

/-- With no list request under way, a successful latest load is what the list
shows. -/
def ListBelongs (client : MailClient π) : Prop :=
  client.lists = [] → ∀ load ∈ client.latest, ∀ before,
    load.outcome = .succeeded before → ∃ pages, Shows client load pages

/-- No page arrives after the latest initial load succeeded if it was asked
for before that. -/
def ArrivesInTurn (client : MailClient π) : MailEvent π → Prop
  | .listAnswered number _ _ =>
      ∀ load ∈ client.latest, ∀ before, load.outcome = .succeeded before →
        before ≤ number
  | _ => True

instance (client : MailClient π) (event : MailEvent π) :
    Decidable (ArrivesInTurn client event) :=
  match event with
  | .listAnswered number _ _ =>
      match hload : client.latest with
      | none => isTrue (by simp [ArrivesInTurn, hload])
      | some ⟨_, _, .succeeded before⟩ =>
          if hle : before ≤ number then
            isTrue (by simp [ArrivesInTurn, hload, hle])
          else isFalse (by simp [ArrivesInTurn, hload, hle])
      | some ⟨_, _, .waiting⟩ => isTrue (by simp [ArrivesInTurn, hload])
      | some ⟨_, _, .failed⟩ => isTrue (by simp [ArrivesInTurn, hload])
  | .setSelection _ | .loadInitialMessages _ | .loadMoreMessages | .pollOnce
  | .mergePendingNewMessages | .setPageSize _ | .startPolling | .stopPolling
  | .listFailed _ _ | .pollAnswered _ _ _ | .pollFailed _ _ => isTrue trivial

end Promise

/-! ### The invariant -/

section Invariant

variable {π : Type u} {client : MailClient π}

/-- A request made since the load succeeded asks for the next page. -/
def AsksNext (client : MailClient π) (load : InitialLoad)
    (request : ListRequest) : Prop :=
  request.kind = .more ∧ request.opts = load.opts ∧
    request.cursor = client.store.messagesCursor

structure MailInv (client : MailClient π) : Prop where
  issued : ∀ request ∈ client.lists, request.number < client.nextRequest
  answered : ∀ page ∈ client.answered, page.number < client.nextRequest ∧
    page.number ∉ client.lists.map ListRequest.number
  more : ∀ request ∈ client.lists, request.kind = .more →
    client.store.loadMoreInFlight = some request.number ∧ request.cursor.isSome
  hasMore : client.store.messagesHasMore = client.store.messagesCursor.isSome
  latest : ∀ load ∈ client.latest, load.number < client.nextRequest ∧
    client.store.currentFilterOpts = load.opts ∧
    ∀ request ∈ client.lists, request.number = load.number →
      request.kind = .initial ∧ request.opts = load.opts ∧ request.cursor = none
  shown : ∀ load ∈ client.latest, ∀ before, load.outcome = .succeeded before →
    load.number < before ∧ before ≤ client.nextRequest ∧
    (∃ pages, Shows client load pages) ∧
    ∀ request ∈ client.lists, before ≤ request.number →
      AsksNext client load request

theorem mailInv_start (pageSize : Nat) :
    MailInv (MailClient.start pageSize : MailClient π) := by
  constructor <;> simp [MailClient.start, MailStore.initial]

/-- The fields of the store a step leaves alone when it does not touch the
list. -/
structure SameList (store after : MailStore π) : Prop where
  messages : after.messages = store.messages
  messagesCursor : after.messagesCursor = store.messagesCursor
  messagesHasMore : after.messagesHasMore = store.messagesHasMore
  loadMoreInFlight : after.loadMoreInFlight = store.loadMoreInFlight
  currentFilterOpts : after.currentFilterOpts = store.currentFilterOpts

/-- What does not touch the list, its requests and their record keeps the
invariant. -/
theorem MailInv.keep (hinv : MailInv client) {after : MailClient π}
    (hstore : SameList client.store after.store)
    (hlists : after.lists = client.lists) (hlatest : after.latest = client.latest)
    (hmerged : after.merged = client.merged)
    (hanswered : after.answered = client.answered)
    (hnext : client.nextRequest ≤ after.nextRequest) : MailInv after where
  issued := by
    intro request hrequest
    rw [hlists] at hrequest
    exact Nat.lt_of_lt_of_le (hinv.issued request hrequest) hnext
  answered := by
    intro page hpage
    rw [hanswered] at hpage
    rw [hlists]
    obtain ⟨hlt, hout⟩ := hinv.answered page hpage
    exact ⟨Nat.lt_of_lt_of_le hlt hnext, hout⟩
  more := by
    intro request hrequest
    rw [hlists] at hrequest
    rw [hstore.loadMoreInFlight]
    exact hinv.more request hrequest
  hasMore := by
    rw [hstore.messagesHasMore, hstore.messagesCursor]
    exact hinv.hasMore
  latest := by
    intro load hload
    rw [hlatest] at hload
    rw [hstore.currentFilterOpts, hlists]
    obtain ⟨hlt, hrest⟩ := hinv.latest load hload
    exact ⟨Nat.lt_of_lt_of_le hlt hnext, hrest⟩
  shown := by
    intro load hload before houtcome
    rw [hlatest] at hload
    obtain ⟨hlt, hle, ⟨pages, hpages⟩, hasks⟩ :=
      hinv.shown load hload before houtcome
    refine ⟨hlt, Nat.le_trans hle hnext, ⟨pages, hpages.chain, ?_, ?_, ?_⟩, ?_⟩
    · rw [hanswered]
      exact hpages.answered
    · rw [hstore.messages, hmerged]
      exact hpages.messages
    · rw [hstore.messagesCursor]
      exact hpages.cursor
    · rw [hlists]
      intro request hrequest hafter
      rw [AsksNext, hstore.messagesCursor]
      exact hasks request hrequest hafter

theorem MailInv.loadInitialMessages (hinv : MailInv client) (opts : FilterOpts) :
    MailInv (Localmail.loadInitialMessages client opts) where
  issued := by
    intro request hrequest
    rcases List.mem_cons.mp hrequest with rfl | hold
    · exact Nat.lt_succ_self _
    · exact Nat.lt_succ_of_lt (hinv.issued request hold)
  answered := by
    intro page hpage
    obtain ⟨hlt, hout⟩ := hinv.answered page hpage
    refine ⟨Nat.lt_succ_of_lt hlt, ?_⟩
    change page.number ∉ client.nextRequest :: client.lists.map ListRequest.number
    rw [List.mem_cons, not_or]
    exact ⟨Nat.ne_of_lt hlt, hout⟩
  more := by
    intro request hrequest hkind
    rcases List.mem_cons.mp hrequest with rfl | hold
    · cases hkind
    · exact hinv.more request hold hkind
  hasMore := rfl
  latest := by
    rintro _ ⟨⟩
    refine ⟨Nat.lt_succ_self _, rfl, ?_⟩
    intro request hrequest hnumber
    rcases List.mem_cons.mp hrequest with rfl | hold
    · exact ⟨rfl, rfl, rfl⟩
    · exact absurd hnumber (Nat.ne_of_lt (hinv.issued request hold))
  shown := by
    rintro _ ⟨⟩ before houtcome
    cases houtcome

theorem MailInv.loadMoreMessages (hinv : MailInv client) :
    MailInv (Localmail.loadMoreMessages client) := by
  unfold Localmail.loadMoreMessages
  split
  · rename_i cursor hmore hcursor hidle
    have hnone : ∀ request ∈ client.lists, request.kind ≠ .more := by
      intro request hrequest hkind
      have hflight := (hinv.more request hrequest hkind).1
      rw [hidle] at hflight
      cases hflight
    constructor
    · intro request hrequest
      rcases List.mem_cons.mp hrequest with rfl | hold
      · exact Nat.lt_succ_self _
      · exact Nat.lt_succ_of_lt (hinv.issued request hold)
    · intro page hpage
      obtain ⟨hlt, hout⟩ := hinv.answered page hpage
      refine ⟨Nat.lt_succ_of_lt hlt, ?_⟩
      change page.number ∉
        client.nextRequest :: client.lists.map ListRequest.number
      rw [List.mem_cons, not_or]
      exact ⟨Nat.ne_of_lt hlt, hout⟩
    · intro request hrequest hkind
      rcases List.mem_cons.mp hrequest with rfl | hold
      · exact ⟨rfl, rfl⟩
      · exact absurd hkind (hnone request hold)
    · exact hinv.hasMore
    · intro load hload
      obtain ⟨hlt, hopts, hrequests⟩ := hinv.latest load hload
      refine ⟨Nat.lt_succ_of_lt hlt, hopts, ?_⟩
      intro request hrequest hnumber
      rcases List.mem_cons.mp hrequest with rfl | hold
      · exact absurd hnumber (Nat.ne_of_gt hlt)
      · exact hrequests request hold hnumber
    · intro load hload before houtcome
      obtain ⟨hlt, hle, ⟨pages, hpages⟩, hasks⟩ :=
        hinv.shown load hload before houtcome
      refine ⟨hlt, Nat.le_succ_of_le hle, ⟨pages, hpages.chain, hpages.answered,
        hpages.messages, hpages.cursor⟩, ?_⟩
      intro request hrequest hafter
      rcases List.mem_cons.mp hrequest with rfl | hold
      · exact ⟨rfl, (hinv.latest load hload).2.1, hcursor.symm⟩
      · exact hasks request hold hafter
  · exact hinv

theorem MailInv.setSelection (hinv : MailInv client) (sel : Selection) :
    MailInv (Localmail.setSelection client sel) := by
  unfold Localmail.setSelection
  split
  · exact hinv
  · apply MailInv.loadInitialMessages
    exact hinv.keep ⟨rfl, rfl, rfl, rfl, rfl⟩ rfl rfl rfl rfl (Nat.le_refl _)

theorem MailInv.mergePendingNewMessages (hinv : MailInv client) :
    MailInv (Localmail.mergePendingNewMessages client) where
  issued := hinv.issued
  answered := hinv.answered
  more := hinv.more
  hasMore := hinv.hasMore
  latest := hinv.latest
  shown := by
    intro load hload before houtcome
    obtain ⟨hlt, hle, ⟨pages, hpages⟩, hasks⟩ :=
      hinv.shown load hload before houtcome
    refine ⟨hlt, hle, ⟨pages, hpages.chain, hpages.answered, ?_,
      hpages.cursor⟩, hasks⟩
    change client.store.pendingNewMessages ++ client.store.messages =
      client.store.pendingNewMessages ++ client.merged ++ _
    rw [hpages.messages, List.append_assoc]

/-- What remains once request `number` is settled. -/
theorem mem_remaining {number : Nat} {request : ListRequest} :
    request ∈ (client.lists.filter fun other => other.number ≠ number) ↔
      request ∈ client.lists ∧ request.number ≠ number := by
  simp [List.mem_filter]

/-- A settled initial load keeps its number and its options. -/
theorem mem_settled {number : Nat} {outcome : LoadOutcome} {load : InitialLoad}
    (hload : load ∈ client.latest.map (settleLoad number outcome)) :
    ∃ before ∈ client.latest, load = settleLoad number outcome before ∧
      load.number = before.number ∧ load.opts = before.opts := by
  obtain ⟨before, hbefore, rfl⟩ := Option.map_eq_some_iff.mp hload
  refine ⟨before, hbefore, rfl, ?_⟩
  unfold settleLoad
  split
  · exact ⟨rfl, rfl⟩
  · exact ⟨rfl, rfl⟩

/-- The requests that remain were made before, and no page answers them. -/
theorem MailInv.answered_remaining (hinv : MailInv client)
    {request : ListRequest} (hmem : request ∈ client.lists)
    (rows : List (MessageSummary π)) (next : Option Text) :
    ∀ page ∈ (⟨request.number, request.opts, request.cursor, rows, next⟩ ::
        client.answered : List (AnsweredPage FilterOpts Text _)),
      page.number < client.nextRequest ∧
        page.number ∉ (client.lists.filter fun other =>
          other.number ≠ request.number).map ListRequest.number := by
  intro page hpage
  rcases List.mem_cons.mp hpage with rfl | hold
  · refine ⟨hinv.issued request hmem, ?_⟩
    intro hin
    obtain ⟨other, hother, hnumber⟩ := List.mem_map.mp hin
    exact (mem_remaining.mp hother).2 hnumber
  · obtain ⟨hlt, hout⟩ := hinv.answered page hold
    refine ⟨hlt, fun hin => hout ?_⟩
    obtain ⟨other, hother, hnumber⟩ := List.mem_map.mp hin
    exact List.mem_map.mpr ⟨other, (mem_remaining.mp hother).1, hnumber⟩

/-- The requests that remain ask for the latest load as before. -/
theorem MailInv.latest_remaining (hinv : MailInv client) (number : Nat) :
    ∀ load ∈ client.latest, load.number < client.nextRequest ∧
      client.store.currentFilterOpts = load.opts ∧
      ∀ other ∈ client.lists.filter (fun other => other.number ≠ number),
        other.number = load.number →
          other.kind = .initial ∧ other.opts = load.opts ∧ other.cursor = none := by
  intro load hload
  obtain ⟨hlt, hcurrent, hrequests⟩ := hinv.latest load hload
  refine ⟨hlt, hcurrent, ?_⟩
  intro other hother
  exact hrequests other (mem_remaining.mp hother).1

theorem MailInv.latest_settled (hinv : MailInv client) (number : Nat)
    (outcome : LoadOutcome) :
    ∀ load ∈ client.latest.map (settleLoad number outcome),
      load.number < client.nextRequest ∧
      client.store.currentFilterOpts = load.opts ∧
      ∀ other ∈ client.lists.filter (fun other => other.number ≠ number),
        other.number = load.number →
          other.kind = .initial ∧ other.opts = load.opts ∧ other.cursor = none := by
  intro load hload
  obtain ⟨before, hbefore, -, hnumber, hopts⟩ := mem_settled hload
  rw [hnumber, hopts]
  exact hinv.latest_remaining number before hbefore

/-- The other `loadMoreMessages` request is this one. -/
theorem MailInv.no_other_more (hinv : MailInv client) {request : ListRequest}
    (hmem : request ∈ client.lists) (hkind : request.kind = .more) :
    ∀ other ∈ (client.lists.filter fun other => other.number ≠ request.number),
      other.kind ≠ .more := by
  intro other hother hmore
  obtain ⟨hin, hne⟩ := mem_remaining.mp hother
  have hboth := (hinv.more other hin hmore).1.symm.trans
    (hinv.more request hmem hkind).1
  exact hne (Option.some.inj hboth)

/-- The first page of an initial load replaces the list.  Should the latest
load have succeeded already, the page was asked for since and so was no first
page. -/
theorem MailInv.initial_answered (hinv : MailInv client)
    {request : ListRequest} (hmem : request ∈ client.lists)
    (hkind : request.kind = .initial) (rows : List (MessageSummary π))
    (next : Option Text)
    (hturn : ArrivesInTurn client (.listAnswered request.number rows next)) :
    MailInv (listAnswered client request rows next) := by
  simp only [listAnswered, hkind]
  constructor
  · intro other hother
    exact hinv.issued other (mem_remaining.mp hother).1
  · exact hinv.answered_remaining hmem rows next
  · intro other hother hmore
    exact hinv.more other (mem_remaining.mp hother).1 hmore
  · rfl
  · exact hinv.latest_settled request.number _
  · intro load hload bound houtcome
    obtain ⟨before, hbefore, rfl, hnumber, hopts⟩ := mem_settled hload
    by_cases hsame : before.number = request.number
    · obtain ⟨-, hask, hcursor⟩ :=
        (hinv.latest before hbefore).2.2 request hmem hsame.symm
      obtain rfl : client.nextRequest = bound := by
        simpa [settleLoad, hsame] using houtcome
      refine ⟨hnumber ▸ (hinv.latest before hbefore).1, Nat.le_refl _,
        ⟨[⟨request.number, request.opts, request.cursor, rows, next⟩], ?_, ?_,
          ?_, ?_⟩, ?_⟩
      · rw [hnumber, hopts, hsame]
        exact CursorChain.singleton
          ⟨request.number, request.opts, request.cursor, rows, next⟩ hask hcursor
      · simp
      · simp
      · simp
      · intro other hother hafter
        have hlt := hinv.issued other (mem_remaining.mp hother).1
        exact absurd hlt (Nat.not_lt.mpr hafter)
    · rw [settleLoad, if_neg hsame] at houtcome
      obtain ⟨-, -, -, hasks⟩ := hinv.shown before hbefore bound houtcome
      have hmore := (hasks request hmem (hturn before hbefore bound houtcome)).1
      rw [hkind] at hmore
      cases hmore

/-- A further page goes to the end of the list, and the chain of pages grows
by one. -/
theorem MailInv.more_answered (hinv : MailInv client)
    {request : ListRequest} (hmem : request ∈ client.lists)
    (hkind : request.kind = .more) (rows : List (MessageSummary π))
    (next : Option Text)
    (hturn : ArrivesInTurn client (.listAnswered request.number rows next)) :
    MailInv (listAnswered client request rows next) := by
  simp only [listAnswered, hkind]
  constructor
  · intro other hother
    exact hinv.issued other (mem_remaining.mp hother).1
  · exact hinv.answered_remaining hmem rows next
  · intro other hother hmore
    exact absurd hmore (hinv.no_other_more hmem hkind other hother)
  · rfl
  · exact hinv.latest_remaining request.number
  · intro load hload bound houtcome
    obtain ⟨hlt, hle, ⟨pages, hpages⟩, hasks⟩ :=
      hinv.shown load hload bound houtcome
    obtain ⟨-, hopts, hcursor⟩ :=
      hasks request hmem (hturn load hload bound houtcome)
    obtain ⟨last, hlast⟩ := hpages.chain.exists_last
    have hnext : request.cursor = last.next :=
      hcursor.trans (hpages.cursor last hlast)
    have hkey := hpages.chain.key_eq last (List.mem_of_getLast? hlast)
    refine ⟨hlt, hle,
      ⟨pages ++ [⟨request.number, request.opts, request.cursor, rows, next⟩],
        ?_, ?_, ?_, ?_⟩, ?_⟩
    · apply hpages.chain.snoc hlast
      · exact ⟨hopts.trans hkey.symm, hnext ▸ (hinv.more request hmem hkind).2,
          hnext⟩
      · intro hin
        obtain ⟨page, hpage, hnumber⟩ := List.mem_map.mp hin
        apply (hinv.answered page (hpages.answered page hpage)).2
        exact List.mem_map.mpr ⟨request, hmem, hnumber.symm⟩
    · intro page hpage
      rcases List.mem_append.mp hpage with hold | hnew
      · exact List.mem_cons_of_mem _ (hpages.answered page hold)
      · rw [List.mem_singleton.mp hnew]
        exact List.mem_cons_self
    · rw [hpages.messages, shownRows_append, shownRows_singleton,
        List.append_assoc]
    · simp
    · intro other hother hafter
      have hmore := (hasks other (mem_remaining.mp hother).1 hafter).1
      exact absurd hmore (hinv.no_other_more hmem hkind other hother)

theorem MailInv.listAnswered (hinv : MailInv client) {request : ListRequest}
    (hmem : request ∈ client.lists) (rows : List (MessageSummary π))
    (next : Option Text)
    (hturn : ArrivesInTurn client (.listAnswered request.number rows next)) :
    MailInv (Localmail.listAnswered client request rows next) := by
  cases hkind : request.kind with
  | initial => exact hinv.initial_answered hmem hkind rows next hturn
  | more => exact hinv.more_answered hmem hkind rows next hturn

theorem MailInv.listFailed (hinv : MailInv client) {request : ListRequest}
    (hmem : request ∈ client.lists) (error : Text) :
    MailInv (Localmail.listFailed client request error) := by
  have hissued : ∀ other ∈ (client.lists.filter fun other =>
      other.number ≠ request.number), other.number < client.nextRequest :=
    fun other hother => hinv.issued other (mem_remaining.mp hother).1
  have hanswered : ∀ page ∈ client.answered, page.number < client.nextRequest ∧
      page.number ∉ (client.lists.filter fun other =>
        other.number ≠ request.number).map ListRequest.number := by
    intro page hpage
    apply hinv.answered_remaining hmem [] none
    exact List.mem_cons_of_mem _ hpage
  unfold Localmail.listFailed
  cases hkind : request.kind with
  | initial =>
      constructor
      · exact hissued
      · exact hanswered
      · intro other hother hmore
        exact hinv.more other (mem_remaining.mp hother).1 hmore
      · exact hinv.hasMore
      · exact hinv.latest_settled request.number _
      · intro load hload bound houtcome
        obtain ⟨before, hbefore, rfl, -, -⟩ := mem_settled hload
        by_cases hsame : before.number = request.number
        · simp [settleLoad, hsame] at houtcome
        · rw [settleLoad, if_neg hsame] at houtcome ⊢
          obtain ⟨hlt, hle, ⟨pages, hpages⟩, hasks⟩ :=
            hinv.shown before hbefore bound houtcome
          refine ⟨hlt, hle, ⟨pages, hpages.chain, hpages.answered,
            hpages.messages, hpages.cursor⟩, ?_⟩
          intro other hother
          exact hasks other (mem_remaining.mp hother).1
  | more =>
      constructor
      · exact hissued
      · exact hanswered
      · intro other hother hmore
        exact absurd hmore (hinv.no_other_more hmem hkind other hother)
      · exact hinv.hasMore
      · exact hinv.latest_remaining request.number
      · intro load hload bound houtcome
        obtain ⟨hlt, hle, ⟨pages, hpages⟩, hasks⟩ :=
          hinv.shown load hload bound houtcome
        refine ⟨hlt, hle, ⟨pages, hpages.chain, hpages.answered,
          hpages.messages, hpages.cursor⟩, ?_⟩
        intro other hother
        exact hasks other (mem_remaining.mp hother).1

theorem bufferPending_sameList (store : MailStore π)
    (incoming : List (MessageSummary π)) :
    SameList store (bufferPending store incoming) := by
  unfold bufferPending
  split
  · exact ⟨rfl, rfl, rfl, rfl, rfl⟩
  · exact ⟨rfl, rfl, rfl, rfl, rfl⟩

theorem pollAnswered_sameList (store : MailStore π)
    (newMessages : List (MessageSummary π)) (next : Option Text) :
    SameList store (pollAnswered store newMessages next) := by
  have hsame := bufferPending_sameList
    { store with changeCursor := parseCursor next <|> store.changeCursor }
    newMessages
  exact ⟨hsame.messages, hsame.messagesCursor, hsame.messagesHasMore,
    hsame.loadMoreInFlight, hsame.currentFilterOpts⟩

theorem pollFailed_sameList (store : MailStore π) (error : Text) :
    SameList store (pollFailed store error) := by
  simp only [pollFailed]
  split
  · exact ⟨rfl, rfl, rfl, rfl, rfl⟩
  · exact ⟨rfl, rfl, rfl, rfl, rfl⟩

theorem MailInv.step (hinv : MailInv client) {event : MailEvent π}
    {after : MailClient π} (hturn : ArrivesInTurn client event)
    (hstep : mailStep client event = some after) : MailInv after := by
  cases event with
  | setSelection sel =>
      obtain rfl := Option.some.inj hstep
      exact hinv.setSelection sel
  | loadInitialMessages opts =>
      obtain rfl := Option.some.inj hstep
      exact hinv.loadInitialMessages opts
  | loadMoreMessages =>
      obtain rfl := Option.some.inj hstep
      exact hinv.loadMoreMessages
  | pollOnce =>
      obtain rfl := Option.some.inj hstep
      exact hinv.keep ⟨rfl, rfl, rfl, rfl, rfl⟩ rfl rfl rfl rfl (Nat.le_succ _)
  | mergePendingNewMessages =>
      obtain rfl := Option.some.inj hstep
      exact hinv.mergePendingNewMessages
  | setPageSize pageSize =>
      obtain rfl := Option.some.inj hstep
      exact hinv.keep ⟨rfl, rfl, rfl, rfl, rfl⟩ rfl rfl rfl rfl (Nat.le_refl _)
  | startPolling =>
      obtain rfl := Option.some.inj hstep
      exact hinv.keep ⟨rfl, rfl, rfl, rfl, rfl⟩ rfl rfl rfl rfl (Nat.le_refl _)
  | stopPolling =>
      obtain rfl := Option.some.inj hstep
      exact hinv.keep ⟨rfl, rfl, rfl, rfl, rfl⟩ rfl rfl rfl rfl (Nat.le_refl _)
  | listAnswered number rows next =>
      obtain ⟨request, hfind, rfl⟩ := Option.map_eq_some_iff.mp hstep
      obtain rfl : request.number = number := key_of_find? hfind
      exact hinv.listAnswered (List.mem_of_find?_eq_some hfind) rows next hturn
  | listFailed number error =>
      obtain ⟨request, hfind, rfl⟩ := Option.map_eq_some_iff.mp hstep
      exact hinv.listFailed (List.mem_of_find?_eq_some hfind) error
  | pollAnswered number newMessages next =>
      obtain ⟨-, hafter⟩ := Option.ite_none_right_eq_some.mp hstep
      obtain rfl := Option.some.inj hafter
      exact hinv.keep (pollAnswered_sameList _ _ _) rfl rfl rfl rfl
        (Nat.le_refl _)
  | pollFailed number error =>
      obtain ⟨-, hafter⟩ := Option.ite_none_right_eq_some.mp hstep
      obtain rfl := Option.some.inj hafter
      exact hinv.keep (pollFailed_sameList _ _) rfl rfl rfl rfl (Nat.le_refl _)

end Invariant

/-! ### Every run -/

/-- As long as no page overtakes the answer that filled the list, the list is
that of the latest initial load. -/
theorem mail_list_belongs {π : Type u} (pageSize : Nat) (client : MailClient π)
    (hreach : GuardedReach mailStep ArrivesInTurn (MailClient.start pageSize)
      client) :
    ListBelongs client := by
  have hinv : MailInv client := hreach.invariant (mailInv_start pageSize)
    (fun _ _ _ hbefore hturn hstep => hbefore.step hturn hstep)
  intro _ load hload before houtcome
  exact (hinv.shown load hload before houtcome).2.2.1

namespace MailListWitness

def row (messageId : String) : MessageSummary Unit :=
  ⟨text messageId, ()⟩

/-- Two pages of one account, with a polled row merged between them. -/
def inTurn : List (MailEvent Unit) :=
  [.setSelection (.account (text "7")),
    .listAnswered 0 [row "c", row "b"] (some (text "p2")), .pollOnce,
    .pollAnswered 1 [row "d"] none, .mergePendingNewMessages,
    .loadMoreMessages, .listAnswered 2 [row "a"] none]

/-- All mail is asked for first and answered last. -/
def overtaken : List (MailEvent Unit) :=
  [.loadInitialMessages ⟨[], []⟩, .setSelection (.account (text "7")),
    .listAnswered 1 [row "b"] none, .listAnswered 0 [row "a"] none]

end MailListWitness

open MailListWitness in
theorem mail_list_belongs_two_pages :
    ∃ client, replayGuarded mailStep ArrivesInTurn (MailClient.start 2) inTurn =
        some client ∧
      client.lists = [] ∧
      client.latest = some ⟨0, ⟨[text "7"], []⟩, .succeeded 1⟩ ∧
      client.store.messages = [row "d", row "c", row "b", row "a"] ∧
      ListBelongs client := by
  refine ⟨_, rfl, rfl, rfl, rfl, ?_⟩
  exact mail_list_belongs 2 _ (GuardedReach.of_replay inTurn rfl)

open MailListWitness in
/-- The list of all mail is shown under the account selected since. -/
theorem mail_list_overtaken :
    ∃ client : MailClient Unit,
      Reach mailStep (MailClient.start 2) client ∧ client.lists = [] ∧
      client.store.selection = .account (text "7") ∧
      client.latest = some ⟨1, ⟨[text "7"], []⟩, .succeeded 2⟩ ∧
      client.store.messages = [row "a"] ∧ ¬ ListBelongs client := by
  obtain ⟨client, hreplay, hlists, hselection, hlatest, hmessages, hmerged,
      hanswered⟩ :
      ∃ client, replayGuarded mailStep (fun _ _ => True) (MailClient.start 2)
          overtaken = some client ∧ client.lists = [] ∧
        client.store.selection = .account (text "7") ∧
        client.latest = some ⟨1, ⟨[text "7"], []⟩, .succeeded 2⟩ ∧
        client.store.messages = [row "a"] ∧ client.merged = [] ∧
        client.answered = [⟨0, ⟨[], []⟩, none, [row "a"], none⟩,
          ⟨1, ⟨[text "7"], []⟩, none, [row "b"], none⟩] :=
    ⟨_, rfl, rfl, rfl, rfl, rfl, rfl, rfl⟩
  refine ⟨client, .of_replay overtaken hreplay, hlists, hselection, hlatest,
    hmessages, ?_⟩
  intro hbelongs
  obtain ⟨pages, hpages⟩ := hbelongs hlists _ hlatest 2 rfl
  have hrow : row "a" ∈ shownRows pages := by
    have hsame := hpages.messages
    rw [hmessages, hmerged, List.nil_append] at hsame
    exact hsame ▸ List.mem_singleton_self _
  obtain ⟨page, hpage, hin⟩ := List.mem_flatMap.mp hrow
  have hkey := hpages.chain.key_eq page hpage
  have hmem := hpages.answered page hpage
  rw [hanswered, List.mem_cons, List.mem_singleton] at hmem
  rcases hmem with rfl | rfl
  · revert hkey
    decide
  · revert hin
    decide

end Localmail
