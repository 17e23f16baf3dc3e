/-
What a step of the desktop client does to what is kept of it.  A client is
compared with what remains when some of its requests are forgotten: a call or
an answer to a kept request does not see the difference, and an answer to a
forgotten one makes none as long as it finds nothing to write.
-/
import Localmail.DesktopSession

namespace Localmail

universe u

variable {α φ π δ ρ : Type u} {toLowerCase : Text → Text}
  {keep : Nat → Bool}

/-! ### Forgotten requests -/

/-- The list without its record and the requests not in `keep`. -/
def MailClient.forget (keep : Nat → Bool) (client : MailClient π) :
    MailClient π where
  store := client.store
  pageSize := client.pageSize
  lists := client.lists.filter fun request => keep request.number
  polls := client.polls.filter keep
  nextRequest := 0
  latest := none
  merged := []
  answered := []

def MailScreen.forget (keep : Nat → Bool) (screen : MailScreen α φ π δ) :
    MailScreen α φ π δ where
  list := screen.list.forget keep
  panes := screen.panes
  imagePolicy := screen.imagePolicy
  requests := screen.requests.filter fun request => keep request.number

/-- The search store without its record and the requests not in `keep`. -/
def SearchClient.forget (keep : Nat → Bool) (client : SearchClient ρ) :
    SearchClient ρ where
  state := client.state
  submitSeq := client.submitSeq
  pageSize := client.pageSize
  defaultLanguage := client.defaultLanguage
  sent := client.sent.filter fun request => keep request.number
  nextRequest := 0
  searches := []
  lastSearch := 0
  expired := []
  recoveries := []
  answered := []

/-- A request in `keep` is found among those kept. -/
theorem find?_kept {β : Type u} (numberOf : β → Nat) {number : Nat}
    (hkeep : keep number) (requests : List β) :
    (requests.filter fun request => keep (numberOf request)).find?
        (fun request => numberOf request = number) =
      requests.find? fun request => numberOf request = number := by
  rw [List.find?_filter]
  congr 1
  funext request
  by_cases hnumber : numberOf request = number
  · simp [hnumber, hkeep]
  · simp [hnumber]

/-- A call or a kept answer has the same effect on what is kept. -/
theorem mailStep_forget (client : MailClient π) (number : Nat)
    (event : MailEvent π) (hkeep : ∀ answered ∈ event.answers, keep answered) :
    (mailStep (client.numberedFrom number) event).map (·.forget keep) =
      (mailStep ((client.forget keep).numberedFrom number) event).map
        (·.forget keep) := by
  cases event with
  | setSelection sel =>
      by_cases hsel : client.store.selection = sel
      · simp [mailStep, setSelection, MailClient.forget,
          MailClient.numberedFrom, hsel]
      · simp [mailStep, setSelection, loadInitialMessages, MailClient.forget,
          MailClient.numberedFrom, hsel, List.filter_cons]
  | loadInitialMessages opts =>
      simp [mailStep, loadInitialMessages, MailClient.forget,
        MailClient.numberedFrom, List.filter_cons]
  | loadMoreMessages =>
      simp only [mailStep, loadMoreMessages, MailClient.forget,
        MailClient.numberedFrom, Option.map_some]
      split <;> simp [List.filter_cons]
  | pollOnce =>
      simp [mailStep, pollOnce, MailClient.forget, MailClient.numberedFrom,
        List.filter_cons]
  | mergePendingNewMessages | setPageSize | startPolling | stopPolling =>
      simp [mailStep, mergePendingNewMessages, MailClient.forget,
        MailClient.numberedFrom]
  | listAnswered answered | listFailed answered =>
      have hanswered := hkeep answered rfl
      simp only [mailStep, MailClient.forget, MailClient.numberedFrom,
        find?_kept ListRequest.number hanswered]
      cases client.lists.find? fun request => request.number = answered with
      | none => rfl
      | some request =>
          cases hkind : request.kind <;>
            simp [listAnswered, listFailed, hkind, List.filter_filter,
              Bool.and_comm]
  | pollAnswered answered | pollFailed answered =>
      have hanswered := hkeep answered rfl
      by_cases hmem : answered ∈ client.polls <;>
        simp [mailStep, MailClient.forget, MailClient.numberedFrom, hmem,
          hanswered, List.filter_filter, Bool.and_comm]

theorem screenStep_forget (screen : MailScreen α φ π δ) (number : Nat)
    (event : ScreenEvent α φ π δ)
    (hkeep : ∀ answered ∈ event.answers, keep answered) :
    (screenStep (screen.numberedFrom number) event).map (·.forget keep) =
      (screenStep ((screen.forget keep).numberedFrom number) event).map
        (·.forget keep) := by
  cases event with
  | list event =>
      have hlist := mailStep_forget screen.list number event hkeep
      change ((mailStep (screen.list.numberedFrom number) event).map _).map _ =
        ((mailStep ((screen.list.forget keep).numberedFrom number)
          event).map _).map _
      cases hfull : mailStep (screen.list.numberedFrom number) event <;>
        cases hkept : mailStep
          ((screen.list.forget keep).numberedFrom number) event <;>
        simp_all [MailScreen.forget, MailScreen.numberedFrom]
  | loadAccounts =>
      simp [screenStep, MailScreen.loadAccounts, MailScreen.send,
        MailScreen.setError, MailScreen.forget, MailClient.forget,
        MailScreen.numberedFrom, MailClient.numberedFrom, List.filter_cons]
  | loadFoldersFor accountId =>
      by_cases hhas : screen.hasFolders accountId <;>
        simp_all [screenStep, MailScreen.loadFoldersFor,
          MailScreen.hasFolders, MailScreen.send, MailScreen.forget,
          MailClient.forget, MailScreen.numberedFrom, MailClient.numberedFrom,
          List.filter_cons]
  | openMessage messageId =>
      by_cases hopen : screen.panes.selectedMessage.map MessageDetail.id =
          some messageId <;>
        simp [screenStep, MailScreen.openMessage, MailScreen.send,
          MailScreen.setError, MailScreen.forget, MailClient.forget,
          MailScreen.numberedFrom, MailClient.numberedFrom, hopen,
          List.filter_cons]
      rfl
  | loadExternalImagesForSelectedMessage =>
      simp only [screenStep, MailScreen.loadExternalImagesForSelectedMessage,
        MailScreen.forget, MailScreen.numberedFrom]
      split
      · rename_i selected _ _
        by_cases hincluded : screen.panes.externalImagesIncluded <;>
          simp [MailScreen.send, MailScreen.setError, MailClient.forget,
            MailClient.numberedFrom, hincluded, List.filter_cons]
      · simp [MailClient.forget, MailClient.numberedFrom]
  | setBodyMode | setExternalImagesAllowed | setImagePolicy | reset =>
      simp [screenStep, MailScreen.reset, MailScreen.forget,
        MailClient.forget, MailScreen.numberedFrom, MailClient.numberedFrom]
  | answered answered answer =>
      have hanswered := hkeep answered rfl
      simp only [screenStep, MailScreen.forget, MailScreen.numberedFrom,
        find?_kept MailRequest.number hanswered]
      cases screen.requests.find? fun request => request.number = answered with
      | none => rfl
      | some request =>
          simp [MailScreen.settle, MailScreen.setError, MailScreen.remaining,
            MailClient.forget, MailClient.numberedFrom, Function.comp_def,
            List.filter_filter, Bool.and_comm]

theorem searchStoreStep_forget (client : SearchClient ρ) (number : Nat)
    (event : SearchStoreEvent ρ)
    (hkeep : ∀ answered ∈ event.answers, keep answered) :
    (searchStoreStep toLowerCase (client.numberedFrom number) event).map
        (·.forget keep) =
      (searchStoreStep toLowerCase ((client.forget keep).numberedFrom number)
        event).map (·.forget keep) := by
  cases event with
  | setQuery | setFilters | setSort | setPageSize | setDefaultLanguage
  | reset =>
      simp [searchStoreStep, SearchClient.reset, SearchClient.forget,
        SearchClient.numberedFrom]
  | submit =>
      simp only [searchStoreStep, SearchClient.submit, SearchClient.prepare,
        SearchClient.forget, SearchClient.numberedFrom]
      cases absorbConflictingOperators toLowerCase client.state.query
        client.state.filters <;>
        simp [SearchClient.send, SearchClient.liveKey,
          SearchClient.wireFilters, List.filter_cons]
  | loadMore =>
      have hpages : ((client.forget keep).numberedFrom number).pagesFrom =
          (client.numberedFrom number).pagesFrom := rfl
      simp only [searchStoreStep, SearchClient.loadMore, hpages]
      cases (client.numberedFrom number).pagesFrom <;>
        simp [SearchClient.send, SearchClient.liveKey,
          SearchClient.wireFilters, SearchClient.forget,
          SearchClient.numberedFrom, List.filter_cons]
  | answered answered answer =>
      have hanswered := hkeep answered rfl
      simp only [searchStoreStep, SearchClient.forget,
        SearchClient.numberedFrom, find?_kept SentSearch.number hanswered]
      cases client.sent.find? fun request => request.number = answered with
      | none => rfl
      | some request =>
          by_cases hcurrent : request.seq = client.submitSeq <;>
            cases hkind : request.kind <;>
            simp [Localmail.searchAnswered, SearchClient.received,
              SearchClient.remaining, hcurrent, hkind, List.filter_filter,
              Bool.and_comm]
  | failed answered failure =>
      have hanswered := hkeep answered rfl
      simp only [searchStoreStep, SearchClient.forget,
        SearchClient.numberedFrom, find?_kept SentSearch.number hanswered]
      cases client.sent.find? fun request => request.number = answered with
      | none => rfl
      | some request =>
          by_cases hcurrent : request.seq = client.submitSeq <;>
            by_cases hexpired : failure.cursorExpired <;>
            cases hkind : request.kind <;>
            simp [Localmail.searchFailed, SearchClient.expire,
              SearchClient.send, SearchClient.liveKey,
              SearchClient.wireFilters, SearchClient.remaining, hcurrent,
              hexpired, hkind, List.filter_cons, List.filter_filter,
              Bool.and_comm]

/-! ### Late answers -/

/-- A late answer to the search store changes nothing that is kept, when a
later submit or reset was made and no further page is under way. -/
theorem searchStoreStep_late {client after : SearchClient ρ}
    {event : SearchStoreEvent ρ} {number : Nat}
    (hanswers : event.answers = some number) (hkeep : keep number = false)
    (hlate : ∀ request ∈ client.sent, request.number = number →
      request.seq ≠ client.submitSeq ∧
        (request.kind = .submit ∨ client.state.loadingMore = false))
    (hstep : searchStoreStep toLowerCase (client.numberedFrom number) event =
      some after) :
    after.forget keep = client.forget keep := by
  have hdone (hidle : client.state.loadingMore = false) :
      doneLoading client.state = client.state := by
    rw [doneLoading, ← hidle]
  have hkept : (client.remaining number).filter
      (fun request => keep request.number) =
        client.sent.filter fun request => keep request.number := by
    rw [SearchClient.remaining, List.filter_filter]
    apply List.filter_congr
    intro request _
    by_cases hnumber : request.number = number <;> simp [hnumber, hkeep]
  cases event with
  | answered answered answer =>
      obtain rfl := Option.some.inj hanswers
      obtain ⟨request, hfind, rfl⟩ := Option.map_eq_some_iff.mp hstep
      have hnumber : request.number = answered := key_of_find? hfind
      obtain ⟨hseq, hkind⟩ :=
        hlate request (List.mem_of_find?_eq_some hfind) hnumber
      subst hnumber
      cases hcase : request.kind <;>
        simp_all [Localmail.searchAnswered, SearchClient.received,
          SearchClient.numberedFrom, SearchClient.forget,
          SearchClient.remaining]
  | failed answered failure =>
      obtain rfl := Option.some.inj hanswers
      obtain ⟨request, hfind, rfl⟩ := Option.map_eq_some_iff.mp hstep
      have hnumber : request.number = answered := key_of_find? hfind
      obtain ⟨hseq, hkind⟩ :=
        hlate request (List.mem_of_find?_eq_some hfind) hnumber
      subst hnumber
      by_cases hexpired : failure.cursorExpired <;>
        cases hcase : request.kind <;>
        simp_all [Localmail.searchFailed, SearchClient.expire,
          SearchClient.send, SearchClient.numberedFrom, SearchClient.forget,
          SearchClient.remaining]
  | setQuery | setFilters | setSort | setPageSize | setDefaultLanguage
  | submit | loadMore | reset => cases hanswers

/-! ### Requests are numbered by the calls -/

def MailClient.Issued (client : MailClient π) (bound : Nat) : Prop :=
  (∀ request ∈ client.lists, request.number < bound) ∧
    ∀ number ∈ client.polls, number < bound

theorem MailClient.Issued.mono {client : MailClient π} {bound later : Nat}
    (hissued : client.Issued bound) (hle : bound ≤ later) :
    client.Issued later :=
  ⟨fun request hrequest => (hissued.1 request hrequest).trans_le hle,
    fun number hnumber => (hissued.2 number hnumber).trans_le hle⟩

theorem MailClient.Issued.shrink {client after : MailClient π} {bound : Nat}
    (hissued : client.Issued bound) (hlists : after.lists ⊆ client.lists)
    (hpolls : after.polls ⊆ client.polls) : after.Issued bound :=
  ⟨fun request hrequest => hissued.1 request (hlists hrequest),
    fun number hnumber => hissued.2 number (hpolls hnumber)⟩

theorem issued_loadInitialMessages {client : MailClient π} {opts : FilterOpts}
    (hissued : client.Issued client.nextRequest) :
    (loadInitialMessages client opts).Issued (client.nextRequest + 1) := by
  have hlater := hissued.mono (Nat.le_succ client.nextRequest)
  exact ⟨List.forall_mem_cons.mpr ⟨Nat.lt_succ_self _, hlater.1⟩, hlater.2⟩

theorem mailStep_issued {client after : MailClient π} {number : Nat}
    {event : MailEvent π} (hissued : client.Issued number)
    (hstep : mailStep (client.numberedFrom number) event = some after) :
    after.Issued (callsAfter number event.answers) := by
  have hlater := hissued.mono (Nat.le_succ number)
  cases event with
  | setSelection sel =>
      obtain rfl := Option.some.inj hstep
      unfold setSelection
      split
      · exact hlater
      · exact issued_loadInitialMessages hissued
  | loadInitialMessages opts =>
      obtain rfl := Option.some.inj hstep
      exact @issued_loadInitialMessages _ (client.numberedFrom number) _ hissued
  | loadMoreMessages =>
      obtain rfl := Option.some.inj hstep
      unfold loadMoreMessages
      split
      · exact ⟨List.forall_mem_cons.mpr ⟨Nat.lt_succ_self _, hlater.1⟩,
          hlater.2⟩
      · exact hlater
  | pollOnce =>
      obtain rfl := Option.some.inj hstep
      exact ⟨hlater.1,
        List.forall_mem_cons.mpr ⟨Nat.lt_succ_self _, hlater.2⟩⟩
  | mergePendingNewMessages | setPageSize | startPolling | stopPolling =>
      obtain rfl := Option.some.inj hstep
      exact hlater
  | listAnswered answered rows next =>
      obtain ⟨request, -, rfl⟩ := Option.map_eq_some_iff.mp hstep
      unfold listAnswered
      split <;>
        exact hissued.shrink (List.filter_subset_self _) (List.Subset.refl _)
  | listFailed answered error =>
      obtain ⟨request, -, rfl⟩ := Option.map_eq_some_iff.mp hstep
      unfold listFailed
      split <;>
        exact hissued.shrink (List.filter_subset_self _) (List.Subset.refl _)
  | pollAnswered answered | pollFailed answered =>
      rw [mailStep] at hstep
      split at hstep
      · obtain rfl := Option.some.inj hstep
        exact hissued.shrink (List.Subset.refl _) (List.filter_subset_self _)
      · cases hstep

/-- The requests of the mail store are numbered below `bound`. -/
def MailScreen.Issued (screen : MailScreen α φ π δ) (bound : Nat) : Prop :=
  screen.list.Issued bound ∧ ∀ request ∈ screen.requests, request.number < bound

theorem MailScreen.Issued.later {screen : MailScreen α φ π δ} {bound : Nat}
    (hissued : screen.Issued bound) : screen.Issued (bound + 1) :=
  ⟨hissued.1.mono (Nat.le_succ bound),
    fun request hrequest => Nat.lt_succ_of_lt (hissued.2 request hrequest)⟩

theorem MailScreen.Issued.send {screen : MailScreen α φ π δ}
    (hissued : screen.Issued screen.list.nextRequest)
    (kind : MailRequestKind) :
    (screen.send kind).Issued (screen.list.nextRequest + 1) := by
  refine ⟨hissued.later.1, ?_⟩
  intro request hrequest
  rcases List.mem_cons.mp hrequest with rfl | hold
  · exact Nat.lt_succ_self _
  · exact hissued.later.2 request hold

theorem screenStep_issued {screen after : MailScreen α φ π δ} {number : Nat}
    {event : ScreenEvent α φ π δ} (hissued : screen.Issued number)
    (hstep : screenStep (screen.numberedFrom number) event = some after) :
    after.Issued (callsAfter number event.answers) := by
  have hlater := hissued.later
  cases event with
  | list event =>
      obtain ⟨list, hlist, rfl⟩ := Option.map_eq_some_iff.mp hstep
      refine ⟨mailStep_issued hissued.1 hlist, ?_⟩
      intro request hrequest
      have hold := hissued.2 request hrequest
      change request.number < callsAfter number event.answers
      cases event.answers with
      | none => exact Nat.lt_succ_of_lt hold
      | some answered => exact hold
  | loadAccounts =>
      obtain rfl := Option.some.inj hstep
      exact @MailScreen.Issued.send _ _ _ _
        ((screen.numberedFrom number).setError none) hissued _
  | loadFoldersFor accountId =>
      obtain rfl := Option.some.inj hstep
      unfold MailScreen.loadFoldersFor
      split
      · exact hlater
      · exact @MailScreen.Issued.send _ _ _ _ (screen.numberedFrom number)
          hissued _
  | openMessage messageId =>
      obtain rfl := Option.some.inj hstep
      unfold MailScreen.openMessage
      split
      · exact hlater
      · refine ⟨hlater.1, ?_⟩
        intro request hrequest
        rcases List.mem_cons.mp hrequest with rfl | hold
        · exact Nat.lt_succ_self _
        · exact hlater.2 request hold
  | loadExternalImagesForSelectedMessage =>
      obtain rfl := Option.some.inj hstep
      unfold MailScreen.loadExternalImagesForSelectedMessage
      split
      · split
        · exact hlater
        · refine ⟨hlater.1, ?_⟩
          intro request hrequest
          rcases List.mem_cons.mp hrequest with rfl | hold
          · exact Nat.lt_succ_self _
          · exact hlater.2 request hold
      · exact hlater
  | setBodyMode | setExternalImagesAllowed | setImagePolicy | reset =>
      obtain rfl := Option.some.inj hstep
      exact hlater
  | answered answered answer =>
      obtain ⟨request, -, hsettle⟩ := Option.bind_eq_some_iff.mp hstep
      obtain ⟨panes, -, rfl⟩ := Option.map_eq_some_iff.mp hsettle
      exact ⟨hissued.1,
        fun other hother => hissued.2 other (List.mem_of_mem_filter hother)⟩

def SearchClient.Issued (client : SearchClient ρ) (bound : Nat) : Prop :=
  ∀ request ∈ client.sent, request.number < bound

/-- A failed request is gone, or asked for again under the next number. -/
theorem searchFailed_sent {client : SearchClient ρ} {request other : SentSearch}
    {failure : SearchFailure}
    (hother : other ∈ (searchFailed client request failure).sent) :
    other ∈ client.remaining request.number ∨
      other.number = client.nextRequest := by
  revert hother
  unfold searchFailed
  cases request.kind with
  | submit =>
      dsimp only
      split <;> exact .inl
  | more priorCount =>
      dsimp only
      split
      · intro hother
        rcases List.mem_cons.mp hother with rfl | hold
        · exact .inr rfl
        · exact .inl hold
      · exact .inl
  | recover => exact .inl

theorem searchStoreStep_issued {client after : SearchClient ρ} {calls : Nat}
    {event : SearchStoreEvent ρ} (hissued : client.Issued calls)
    (hstep : searchStoreStep toLowerCase
      (client.numberedFrom (event.answers.getD calls)) event = some after) :
    after.Issued (callsAfter calls event.answers) := by
  have hlater : client.Issued (calls + 1) :=
    fun request hrequest => Nat.lt_succ_of_lt (hissued request hrequest)
  cases event with
  | setQuery | setFilters | setSort | setPageSize | setDefaultLanguage
  | reset =>
      obtain rfl := Option.some.inj hstep
      exact hlater
  | submit =>
      obtain rfl := Option.some.inj hstep
      obtain ⟨hsent, hnext, -⟩ :=
        prepare_fields (client.numberedFrom calls) toLowerCase
      intro request hrequest
      rcases List.mem_cons.mp hrequest with rfl | hold
      · exact hnext.trans_lt (Nat.lt_succ_self calls)
      · exact hlater request (hsent ▸ hold)
  | loadMore =>
      obtain rfl := Option.some.inj hstep
      unfold SearchClient.loadMore
      split
      · exact hlater
      · intro request hrequest
        rcases List.mem_cons.mp hrequest with rfl | hold
        · exact Nat.lt_succ_self calls
        · exact hlater request hold
  | answered number answer =>
      obtain ⟨request, -, rfl⟩ := Option.map_eq_some_iff.mp hstep
      intro other hother
      obtain ⟨state, hfields⟩ := searchAnswered_fields request answer
      rw [hfields] at hother
      exact hissued other (List.mem_of_mem_filter hother)
  | failed number failure =>
      obtain ⟨request, hfind, rfl⟩ := Option.map_eq_some_iff.mp hstep
      have hnumber : request.number = number := key_of_find? hfind
      intro other hother
      rcases searchFailed_sent hother with hold | hnew
      · exact hissued other (List.mem_of_mem_filter hold)
      · calc
          other.number = number := hnew
          _ = request.number := hnumber.symm
          _ < calls := hissued request (List.mem_of_find?_eq_some hfind)

/-! ### One run -/

/-- Until an answer is written to it, the search store has no further page to
ask for. -/
def SearchClient.Unpaged (client : SearchClient ρ) : Prop :=
  client.state.hasMore = false ∧ client.state.loadingMore = false

theorem SearchClient.Unpaged.loadMore {client : SearchClient ρ}
    (hunpaged : client.Unpaged) : client.loadMore = client := by
  have hnone : client.pagesFrom = none := by
    rw [SearchClient.pagesFrom, hunpaged.1]
    rfl
  rw [SearchClient.loadMore, hnone]

theorem seq_ne_of_not_applies {client : SearchClient ρ} {number : Nat}
    (happlies : client.applies number = false) {request : SentSearch}
    (hrequest : request ∈ client.sent) (hnumber : request.number = number) :
    request.seq ≠ client.submitSeq := by
  intro hseq
  have hnone := List.any_eq_false.mp happlies request hrequest
  exact hnone (decide_eq_true ⟨hnumber, hseq⟩)

/-- An answer that is not written, while no further page is under way. -/
theorem searchStoreStep_unwritten {client after : SearchClient ρ}
    {event : SearchStoreEvent ρ} {number : Nat}
    (hanswers : event.answers = some number) (hkeep : keep number = false)
    (hunpaged : client.Unpaged) (happlies : client.applies number = false)
    (hstep : searchStoreStep toLowerCase (client.numberedFrom number) event =
      some after) :
    after.forget keep = client.forget keep :=
  searchStoreStep_late hanswers hkeep
    (fun _ hrequest hnumber =>
      ⟨seq_ne_of_not_applies happlies hrequest hnumber, .inr hunpaged.2⟩) hstep

theorem shownAfter_answer {client : SearchClient ρ} {shown : Bool}
    {event : SearchStoreEvent ρ} {number : Nat}
    (hanswers : event.answers = some number) :
    shownAfter client shown event = (shown || client.applies number) := by
  cases event with
  | answered | failed =>
      obtain rfl := Option.some.inj hanswers
      rfl
  | _ => cases hanswers

theorem searchStoreStep_unpaged {client after : SearchClient ρ}
    {calls : Nat} {event : SearchStoreEvent ρ} {shown : Bool}
    (hunpaged : shown = false → client.Unpaged)
    (hstep : searchStoreStep toLowerCase
      (client.numberedFrom (event.answers.getD calls)) event = some after)
    (hafter : shownAfter client shown event = false) :
    after.Unpaged := by
  cases hanswers : event.answers with
  | some number =>
      rw [shownAfter_answer hanswers, Bool.or_eq_false_iff] at hafter
      rw [hanswers] at hstep
      have hold := hunpaged hafter.1
      have hsame := @searchStoreStep_unwritten _ _ (fun _ => false) _ _ _ _
        hanswers rfl hold hafter.2 hstep
      have hstate := congrArg SearchClient.state hsame
      change after.state = client.state at hstate
      rw [SearchClient.Unpaged, hstate]
      exact hold
  | none =>
      cases event with
      | setQuery | setFilters | setSort | setPageSize | setDefaultLanguage =>
          obtain rfl := Option.some.inj hstep
          exact hunpaged hafter
      | reset =>
          obtain rfl := Option.some.inj hstep
          exact ⟨rfl, rfl⟩
      | submit =>
          obtain rfl := Option.some.inj hstep
          have hold := hunpaged hafter
          unfold SearchClient.submit SearchClient.prepare
          dsimp only
          split <;> exact hold
      | loadMore =>
          obtain rfl := Option.some.inj hstep
          have hold : (client.numberedFrom calls).Unpaged := hunpaged hafter
          change (client.numberedFrom calls).loadMore.Unpaged
          rw [hold.loadMore]
          exact hold
      | answered | failed => cases hanswers

/-- What holds of the client in every run. -/
structure DesktopInv (desktop : Desktop α φ π δ ρ) : Prop where
  mail : desktop.mail.Issued desktop.calls
  search : desktop.search.Issued desktop.calls
  unpaged : desktop.searchShown = false → desktop.search.Unpaged

theorem desktopInv_start (pageSize : Nat) (imagePolicy : ImagePolicy)
    (defaultLanguage : Option Text) :
    DesktopInv (Desktop.start pageSize imagePolicy defaultLanguage :
      Desktop α φ π δ ρ) where
  mail := ⟨⟨fun _ hmem => absurd hmem List.not_mem_nil,
    fun _ hmem => absurd hmem List.not_mem_nil⟩,
    fun _ hmem => absurd hmem List.not_mem_nil⟩
  search := fun _ hmem => absurd hmem List.not_mem_nil
  unpaged _ := ⟨rfl, rfl⟩

theorem le_callsAfter (calls : Nat) (answers : Option Nat) :
    calls ≤ callsAfter calls answers := by
  cases answers with
  | none => exact Nat.le_succ calls
  | some number => exact Nat.le_refl calls

theorem DesktopInv.step {desktop after : Desktop α φ π δ ρ}
    {event : DesktopEvent α φ π δ ρ} (hinv : DesktopInv desktop)
    (hstep : desktopStep toLowerCase desktop event = some after) :
    DesktopInv after := by
  obtain ⟨hmail, hsearch, hunpaged⟩ := hinv
  cases event with
  | mail event =>
      obtain ⟨mail, hscreen, rfl⟩ := Option.map_eq_some_iff.mp hstep
      refine ⟨screenStep_issued hmail hscreen, ?_, hunpaged⟩
      exact fun request hrequest =>
        (hsearch request hrequest).trans_le (le_callsAfter _ _)
  | search event =>
      obtain ⟨search, hsettled, rfl⟩ := Option.map_eq_some_iff.mp hstep
      refine ⟨?_, searchStoreStep_issued hsearch hsettled,
        searchStoreStep_unpaged hunpaged hsettled⟩
      change desktop.mail.Issued (callsAfter desktop.calls event.answers)
      cases event.answers with
      | none => exact hmail.later
      | some number => exact hmail
  | logout =>
      rw [desktopStep] at hstep
      split at hstep
      · cases hstep
      · obtain rfl := Option.some.inj hstep
        exact ⟨hmail.later,
          fun request hrequest => Nat.lt_succ_of_lt (hsearch request hrequest),
          hunpaged⟩
  | loggedOut =>
      rw [desktopStep] at hstep
      split at hstep
      · obtain rfl := Option.some.inj hstep
        exact ⟨hmail.later,
          fun request hrequest => Nat.lt_succ_of_lt (hsearch request hrequest),
          hunpaged⟩
      · cases hstep

/-! ### What no answer changes -/

def MailScreen.settings (screen : MailScreen α φ π δ) : Nat × ImagePolicy :=
  (screen.list.pageSize, screen.imagePolicy)

def ScreenEvent.settings (before : Nat × ImagePolicy) :
    ScreenEvent α φ π δ → Nat × ImagePolicy
  | .list (.setPageSize pageSize) => (pageSize, before.2)
  | .setImagePolicy policy => (before.1, policy)
  | _ => before

theorem mailStep_settings {client after : MailClient π} {event : MailEvent π}
    (hstep : mailStep client event = some after) (policy : ImagePolicy) :
    (after.pageSize, policy) =
      (ScreenEvent.list event : ScreenEvent α φ π δ).settings
        (client.pageSize, policy) := by
  cases event with
  | setSelection sel =>
      obtain rfl := Option.some.inj hstep
      unfold setSelection
      split <;> rfl
  | loadMoreMessages =>
      obtain rfl := Option.some.inj hstep
      unfold loadMoreMessages
      split <;> rfl
  | loadInitialMessages | pollOnce | mergePendingNewMessages | setPageSize
  | startPolling | stopPolling =>
      obtain rfl := Option.some.inj hstep
      rfl
  | listAnswered =>
      obtain ⟨request, -, rfl⟩ := Option.map_eq_some_iff.mp hstep
      unfold listAnswered
      split <;> rfl
  | listFailed =>
      obtain ⟨request, -, rfl⟩ := Option.map_eq_some_iff.mp hstep
      unfold listFailed
      split <;> rfl
  | pollAnswered | pollFailed =>
      rw [mailStep] at hstep
      split at hstep
      · obtain rfl := Option.some.inj hstep
        rfl
      · cases hstep

theorem screenStep_settings {screen after : MailScreen α φ π δ}
    {event : ScreenEvent α φ π δ}
    (hstep : screenStep screen event = some after) :
    after.settings = event.settings screen.settings := by
  cases event with
  | list event =>
      obtain ⟨list, hlist, rfl⟩ := Option.map_eq_some_iff.mp hstep
      exact mailStep_settings hlist screen.imagePolicy
  | loadFoldersFor accountId =>
      obtain rfl := Option.some.inj hstep
      unfold MailScreen.loadFoldersFor
      split <;> rfl
  | openMessage messageId =>
      obtain rfl := Option.some.inj hstep
      unfold MailScreen.openMessage
      split <;> rfl
  | loadExternalImagesForSelectedMessage =>
      obtain rfl := Option.some.inj hstep
      unfold MailScreen.loadExternalImagesForSelectedMessage
      split
      · split <;> rfl
      · rfl
  | loadAccounts | setBodyMode | setExternalImagesAllowed | setImagePolicy
  | reset =>
      obtain rfl := Option.some.inj hstep
      rfl
  | answered answered answer =>
      obtain ⟨request, -, hsettle⟩ := Option.bind_eq_some_iff.mp hstep
      obtain ⟨panes, -, rfl⟩ := Option.map_eq_some_iff.mp hsettle
      rfl

/-- The settings the search store reads, and its submit counter. -/
def SearchClient.settings (client : SearchClient ρ) :
    Nat × Option Text × Nat :=
  (client.pageSize, client.defaultLanguage, client.submitSeq)

def SearchStoreEvent.settings (before : Nat × Option Text × Nat) :
    SearchStoreEvent ρ → Nat × Option Text × Nat
  | .setPageSize pageSize => (pageSize, before.2)
  | .setDefaultLanguage language => (before.1, language, before.2.2)
  | .submit | .reset => (before.1, before.2.1, before.2.2 + 1)
  | _ => before

theorem searchStoreStep_settings {client after : SearchClient ρ}
    {event : SearchStoreEvent ρ}
    (hstep : searchStoreStep toLowerCase client event = some after) :
    after.settings = event.settings client.settings := by
  cases event with
  | setQuery | setFilters | setSort | setPageSize | setDefaultLanguage
  | reset =>
      obtain rfl := Option.some.inj hstep
      rfl
  | submit =>
      obtain rfl := Option.some.inj hstep
      unfold SearchClient.submit SearchClient.prepare
      dsimp only
      split <;> rfl
  | loadMore =>
      obtain rfl := Option.some.inj hstep
      unfold SearchClient.loadMore
      split <;> rfl
  | answered number answer =>
      obtain ⟨request, -, rfl⟩ := Option.map_eq_some_iff.mp hstep
      obtain ⟨state, hfields⟩ := searchAnswered_fields request answer
      rw [hfields]
      rfl
  | failed number failure =>
      obtain ⟨request, -, rfl⟩ := Option.map_eq_some_iff.mp hstep
      unfold searchFailed
      cases request.kind with
      | submit =>
          dsimp only
          split <;> rfl
      | more priorCount =>
          dsimp only
          split <;> rfl
      | recover priorCount => rfl

theorem MailScreen.reset_forget {screen other : MailScreen α φ π δ}
    (hsettings : screen.settings = other.settings) :
    screen.reset.forget (fun _ => false) =
      other.reset.forget fun _ => false := by
  obtain ⟨hpage, hpolicy⟩ := Prod.ext_iff.mp hsettings
  change screen.list.pageSize = other.list.pageSize at hpage
  change screen.imagePolicy = other.imagePolicy at hpolicy
  simp [MailScreen.reset, MailScreen.forget, MailClient.forget, hpage,
    hpolicy]

theorem SearchClient.reset_forget {client other : SearchClient ρ}
    (hsettings : client.settings = other.settings) :
    client.reset.forget (fun _ => false) =
      other.reset.forget fun _ => false := by
  simp only [SearchClient.settings, Prod.mk.injEq] at hsettings
  simp [SearchClient.reset, SearchClient.forget, hsettings]

end Localmail
