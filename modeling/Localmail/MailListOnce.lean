/-
When the desktop list shows a message twice.  Only the poll leaves out what is
shown or waiting already; a page is put into the list as it comes, so that a
message the poll brought before can come with it again.
-/
import Localmail.MailList

namespace Localmail

universe u

variable {π : Type u}

def listIds (rows : List (MessageSummary π)) : List Text :=
  rows.map MessageSummary.messageId

/-- No message is twice in the list, or in the list and in the buffer. -/
structure ListShowsOnce (client : MailClient π) : Prop where
  once : (listIds client.store.messages).Nodup
  apart : List.Disjoint (listIds client.store.messages)
    (listIds client.store.pendingNewMessages)

/-! ### The server -/

/-- The pages of one walk have no message in common. -/
def DisjointWalks
    (answered : List (AnsweredPage FilterOpts Text (MessageSummary π))) : Prop :=
  ∀ key first walk, CursorChain key first walk →
    (∀ page ∈ walk, page ∈ answered) → (listIds (shownRows walk)).Nodup

/-- What the server promises of an answer. -/
def ServerKeeps (client : MailClient π) : MailEvent π → Prop
  | .listAnswered number rows next =>
      ∀ after, mailStep client (.listAnswered number rows next) = some after →
        DisjointWalks after.answered
  | .pollAnswered _ newMessages _ => (listIds newMessages).Nodup
  | _ => True

/-! ### The pages that fit -/

/-- The list is made of the rows merged from the buffer and of the pages of a
walk, and the request asks for the page after the last of them. -/
structure ExtendsShown (client : MailClient π) (request : ListRequest)
    (walk : List (AnsweredPage FilterOpts Text (MessageSummary π))) : Prop where
  chain : ∃ first, CursorChain request.opts first walk
  answered : ∀ page ∈ walk, page ∈ client.answered
  others : request.number ∉ walk.map AnsweredPage.number
  messages : client.store.messages = client.merged ++ shownRows walk
  cursor : request.cursor.isSome
  next : ∀ last ∈ walk.getLast?, request.cursor = last.next

/-- No row of the page waits in the buffer.  A further page has no row that
was merged from the buffer, and if it is one of another walk, then it repeats
no row, neither its own nor one of the list. -/
structure PageFits (client : MailClient π) (request : ListRequest)
    (rows : List (MessageSummary π)) : Prop where
  waiting : List.Disjoint (listIds rows)
    (listIds client.store.pendingNewMessages)
  merged : request.kind = .more → (∃ walk, ExtendsShown client request walk) →
    List.Disjoint (listIds rows) (listIds client.merged)
  strange : request.kind = .more →
    (¬ ∃ walk, ExtendsShown client request walk) →
    (listIds rows).Nodup ∧
      List.Disjoint (listIds rows) (listIds client.store.messages)

/-- A page that arrives fits. -/
def ArrivesFitting (client : MailClient π) : MailEvent π → Prop
  | .listAnswered number rows _ =>
      ∀ request, (client.lists.find? fun request => request.number = number) =
        some request → PageFits client request rows
  | _ => True

/-! ### The steps -/

/-- What holds between the steps. -/
structure OnceInv (client : MailClient π) : Prop where
  shows : ListShowsOnce client
  waiting : (listIds client.store.pendingNewMessages).Nodup
  initial : ∀ request ∈ client.lists, request.kind = .initial →
    request.cursor = none

section Steps

variable {client : MailClient π} {request : ListRequest}
  {rows : List (MessageSummary π)} {next : Option Text}

theorem listIds_append (rows others : List (MessageSummary π)) :
    listIds (rows ++ others) = listIds rows ++ listIds others :=
  List.map_append

/-- The rows of the next page are none of those the walk has shown. -/
theorem ExtendsShown.disjoint
    {walk : List (AnsweredPage FilterOpts Text (MessageSummary π))}
    (hextends : ExtendsShown client request walk)
    (hserver : DisjointWalks
      (⟨request.number, request.opts, request.cursor, rows, next⟩ ::
        client.answered)) :
    (listIds rows).Nodup ∧ List.Disjoint (listIds (shownRows walk)) (listIds rows) := by
  obtain ⟨first, hchain⟩ := hextends.chain
  obtain ⟨last, hlast⟩ := hchain.exists_last
  have hnext := hextends.next last hlast
  have hcontinues : Continues last (⟨request.number, request.opts,
      request.cursor, rows, next⟩ : AnsweredPage FilterOpts Text _) :=
    ⟨(hchain.key_eq last (List.mem_of_getLast? hlast)).symm,
      hnext ▸ hextends.cursor, hnext⟩
  have hnodup := hserver _ _ _ (hchain.snoc hlast hcontinues hextends.others)
    (by
      intro page hpage
      rcases List.mem_append.mp hpage with hold | hnew
      · exact List.mem_cons_of_mem _ (hextends.answered page hold)
      · rw [List.mem_singleton.mp hnew]
        exact List.mem_cons_self)
  rw [shownRows_append, shownRows_singleton, listIds_append,
    List.nodup_append'] at hnodup
  exact ⟨hnodup.2.1, hnodup.2.2⟩

/-- The list shows each message once after a page just where the page fits. -/
theorem OnceInv.listAnswered_iff (hinv : OnceInv client)
    (hmem : request ∈ client.lists)
    (hserver : DisjointWalks
      (⟨request.number, request.opts, request.cursor, rows, next⟩ ::
        client.answered)) :
    ListShowsOnce (listAnswered client request rows next) ↔
      PageFits client request rows := by
  cases hkind : request.kind with
  | initial =>
      have hrows : (listIds rows).Nodup := by
        have hpage := hserver _ _ _ (CursorChain.singleton
          ⟨request.number, request.opts, request.cursor, rows, next⟩ rfl
          (hinv.initial request hmem hkind)) (by simp)
        rwa [shownRows_singleton] at hpage
      have hstore : (listAnswered client request rows next).store.messages =
            rows ∧
          (listAnswered client request rows next).store.pendingNewMessages =
            client.store.pendingNewMessages := by
        unfold listAnswered
        rw [hkind]
        exact ⟨rfl, rfl⟩
      constructor
      · rintro ⟨-, hapart⟩
        rw [hstore.1, hstore.2] at hapart
        refine ⟨hapart, ?_, ?_⟩
        · rw [hkind]
          nofun
        · rw [hkind]
          nofun
      · rintro ⟨hwaiting, -, -⟩
        constructor
        · rwa [hstore.1]
        · rwa [hstore.1, hstore.2]
  | more =>
      have hstore : (listAnswered client request rows next).store.messages =
            client.store.messages ++ rows ∧
          (listAnswered client request rows next).store.pendingNewMessages =
            client.store.pendingNewMessages := by
        unfold listAnswered
        rw [hkind]
        exact ⟨rfl, rfl⟩
      have hshows : ListShowsOnce (listAnswered client request rows next) ↔
          (listIds rows).Nodup ∧
            List.Disjoint (listIds rows) (listIds client.store.messages) ∧
            List.Disjoint (listIds rows)
              (listIds client.store.pendingNewMessages) := by
        constructor
        · rintro ⟨honce, hapart⟩
          rw [hstore.1, listIds_append, List.nodup_append'] at honce
          rw [hstore.1, hstore.2, listIds_append, List.disjoint_append_left]
            at hapart
          exact ⟨honce.2.1, honce.2.2.symm, hapart.2⟩
        · rintro ⟨hnodup, hmessages, hwaiting⟩
          constructor
          · rw [hstore.1, listIds_append, List.nodup_append']
            exact ⟨hinv.shows.once, hnodup, hmessages.symm⟩
          · rw [hstore.1, hstore.2, listIds_append, List.disjoint_append_left]
            exact ⟨hinv.shows.apart, hwaiting⟩
      rw [hshows]
      constructor
      · rintro ⟨hnodup, hmessages, hwaiting⟩
        refine ⟨hwaiting, ?_, fun _ _ => ⟨hnodup, hmessages⟩⟩
        rintro - ⟨walk, hextends⟩
        rw [hextends.messages, listIds_append, List.disjoint_append_right]
          at hmessages
        exact hmessages.1
      · rintro ⟨hwaiting, hmerged, hstrange⟩
        by_cases hextends : ∃ walk, ExtendsShown client request walk
        · obtain ⟨walk, hwalk⟩ := hextends
          obtain ⟨hnodup, hshown⟩ := hwalk.disjoint hserver
          refine ⟨hnodup, ?_, hwaiting⟩
          rw [hwalk.messages, listIds_append, List.disjoint_append_right]
          exact ⟨hmerged hkind ⟨walk, hwalk⟩, hshown.symm⟩
        · obtain ⟨hnodup, hmessages⟩ := hstrange hkind hextends
          exact ⟨hnodup, hmessages, hwaiting⟩

/-- Only the rows of a poll that are new go into the buffer. -/
theorem OnceInv.bufferPending (hinv : OnceInv client)
    {incoming : List (MessageSummary π)} (hincoming : (listIds incoming).Nodup) :
    (bufferPending client.store incoming).messages = client.store.messages ∧
      (listIds (bufferPending client.store incoming).pendingNewMessages).Nodup ∧
      List.Disjoint (listIds client.store.messages)
        (listIds (bufferPending client.store incoming).pendingNewMessages) := by
  have hfresh : ∀ id ∈ listIds (freshRows client.store incoming),
      id ∉ listIds client.store.messages ∧
        id ∉ listIds client.store.pendingNewMessages := by
    intro id hid
    obtain ⟨row, hrow, rfl⟩ := List.mem_map.mp hid
    have hnew := of_decide_eq_true (List.mem_filter.mp hrow).2
    rw [List.map_append, List.mem_append, not_or] at hnew
    exact hnew
  have hnodup : (listIds (freshRows client.store incoming ++
      client.store.pendingNewMessages)).Nodup := by
    rw [listIds_append, List.nodup_append']
    refine ⟨hincoming.sublist (List.filter_sublist.map _), hinv.waiting, ?_⟩
    exact fun id hid => (hfresh id hid).2
  have hapart : List.Disjoint (listIds client.store.messages)
      (listIds (freshRows client.store incoming ++
        client.store.pendingNewMessages)) := by
    rw [listIds_append, List.disjoint_append_right]
    exact ⟨fun id hid hnew => (hfresh id hnew).1 hid, hinv.shows.apart⟩
  unfold Localmail.bufferPending
  split
  · exact ⟨rfl, hinv.waiting, hinv.shows.apart⟩
  · refine ⟨rfl, hnodup.sublist ((List.take_sublist _ _).map _), ?_⟩
    exact fun id hid hwaits =>
      hapart hid (((List.take_sublist _ _).map _).subset hwaits)

/-- A step that touches neither the list nor the buffer. -/
theorem OnceInv.keep (hinv : OnceInv client) {after : MailClient π}
    (hmessages : after.store.messages = client.store.messages)
    (hpending : after.store.pendingNewMessages =
      client.store.pendingNewMessages)
    (hlists : ∀ request ∈ after.lists, request.kind = .initial →
      request.cursor = none) : OnceInv after := by
  refine ⟨⟨?_, ?_⟩, ?_, hlists⟩
  · rw [hmessages]
    exact hinv.shows.once
  · rw [hmessages, hpending]
    exact hinv.shows.apart
  · rw [hpending]
    exact hinv.waiting

theorem OnceInv.loadInitialMessages (hinv : OnceInv client)
    (opts : FilterOpts) :
    OnceInv (Localmail.loadInitialMessages client opts) := by
  refine ⟨⟨List.nodup_nil, List.disjoint_nil_left _⟩, hinv.waiting, ?_⟩
  intro request hrequest hkind
  rcases List.mem_cons.mp hrequest with rfl | hold
  · rfl
  · exact hinv.initial request hold hkind

theorem listAnswered_answered :
    (listAnswered client request rows next).answered =
      ⟨request.number, request.opts, request.cursor, rows, next⟩ ::
        client.answered := by
  unfold listAnswered
  cases request.kind <;> rfl

theorem OnceInv.remaining (hinv : OnceInv client) (number : Nat) :
    ∀ request ∈ client.lists.filter (fun other => other.number ≠ number),
      request.kind = .initial → request.cursor = none :=
  fun request hrequest => hinv.initial request (mem_remaining.mp hrequest).1

theorem OnceInv.preserved (hinv : OnceInv client) {after : MailClient π}
    {event : MailEvent π} (hserver : ServerKeeps client event)
    (hfits : ArrivesFitting client event)
    (hstep : mailStep client event = some after) : OnceInv after := by
  cases event with
  | setSelection sel =>
      cases hstep
      unfold setSelection
      split
      · exact hinv
      · apply OnceInv.loadInitialMessages
        exact hinv.keep rfl rfl hinv.initial
  | loadInitialMessages opts =>
      cases hstep
      exact hinv.loadInitialMessages opts
  | loadMoreMessages =>
      cases hstep
      unfold loadMoreMessages
      split
      · refine hinv.keep rfl rfl ?_
        intro request hrequest hkind
        rcases List.mem_cons.mp hrequest with rfl | hold
        · cases hkind
        · exact hinv.initial request hold hkind
      · exact hinv
  | mergePendingNewMessages =>
      cases hstep
      refine ⟨⟨?_, List.disjoint_nil_right _⟩, List.nodup_nil, hinv.initial⟩
      unfold mergePendingNewMessages
      rw [listIds_append, List.nodup_append']
      exact ⟨hinv.waiting, hinv.shows.once, hinv.shows.apart.symm⟩
  | pollOnce | setPageSize | startPolling | stopPolling =>
      cases hstep
      exact hinv.keep rfl rfl hinv.initial
  | listAnswered number rows next =>
      obtain ⟨request, hfound, rfl⟩ := Option.map_eq_some_iff.mp hstep
      have hmem := List.mem_of_find?_eq_some hfound
      have hwalks := hserver _ hstep
      rw [listAnswered_answered] at hwalks
      refine ⟨(hinv.listAnswered_iff hmem hwalks).mpr (hfits request hfound),
        ?_, ?_⟩
      · unfold listAnswered
        cases request.kind with
        | initial | more => exact hinv.waiting
      · unfold listAnswered
        cases request.kind with
        | initial | more => exact hinv.remaining request.number
  | listFailed number error =>
      obtain ⟨request, -, rfl⟩ := Option.map_eq_some_iff.mp hstep
      unfold listFailed
      cases request.kind with
      | initial | more => exact hinv.keep rfl rfl (hinv.remaining request.number)
  | pollAnswered number newMessages next =>
      dsimp only [mailStep] at hstep
      split at hstep
      · cases hstep
        have hcursor : OnceInv { client with store := { client.store with
            changeCursor := parseCursor next <|> client.store.changeCursor } } :=
          hinv.keep rfl rfl hinv.initial
        obtain ⟨hmessages, hnodup, hapart⟩ := hcursor.bufferPending hserver
        refine ⟨⟨?_, ?_⟩, hnodup, hinv.initial⟩
        · dsimp only [pollAnswered]
          rw [hmessages]
          exact hinv.shows.once
        · dsimp only [pollAnswered]
          rw [hmessages]
          exact hapart
      · cases hstep
  | pollFailed number error =>
      dsimp only [mailStep] at hstep
      split at hstep
      · cases hstep
        unfold pollFailed
        dsimp only
        split
        · exact hinv.keep rfl rfl hinv.initial
        · exact hinv.keep rfl rfl hinv.initial
      · cases hstep

end Steps

/-- In every run of server answers as promised whose pages all fit, no message
is shown twice. -/
theorem list_shows_once {pageSize : Nat} {client : MailClient π}
    (hreach : GuardedReach mailStep
      (fun client event => ServerKeeps client event ∧
        ArrivesFitting client event) (.start pageSize) client) :
    ListShowsOnce client := by
  have hinv : OnceInv client := by
    apply hreach.invariant
    · exact ⟨⟨List.nodup_nil, List.disjoint_nil_left _⟩, List.nodup_nil, nofun⟩
    · rintro before event after hbefore ⟨hserver, hfits⟩ hstep
      exact hbefore.preserved hserver hfits hstep
  exact hinv.shows

/-- A page that does not fit shows a message twice, then and there. -/
theorem misfit_shows_twice {client after : MailClient π} {number : Nat}
    {rows : List (MessageSummary π)} {next : Option Text}
    (hinv : OnceInv client)
    (hserver : ServerKeeps client (.listAnswered number rows next))
    (hmisfit : ¬ ArrivesFitting client (.listAnswered number rows next))
    (hstep : mailStep client (.listAnswered number rows next) = some after) :
    ¬ ListShowsOnce after := by
  intro hshows
  obtain ⟨request, hfound, rfl⟩ := Option.map_eq_some_iff.mp hstep
  have hwalks := hserver _ hstep
  rw [listAnswered_answered] at hwalks
  apply hmisfit
  intro other hother
  obtain rfl := Option.some.inj (hfound.symm.trans hother)
  exact (hinv.listAnswered_iff (List.mem_of_find?_eq_some hfound) hwalks).mp
    hshows

/-- Where all answered rows are distinct, so are those of every walk. -/
theorem disjointWalks_of_nodup
    {answered : List (AnsweredPage FilterOpts Text (MessageSummary π))}
    (hnodup : (listIds (shownRows answered)).Nodup) :
    DisjointWalks answered := by
  have hflat : ∀ pages : List (AnsweredPage FilterOpts Text (MessageSummary π)),
      listIds (shownRows pages) = pages.flatMap fun page => listIds page.rows :=
    fun pages => List.map_flatMap
  intro key first walk hchain hanswered
  rw [hflat, List.nodup_flatMap] at hnodup ⊢
  refine ⟨fun page hpage => hnodup.1 page (hanswered page hpage), ?_⟩
  have hsymm : Std.Symm fun page other :
      AnsweredPage FilterOpts Text (MessageSummary π) =>
      List.Disjoint (listIds page.rows) (listIds other.rows) :=
    ⟨fun _ _ hapart => hapart.symm⟩
  exact (List.Nodup.of_map _ hchain.once).pairwise_of_forall_ne
    fun page hpage other hother =>
      hnodup.2.forall (hanswered page hpage) (hanswered other hother)

open MailListWitness in
/-- The first page of `inTurn`. -/
def firstPage : AnsweredPage FilterOpts Text (MessageSummary Unit) :=
  ⟨0, ⟨[text "7"], []⟩, none, [row "c", row "b"], some (text "p2")⟩

open MailListWitness in
theorem list_shows_once_two_pages :
    ∃ client, replayGuarded mailStep (fun _ _ => True) (MailClient.start 2)
        inTurn = some client ∧
      client.store.messages = [row "d", row "c", row "b", row "a"] ∧
      ListShowsOnce client := by
  have hthen : ∀ {client after : MailClient Unit} (event : MailEvent Unit),
      GuardedReach mailStep (fun client event => ServerKeeps client event ∧
        ArrivesFitting client event) (.start 2) client →
      ServerKeeps client event ∧ ArrivesFitting client event →
      mailStep client event = some after →
      GuardedReach mailStep (fun client event => ServerKeeps client event ∧
        ArrivesFitting client event) (.start 2) after :=
    fun _ hbefore hmeets hstep => hbefore.tail hmeets hstep
  have hasked := hthen (.setSelection (.account (text "7"))) .refl
    ⟨trivial, trivial⟩ rfl
  have hfirst := hthen
    (.listAnswered 0 [row "c", row "b"] (some (text "p2"))) hasked
    (by
      refine ⟨?_, ?_⟩
      · rintro after ⟨⟩
        exact disjointWalks_of_nodup (by decide)
      · rintro request ⟨⟩
        exact ⟨List.disjoint_nil_right _, nofun, nofun⟩) rfl
  have hpolled := hthen (.pollAnswered 1 [row "d"] none)
    (hthen .pollOnce hfirst ⟨trivial, trivial⟩ rfl)
    ⟨List.nodup_singleton _, trivial⟩ rfl
  have hmore := hthen .loadMoreMessages
    (hthen .mergePendingNewMessages hpolled ⟨trivial, trivial⟩ rfl)
    ⟨trivial, trivial⟩ rfl
  have hsecond := hthen (.listAnswered 2 [row "a"] none) hmore
    (by
      refine ⟨?_, ?_⟩
      · rintro after ⟨⟩
        exact disjointWalks_of_nodup (by decide)
      · rintro request ⟨⟩
        refine ⟨List.disjoint_nil_right _, fun _ _ =>
          List.singleton_disjoint.mpr (by decide), fun _ hstrange => ?_⟩
        refine absurd ⟨[firstPage], ⟨0, .singleton firstPage rfl rfl⟩,
          fun _ hpage => hpage, by decide, rfl, rfl, ?_⟩ hstrange
        rintro last ⟨⟩
        rfl) rfl
  exact ⟨_, rfl, rfl, list_shows_once hsecond⟩

open MailListWitness in
/-- A polled row waits in the buffer when a page with it arrives. -/
theorem polled_row_shown_twice :
    (∃ client : MailClient Unit,
      GuardedReach mailStep ServerKeeps (.start 2) client ∧
      client.store.messages = [row "a", row "a"]) ∧
    ¬ ∀ pageSize (client : MailClient Unit),
      GuardedReach mailStep ServerKeeps (.start pageSize) client →
      ListShowsOnce client := by
  have htwice : ∃ client : MailClient Unit,
      GuardedReach mailStep ServerKeeps (.start 2) client ∧
      client.store.messages = [row "a", row "a"] := by
    have hthen : ∀ {client after : MailClient Unit} (event : MailEvent Unit),
        GuardedReach mailStep ServerKeeps (.start 2) client →
        ServerKeeps client event → mailStep client event = some after →
        GuardedReach mailStep ServerKeeps (.start 2) after :=
      fun _ hbefore hmeets hstep => hbefore.tail hmeets hstep
    have hasked := hthen (.loadInitialMessages ⟨[], []⟩)
      (hthen .pollOnce .refl trivial rfl) trivial rfl
    have hpolled := hthen (.pollAnswered 0 [row "a"] none) hasked
      (List.nodup_singleton _) rfl
    have hpage := hthen (.listAnswered 1 [row "a"] none) hpolled
      (by
        rintro after ⟨⟩
        exact disjointWalks_of_nodup (by decide)) rfl
    exact ⟨_, hthen .mergePendingNewMessages hpage trivial rfl, rfl⟩
  refine ⟨htwice, fun hclaim => ?_⟩
  obtain ⟨client, hreach, hmessages⟩ := htwice
  have honce := (hclaim 2 client hreach).once
  rw [hmessages] at honce
  revert honce
  decide

end Localmail
