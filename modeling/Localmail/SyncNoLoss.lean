/-
What the stored watermark promises: every message on the server below it has
been dealt with.  The promise is an invariant of all runs in which no SEARCH
leaves the watermark outside the UID space it is stored with; seeding the
running maximum from the previous UID space breaks it.
-/
import Localmail.SyncPass

namespace Localmail

/-- The server as IMAP promises it: UIDs are positive, distinct and below
`UIDNEXT`. -/
structure ImapServer.WellFormed (server : ImapServer) : Prop where
  nodup : server.uids.Nodup
  pos : ∀ uid ∈ server.uids, 0 < uid
  lt : ∀ uid ∈ server.uids, uid < server.uidnext
  uidnext_pos : 0 < server.uidnext

/-- One message of the server is dealt with in `db`: linked under its dedup
key, set aside as failed, given up on, or answered as gone. -/
def Accounted (parse : Parser) (reportedAbsent : List (Nat × Nat))
    (uidvalidity : Nat) (db : SyncDb) (message : ServerMessage) : Prop :=
  (∃ parsed ∈ parse message.body, db.Linked parsed.dedupKey) ∨
    db.Failed message.uid ∨ db.Tombstoned message.uid ∨
    (uidvalidity, message.uid) ∈ reportedAbsent

instance (parse : Parser) (reportedAbsent : List (Nat × Nat))
    (uidvalidity : Nat) (db : SyncDb) (message : ServerMessage) :
    Decidable (Accounted parse reportedAbsent uidvalidity db message) :=
  inferInstanceAs (Decidable (_ ∨ _))

/-- Every message present under the stored UIDVALIDITY and below the stored
watermark is dealt with. -/
def NoLoss (parse : Parser) (state : SyncState) : Prop :=
  state.db.mailbox.uidvalidity = some state.server.uidvalidity →
    ∀ uidnext ∈ state.db.mailbox.uidnext,
      ∀ message ∈ state.server.messages, message.uid < uidnext →
        Accounted parse state.reportedAbsent state.server.uidvalidity state.db
          message

instance (parse : Parser) (state : SyncState) :
    Decidable (NoLoss parse state) :=
  inferInstanceAs (Decidable (_ → _))

/-- A mailbox no pass has run on yet. -/
structure SyncState.Fresh (state : SyncState) : Prop where
  server : state.server.WellFormed
  mailbox : state.db.mailbox = ⟨none, none⟩
  idle : state.phase = .idle

/-- What a SEARCH must find for the pass to keep its watermark inside the UID
space it runs in.  The cap leaves something to fetch when there is something,
and a pass over a new UID space, whose running maximum starts at the previous
resume point, finds that point inside the first batch or below `UIDNEXT`. -/
def SearchInSpace (server : ImapServer) (selected : Selected) : Prop :=
  let candidates := candidateUids server selected
  let uids := capUids candidates selected.args.maxMessages
  (uids = [] → candidates = []) ∧
    (selected.fullSync = true →
      if uids = [] then
        selected.serverUidnext ≠ 0 ∨ resumeFrom selected.row ≤ server.uidnext
      else
        ∃ uid ∈ uids.take batchSize, resumeFrom selected.row ≤ uid + 1)

instance (server : ImapServer) (selected : Selected) :
    Decidable (SearchInSpace server selected) :=
  inferInstanceAs (Decidable (_ ∧ _))

/-- The selection a SEARCH event answers, if the event is one. -/
def searchedSelection (state : SyncState) : SyncEvent → Option Selected
  | .search _ =>
      match state.phase with
      | .selected selected => some selected
      | _ => none
  | _ => none

/-- The condition on a step: a SEARCH is `SearchInSpace`, any other step is
free. -/
def WatermarkInSpace (state : SyncState) (event : SyncEvent) : Prop :=
  ∀ selected ∈ searchedSelection state event,
    SearchInSpace state.server selected

instance (state : SyncState) (event : SyncEvent) :
    Decidable (WatermarkInSpace state event) :=
  inferInstanceAs (Decidable (∀ selected ∈ searchedSelection state event, _))

/-! ### The invariant -/

/-- What is known of the fetch loop while the server is still in the UID space
the pass selected.  `top` is the last UID of the pass; everything present up
to it is dealt with, held, or still to come. -/
structure PassCovers (parse : Parser) (state : SyncState) (pass : Pass)
    (remaining later : List Nat) (top : Nat) : Prop where
  top_lt : top < state.server.uidnext
  seen_le : pass.highestSeen ≤ top
  remaining_le : ∀ uid ∈ remaining, uid ≤ top
  sorted : remaining.Pairwise (· < ·)
  seen_lt_later : ∀ uid ∈ later, pass.highestSeen < uid
  covers : ∀ message ∈ state.server.messages, message.uid ≤ top →
    Accounted parse state.reportedAbsent pass.serverUidvalidity pass.work
        message ∨
      (∃ held ∈ pass.holdAt, held ≤ message.uid) ∨ message.uid ∈ remaining

structure PassOk (parse : Parser) (state : SyncState) (pass : Pass)
    (remaining later : List Nat) : Prop where
  le : pass.serverUidvalidity ≤ state.server.uidvalidity
  covers : pass.serverUidvalidity = state.server.uidvalidity →
    ∃ top, PassCovers parse state pass remaining later top

/-- The bodies of a FETCH answer are those of the messages still there. -/
def FetchAgrees (server : ImapServer) (fetched : List FetchData) : Prop :=
  ∀ data ∈ fetched, data.body ≠ [] → data.uid < server.uidnext ∧
    ∀ message ∈ server.messages, message.uid = data.uid →
      message.body = data.body

structure SelectedOk (state : SyncState) (selected : Selected) : Prop where
  row : selected.row = state.db.mailbox
  le : selected.serverUidvalidity ≤ state.server.uidvalidity
  uidnext_le : selected.serverUidvalidity = state.server.uidvalidity →
    selected.serverUidnext ≤ state.server.uidnext

def PhaseOk (parse : Parser) (state : SyncState) : Phase → Prop
  | .idle => True
  | .selected selected => SelectedOk state selected
  | .betweenBatches pass =>
      PassOk parse state pass pass.batches.flatten pass.batches.tail.flatten
  | .inBatch pass chunk fetched =>
      PassOk parse state pass (chunk ++ pass.batches.flatten)
          pass.batches.flatten ∧
        (pass.serverUidvalidity = state.server.uidvalidity →
          FetchAgrees state.server fetched)

/-- The stored row never runs ahead of the server. -/
structure StoredOk (server : ImapServer) (row : MailboxRow) : Prop where
  le : ∀ uidvalidity ∈ row.uidvalidity, uidvalidity ≤ server.uidvalidity
  uidnext_le : row.uidvalidity = some server.uidvalidity →
    resumeFrom row ≤ server.uidnext

structure SyncInv (parse : Parser) (state : SyncState) : Prop where
  server : state.server.WellFormed
  stored : StoredOk state.server state.db.mailbox
  noLoss : NoLoss parse state
  phase : PhaseOk parse state state.phase

theorem SyncState.Fresh.syncInv (parse : Parser) {state : SyncState}
    (hfresh : state.Fresh) : SyncInv parse state where
  server := hfresh.server
  stored := by
    rw [hfresh.mailbox]
    exact ⟨by simp, by simp⟩
  noLoss := by
    intro hvalidity
    simp [hfresh.mailbox] at hvalidity
  phase := by
    rw [hfresh.idle]
    trivial

/-! ### The server moves -/

/-- What a server event can do: within one UID space `UIDNEXT` grows and every
message is an old one or above the old `UIDNEXT`. -/
structure ImapServer.Evolves (before after : ImapServer) : Prop where
  le : before.uidvalidity ≤ after.uidvalidity
  uidnext_le : after.uidvalidity = before.uidvalidity →
    before.uidnext ≤ after.uidnext
  messages : after.uidvalidity = before.uidvalidity →
    ∀ message ∈ after.messages,
      message ∈ before.messages ∨ before.uidnext ≤ message.uid

namespace ImapServer.Evolves

variable {before after : ImapServer}

/-- A UID space that is current after the event was current before it. -/
theorem current (hevolves : before.Evolves after) {uidvalidity : Nat}
    (hle : uidvalidity ≤ before.uidvalidity)
    (hcurrent : uidvalidity = after.uidvalidity) :
    after.uidvalidity = before.uidvalidity :=
  Nat.le_antisymm (hcurrent ▸ hle) hevolves.le

theorem message_of_lt (hevolves : before.Evolves after)
    (hsame : after.uidvalidity = before.uidvalidity) {message : ServerMessage}
    (hmessage : message ∈ after.messages) (hlt : message.uid < before.uidnext) :
    message ∈ before.messages := by
  rcases hevolves.messages hsame message hmessage with hold | hnew
  · exact hold
  · exact absurd hlt (Nat.not_lt.mpr hnew)

end ImapServer.Evolves

section ServerEvents

variable {parse : Parser} {state : SyncState} {after : ImapServer}

theorem StoredOk.evolve {row : MailboxRow} {before : ImapServer}
    (hstored : StoredOk before row) (hevolves : before.Evolves after) :
    StoredOk after row where
  le := fun uidvalidity hrow =>
    Nat.le_trans (hstored.le uidvalidity hrow) hevolves.le
  uidnext_le := by
    intro hcurrent
    have hsame := hevolves.current (hstored.le _ hcurrent) rfl
    rw [hsame] at hcurrent
    exact Nat.le_trans (hstored.uidnext_le hcurrent)
      (hevolves.uidnext_le hsame)

theorem NoLoss.evolve (hnoLoss : NoLoss parse state)
    (hstored : StoredOk state.server state.db.mailbox)
    (hevolves : state.server.Evolves after) :
    NoLoss parse { state with server := after } := by
  intro hcurrent uidnext hrow message hmessage hlt
  have hsame := hevolves.current (hstored.le _ hcurrent) rfl
  change state.db.mailbox.uidvalidity = some after.uidvalidity at hcurrent
  change Accounted parse state.reportedAbsent after.uidvalidity state.db message
  rw [hsame] at hcurrent ⊢
  have hbound := Nat.le_trans (le_resumeFrom hrow)
    (hstored.uidnext_le hcurrent)
  have hold := hevolves.message_of_lt hsame hmessage
    (Nat.lt_of_lt_of_le hlt hbound)
  exact hnoLoss hcurrent uidnext hrow message hold hlt

theorem PassOk.evolve {pass : Pass} {remaining later : List Nat}
    (hpass : PassOk parse state pass remaining later)
    (hevolves : state.server.Evolves after) :
    PassOk parse { state with server := after } pass remaining later where
  le := Nat.le_trans hpass.le hevolves.le
  covers := by
    intro hcurrent
    have hsame := hevolves.current hpass.le hcurrent
    obtain ⟨top, hcovers⟩ := hpass.covers (hcurrent.trans hsame)
    refine ⟨top, ?_, hcovers.seen_le, hcovers.remaining_le, hcovers.sorted,
      hcovers.seen_lt_later, ?_⟩
    · exact Nat.lt_of_lt_of_le hcovers.top_lt (hevolves.uidnext_le hsame)
    · intro message hmessage hle
      have hold := hevolves.message_of_lt hsame hmessage
        (Nat.lt_of_le_of_lt hle hcovers.top_lt)
      exact hcovers.covers message hold hle

theorem FetchAgrees.evolve {before : ImapServer} {fetched : List FetchData}
    (hagrees : FetchAgrees before fetched) (hevolves : before.Evolves after)
    (hsame : after.uidvalidity = before.uidvalidity) :
    FetchAgrees after fetched := by
  intro data hdata hbody
  obtain ⟨hlt, hbodies⟩ := hagrees data hdata hbody
  refine ⟨Nat.lt_of_lt_of_le hlt (hevolves.uidnext_le hsame), ?_⟩
  intro message hmessage huid
  exact hbodies message (hevolves.message_of_lt hsame hmessage (huid ▸ hlt))
    huid

theorem PhaseOk.evolve {phase : Phase} (hphase : PhaseOk parse state phase)
    (hevolves : state.server.Evolves after) :
    PhaseOk parse { state with server := after } phase := by
  cases phase with
  | idle => trivial
  | selected selected =>
      refine ⟨hphase.row, Nat.le_trans hphase.le hevolves.le, ?_⟩
      intro hcurrent
      have hsame := hevolves.current hphase.le hcurrent
      exact Nat.le_trans (hphase.uidnext_le (hcurrent.trans hsame))
        (hevolves.uidnext_le hsame)
  | betweenBatches pass => exact PassOk.evolve hphase hevolves
  | inBatch pass chunk fetched =>
      refine ⟨hphase.1.evolve hevolves, ?_⟩
      intro hcurrent
      have hsame := hevolves.current hphase.1.le hcurrent
      exact (hphase.2 (hcurrent.trans hsame)).evolve hevolves hsame

/-- Whatever the server does between two steps of a pass keeps the
invariant. -/
theorem SyncInv.evolve (hinv : SyncInv parse state)
    (hevolves : state.server.Evolves after) (hafter : after.WellFormed) :
    SyncInv parse { state with server := after } where
  server := hafter
  stored := hinv.stored.evolve hevolves
  noLoss := hinv.noLoss.evolve hinv.stored hevolves
  phase := hinv.phase.evolve hevolves

end ServerEvents

namespace ImapServer

variable {server : ImapServer}

theorem WellFormed.deliver (hserver : server.WellFormed)
    {message : ServerMessage} (hfresh : server.uidnext ≤ message.uid) :
    WellFormed { server with
      uidnext := message.uid + 1, messages := server.messages ++ [message] } := by
  have hlt : ∀ uid ∈ server.uids, uid < message.uid := fun uid huid =>
    Nat.lt_of_lt_of_le (hserver.lt uid huid) hfresh
  have hmem : ∀ uid, uid ∈ uids { server with
      uidnext := message.uid + 1, messages := server.messages ++ [message] } ↔
      uid ∈ server.uids ∨ uid = message.uid := by
    intro uid
    simp [uids, eq_comm]
  refine ⟨?_, ?_, ?_, Nat.succ_pos _⟩
  · simp only [uids, List.map_append, List.map_cons, List.map_nil]
    refine List.nodup_append.mpr ⟨hserver.nodup, List.nodup_singleton _, ?_⟩
    intro uid huid other hother
    rw [List.mem_singleton.mp hother]
    exact Nat.ne_of_lt (hlt uid huid)
  · intro uid huid
    rcases (hmem uid).mp huid with hold | rfl
    · exact hserver.pos uid hold
    · exact Nat.lt_of_lt_of_le hserver.uidnext_pos hfresh
  · intro uid huid
    rcases (hmem uid).mp huid with hold | rfl
    · exact Nat.lt_succ_of_lt (hlt uid hold)
    · exact Nat.lt_succ_self _

theorem deliver_evolves {message : ServerMessage}
    (hfresh : server.uidnext ≤ message.uid) :
    server.Evolves { server with
      uidnext := message.uid + 1, messages := server.messages ++ [message] } where
  le := Nat.le_refl _
  uidnext_le := fun _ => Nat.le_succ_of_le hfresh
  messages := by
    intro _ other hother
    rcases List.mem_append.mp hother with hold | hnew
    · exact Or.inl hold
    · rw [List.mem_singleton.mp hnew]
      exact Or.inr hfresh

theorem WellFormed.expunge (hserver : server.WellFormed) (uid : Nat) :
    WellFormed { server with
      messages := server.messages.filter fun message => message.uid ≠ uid } := by
  have hsub : (uids { server with
      messages := server.messages.filter fun message => message.uid ≠ uid }
      ).Sublist server.uids :=
    List.filter_sublist.map ServerMessage.uid
  exact ⟨hserver.nodup.sublist hsub,
    fun other hother => hserver.pos other (hsub.subset hother),
    fun other hother => hserver.lt other (hsub.subset hother),
    hserver.uidnext_pos⟩

theorem expunge_evolves (server : ImapServer) (uid : Nat) :
    server.Evolves { server with
      messages := server.messages.filter fun message => message.uid ≠ uid } where
  le := Nat.le_refl _
  uidnext_le := fun _ => Nat.le_refl _
  messages := fun _ _ hmessage => Or.inl (List.mem_filter.mp hmessage).1

theorem wellFormed_empty (uidvalidity : Nat) :
    WellFormed ⟨uidvalidity, 1, []⟩ :=
  ⟨List.nodup_nil, by simp [uids], by simp [uids], Nat.one_pos⟩

theorem renumber_evolves {uidvalidity : Nat}
    (hlt : server.uidvalidity < uidvalidity) :
    server.Evolves ⟨uidvalidity, 1, []⟩ where
  le := Nat.le_of_lt hlt
  uidnext_le := fun hsame => absurd hsame (Nat.ne_of_gt hlt)
  messages := fun hsame => absurd hsame (Nat.ne_of_gt hlt)

end ImapServer

/-! ### The pass moves -/

section PassSteps

variable {parse : Parser} {state : SyncState}

theorem Accounted.mono {reportedAbsent reported : List (Nat × Nat)}
    {uidvalidity : Nat} {first second : SyncDb} {message : ServerMessage}
    {exempt : Nat → Prop}
    (haccounted : Accounted parse reportedAbsent uidvalidity first message)
    (hkeeps : first.KeepsExcept exempt second) (hout : ¬ exempt message.uid)
    (habsent : reportedAbsent ⊆ reported) :
    Accounted parse reported uidvalidity second message := by
  rcases haccounted with ⟨parsed, hparsed, hlinked⟩ | hfailed | hgave | hgone
  · exact Or.inl ⟨parsed, hparsed, hkeeps.linked _ hlinked⟩
  · exact Or.inr (Or.inl (hkeeps.failed _ hfailed))
  · exact Or.inr (Or.inr (Or.inl (hkeeps.tombstoned _ hout hgave)))
  · exact Or.inr (Or.inr (Or.inr (habsent hgone)))

theorem selectMailbox_mailbox (server : ImapServer) (db : SyncDb)
    (args : PassArgs) (reportsUidnext : Bool) :
    (selectMailbox server db args reportsUidnext).1.mailbox = db.mailbox := by
  unfold selectMailbox
  dsimp only
  generalize Selected.mk _ _ _ _ = selected
  split <;> rfl

/-- SELECT resets labels and holds only when the stored UID space is not the
server's, where the promise says nothing. -/
theorem SyncInv.select (hinv : SyncInv parse state) (args : PassArgs)
    (reportsUidnext : Bool) :
    SyncInv parse { state with
      db := (selectMailbox state.server state.db args reportsUidnext).1
      phase := .selected
        (selectMailbox state.server state.db args reportsUidnext).2 } := by
  have hmailbox := selectMailbox_mailbox state.server state.db args
    reportsUidnext
  refine ⟨hinv.server, ?_, ?_, ⟨hmailbox.symm, Nat.le_refl _, ?_⟩⟩
  · change StoredOk state.server (selectMailbox _ _ _ _).1.mailbox
    exact hmailbox ▸ hinv.stored
  · intro hcurrent
    change (selectMailbox _ _ _ _).1.mailbox.uidvalidity = _ at hcurrent
    rw [hmailbox] at hcurrent
    have hkept : (selectMailbox state.server state.db args
        reportsUidnext).1 = state.db := by
      simp [selectMailbox, Selected.fullSync, hcurrent]
    dsimp only
    rw [hkept]
    exact hinv.noLoss hcurrent
  · intro _
    simp only [selectMailbox]
    split
    · exact Nat.le_refl _
    · exact Nat.zero_le _

theorem selected_current {selected : Selected}
    (hselected : SelectedOk state selected)
    (hspace : state.server.uidvalidity = selected.serverUidvalidity)
    (hfull : selected.fullSync = false) :
    state.db.mailbox.uidvalidity = some state.server.uidvalidity := by
  simpa [Selected.fullSync, hselected.row, hspace] using hfull

/-- In an incremental pass the stored watermark already covers what lies below
the resume point. -/
theorem NoLoss.of_lt_resumeFrom (hinv : SyncInv parse state)
    {selected : Selected} (hselected : SelectedOk state selected)
    (hspace : state.server.uidvalidity = selected.serverUidvalidity)
    (hfull : selected.fullSync = false) {message : ServerMessage}
    (hmessage : message ∈ state.server.messages)
    (hlt : message.uid < resumeFrom selected.row) :
    Accounted parse state.reportedAbsent state.server.uidvalidity state.db
      message := by
  have hpos : 0 < message.uid :=
    hinv.server.pos _ (List.mem_map_of_mem hmessage)
  have hcurrent := selected_current hselected hspace hfull
  have hstored := resumeFrom_eq_of_lt hpos hlt
  rw [hselected.row] at hstored hlt
  exact hinv.noLoss hcurrent _ hstored message hmessage hlt

/-- A pass that finds nothing moves the watermark to a point no candidate was
below. -/
theorem SyncInv.finishEmpty (hinv : SyncInv parse state) {selected : Selected}
    (hselected : SelectedOk state selected)
    (hspace : state.server.uidvalidity = selected.serverUidvalidity)
    (hmeets : SearchInSpace state.server selected)
    (hempty : capUids (candidateUids state.server selected)
      selected.args.maxMessages = []) :
    SyncInv parse { state with
      db := Localmail.finishEmpty state.db selected, phase := .idle } := by
  obtain ⟨hcap, hfullOk⟩ := hmeets
  have hnone := hcap hempty
  simp only [hempty, ↓reduceIte] at hfullOk
  have hpoint : emptyUidnext selected ≤ state.server.uidnext := by
    unfold emptyUidnext
    split
    · rename_i hzero
      cases hfull : selected.fullSync with
      | true => exact (hfullOk hfull).resolve_left (not_not_intro hzero)
      | false =>
          have hcurrent := selected_current hselected hspace hfull
          exact hselected.row ▸ hinv.stored.uidnext_le hcurrent
    · exact hselected.uidnext_le hspace.symm
  refine ⟨hinv.server, ⟨?_, ?_⟩, ?_, trivial⟩
  · intro uidvalidity hrow
    cases hrow
    exact hselected.le
  · intro _
    refine resumeFrom_le hinv.server.uidnext_pos ?_
    intro uidnext hrow
    cases hrow
    exact hpoint
  · intro _ uidnext hrow message hmessage _
    cases hfull : selected.fullSync with
    | true =>
        have hmem : message.uid ∈ candidateUids state.server selected :=
          mem_candidateUids (List.mem_map_of_mem hmessage) (by simp [hfull])
        simp [hnone] at hmem
    | false =>
        have hbelow : message.uid < resumeFrom selected.row := by
          by_contra hge
          have hmem : message.uid ∈ candidateUids state.server selected :=
            mem_candidateUids (List.mem_map_of_mem hmessage)
              (fun _ => Nat.not_lt.mp hge)
          simp [hnone] at hmem
        exact (NoLoss.of_lt_resumeFrom hinv hselected hspace hfull hmessage
          hbelow).mono (updateMailboxProgress_keeps (fun _ => False) _ _ _)
            not_false (List.Subset.refl _)

/-- A pass with something to fetch covers everything up to its last UID. -/
theorem SyncInv.startPass (hinv : SyncInv parse state) {selected : Selected}
    (hselected : SelectedOk state selected)
    (hspace : state.server.uidvalidity = selected.serverUidvalidity)
    (hmeets : SearchInSpace state.server selected) {uids : List Nat}
    (huids : capUids (candidateUids state.server selected)
      selected.args.maxMessages = uids) (hnonempty : uids ≠ []) (now : Micros) :
    SyncInv parse { state with
      phase := .betweenBatches
        (Localmail.startPass state.db selected uids now) } := by
  refine ⟨hinv.server, hinv.stored, hinv.noLoss, ⟨hselected.le, fun _ => ?_⟩⟩
  have hsize : 0 < batchSize := by decide
  obtain ⟨count, htake⟩ := capUids_eq_take
    (candidateUids state.server selected) selected.args.maxMessages
  rw [huids] at htake
  have hsorted := candidateUids_strict selected hinv.server.nodup
  have huidsSorted : uids.Pairwise (· < ·) :=
    htake ▸ hsorted.sublist (List.take_sublist _ _)
  have hcandidate : ∀ uid ∈ uids, uid ∈ candidateUids state.server selected :=
    fun uid huid => List.mem_of_mem_take (htake ▸ huid)
  -- The running maximum starts inside the first batch.
  have hseed : ∃ uid ∈ uids.take batchSize, resumeFrom selected.row ≤ uid + 1 := by
    cases hfull : selected.fullSync with
    | true =>
        have := hmeets.2 hfull
        simpa only [huids, hnonempty, ↓reduceIte] using this
    | false =>
        obtain ⟨head, rest, rfl⟩ := List.exists_cons_of_ne_nil hnonempty
        refine ⟨head, List.mem_cons_self, ?_⟩
        have := le_of_mem_candidateUids hfull
          (hcandidate head List.mem_cons_self)
        omega
  obtain ⟨seed, hseedMem, hseedLe⟩ := hseed
  obtain ⟨top, htop, hle⟩ := exists_top_of_strict huidsSorted hnonempty
  have hflatten := batches_flatten hsize uids
  refine ⟨top, ?_, ?_, ?_, ?_, ?_, ?_⟩
  · exact hinv.server.lt top (mem_uids_of_candidate (hcandidate top htop))
  · have := hle seed (List.mem_of_mem_take hseedMem)
    change resumeFrom selected.row - 1 ≤ top
    omega
  · intro uid huid
    exact hle uid (hflatten ▸ huid)
  · exact hflatten.symm ▸ huidsSorted
  · intro uid huid
    change uid ∈ (batches batchSize uids).tail.flatten at huid
    rw [batches_tail_flatten hsize] at huid
    rw [← List.take_append_drop batchSize uids] at huidsSorted
    have := (List.pairwise_append.mp huidsSorted).2.2 seed hseedMem uid huid
    change resumeFrom selected.row - 1 < uid
    omega
  · intro message hmessage hmessageLe
    change Accounted parse state.reportedAbsent selected.serverUidvalidity
      state.db message ∨ _ ∨ message.uid ∈ (batches batchSize uids).flatten
    by_cases hbelow : selected.fullSync = false ∧
        message.uid < resumeFrom selected.row
    · exact Or.inl (hspace ▸ NoLoss.of_lt_resumeFrom hinv hselected hspace
        hbelow.1 hmessage hbelow.2)
    · have hmem : message.uid ∈ candidateUids state.server selected :=
        mem_candidateUids (List.mem_map_of_mem hmessage)
          (fun hfull => Nat.not_lt.mp fun hlt => hbelow ⟨hfull, hlt⟩)
      rw [hflatten, htake]
      exact Or.inr (Or.inr (mem_take_of_not_rel hsorted (htake ▸ htop) hmem
        (Nat.not_lt.mpr hmessageLe)))

theorem SyncInv.fetch (hinv : SyncInv parse state) {pass : Pass}
    {chunk : List Nat} {rest : List (List Nat)} {answer : List FetchData}
    (hphase : state.phase = .betweenBatches pass)
    (hbatches : pass.batches = chunk :: rest)
    (htruthful : ∀ data ∈ answer, data.body ≠ [] →
      ⟨data.uid, data.body⟩ ∈ state.server.messages) :
    SyncInv parse { state with
      phase := .inBatch { pass with batches := rest } chunk answer } := by
  have hpass := hinv.phase
  rw [hphase] at hpass
  change PassOk parse state pass pass.batches.flatten
    pass.batches.tail.flatten at hpass
  rw [hbatches] at hpass
  refine ⟨hinv.server, hinv.stored, hinv.noLoss, ⟨hpass.le, ?_⟩, ?_⟩
  · intro hcurrent
    obtain ⟨top, hcovers⟩ := hpass.covers hcurrent
    exact ⟨top, hcovers.top_lt, hcovers.seen_le, hcovers.remaining_le,
      hcovers.sorted, hcovers.seen_lt_later, hcovers.covers⟩
  · intro _ data hdata hbody
    have hthere := htruthful data hdata hbody
    refine ⟨hinv.server.lt _ (List.mem_map_of_mem hthere), ?_⟩
    intro message hmessage huid
    have hsame := List.inj_on_of_nodup_map hinv.server.nodup hmessage hthere huid
    rw [hsame]

/-- One UID of the chunk is dealt with: it is accounted for or held, nothing
else is forgotten, and the running maximum moves to it at most. -/
structure Handles (parse : Parser) (server : ImapServer)
    (reported : List (Nat × Nat)) (uid : Nat) (before after : Pass) : Prop where
  validity : after.serverUidvalidity = before.serverUidvalidity
  batches : after.batches = before.batches
  seen : after.highestSeen ≤ max before.highestSeen uid
  hold : ∀ held ∈ before.holdAt, ∃ lower ∈ after.holdAt, lower ≤ held
  keeps : before.work.KeepsExcept (fun other => other = uid) after.work
  dealt : before.serverUidvalidity = server.uidvalidity →
    ∀ message ∈ server.messages, message.uid = uid →
      Accounted parse reported after.serverUidvalidity after.work message ∨
        ∃ held ∈ after.holdAt, held ≤ message.uid

theorem PassOk.handle {pass next : Pass} {uid : Nat} {chunk later : List Nat}
    {reported : List (Nat × Nat)} {phase : Phase}
    (hpass : PassOk parse state pass (uid :: chunk ++ later) later)
    (hhandles : Handles parse state.server reported uid pass next)
    (habsent : state.reportedAbsent ⊆ reported) :
    PassOk parse { state with phase := phase, reportedAbsent := reported } next
      (chunk ++ later) later where
  le := hhandles.validity ▸ hpass.le
  covers := by
    intro hcurrent
    have hcurrent' := hhandles.validity ▸ hcurrent
    obtain ⟨top, hcovers⟩ := hpass.covers hcurrent'
    have hsorted := List.pairwise_cons.mp hcovers.sorted
    have huidLe : uid ≤ top := hcovers.remaining_le uid List.mem_cons_self
    refine ⟨top, hcovers.top_lt, ?_, ?_, hsorted.2, ?_, ?_⟩
    · exact Nat.le_trans hhandles.seen (Nat.max_le.mpr ⟨hcovers.seen_le, huidLe⟩)
    · intro other hother
      exact hcovers.remaining_le other (List.mem_cons_of_mem _ hother)
    · intro other hother
      have hseen := hcovers.seen_lt_later other hother
      have huid := hsorted.1 other (List.mem_append_right _ hother)
      exact Nat.lt_of_le_of_lt hhandles.seen (Nat.max_lt.mpr ⟨hseen, huid⟩)
    · intro message hmessage hle
      by_cases huid : message.uid = uid
      · exact (hhandles.dealt hcurrent' message hmessage huid).imp_right Or.inl
      · rcases hcovers.covers message hmessage hle with
          haccounted | ⟨held, hheld, hheldLe⟩ | hremaining
        · rw [hhandles.validity]
          exact Or.inl (haccounted.mono hhandles.keeps huid habsent)
        · obtain ⟨lower, hlower, hlowerLe⟩ := hhandles.hold held hheld
          exact Or.inr (Or.inl ⟨lower, hlower,
            Nat.le_trans hlowerLe hheldLe⟩)
        · exact Or.inr (Or.inr
            ((List.mem_cons.mp hremaining).resolve_left huid))

theorem SyncInv.handle (hinv : SyncInv parse state) {pass next : Pass}
    {uid : Nat} {chunk : List Nat} {fetched : List FetchData}
    {reported : List (Nat × Nat)}
    (hphase : state.phase = .inBatch pass (uid :: chunk) fetched)
    (hhandles : Handles parse state.server reported uid pass next)
    (habsent : state.reportedAbsent ⊆ reported) :
    SyncInv parse { state with
      phase := .inBatch next chunk fetched, reportedAbsent := reported } := by
  have hpass := hinv.phase
  rw [hphase] at hpass
  obtain ⟨hpassOk, hagrees⟩ := hpass
  refine ⟨hinv.server, hinv.stored, ?_, ?_, ?_⟩
  · intro hcurrent uidnext hrow message hmessage hlt
    exact (hinv.noLoss hcurrent uidnext hrow message hmessage hlt).mono
      (SyncDb.KeepsExcept.refl (fun _ => False) _) not_false habsent
  · rw [hhandles.batches]
    exact hpassOk.handle hhandles habsent
  · rw [hhandles.validity]
    exact hagrees

/-- A UID that came back empty is held, or tombstoned once its window is
over. -/
theorem holdOrGiveUp_handles (server : ImapServer)
    (reported : List (Nat × Nat)) (pass : Pass) (uid : Nat) (txNow : Micros) :
    Handles parse server reported uid pass (holdOrGiveUp pass uid txNow) := by
  have hrecorded := recordAttempt_keeps (fun other => other = uid) pass.work
    uid txNow
  unfold holdOrGiveUp
  dsimp only
  split
  · refine ⟨rfl, rfl, Nat.le_refl _, fun held hheld => ⟨held, hheld, le_rfl⟩,
      hrecorded.trans (markGaveUp_keeps _ _ _ _), ?_⟩
    intro _ message _ huid
    subst huid
    obtain ⟨row, hrow, hrowUid⟩ := recordAttempt_mem pass.work message.uid txNow
    exact Or.inl (Or.inr (Or.inr (Or.inl
      (markGaveUp_tombstoned _ _ _ hrow hrowUid))))
  · refine ⟨rfl, rfl, Nat.le_max_left _ _, ?_, hrecorded, ?_⟩
    · intro held hheld
      refine ⟨min held uid, ?_, Nat.min_le_left _ _⟩
      simp [Option.mem_def.mp hheld]
    · intro _ message _ huid
      refine Or.inr ⟨_, rfl, ?_⟩
      cases pass.holdAt with
      | none => exact Nat.le_of_eq huid.symm
      | some held => exact huid ▸ Nat.min_le_right _ _

theorem fetchedBody_spec {fetched : List FetchData} {uid : Nat}
    {data : FetchData} (h : fetchedBody fetched uid = some data) :
    data ∈ fetched ∧ data.uid = uid ∧ data.body ≠ [] := by
  unfold fetchedBody at h
  split at h
  · rename_i found hfind
    split at h
    · cases h
    · rename_i hbody
      cases h
      exact ⟨List.mem_of_find?_eq_some hfind,
        key_of_find? hfind, hbody⟩
  · cases h

/-- A body that arrived is linked under its dedup key, or set aside as
failed. -/
theorem storeBody_handles {server : ImapServer} (reported : List (Nat × Nat))
    {pass next : Pass} {uid : Nat} {data : FetchData} {fault : Option Fault}
    (hbody : pass.serverUidvalidity = server.uidvalidity →
      ∀ message ∈ server.messages, message.uid = uid →
        message.body = data.body)
    (h : storeBody parse pass uid data fault = some next) :
    Handles parse server reported uid pass next := by
  unfold storeBody at h
  dsimp only at h
  -- Clearing the hold history of `uid` is the first write of the branch.
  generalize hcleared : (if uid ∈ pass.heldAttempts then
      ({ pass with
        work := clearAttempts pass.work uid
        heldAttempts := pass.heldAttempts.filter fun held => held ≠ uid } : Pass)
    else pass) = cleared at h
  have hsame : cleared.serverUidvalidity = pass.serverUidvalidity ∧
      cleared.batches = pass.batches ∧
      cleared.highestSeen = pass.highestSeen ∧
      cleared.holdAt = pass.holdAt ∧
      pass.work.KeepsExcept (fun other => other = uid) cleared.work := by
    split at hcleared
    · subst hcleared
      exact ⟨rfl, rfl, rfl, rfl, clearAttempts_keeps pass.work uid⟩
    · subst hcleared
      exact ⟨rfl, rfl, rfl, rfl, SyncDb.KeepsExcept.refl _ _⟩
  obtain ⟨hvalidity, hbatches, hseen, hhold, hkeeps⟩ := hsame
  have hheld : ∀ held ∈ pass.holdAt, ∃ lower ∈ cleared.holdAt, lower ≤ held :=
    fun held hmem => ⟨held, hhold ▸ hmem, le_rfl⟩
  split at h
  · rename_i linked didInsert hprocessed
    cases h
    obtain ⟨hlinkedKeeps, parsed, hparsed, hlinked⟩ :
        cleared.work.KeepsExcept (fun other => other = uid) linked ∧ _ :=
      processOneMessage_spec hprocessed
    refine ⟨hvalidity, hbatches, by simp [hseen], hheld,
      hkeeps.trans hlinkedKeeps, ?_⟩
    intro hcurrent message hmessage huid
    refine Or.inl (Or.inl ⟨parsed, ?_, hlinked⟩)
    rw [hbody hcurrent message hmessage huid]
    exact hparsed
  · cases h
  · cases h
    refine ⟨hvalidity, hbatches, by simp [hseen], hheld,
      hkeeps.trans (recordFailedMessage_keeps _ _ _ _), ?_⟩
    intro _ message _ huid
    exact Or.inl (Or.inr (Or.inl
      (huid ▸ recordFailedMessage_failed cleared.work uid data.body)))

/-- A UID the probe reports gone needs nothing but the report. -/
theorem reportAbsent_handles (server : ImapServer)
    (reported : List (Nat × Nat)) (pass : Pass) (uid : Nat) :
    Handles parse server ((pass.serverUidvalidity, uid) :: reported) uid pass
      { pass with highestSeen := max pass.highestSeen uid } where
  validity := rfl
  batches := rfl
  seen := Nat.le_refl _
  hold := fun held hheld => ⟨held, hheld, le_rfl⟩
  keeps := SyncDb.KeepsExcept.refl _ _
  dealt := by
    intro _ message _ huid
    exact Or.inl (Or.inr (Or.inr (Or.inr (huid ▸ List.mem_cons_self))))

/-- The resume point covers the pass: nothing present below it is held or
still to come. -/
theorem PassCovers.accounted_of_lt_checkpoint {pass : Pass} {later : List Nat}
    {top : Nat} (hcovers : PassCovers parse state pass later later top)
    {message : ServerMessage} (hmessage : message ∈ state.server.messages)
    (hlt : message.uid < checkpointUidnext pass.highestSeen pass.holdAt) :
    Accounted parse state.reportedAbsent pass.serverUidvalidity pass.work
      message := by
  have hseen : message.uid ≤ pass.highestSeen := by
    have := checkpointUidnext_le pass.highestSeen pass.holdAt
    omega
  rcases hcovers.covers message hmessage (Nat.le_trans hseen hcovers.seen_le)
    with haccounted | ⟨held, hheld, hheldLe⟩ | hlater
  · exact haccounted
  · have := checkpointUidnext_le_held pass.highestSeen hheld
    omega
  · have := hcovers.seen_lt_later _ hlater
    omega

theorem checkpointPass_keeps (pass : Pass) :
    pass.work.KeepsExcept (fun _ => False) (checkpointPass pass) :=
  (updateMailboxProgress_keeps _ _ _ _).trans (reclaimBelow_keeps _ _ _)

theorem SyncInv.checkpoint (hinv : SyncInv parse state) {pass : Pass}
    {fetched : List FetchData} (hphase : state.phase = .inBatch pass [] fetched) :
    SyncInv parse { state with
      db := checkpointPass pass
      phase :=
        if pass.batches = [] then .idle
        else .betweenBatches { pass with work := checkpointPass pass } } := by
  have hpass := hinv.phase
  rw [hphase] at hpass
  obtain ⟨hpassOk, -⟩ := hpass
  change PassOk parse state pass pass.batches.flatten pass.batches.flatten
    at hpassOk
  have hmailbox : (checkpointPass pass).mailbox =
      ⟨some pass.serverUidvalidity,
        some (checkpointUidnext pass.highestSeen pass.holdAt)⟩ := rfl
  refine ⟨hinv.server, ⟨?_, ?_⟩, ?_, ?_⟩
  · intro uidvalidity hrow
    cases hrow
    exact hpassOk.le
  · intro hcurrent
    refine resumeFrom_le hinv.server.uidnext_pos ?_
    intro uidnext hrow
    simp only [hmailbox, Option.some.injEq, Option.mem_def] at hcurrent hrow
    obtain ⟨top, hcovers⟩ := hpassOk.covers hcurrent
    have hle := checkpointUidnext_le pass.highestSeen pass.holdAt
    have := hcovers.seen_le
    have := hcovers.top_lt
    dsimp only
    omega
  · intro hcurrent uidnext hrow message hmessage hlt
    simp only [hmailbox, Option.some.injEq, Option.mem_def] at hcurrent hrow
    subst hrow
    obtain ⟨top, hcovers⟩ := hpassOk.covers hcurrent
    exact (hcurrent ▸ hcovers.accounted_of_lt_checkpoint hmessage hlt).mono
      (checkpointPass_keeps pass) not_false (List.Subset.refl _)
  · dsimp only
    split
    · trivial
    · refine ⟨hpassOk.le, ?_⟩
      intro hcurrent
      obtain ⟨top, hcovers⟩ := hpassOk.covers hcurrent
      refine ⟨top, hcovers.top_lt, hcovers.seen_le, hcovers.remaining_le,
        hcovers.sorted, ?_, ?_⟩
      · intro uid huid
        exact hcovers.seen_lt_later uid (mem_flatten_of_tail huid)
      · intro message hmessage hle
        exact (hcovers.covers message hmessage hle).imp_left fun haccounted =>
          haccounted.mono (checkpointPass_keeps pass) not_false
            (List.Subset.refl _)

end PassSteps

/-! ### Every run -/

theorem SyncInv.idle {parse : Parser} {state : SyncState}
    (hinv : SyncInv parse state) : SyncInv parse { state with phase := .idle } :=
  ⟨hinv.server, hinv.stored, hinv.noLoss, trivial⟩

theorem SyncInv.search {parse : Parser} {state next : SyncState} {now : Micros}
    (hinv : SyncInv parse state)
    (hmeets : WatermarkInSpace state (.search now))
    (hstep : syncStep parse state (.search now) = some next) :
    SyncInv parse next := by
  simp only [syncStep] at hstep
  split at hstep
  · rename_i selected hphase
    split at hstep
    · rename_i hspace
      have hselected : SelectedOk state selected := by
        have := hinv.phase
        rwa [hphase] at this
      have hsearch : SearchInSpace state.server selected :=
        hmeets selected (by simp [searchedSelection, hphase])
      split at hstep
      · rename_i hempty
        cases hstep
        exact hinv.finishEmpty hselected hspace hsearch hempty
      · rename_i hnonempty
        cases hstep
        exact hinv.startPass hselected hspace hsearch rfl hnonempty now
    · cases hstep
  · cases hstep

theorem SyncInv.handleStep {parse : Parser} {state next : SyncState}
    {stillOnServer : Bool} {fault : Option Fault} {txNow : Micros}
    (hinv : SyncInv parse state)
    (hstep : syncStep parse state (.handle stillOnServer fault txNow) =
      some next) :
    SyncInv parse next := by
  simp only [syncStep] at hstep
  split at hstep
  · rename_i pass uid chunk fetched hphase
    have habsent : state.reportedAbsent ⊆ state.reportedAbsent :=
      List.Subset.refl _
    split at hstep
    · rename_i data hdata
      obtain ⟨hmem, huid, hbody⟩ := fetchedBody_spec hdata
      have hagrees : pass.serverUidvalidity = state.server.uidvalidity →
          FetchAgrees state.server fetched := by
        have := hinv.phase
        rw [hphase] at this
        exact this.2
      split at hstep
      · rename_i stored hstored
        cases hstep
        refine hinv.handle hphase (storeBody_handles state.reportedAbsent ?_
          hstored) habsent
        intro hcurrent message hmessage hmessageUid
        exact (hagrees hcurrent data hmem hbody).2 message hmessage
          (hmessageUid.trans huid.symm)
      · cases hstep
        exact hinv.idle
    · split at hstep
      · cases hstep
        exact hinv.handle hphase (holdOrGiveUp_handles _ _ _ _ _) habsent
      · split at hstep
        · cases hstep
          exact hinv.handle hphase (reportAbsent_handles _ _ _ _)
            (List.subset_cons_self _ _)
        · cases hstep
  · cases hstep

/-- One step keeps the invariant. -/
theorem SyncInv.step {parse : Parser} {state next : SyncState}
    {event : SyncEvent} (hinv : SyncInv parse state)
    (hmeets : WatermarkInSpace state event)
    (hstep : syncStep parse state event = some next) : SyncInv parse next := by
  cases event with
  | deliver message =>
      simp only [syncStep] at hstep
      split at hstep
      · rename_i hfresh
        cases hstep
        exact hinv.evolve (ImapServer.deliver_evolves hfresh)
          (hinv.server.deliver hfresh)
      · cases hstep
  | expunge uid =>
      cases hstep
      exact hinv.evolve (state.server.expunge_evolves uid)
        (hinv.server.expunge uid)
  | renumber uidvalidity =>
      simp only [syncStep] at hstep
      split at hstep
      · rename_i hlt
        cases hstep
        exact hinv.evolve (ImapServer.renumber_evolves hlt)
          (ImapServer.wellFormed_empty uidvalidity)
      · cases hstep
  | select args reportsUidnext =>
      simp only [syncStep] at hstep
      split at hstep
      · cases hstep
        exact hinv.select args reportsUidnext
      · cases hstep
  | search now => exact hinv.search hmeets hstep
  | fetch answer =>
      simp only [syncStep] at hstep
      split at hstep
      · rename_i pass hphase
        split at hstep
        · rename_i chunk rest hbatches
          split at hstep
          · rename_i htruthful
            cases hstep
            exact hinv.fetch hphase hbatches htruthful.2
          · cases hstep
        · cases hstep
      · cases hstep
  | handle stillOnServer fault txNow => exact hinv.handleStep hstep
  | checkpoint =>
      simp only [syncStep] at hstep
      split at hstep
      · rename_i pass fetched hphase
        cases hstep
        exact hinv.checkpoint hphase
      · cases hstep
  | crash =>
      cases hstep
      exact hinv.idle

/-- IMAP sync loses no message: from a mailbox no pass has run on, in every
run whose SEARCHes keep the watermark inside the UID space they run in, all
that is present below the stored watermark is dealt with. -/
theorem sync_loses_no_message (parse : Parser) (start state : SyncState)
    (hfresh : start.Fresh)
    (hreach : GuardedReach (syncStep parse) WatermarkInSpace start state) :
    NoLoss parse state := by
  have hinv : SyncInv parse state :=
    hreach.invariant (hfresh.syncInv parse)
      (fun _ _ _ hbefore hmeets hstep => hbefore.step hmeets hstep)
  exact hinv.noLoss

namespace SyncWitness

/-- A parser that knows no Message-Id and digests a body by its first byte. -/
def firstByte : Parser := fun raw =>
  raw.head?.map fun byte => ⟨none, byte.toNat⟩

def start : SyncState where
  server := ⟨1, 1, []⟩
  db := ⟨⟨none, none⟩, [], 1, [], [], []⟩
  phase := .idle
  reportedAbsent := []

theorem start_fresh : start.Fresh :=
  ⟨ImapServer.wellFormed_empty 1, rfl, rfl⟩

/-- One undisturbed pass over the single message `uid`. -/
def runOver (uid : Nat) (byte : UInt8) : List SyncEvent :=
  [.select ⟨none, 3600⟩ true, .search 0, .fetch [⟨uid, [byte], [], none⟩],
    .handle true none 0, .checkpoint]

/-- Nine UIDs are used up before the mailbox is renumbered; the first pass
over the new space stores it with the old watermark, and the next message
falls below it. -/
def lossyRun : List SyncEvent :=
  .deliver ⟨9, [1]⟩ :: runOver 9 1 ++ [.renumber 2, .deliver ⟨1, [2]⟩] ++
    runOver 1 2 ++ [.deliver ⟨2, [3]⟩]

/-- The same history with a watermark the new space reaches at once. -/
def safeRun : List SyncEvent :=
  .deliver ⟨1, [1]⟩ :: runOver 1 1 ++ [.renumber 2, .deliver ⟨1, [2]⟩] ++
    runOver 1 2 ++ [.deliver ⟨2, [3]⟩] ++ runOver 2 3

end SyncWitness

open SyncWitness in
/-- Without the condition on SEARCH the promise fails: after a UIDVALIDITY
change the old watermark is stored with the new UID space. -/
theorem sync_loses_message_after_renumber :
    ¬ ∀ (parse : Parser) (start state : SyncState), start.Fresh →
      Reach (syncStep parse) start state → NoLoss parse state := by
  intro hclaim
  obtain ⟨final, hfinal, hlost⟩ : ∃ final,
      replayGuarded (syncStep firstByte) (fun _ _ => True) start lossyRun =
        some final ∧ ¬ NoLoss firstByte final := by
    refine ⟨_, rfl, ?_⟩
    decide
  exact hlost (hclaim firstByte start final start_fresh
    (GuardedReach.of_replay lossyRun hfinal))

open SyncWitness in
theorem sync_loses_no_message_safeRun :
    ∃ final, replayGuarded (syncStep firstByte) WatermarkInSpace start safeRun =
        some final ∧ final.db.mailbox = ⟨some 2, some 3⟩ ∧
      NoLoss firstByte final := by
  refine ⟨_, rfl, rfl, ?_⟩
  exact sync_loses_no_message firstByte start _ start_fresh
    (GuardedReach.of_replay safeRun rfl)

end Localmail
