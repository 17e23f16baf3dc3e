/-
One step of a pass or of a retry run, from a committed state in order: the
process keeps what it relies on, up to the resume point it commits.
-/
import Localmail.HeldWindow
import Localmail.OverlapActs

namespace Localmail

/-- What is committed is in order: the mailbox row exists, in the server's UID
space, and its resume point is safe. -/
structure SharedOk (parse : Parser) (shared : OverlapShared) : Prop where
  server : shared.server.WellFormed
  mailbox : ∃ row : MailboxRow, shared.committed .mailbox = some row ∧
    row.uidvalidity = some shared.server.uidvalidity ∧
    ∀ uidnext ∈ row.uidnext, SafeBelow parse shared shared.committed uidnext

section Steps

variable {parse : Parser} {tx : Nat} {shared after : OverlapShared}
  {proc next : SyncProc} {loop : SyncLoop} {later uids : List Nat}
  {selected : Selected} {received : List Nat} {answer : StepAnswer}
  {row : MailboxRow} {bound : Nat}

/-! ### Reading the mailbox -/

theorem view_of_idle (hidle : ∀ key, shared.store.own tx key = none)
    (key : SyncKey) : shared.store.view tx key = shared.committed key := by
  rw [← seen_own]
  exact seen_of_none (hidle key)

theorem SharedOk.rowOk (hshared : SharedOk parse shared)
    (hrow : shared.committed .mailbox = some row) : RowOk parse shared row := by
  obtain ⟨stored, hstored, hvalidity, hsafe⟩ := hshared.mailbox
  obtain rfl := Option.some.inj (hrow.symm.trans hstored)
  refine ⟨hvalidity, ?_⟩
  rcases resumeFrom_cases row with hone | ⟨-, hresume⟩
  · rw [hone]
    refine ⟨hshared.server.uidnext_pos, ?_⟩
    intro message hmessage hlt
    have hpos := hshared.server.pos _ (List.mem_map_of_mem hmessage)
    omega
  · exact hsafe _ hresume

/-- A committed resume point is safe in the eyes of a transaction that is
storing no message. -/
theorem SafeBelow.seen (hsafe : SafeBelow parse shared shared.committed bound)
    {own : Overlay SyncRow} (htx : TxOk parse shared own received none) :
    SafeBelow parse shared (shared.seen own) bound where
  le := hsafe.le
  accounted := fun message hmessage hlt =>
    htx.seen_accounted hmessage nofun (hsafe.accounted message hmessage hlt)

theorem SafeBelow.commit (hsafe : SafeBelow parse shared shared.committed bound)
    (htx : TxOk parse shared (shared.store.own tx) received none) :
    SafeBelow parse (shared.commit tx) (shared.commit tx).committed bound := by
  obtain ⟨hle, haccounted⟩ := hsafe.seen htx
  rw [committed_commit]
  exact ⟨hle, haccounted⟩

theorem RowOk.commit (hrow : RowOk parse shared row)
    (htx : TxOk parse shared (shared.store.own tx) received none) :
    RowOk parse (shared.commit tx) row :=
  ⟨hrow.uidvalidity, hrow.safe.commit htx⟩

theorem updateProgress_eq {uidvalidity uidnext : Nat}
    (hupdate : shared.updateProgress tx uidvalidity uidnext = some after) :
    shared.store.Free tx .mailbox ∧
      after = shared.put tx .mailbox
        (some (⟨some uidvalidity, some uidnext⟩ : MailboxRow)) := by
  obtain ⟨hfree, hafter⟩ := Option.ite_none_right_eq_some.mp hupdate
  exact ⟨hfree, (Option.some.inj hafter).symm⟩

theorem starting_acts (hshared : SharedOk parse shared)
    (hidle : ∀ key, shared.store.own tx key = none) {args : PassArgs}
    (hstep : procStep parse tx shared (.starting args) answer =
      some (after, next)) :
    ProcActs parse tx shared proc after next := by
  cases answer with
  | done =>
      simp only [procStep] at hstep
      split at hstep
      · rename_i row hview
        obtain ⟨hfree, hsome⟩ := Option.ite_none_right_eq_some.mp hstep
        obtain ⟨rfl, rfl⟩ := Prod.mk.inj (Option.some.inj hsome)
        rw [view_of_idle hidle] at hview
        have hrow := hshared.rowOk hview
        obtain ⟨stored, hstored, -, hsafe⟩ := hshared.mailbox
        obtain rfl := Option.some.inj (hview.symm.trans hstored)
        have htx : TxOk parse shared (shared.store.own tx) [] none :=
          .idle [] none hidle
        refine .put hfree ⟨?_, hrow.uidvalidity, hrow.safe.le,
          hrow.safe.accounted⟩
        exact htx.put_mailbox hrow.uidvalidity fun uidnext huidnext =>
          (hsafe uidnext huidnext).seen htx
      · cases hstep
  | now | select | fetch | probe | raised => cases hstep

theorem ready_acts (hidle : ∀ key, shared.store.own tx key = none)
    (hrow : RowOk parse shared row) {args : PassArgs}
    (hstep : procStep parse tx shared (.ready args row) answer =
      some (after, next)) :
    ProcActs parse tx shared proc after next := by
  cases answer with
  | select reportsUidnext =>
      obtain ⟨rfl, rfl⟩ := Prod.mk.inj (Option.some.inj hstep)
      refine .still ⟨hidle, hrow, rfl, ?_⟩
      dsimp only
      split
      · exact Nat.le_refl _
      · exact Nat.zero_le _
  | done | now | fetch | probe | raised => cases hstep

/-! ### SEARCH -/

/-- What is not a candidate lies below the resume point. -/
theorem RowOk.not_candidate (hrow : RowOk parse shared selected.row)
    {message : ServerMessage} (hmessage : message ∈ shared.server.messages)
    (hout : message.uid ∉ candidateUids shared.server selected) :
    AccountedIn parse shared shared.committed message := by
  refine hrow.safe.accounted message hmessage ?_
  by_contra hge
  exact hout (mem_candidateUids (List.mem_map_of_mem hmessage)
    fun _ => Nat.not_lt.mp hge)

theorem RowOk.empty_safe (hrow : RowOk parse shared selected.row)
    (hle : selected.serverUidnext ≤ shared.server.uidnext)
    (hnone : candidateUids shared.server selected = []) :
    SafeBelow parse shared shared.committed (emptyUidnext selected) where
  le := by
    unfold emptyUidnext
    split
    · exact hrow.safe.le
    · exact hle
  accounted := by
    intro message hmessage _
    refine hrow.not_candidate hmessage ?_
    rw [hnone]
    exact List.not_mem_nil

/-- A pass with something to fetch covers everything up to its last UID. -/
theorem RowOk.loopCovers (hserver : shared.server.WellFormed)
    (hrow : RowOk parse shared selected.row)
    (hfull : selected.fullSync = false)
    (huids : capUids (candidateUids shared.server selected)
      selected.args.maxMessages = uids) (hnonempty : uids ≠ []) :
    ∃ top, LoopCovers parse shared (fun _ => none)
      (resumeFrom selected.row - 1) none uids
      (batches batchSize uids).tail.flatten top := by
  have hsize : 0 < batchSize := by decide
  obtain ⟨count, htake⟩ := capUids_eq_take
    (candidateUids shared.server selected) selected.args.maxMessages
  rw [huids] at htake
  have hsorted := candidateUids_strict selected hserver.nodup
  have huidsSorted : uids.Pairwise (· < ·) :=
    htake ▸ hsorted.sublist (List.take_sublist _ _)
  have hcandidate : ∀ uid ∈ uids, uid ∈ candidateUids shared.server selected :=
    fun uid huid => List.mem_of_mem_take (htake ▸ huid)
  obtain ⟨top, htop, hle⟩ := exists_top_of_strict huidsSorted hnonempty
  have hresume : ∀ uid ∈ uids, resumeFrom selected.row ≤ uid := fun uid huid =>
    le_of_mem_candidateUids hfull (hcandidate uid huid)
  refine ⟨top, ?_, ?_, hle, huidsSorted, ?_, ?_⟩
  · exact hserver.lt top (mem_uids_of_candidate (hcandidate top htop))
  · have := hresume top htop
    omega
  · intro uid huid
    rw [batches_tail_flatten hsize] at huid
    have hpos := resumeFrom_pos selected.row
    have := hresume uid (List.mem_of_mem_drop huid)
    omega
  · intro message hmessage hmessageLe
    by_cases hmem : message.uid ∈ candidateUids shared.server selected
    · rw [htake]
      exact .inr (.inr (mem_take_of_not_rel hsorted (htake ▸ htop) hmem
        (Nat.not_lt.mpr hmessageLe)))
    · exact .inl (hrow.not_candidate hmessage hmem)

theorem selected_acts (hshared : SharedOk parse shared)
    (hproc : ProcOk parse tx shared (.selected selected))
    (hcap : capUids (candidateUids shared.server selected)
      selected.args.maxMessages = [] →
        candidateUids shared.server selected = [])
    (hstep : procStep parse tx shared (.selected selected) answer =
      some (after, next)) :
    ProcActs parse tx shared proc after next := by
  obtain ⟨hidle, hrow, hvalidity, hle⟩ := hproc
  cases answer with
  | done =>
      simp only [procStep] at hstep
      split at hstep
      · cases hstep
      · rename_i hfull
        split at hstep
        · rename_i hempty
          cases hstep
          exact .still ⟨hidle, hvalidity, hrow.empty_safe hle (hcap hempty)⟩
        · rename_i hnonempty
          cases hstep
          have hcovers := hrow.loopCovers hshared.server
            (eq_false_of_ne_true hfull) rfl hnonempty
          refine .still ⟨hidle, hvalidity, ?_⟩
          rwa [show shared.store.own tx = fun _ => none from funext hidle]
  | now | select | fetch | probe | raised => cases hstep

theorem empty_acts (hproc : ProcOk parse tx shared (.empty selected))
    (hstep : procStep parse tx shared (.empty selected) answer =
      some (after, next)) :
    ProcActs parse tx shared proc after next := by
  obtain ⟨hidle, hvalidity, hsafe⟩ := hproc
  cases answer with
  | done =>
      simp only [procStep] at hstep
      obtain ⟨updated, hupdate, hsome⟩ := Option.map_eq_some_iff.mp hstep
      obtain ⟨rfl, rfl⟩ := Prod.mk.inj hsome
      obtain ⟨hfree, rfl⟩ := updateProgress_eq hupdate
      have htx : TxOk parse shared (shared.store.own tx) [] none :=
        .idle [] none hidle
      refine .put hfree (htx.put_mailbox (congrArg some hvalidity) ?_)
      rintro uidnext ⟨⟩
      exact hsafe.seen htx
  | now | select | fetch | probe | raised => cases hstep

theorem searched_acts (hproc : ProcOk parse tx shared (.searched selected uids))
    (hstep : procStep parse tx shared (.searched selected uids) answer =
      some (after, next)) :
    ProcActs parse tx shared proc after next := by
  obtain ⟨hidle, hvalidity, top, hcovers⟩ := hproc
  cases answer with
  | now moment =>
      obtain ⟨rfl, rfl⟩ := Prod.mk.inj (Option.some.inj hstep)
      refine .still ⟨⟨⟨hvalidity, nofun⟩, .idle _ _ hidle, top, ?_⟩,
        hidle .mailbox⟩
      change LoopCovers _ _ _ _ _ (batches batchSize uids).flatten _ _
      rw [batches_flatten (by decide)]
      exact hcovers
  | done | select | fetch | probe | raised => cases hstep

/-! ### The chunks -/

theorem TxOk.receive {own : Overlay SyncRow} {current : Option Nat}
    (htx : TxOk parse shared own received current) (more : List Nat) :
    TxOk parse shared own (more ++ received) current where
  rows := htx.rows
  hold := by
    intro uid hown htombstoned
    refine (htx.hold uid hown htombstoned).imp_right ?_
    rintro ⟨hreceived, hrest⟩
    exact ⟨List.mem_append_right _ hreceived, hrest⟩
  mailbox := htx.mailbox

theorem mem_bodiesIn {data : List FetchData} {uid : Nat} :
    uid ∈ bodiesIn data ↔ ∃ item ∈ data, item.body ≠ [] ∧ item.uid = uid := by
  simp [bodiesIn, and_assoc]

theorem between_acts (hshared : SharedOk parse shared)
    (hproc : ProcOk parse tx shared (.between loop))
    (hstep : procStep parse tx shared (.between loop) answer =
      some (after, next)) :
    ProcActs parse tx shared proc after next := by
  obtain ⟨⟨hloop, htx, hcovers⟩, hunmoved⟩ := hproc
  cases answer with
  | fetch data =>
      simp only [procStep] at hstep
      split at hstep
      · cases hstep
      · rename_i chunk rest hbatches
        rw [hbatches] at hcovers
        obtain ⟨htruthful, hsome⟩ := Option.ite_none_right_eq_some.mp hstep
        obtain ⟨rfl, rfl⟩ := Prod.mk.inj (Option.some.inj hsome)
        refine .still (nextUid_ok ⟨hloop.uidvalidity, ?_⟩ ?_ ?_ hunmoved
          (htx.receive (bodiesIn data)) hcovers)
        · intro uid huid
          rcases List.mem_append.mp huid with hnew | hold
          · obtain ⟨item, hitem, hbody, rfl⟩ := mem_bodiesIn.mp hnew
            exact hshared.server.lt _
              (List.mem_map_of_mem (htruthful item hitem hbody))
          · exact hloop.received uid hold
        · intro item hitem hbody
          have hthere := htruthful item hitem hbody
          refine ⟨hshared.server.lt _ (List.mem_map_of_mem hthere), ?_⟩
          intro message hmessage huid
          rw [List.inj_on_of_nodup_map hshared.server.nodup hmessage hthere huid]
        · intro item hitem hbody
          exact List.mem_append_left _
            (mem_bodiesIn.mpr ⟨item, hitem, hbody, rfl⟩)
  | done | now | select | probe | raised => cases hstep

theorem chunkDone_acts (hproc : ProcOk parse tx shared (.chunkDone loop))
    (hstep : procStep parse tx shared (.chunkDone loop) answer =
      some (after, next)) :
    ProcActs parse tx shared proc after next := by
  obtain ⟨hloop, htx, hcovers⟩ := hproc
  cases answer with
  | done =>
      simp only [procStep] at hstep
      obtain ⟨updated, hupdate, hsome⟩ := Option.map_eq_some_iff.mp hstep
      obtain ⟨rfl, rfl⟩ := Prod.mk.inj hsome
      obtain ⟨hfree, rfl⟩ := updateProgress_eq hupdate
      refine .put hfree ⟨hloop.write rfl, ?_, ?_⟩
      · refine htx.put_mailbox (congrArg some hloop.uidvalidity) ?_
        rintro uidnext ⟨⟩
        exact hcovers.checkpoint
      · obtain ⟨top, hcovers⟩ := hcovers
        exact ⟨top, hcovers.rewrite rfl fun _ _ _ haccounted =>
          accounted_put_mailbox haccounted⟩
  | now | select | fetch | probe | raised => cases hstep

theorem reclaiming_acts {resumeAt : Nat} {candidates : List SyncKey}
    (hproc : ProcOk parse tx shared (.reclaiming loop resumeAt candidates))
    (hstep : procStep parse tx shared (.reclaiming loop resumeAt candidates)
      answer = some (after, next)) :
    ProcActs parse tx shared proc after next := by
  obtain ⟨hloop, htx, hcovers⟩ := hproc
  cases answer with
  | done =>
      simp only [procStep] at hstep
      obtain ⟨store, hdelete, hsome⟩ := Option.map_eq_some_iff.mp hstep
      obtain ⟨rfl, rfl⟩ := Prod.mk.inj hsome
      have hwrites : Writes shared { shared with store := store }
          (shared.store.own tx) (store.own tx) none := by
        refine writes_delete hdelete ?_ ?_
        · rintro (_ | _ | _ | _ | uid) _ hchosen
          · cases hchosen
          · cases hchosen
          · cases hchosen
          · cases hchosen
          · exact Option.some_ne_none uid
        · intro uid row _ hgave
          have hlive : row.gaveUpAt.isNone = false := by
            rw [← Option.not_isSome, hgave]
            rfl
          simp [isDeadBelow, hlive]
      exact .delete hdelete ⟨hloop.write rfl, hwrites.txOk htx forall_cleared_none,
        hcovers.write hwrites forall_cleared_none⟩
  | now | select | fetch | probe | raised => cases hstep

theorem seen_commit (shared : OverlapShared) (tx : Nat) :
    (shared.commit tx).seen ((shared.commit tx).store.own tx) =
      shared.seen (shared.store.own tx) := by
  rw [← committed_commit shared tx]
  funext key
  exact seen_of_none (own_commit shared tx key)

theorem reclaimed_acts (hproc : ProcOk parse tx shared (.reclaimed loop))
    (hstep : procStep parse tx shared (.reclaimed loop) answer =
      some (after, next)) :
    ProcActs parse tx shared (.reclaimed loop) after next := by
  obtain ⟨hloop, htx, top, hcovers⟩ := hproc
  cases answer with
  | done =>
      obtain ⟨rfl, rfl⟩ := Prod.mk.inj (Option.some.inj hstep)
      refine .commit htx ?_
      split
      · exact own_commit shared tx
      · refine ⟨⟨⟨hloop.uidvalidity, nofun⟩,
          .idle _ _ (own_commit shared tx), top, ?_⟩, own_commit shared tx _⟩
        have hafter : LoopCovers parse (shared.commit tx)
            ((shared.commit tx).store.own tx) loop.highestSeen loop.holdAt
            loop.batches.flatten loop.batches.flatten top := by
          refine hcovers.rewrite rfl fun message _ _ haccounted => ?_
          rw [seen_commit]
          exact haccounted
        exact ⟨hafter.top_lt, hafter.seen_le, hafter.remaining_le,
          hafter.sorted, fun uid huid =>
            hafter.seen_lt_later uid (mem_flatten_of_tail huid), hafter.covers⟩
  | now | select | fetch | probe | raised => cases hstep

/-! ### The retry run -/

theorem planning_acts (hshared : SharedOk parse shared)
    (hidle : ∀ key, shared.store.own tx key = none) {tombstones : List Nat}
    (hstep : procStep parse tx shared (.planning tombstones) answer =
      some (after, next)) :
    ProcActs parse tx shared proc after next := by
  cases answer with
  | done =>
      obtain ⟨rfl, rfl⟩ := Prod.mk.inj (Option.some.inj hstep)
      refine .still ⟨.idle _ _ hidle, ?_⟩
      intro resumeAt hplan
      obtain ⟨stored, hstored, hlt⟩ :=
        (planUidnextRewind_spec tombstones _).1 resumeAt hplan
      obtain ⟨row, hrow, huidnext⟩ := Option.bind_eq_some_iff.mp hstored
      rw [view_of_idle hidle] at hrow
      obtain ⟨kept, hkept, -, hsafe⟩ := hshared.mailbox
      obtain rfl := Option.some.inj (hrow.symm.trans hkept)
      exact (hsafe stored huidnext).mono (Nat.le_of_lt hlt)
  | now | select | fetch | probe | raised => cases hstep

/-- Whichever version of the mailbox row a transaction sees, it is in the
server's UID space. -/
theorem SharedOk.uidvalidity_of_view (hshared : SharedOk parse shared)
    (htx : TxOk parse shared (shared.store.own tx) received none)
    (hview : shared.store.view tx .mailbox = some row) :
    row.uidvalidity = some shared.server.uidvalidity := by
  rw [← seen_own] at hview
  cases hown : shared.store.own tx .mailbox with
  | none =>
      rw [seen_of_none hown] at hview
      exact (hshared.rowOk hview).uidvalidity
  | some version =>
      rw [seen_of_some hown] at hview
      obtain ⟨written, hwritten, hsame, -⟩ := htx.mailbox version hown
      obtain rfl := Option.some.inj (hview.symm.trans hwritten)
      exact hsame

theorem rewinding_acts (hshared : SharedOk parse shared) {plan : Option Nat}
    (hproc : ProcOk parse tx shared (.rewinding plan))
    (hstep : procStep parse tx shared (.rewinding plan) answer =
      some (after, next)) :
    ProcActs parse tx shared proc after next := by
  obtain ⟨htx, hplan⟩ := hproc
  cases plan with
  | none =>
      cases answer with
      | done =>
          obtain ⟨rfl, rfl⟩ := Prod.mk.inj (Option.some.inj hstep)
          exact .still htx
      | now | select | fetch | probe | raised => cases hstep
  | some resumeAt =>
      cases answer with
      | done =>
          simp only [procStep] at hstep
          split at hstep
          · rename_i row hview
            obtain ⟨hfree, hsome⟩ := Option.ite_none_right_eq_some.mp hstep
            obtain ⟨rfl, rfl⟩ := Prod.mk.inj (Option.some.inj hsome)
            have hvalidity := hshared.uidvalidity_of_view htx hview
            refine .put hfree (htx.put_mailbox hvalidity ?_)
            rintro uidnext ⟨⟩
            exact (hplan resumeAt rfl).seen htx
          · obtain ⟨rfl, rfl⟩ := Prod.mk.inj (Option.some.inj hstep)
            exact .still htx
      | now | select | fetch | probe | raised => cases hstep

theorem armed_acts (htx : TxOk parse shared (shared.store.own tx) [] none)
    {candidates : List SyncKey}
    (hstep : procStep parse tx shared (.armed candidates) answer =
      some (after, next)) :
    ProcActs parse tx shared proc after next := by
  cases answer with
  | now moment =>
      simp only [procStep] at hstep
      obtain ⟨store, hupdate, hsome⟩ := Option.map_eq_some_iff.mp hstep
      obtain ⟨rfl, rfl⟩ := Prod.mk.inj hsome
      have hwrites : Writes shared { shared with store := store }
          (shared.store.own tx) (store.own tx) none := by
        refine writes_update hupdate ?_ fun _ _ hgave => hgave
        rintro (_ | _ | _ | _ | uid) _ hchosen
        · cases hchosen
        · cases hchosen
        · cases hchosen
        · cases hchosen
        · exact Option.some_ne_none uid
      obtain ⟨hfree, hafter⟩ := Option.ite_none_right_eq_some.mp hupdate
      obtain rfl := Option.some.inj hafter
      refine ⟨hwrites.txOk htx forall_cleared_none, fun _ hother =>
        RowStore.undisturbed_rewriteAll hother ?_ _, rfl,
        fun _ habsent => habsent, .inl rfl⟩
      intro key hkey
      exact hfree key (RowStore.mem_matching.mp hkey).1
  | done | select | fetch | probe | raised => cases hstep

/-! ### Any process -/

/-- The selection a process is about to SEARCH. -/
def SyncProc.searching : SyncProc → Option Selected
  | .selected selected => some selected
  | _ => none

/-- Where the process is about to SEARCH, its cap leaves something to fetch
when there is something. -/
def CapLeaves (shared : OverlapShared) (proc : SyncProc) : Prop :=
  ∀ selected ∈ proc.searching,
    capUids (candidateUids shared.server selected)
      selected.args.maxMessages = [] →
      candidateUids shared.server selected = []

instance (shared : OverlapShared) (proc : SyncProc) :
    Decidable (CapLeaves shared proc) :=
  inferInstanceAs (Decidable (∀ selected ∈ proc.searching, _))

/-- One step of a process keeps what it relies on. -/
theorem procStep_acts (hshared : SharedOk parse shared)
    (hproc : ProcOk parse tx shared proc) (hcap : CapLeaves shared proc)
    (hstep : procStep parse tx shared proc answer = some (after, next)) :
    ProcActs parse tx shared proc after next := by
  cases proc with
  | starting args => exact starting_acts hshared hproc hstep
  | opened args row =>
      cases answer with
      | done =>
          obtain ⟨rfl, rfl⟩ := Prod.mk.inj (Option.some.inj hstep)
          exact .commit hproc.1 ⟨own_commit shared tx, hproc.2.commit hproc.1⟩
      | now | select | fetch | probe | raised => cases hstep
  | ready args row => exact ready_acts hproc.1 hproc.2 hstep
  | selected selected =>
      exact selected_acts hshared hproc (hcap selected rfl) hstep
  | empty selected => exact empty_acts hproc hstep
  | searched selected uids => exact searched_acts hproc hstep
  | between loop => exact between_acts hshared hproc hstep
  | handling loop uid chunk fetched stage => exact hproc.1.step hproc.2 hstep
  | chunkDone loop => exact chunkDone_acts hproc hstep
  | checkpointed loop resumeAt =>
      cases answer with
      | done =>
          obtain ⟨rfl, rfl⟩ := Prod.mk.inj (Option.some.inj hstep)
          exact .still hproc
      | now | select | fetch | probe | raised => cases hstep
  | reclaiming loop resumeAt candidates => exact reclaiming_acts hproc hstep
  | reclaimed loop => exact reclaimed_acts hproc hstep
  | listing =>
      cases answer with
      | done =>
          obtain ⟨rfl, rfl⟩ := Prod.mk.inj (Option.some.inj hstep)
          refine .still ?_
          split
          · exact hproc
          · exact hproc
      | now | select | fetch | probe | raised => cases hstep
  | planning tombstones => exact planning_acts hshared hproc hstep
  | rewinding plan => exact rewinding_acts hshared hproc hstep
  | arming =>
      cases answer with
      | done =>
          obtain ⟨rfl, rfl⟩ := Prod.mk.inj (Option.some.inj hstep)
          exact .still hproc
      | now | select | fetch | probe | raised => cases hstep
  | armed candidates => exact armed_acts hproc hstep
  | closing =>
      cases answer with
      | done =>
          obtain ⟨rfl, rfl⟩ := Prod.mk.inj (Option.some.inj hstep)
          exact .commit hproc (own_commit shared tx)
      | now | select | fetch | probe | raised => cases hstep
  | finished => cases answer <;> cases hstep

/-- Whatever it finds, a SEARCH writes nothing. -/
theorem procStep_selected
    (hstep : procStep parse tx shared (.selected selected) answer =
      some (after, next)) : after = shared := by
  cases answer with
  | done =>
      simp only [procStep] at hstep
      split at hstep
      · cases hstep
      · split at hstep
        · cases hstep
          rfl
        · cases hstep
          rfl
  | now | select | fetch | probe | raised => cases hstep

end Steps

end Localmail
