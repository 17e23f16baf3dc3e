/-
What each of the overlapping passes and retry runs relies on between two of
its steps, and that no other process can take it away.
-/
import Localmail.OverlapSafety

namespace Localmail

/-! ### The fetch loop -/

/-- What is known of a fetch loop that has written `own`.  `top` is the last
UID of the pass; everything present up to it is accounted for, held, or still
to come. -/
structure LoopCovers (parse : Parser) (shared : OverlapShared)
    (own : Overlay SyncRow) (highestSeen : Nat) (holdAt : Option Nat)
    (remaining later : List Nat) (top : Nat) : Prop where
  top_lt : top < shared.server.uidnext
  seen_le : highestSeen ≤ top
  remaining_le : ∀ uid ∈ remaining, uid ≤ top
  sorted : remaining.Pairwise (· < ·)
  seen_lt_later : ∀ uid ∈ later, highestSeen < uid
  covers : ∀ message ∈ shared.server.messages, message.uid ≤ top →
    AccountedIn parse shared (shared.seen own) message ∨
      (∃ held ∈ holdAt, held ≤ message.uid) ∨ message.uid ∈ remaining

def Covers (parse : Parser) (shared : OverlapShared) (own : Overlay SyncRow)
    (loop : SyncLoop) (remaining later : List Nat) : Prop :=
  ∃ top, LoopCovers parse shared own loop.highestSeen loop.holdAt remaining
    later top

section Covers

variable {parse : Parser} {tx : Nat} {before after : OverlapShared}
  {own written : Overlay SyncRow} {loop : SyncLoop} {uid top : Nat}
  {chunk later remaining : List Nat} {highestSeen : Nat} {holdAt : Option Nat}

theorem LoopCovers.around
    (hcovers : LoopCovers parse before own highestSeen holdAt remaining later top)
    (haround : Around parse tx before after) (hrows : KeepsRows after own) :
    LoopCovers parse after own highestSeen holdAt remaining later top where
  top_lt := Nat.lt_of_lt_of_le hcovers.top_lt
    (haround.evolves.uidnext_le haround.uidvalidity)
  seen_le := hcovers.seen_le
  remaining_le := hcovers.remaining_le
  sorted := hcovers.sorted
  seen_lt_later := hcovers.seen_lt_later
  covers := by
    intro message hmessage hle
    have hold := haround.old_message hmessage
      (Nat.lt_of_le_of_lt hle hcovers.top_lt)
    exact (hcovers.covers message hold hle).imp_left
      (haround.seen_accounted hrows hold)

/-- The loop covers the same once the transaction has written more, as long as
nothing but UIDs still to come lose what accounts for them. -/
theorem LoopCovers.rewrite
    (hcovers : LoopCovers parse before own highestSeen holdAt remaining later top)
    (hserver : after.server = before.server)
    (hkeeps : ∀ message ∈ before.server.messages, message.uid ∉ remaining →
      AccountedIn parse before (before.seen own) message →
      AccountedIn parse after (after.seen written) message) :
    LoopCovers parse after written highestSeen holdAt remaining later top where
  top_lt := hserver ▸ hcovers.top_lt
  seen_le := hcovers.seen_le
  remaining_le := hcovers.remaining_le
  sorted := hcovers.sorted
  seen_lt_later := hcovers.seen_lt_later
  covers := by
    intro message hmessage hle
    rw [hserver] at hmessage
    by_cases hremaining : message.uid ∈ remaining
    · exact .inr (.inr hremaining)
    · exact (hcovers.covers message hmessage hle).imp_left
        (hkeeps message hmessage hremaining)

/-- The first UID is dealt with. -/
theorem Covers.next
    (hcovers : Covers parse before own loop (uid :: chunk ++ later) later)
    {passed : SyncLoop} (hseen : passed.highestSeen ≤ max loop.highestSeen uid)
    (hhold : ∀ held ∈ loop.holdAt, ∃ lower ∈ passed.holdAt, lower ≤ held)
    (hdealt : ∀ message ∈ before.server.messages, message.uid = uid →
      AccountedIn parse before (before.seen own) message ∨
        ∃ held ∈ passed.holdAt, held ≤ message.uid) :
    Covers parse before own passed (chunk ++ later) later := by
  obtain ⟨top, hcovers⟩ := hcovers
  have hsorted := List.pairwise_cons.mp hcovers.sorted
  have huidLe : uid ≤ top := hcovers.remaining_le uid List.mem_cons_self
  refine ⟨top, hcovers.top_lt, ?_, ?_, hsorted.2, ?_, ?_⟩
  · exact Nat.le_trans hseen (Nat.max_le.mpr ⟨hcovers.seen_le, huidLe⟩)
  · intro other hother
    exact hcovers.remaining_le other (List.mem_cons_of_mem _ hother)
  · intro other hother
    have hlater := hcovers.seen_lt_later other hother
    have huid := hsorted.1 other (List.mem_append_right _ hother)
    exact Nat.lt_of_le_of_lt hseen (Nat.max_lt.mpr ⟨hlater, huid⟩)
  · intro message hmessage hle
    by_cases huid : message.uid = uid
    · exact (hdealt message hmessage huid).imp_right .inl
    · rcases hcovers.covers message hmessage hle with
        haccounted | ⟨held, hheld, hheldLe⟩ | hremaining
      · exact .inl haccounted
      · obtain ⟨lower, hlower, hlowerLe⟩ := hhold held hheld
        exact .inr (.inl ⟨lower, hlower, Nat.le_trans hlowerLe hheldLe⟩)
      · exact .inr (.inr ((List.mem_cons.mp hremaining).resolve_left huid))

theorem Covers.uid_lt
    (hcovers : Covers parse before own loop (uid :: chunk ++ later) later) :
    uid < before.server.uidnext := by
  obtain ⟨top, hcovers⟩ := hcovers
  exact Nat.lt_of_le_of_lt
    (hcovers.remaining_le uid List.mem_cons_self) hcovers.top_lt

/-- At the end of a chunk the resume point is safe. -/
theorem Covers.checkpoint (hcovers : Covers parse before own loop later later) :
    SafeBelow parse before (before.seen own)
      (checkpointUidnext loop.highestSeen loop.holdAt) := by
  obtain ⟨top, hcovers⟩ := hcovers
  have hle := checkpointUidnext_le loop.highestSeen loop.holdAt
  refine ⟨?_, ?_⟩
  · have hseen := hcovers.seen_le
    have htop := hcovers.top_lt
    omega
  · intro message hmessage hlt
    have hbelow : message.uid ≤ loop.highestSeen := by omega
    rcases hcovers.covers message hmessage
      (Nat.le_trans hbelow hcovers.seen_le) with
        haccounted | ⟨held, hheld, hheldLe⟩ | hremaining
    · exact haccounted
    · have hclamp := checkpointUidnext_le_held loop.highestSeen hheld
      omega
    · have hlater := hcovers.seen_lt_later _ hremaining
      omega

end Covers

/-! ### What a process relies on -/

/-- A `mailboxes` row as a process read it. -/
structure RowOk (parse : Parser) (shared : OverlapShared) (row : MailboxRow) :
    Prop where
  uidvalidity : row.uidvalidity = some shared.server.uidvalidity
  safe : SafeBelow parse shared shared.committed (resumeFrom row)

structure LoopOk (shared : OverlapShared) (loop : SyncLoop) : Prop where
  uidvalidity : loop.serverUidvalidity = shared.server.uidvalidity
  received : ∀ uid ∈ loop.received, uid < shared.server.uidnext

/-- A pass at a UID: what it fetched, and what the rest of its loop covers. -/
structure UidOk (parse : Parser) (tx : Nat) (shared : OverlapShared)
    (loop : SyncLoop) (uid : Nat) (chunk : List Nat)
    (fetched : List FetchData) : Prop where
  loopOk : LoopOk shared loop
  agrees : FetchAgrees shared.server fetched
  arrived : ∀ data ∈ fetched, data.body ≠ [] → data.uid ∈ loop.received
  unmoved : shared.store.own tx .mailbox = none
  covers : Covers parse shared (shared.store.own tx) loop
    (uid :: chunk ++ loop.batches.flatten) loop.batches.flatten

/-- Inside the savepoint.  Both what is written and what would be left of it
after rolling back keep the promise. -/
structure SavedOk (parse : Parser) (tx : Nat) (shared : OverlapShared)
    (loop : SyncLoop) (uid : Nat) (chunk : List Nat) (fetched : List FetchData)
    (saved : Overlay SyncRow) (parsed : ParsedMessage) : Prop where
  written : TxOk parse shared (shared.store.own tx) loop.received (some uid)
  kept : TxOk parse shared saved loop.received (some uid)
  locked : ∀ key, saved key ≠ none → shared.store.own tx key ≠ none
  covers : Covers parse shared saved loop
    (uid :: chunk ++ loop.batches.flatten) loop.batches.flatten
  parsed : ∃ data, fetchedBody fetched uid = some data ∧
    parse data.body = some parsed

def StageOk (parse : Parser) (tx : Nat) (shared : OverlapShared)
    (loop : SyncLoop) (uid : Nat) (chunk : List Nat)
    (fetched : List FetchData) : UidStage → Prop
  | .look | .record =>
      TxOk parse shared (shared.store.own tx) loop.received none
  | .giveUp => TxOk parse shared (shared.store.own tx) loop.received none ∧
      ∃ row : TransientFetch, shared.store.own tx (.hold uid) = some (some row)
  | .clearing _ => TxOk parse shared (shared.store.own tx) loop.received none ∧
      ∃ data, fetchedBody fetched uid = some data
  | .storing | .failing =>
      TxOk parse shared (shared.store.own tx) loop.received (some uid) ∧
        ∃ data, fetchedBody fetched uid = some data
  | .inserting saved parsed | .rereading saved parsed =>
      SavedOk parse tx shared loop uid chunk fetched saved parsed
  | .labelling saved parsed id _ =>
      SavedOk parse tx shared loop uid chunk fetched saved parsed ∧
        ∃ row : MessageRow, shared.seen (shared.store.own tx)
          (.message parsed.dedupKey) = some row ∧ row.id = id
  | .attaching saved parsed _ =>
      SavedOk parse tx shared loop uid chunk fetched saved parsed ∧
        (shared.seen (shared.store.own tx)).Linked parsed.dedupKey

/-- The loop between two chunks. -/
def ChunksOk (parse : Parser) (tx : Nat) (shared : OverlapShared)
    (loop : SyncLoop) (later : List Nat) : Prop :=
  LoopOk shared loop ∧
    TxOk parse shared (shared.store.own tx) loop.received none ∧
    Covers parse shared (shared.store.own tx) loop loop.batches.flatten later

def ProcOk (parse : Parser) (tx : Nat) (shared : OverlapShared) :
    SyncProc → Prop
  | .starting _ | .listing | .planning _ | .finished =>
      ∀ key, shared.store.own tx key = none
  | .arming | .armed _ | .closing =>
      TxOk parse shared (shared.store.own tx) [] none
  | .opened _ row =>
      TxOk parse shared (shared.store.own tx) [] none ∧ RowOk parse shared row
  | .ready _ row =>
      (∀ key, shared.store.own tx key = none) ∧ RowOk parse shared row
  | .selected selected =>
      (∀ key, shared.store.own tx key = none) ∧
        RowOk parse shared selected.row ∧
        selected.serverUidvalidity = shared.server.uidvalidity ∧
        selected.serverUidnext ≤ shared.server.uidnext
  | .empty selected =>
      (∀ key, shared.store.own tx key = none) ∧
        selected.serverUidvalidity = shared.server.uidvalidity ∧
        SafeBelow parse shared shared.committed (emptyUidnext selected)
  | .searched selected uids =>
      (∀ key, shared.store.own tx key = none) ∧
        selected.serverUidvalidity = shared.server.uidvalidity ∧
        ∃ top, LoopCovers parse shared (shared.store.own tx)
          (resumeFrom selected.row - 1) none uids
          (batches batchSize uids).tail.flatten top
  | .between loop =>
      ChunksOk parse tx shared loop loop.batches.tail.flatten ∧
        shared.store.own tx .mailbox = none
  | .handling loop uid chunk fetched stage =>
      UidOk parse tx shared loop uid chunk fetched ∧
        StageOk parse tx shared loop uid chunk fetched stage
  | .chunkDone loop | .checkpointed loop _ | .reclaiming loop _ _
  | .reclaimed loop => ChunksOk parse tx shared loop loop.batches.flatten
  | .rewinding plan => TxOk parse shared (shared.store.own tx) [] none ∧
      ∀ resumeAt ∈ plan, SafeBelow parse shared shared.committed resumeAt

/-! ### Steps of other processes -/

section Around

variable {parse : Parser} {tx : Nat} {before after : OverlapShared}
  {received : List Nat} {current : Option Nat} {loop : SyncLoop} {uid : Nat}
  {chunk later : List Nat} {fetched : List FetchData}

theorem TxOk.around_own
    (htx : TxOk parse before (before.store.own tx) received current)
    (haround : Around parse tx before after) :
    TxOk parse after (after.store.own tx) received current := by
  rw [haround.own]
  exact htx.around haround fun _ hown => hown

theorem Covers.around_own {remaining : List Nat}
    (hcovers : Covers parse before (before.store.own tx) loop remaining later)
    (haround : Around parse tx before after)
    (hrows : KeepsRows after (after.store.own tx)) :
    Covers parse after (after.store.own tx) loop remaining later := by
  rw [haround.own] at hrows ⊢
  obtain ⟨top, hcovers⟩ := hcovers
  exact ⟨top, hcovers.around haround hrows⟩

theorem LoopOk.around (hloop : LoopOk before loop)
    (haround : Around parse tx before after) : LoopOk after loop where
  uidvalidity := hloop.uidvalidity.trans haround.uidvalidity.symm
  received := fun uid huid => Nat.lt_of_lt_of_le (hloop.received uid huid)
    (haround.evolves.uidnext_le haround.uidvalidity)

theorem RowOk.around {row : MailboxRow} (hrow : RowOk parse before row)
    (haround : Around parse tx before after) : RowOk parse after row where
  uidvalidity := hrow.uidvalidity.trans
    (congrArg some haround.uidvalidity.symm)
  safe := hrow.safe.around_committed haround

theorem ChunksOk.around (hchunks : ChunksOk parse tx before loop later)
    (haround : Around parse tx before after) :
    ChunksOk parse tx after loop later := by
  obtain ⟨hloop, htx, hcovers⟩ := hchunks
  have hafter := htx.around_own haround
  exact ⟨hloop.around haround, hafter,
    hcovers.around_own haround hafter.rows⟩

theorem UidOk.around (huid : UidOk parse tx before loop uid chunk fetched)
    (haround : Around parse tx before after)
    (hrows : KeepsRows after (after.store.own tx)) :
    UidOk parse tx after loop uid chunk fetched where
  loopOk := huid.loopOk.around haround
  agrees := huid.agrees.evolve haround.evolves haround.uidvalidity
  arrived := huid.arrived
  unmoved := haround.own ▸ huid.unmoved
  covers := huid.covers.around_own haround hrows

theorem SavedOk.around {saved : Overlay SyncRow} {parsed : ParsedMessage}
    (hsaved : SavedOk parse tx before loop uid chunk fetched saved parsed)
    (haround : Around parse tx before after) :
    SavedOk parse tx after loop uid chunk fetched saved parsed := by
  have hafter := hsaved.kept.around haround hsaved.locked
  refine ⟨hsaved.written.around_own haround, hafter, ?_, ?_, hsaved.parsed⟩
  · rw [haround.own]
    exact hsaved.locked
  · obtain ⟨top, hcovers⟩ := hsaved.covers
    exact ⟨top, hcovers.around haround hafter.rows⟩

/-- Inside a UID the transaction is in order, whatever the stage. -/
theorem StageOk.exists_txOk {stage : UidStage}
    (hstage : StageOk parse tx before loop uid chunk fetched stage) :
    ∃ current, TxOk parse before (before.store.own tx) loop.received current := by
  cases stage with
  | look | record => exact ⟨_, hstage⟩
  | giveUp | clearing | storing | failing => exact ⟨_, hstage.1⟩
  | inserting | rereading => exact ⟨_, hstage.written⟩
  | labelling | attaching => exact ⟨_, hstage.1.written⟩

theorem StageOk.around {stage : UidStage}
    (hstage : StageOk parse tx before loop uid chunk fetched stage)
    (haround : Around parse tx before after) :
    StageOk parse tx after loop uid chunk fetched stage := by
  cases stage with
  | look | record => exact TxOk.around_own hstage haround
  | giveUp =>
      refine ⟨hstage.1.around_own haround, ?_⟩
      rw [haround.own]
      exact hstage.2
  | clearing | storing | failing =>
      exact ⟨hstage.1.around_own haround, hstage.2⟩
  | inserting | rereading => exact SavedOk.around hstage haround
  | labelling saved parsed id didInsert =>
      obtain ⟨hsaved, row, hrow, hid⟩ := hstage
      refine ⟨hsaved.around haround, row, ?_, hid⟩
      rw [haround.own]
      exact haround.seen_message hrow
  | attaching saved parsed didInsert =>
      refine ⟨hstage.1.around haround, ?_⟩
      rw [haround.own]
      exact haround.seen_linked hstage.2

/-- Whatever happens around a process leaves it what it relies on. -/
theorem ProcOk.around {proc : SyncProc} (hproc : ProcOk parse tx before proc)
    (haround : Around parse tx before after) : ProcOk parse tx after proc := by
  cases proc with
  | starting | listing | planning | finished =>
      change ∀ key, after.store.own tx key = none
      rw [haround.own]
      exact hproc
  | arming | armed | closing => exact TxOk.around_own hproc haround
  | opened => exact ⟨hproc.1.around_own haround, hproc.2.around haround⟩
  | ready => exact ⟨haround.own ▸ hproc.1, hproc.2.around haround⟩
  | selected selected =>
      obtain ⟨hidle, hrow, hvalidity, hle⟩ := hproc
      exact ⟨haround.own ▸ hidle, hrow.around haround,
        hvalidity.trans haround.uidvalidity.symm, Nat.le_trans hle
          (haround.evolves.uidnext_le haround.uidvalidity)⟩
  | empty selected =>
      obtain ⟨hidle, hvalidity, hsafe⟩ := hproc
      exact ⟨haround.own ▸ hidle, hvalidity.trans haround.uidvalidity.symm,
        hsafe.around_committed haround⟩
  | searched selected uids =>
      obtain ⟨hidle, hvalidity, top, hcovers⟩ := hproc
      refine ⟨haround.own ▸ hidle,
        hvalidity.trans haround.uidvalidity.symm, top, ?_⟩
      rw [haround.own]
      exact hcovers.around haround (.idle hidle)
  | between =>
      exact ⟨hproc.1.around haround, haround.own ▸ hproc.2⟩
  | chunkDone | checkpointed | reclaiming | reclaimed =>
      exact ChunksOk.around hproc haround
  | handling loop uid chunk fetched stage =>
      obtain ⟨huid, hstage⟩ := hproc
      have hafter : StageOk parse tx after loop uid chunk fetched stage :=
        hstage.around haround
      obtain ⟨current, htx⟩ := hafter.exists_txOk
      exact ⟨huid.around haround htx.rows, hafter⟩
  | rewinding plan =>
      obtain ⟨htx, hplan⟩ := hproc
      exact ⟨htx.around_own haround, fun resumeAt hresume =>
        (hplan resumeAt hresume).around_committed haround⟩

end Around

end Localmail
