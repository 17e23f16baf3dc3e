/-
Overlapping passes and retry runs lose no message: whatever the interleaving,
everything present below the stored resume point is accounted for, and a
tombstone goes only with the body of its UID.  A cap that empties a non-empty
candidate list breaks it.
-/
import Localmail.OverlapSteps

namespace Localmail

/-! ### The promise -/

/-- Everything on the server below the committed resume point is accounted
for. -/
def OverlapShared.NoLoss (parse : Parser) (shared : OverlapShared) : Prop :=
  ∀ row : MailboxRow, shared.committed .mailbox = some row →
    ∀ uidnext ∈ row.uidnext, ∀ message ∈ shared.server.messages,
      message.uid < uidnext →
        AccountedIn parse shared shared.committed message

/-- The process an event moves, if it moves one. -/
def OverlapEvent.mover (world : OverlapWorld) : OverlapEvent → Option SyncProc
  | .step pid _ => world.procs[pid]?
  | _ => none

/-- What every committed state and every step from it keep. -/
structure OverlapPromise (parse : Parser) (world : OverlapWorld) : Prop where
  noLoss : OverlapShared.NoLoss parse world.shared
  tombstones : ∀ event next, overlapStep parse world event = some next →
    ∀ uid, world.shared.committed.Tombstoned uid →
      next.shared.committed.Tombstoned uid ∨
        ∃ proc ∈ event.mover world, uid ∈ proc.received

/-- Where the runs start: no process is under way, and the stored row is in
the server's UID space and keeps the promise. -/
structure OverlapStart (parse : Parser) (world : OverlapWorld) : Prop where
  shared : SharedOk parse world.shared
  unlocked : ∀ key, world.shared.store.owner key = none
  procs : world.procs = []

/-- The condition on a step: a SEARCH whose cap leaves nothing has found
nothing. -/
def CapLeavesSome (world : OverlapWorld) (event : OverlapEvent) : Prop :=
  ∀ proc ∈ event.mover world, CapLeaves world.shared proc

instance (world : OverlapWorld) (event : OverlapEvent) :
    Decidable (CapLeavesSome world event) :=
  inferInstanceAs (Decidable (∀ proc ∈ event.mover world, _))

/-! ### The invariant -/

structure OverlapOk (parse : Parser) (world : OverlapWorld) : Prop where
  shared : SharedOk parse world.shared
  owners : ∀ key pid, world.shared.store.owner key = some pid →
    pid < world.procs.length
  procs : ∀ pid proc, world.procs[pid]? = some proc →
    ProcOk parse pid world.shared proc

theorem OverlapStart.overlapOk {parse : Parser} {world : OverlapWorld}
    (hstart : OverlapStart parse world) : OverlapOk parse world where
  shared := hstart.shared
  owners := fun key pid howner =>
    absurd ((hstart.unlocked key).symm.trans howner) nofun
  procs := fun pid proc hproc => by
    rw [hstart.procs] at hproc
    cases hproc

section Around

variable {parse : Parser} {tx other : Nat} {shared after : OverlapShared}
  {proc next : SyncProc}

/-- The step of one process, as another one finds it. -/
theorem ProcActs.around (hacts : ProcActs parse tx shared proc after next)
    (hne : other ≠ tx) : Around parse other shared after := by
  have hlocked := hacts.undisturbed other hne
  have hkept : shared.server.Evolves after.server := by
    rw [hacts.server]
    exact ⟨Nat.le_refl _, fun _ => Nat.le_refl _, fun _ _ => .inl⟩
  refine ⟨RowStore.own_undisturbed hlocked, ?_, hkept,
    congrArg _ hacts.server, hacts.reported, ?_, ?_, ?_, ?_⟩
  · intro key hown
    obtain ⟨version, hversion⟩ := Option.ne_none_iff_exists'.mp hown
    exact hlocked.committed key (RowStore.owner_of_own hversion).1
  all_goals rcases hacts.committed with hsame | ⟨htx, hcommit⟩
  · intro key row hrow
    rwa [hsame]
  · intro key row hrow
    rw [hcommit]
    exact htx.rows.seen_message hrow
  · intro id hrow
    rwa [hsame]
  · intro id hrow
    rw [hcommit]
    exact htx.rows.seen_label hrow
  · intro uid hrow
    rwa [hsame]
  · intro uid hrow
    rw [hcommit]
    exact htx.rows.seen_failed hrow
  · intro uid htombstoned
    exact .inl (hsame ▸ htombstoned)
  · intro uid htombstoned
    rw [hcommit]
    rcases htx.seen_tombstone htombstoned with hseen | ⟨-, hlt, hstored⟩
    · exact .inl hseen
    · exact .inr ⟨hlt, hstored⟩

/-- What a process commits is in order. -/
theorem ProcActs.sharedOk (hacts : ProcActs parse tx shared proc after next)
    (hshared : SharedOk parse shared) : SharedOk parse after := by
  have haround := hacts.around (Nat.succ_ne_self tx)
  refine ⟨hacts.server ▸ hshared.server, ?_⟩
  obtain ⟨row, hrow, hvalidity, hsafe⟩ := hshared.mailbox
  rw [hacts.server]
  have hkept : ∀ uidnext ∈ row.uidnext,
      SafeBelow parse after after.committed uidnext := fun uidnext huidnext =>
    (hsafe uidnext huidnext).around_committed haround
  rcases hacts.committed with hsame | ⟨htx, hcommit⟩
  · exact ⟨row, hsame ▸ hrow, hvalidity, hkept⟩
  · cases hown : shared.store.own tx .mailbox with
    | none =>
        refine ⟨row, ?_, hvalidity, hkept⟩
        rw [hcommit, seen_of_none hown]
        exact hrow
    | some version =>
        obtain ⟨written, rfl, hwritten, hwrittenSafe⟩ :=
          htx.mailbox version hown
        refine ⟨written, ?_, hwritten, ?_⟩
        · rw [hcommit]
          exact seen_of_some hown
        · intro uidnext huidnext
          obtain ⟨hle, haccounted⟩ := hwrittenSafe uidnext huidnext
          rw [hcommit]
          refine ⟨hacts.server ▸ hle, ?_⟩
          intro message hmessage hlt
          rw [hacts.server] at hmessage
          exact (haccounted message hmessage hlt).imp_right
            (Or.imp_right (hacts.reported _))

/-- The server moves: nothing of any transaction changes. -/
theorem around_moved (tx : Nat) {server : ImapServer}
    (hevolves : shared.server.Evolves server)
    (hsame : server.uidvalidity = shared.server.uidvalidity) :
    Around parse tx shared { shared with server := server } :=
  ⟨rfl, fun _ _ => rfl, hevolves, hsame, fun _ habsent => habsent,
    fun _ _ hrow => hrow, fun _ hrow => hrow, fun _ hrow => hrow,
    fun _ htombstoned => .inl htombstoned⟩

end Around

/-! ### One step -/

section Steps

variable {parse : Parser} {world next : OverlapWorld} {event : OverlapEvent}

theorem OverlapOk.moved (hok : OverlapOk parse world) {server : ImapServer}
    (hserver : server.WellFormed)
    (hevolves : world.shared.server.Evolves server)
    (hsame : server.uidvalidity = world.shared.server.uidvalidity) :
    OverlapOk parse (OverlapWorld.moved world server) where
  shared := by
    obtain ⟨row, hrow, hvalidity, hsafe⟩ := hok.shared.mailbox
    refine ⟨hserver, row, hrow, hvalidity.trans (congrArg some hsame.symm), ?_⟩
    intro uidnext huidnext
    exact (hsafe uidnext huidnext).around_committed
      (around_moved 0 hevolves hsame)
  owners := hok.owners
  procs := fun pid proc hproc =>
    (hok.procs pid proc hproc).around (around_moved pid hevolves hsame)

/-- A process takes a step, or is abandoned. -/
theorem OverlapOk.acts (hok : OverlapOk parse world) {pid : Nat}
    {proc after : SyncProc} {shared : OverlapShared}
    (hproc : world.procs[pid]? = some proc)
    (hacts : ProcActs parse pid world.shared proc shared after) :
    OverlapOk parse ⟨shared, world.procs.set pid after⟩ where
  shared := hacts.sharedOk hok.shared
  owners := by
    apply owners_set hok.owners after hproc
    intro key other howner
    by_cases hsame : other = pid
    · exact .inl hsame
    · exact .inr (((hacts.undisturbed other hsame).owner key).mp howner)
  procs := by
    intro other found hfound
    rcases procs_set_cases hfound with ⟨rfl, rfl⟩ | ⟨hne, hbefore⟩
    · exact hacts.ok
    · exact (hok.procs other found hbefore).around (hacts.around hne)

theorem OverlapOk.spawn (hok : OverlapOk parse world) {proc : SyncProc}
    (hinitial : proc.initial = true) :
    OverlapOk parse { world with procs := world.procs ++ [proc] } where
  shared := hok.shared
  owners := owners_append hok.owners proc
  procs := by
    intro pid found hfound
    rcases procs_append_cases hfound with ⟨rfl, rfl⟩ | hbefore
    · -- The number is new, so nothing is locked under it.
      have hidle : ∀ key,
          world.shared.store.own world.procs.length key = none := by
        intro key
        refine RowStore.own_eq_none_of_not_owner fun howner => ?_
        exact Nat.lt_irrefl _ (hok.owners key _ howner)
      cases found with
      | starting | listing => exact hidle
      | opened | ready | selected | empty | searched | between | handling
      | chunkDone | checkpointed | reclaiming | reclaimed | planning | rewinding
      | arming | armed | closing | finished => cases hinitial
    · exact hok.procs pid found hbefore

theorem OverlapOk.step (hok : OverlapOk parse world)
    (hmeets : CapLeavesSome world event)
    (hstep : overlapStep parse world event = some next) :
    OverlapOk parse next := by
  rcases overlapStep_cases hstep with
    ⟨message, rfl, hfresh, rfl⟩ | ⟨uid, rfl, rfl⟩ |
    ⟨proc, rfl, hinitial, rfl⟩ |
    ⟨pid, answer, proc, shared, after, rfl, hproc, hadvance, rfl⟩ |
    ⟨pid, proc, rfl, hproc, rfl⟩
  · exact hok.moved (hok.shared.server.deliver hfresh)
      (ImapServer.deliver_evolves hfresh) rfl
  · exact hok.moved (hok.shared.server.expunge uid)
      (world.shared.server.expunge_evolves uid) rfl
  · exact hok.spawn hinitial
  · exact hok.acts hproc (procStep_acts hok.shared (hok.procs pid proc hproc)
      (hmeets proc hproc) hadvance)
  · exact hok.acts hproc .rollback

/-- A tombstone goes only with the body of its UID. -/
theorem OverlapOk.tombstones (hok : OverlapOk parse world)
    (hstep : overlapStep parse world event = some next) {uid : Nat}
    (htombstoned : world.shared.committed.Tombstoned uid) :
    next.shared.committed.Tombstoned uid ∨
      ∃ proc ∈ event.mover world, uid ∈ proc.received := by
  rcases overlapStep_cases hstep with
    ⟨message, rfl, hfresh, rfl⟩ | ⟨uid, rfl, rfl⟩ |
    ⟨proc, rfl, hinitial, rfl⟩ |
    ⟨pid, answer, proc, shared, after, rfl, hproc, hadvance, rfl⟩ |
    ⟨pid, proc, rfl, hproc, rfl⟩
  · exact .inl htombstoned
  · exact .inl htombstoned
  · exact .inl htombstoned
  · by_cases hcap : CapLeaves world.shared proc
    · have hacts := procStep_acts hok.shared (hok.procs pid proc hproc) hcap
        hadvance
      rcases hacts.committed with hsame | ⟨htx, hcommit⟩
      · exact .inl (hsame ▸ htombstoned)
      · rcases htx.seen_tombstone htombstoned with hseen | ⟨hreceived, -⟩
        · exact .inl (hcommit ▸ hseen)
        · exact .inr ⟨proc, hproc, hreceived⟩
    · cases proc with
      | selected selected =>
          obtain rfl := procStep_selected hadvance
          exact .inl htombstoned
      | starting | opened | ready | empty | searched | between | handling
      | chunkDone | checkpointed | reclaiming | reclaimed | listing | planning
      | rewinding | arming | armed | closing | finished =>
          exact absurd nofun hcap
  · exact .inl htombstoned

theorem OverlapOk.promise (hok : OverlapOk parse world) :
    OverlapPromise parse world where
  noLoss := by
    intro row hrow uidnext huidnext message hmessage hlt
    obtain ⟨stored, hstored, -, hsafe⟩ := hok.shared.mailbox
    obtain rfl := Option.some.inj (hrow.symm.trans hstored)
    exact (hsafe uidnext huidnext).accounted message hmessage hlt
  tombstones := fun _ _ hstep _ htombstoned => hok.tombstones hstep htombstoned

end Steps

/-! ### Every interleaving -/

/-- In every run of overlapping passes, retry runs, crashes and arrivals whose
SEARCHes leave something to fetch when there is something, no message is
lost. -/
theorem overlapping_passes_lose_nothing (parse : Parser)
    (start world : OverlapWorld) (hstart : OverlapStart parse start)
    (hreach : GuardedReach (overlapStep parse) CapLeavesSome start world) :
    OverlapPromise parse world := by
  have hok : OverlapOk parse world :=
    hreach.invariant hstart.overlapOk
      (fun _ _ _ hbefore hmeets hstep => hbefore.step hmeets hstep)
  exact hok.promise

namespace OverlapWitness

/-- The committed rows of a mailbox stored with this resume point. -/
def storedAt (uidnext : Nat) : RowStore SyncRow :=
  (RowStore.empty.put 0 .mailbox
    (some (⟨some 1, some uidnext⟩ : MailboxRow))).commit 0

def unread (messages : List ServerMessage) : OverlapWorld where
  shared := ⟨⟨1, messages.length + 1, messages⟩, storedAt 1, 1, []⟩
  procs := []

def steps (pid : Nat) (answers : List StepAnswer) : List OverlapEvent :=
  answers.map (.step pid)

/-- One pass with a cap of zero. -/
def emptiedRun : List OverlapEvent :=
  .spawn (.starting ⟨some 0, 3600⟩) ::
    steps 0 [.done, .done, .select true, .done, .done, .done]

/-- Two passes over the same two messages.  The first gets no body for the
second message, gives up on it and commits; the other stores both.  Then the
tombstone is armed again. -/
def overlappingRun : List OverlapEvent :=
  [.spawn (.starting ⟨none, 0⟩), .spawn (.starting ⟨none, 0⟩)] ++
  steps 0 [.done, .done, .select true, .done, .now 10] ++
  steps 1 [.done, .done, .select true, .done, .now 10] ++
  steps 0 [.fetch [⟨1, [1], [], none⟩, ⟨2, [], [], none⟩], .done, .done, .done,
    .done, .done, .probe true, .now 10, .now 10, .done, .done, .done, .done] ++
  steps 1 [.fetch [⟨1, [1], [], none⟩, ⟨2, [2], [], none⟩], .done, .done, .done,
    .done, .done, .done, .done, .done, .done, .done, .done, .done, .done] ++
  .spawn .listing :: steps 2 [.done, .done, .done, .done, .now 20, .done]

theorem unread_start (parse : Parser) {messages : List ServerMessage}
    (hserver : ImapServer.WellFormed ⟨1, messages.length + 1, messages⟩) :
    OverlapStart parse (unread messages) where
  shared := by
    refine ⟨hserver, ⟨some 1, some 1⟩, rfl, rfl, ?_⟩
    rintro uidnext ⟨⟩
    refine ⟨hserver.uidnext_pos, ?_⟩
    intro message hmessage hlt
    have hpos := hserver.pos _ (List.mem_map_of_mem hmessage)
    omega
  unlocked := by
    intro key
    by_cases hkey : key = .mailbox
    · subst hkey
      rfl
    · simp [unread, storedAt, RowStore.commit, RowStore.released,
        RowStore.owner_put_of_ne hkey, RowStore.empty]
  procs := rfl

end OverlapWitness

open OverlapWitness SyncWitness in
/-- Without the condition on SEARCH the promise fails: a cap of zero finds
nothing to fetch and skips what is there. -/
theorem overlapping_passes_skip_under_empty_cap :
    ¬ ∀ (parse : Parser) (start world : OverlapWorld),
      OverlapStart parse start → Reach (overlapStep parse) start world →
        OverlapPromise parse world := by
  intro hclaim
  obtain ⟨final, hfinal, hrow, hserver, hmessages, hfailed, hhold, habsent⟩ :
      ∃ final, replayGuarded (overlapStep firstByte) (fun _ _ => True)
          (unread [⟨1, [1]⟩]) emptiedRun = some final ∧
        final.shared.committed .mailbox =
          some (⟨some 1, some 2⟩ : MailboxRow) ∧
        final.shared.server.messages = [⟨1, [1]⟩] ∧
        (∀ key, final.shared.committed (.message key) = none) ∧
        final.shared.committed (.failed 1) = none ∧
        final.shared.committed (.hold 1) = none ∧
        final.shared.reportedAbsent = [] :=
    ⟨_, rfl, rfl, rfl, fun _ => rfl, rfl, rfl, rfl⟩
  have hstart : OverlapStart firstByte (unread [⟨1, [1]⟩]) :=
    unread_start firstByte ⟨by decide, by decide, by decide, by decide⟩
  have hpromise := hclaim firstByte _ final hstart
    (GuardedReach.of_replay emptiedRun hfinal)
  have haccounted := hpromise.noLoss _ hrow 2 rfl ⟨1, [1]⟩
    (hserver ▸ List.mem_cons_self) (by decide)
  rcases haccounted with
    (⟨_, _, row, hfound, _⟩ | hset) | ⟨row, hfound, _⟩ | hgone
  · rw [hmessages] at hfound
    cases hfound
  · rw [SyncView.Failed, hfailed] at hset
    cases hset
  · rw [hhold] at hfound
    cases hfound
  · rw [habsent] at hgone
    cases hgone

open OverlapWitness SyncWitness in
theorem overlapping_passes_lose_nothing_overlappingRun :
    ∃ final, replayGuarded (overlapStep firstByte) CapLeavesSome
        (unread [⟨1, [1]⟩, ⟨2, [2]⟩]) overlappingRun = some final ∧
      final.shared.committed .mailbox =
        some (⟨some 1, some 2⟩ : MailboxRow) ∧
      OverlapPromise firstByte final := by
  obtain ⟨final, hfinal, hrow⟩ : ∃ final,
      replayGuarded (overlapStep firstByte) CapLeavesSome
          (unread [⟨1, [1]⟩, ⟨2, [2]⟩]) overlappingRun = some final ∧
        final.shared.committed .mailbox =
          some (⟨some 1, some 2⟩ : MailboxRow) := ⟨_, rfl, rfl⟩
  have hstart : OverlapStart firstByte (unread [⟨1, [1]⟩, ⟨2, [2]⟩]) :=
    unread_start firstByte ⟨by decide, by decide, by decide, by decide⟩
  exact ⟨final, hfinal, hrow, overlapping_passes_lose_nothing firstByte _ _
    hstart (GuardedReach.of_replay overlappingRun hfinal)⟩

end Localmail
