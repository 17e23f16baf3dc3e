/-
Every step of a pass and of a retry run keeps what the process relies on, and
leaves the rows other processes hold alone.
-/
import Localmail.OverlapInv
import Localmail.OverlapWrites

namespace Localmail

/-- The UIDs whose body a process received since its last commit. -/
def SyncProc.received : SyncProc → List Nat
  | .between loop | .handling loop _ _ _ _ | .chunkDone loop
  | .checkpointed loop _ | .reclaiming loop _ _ | .reclaimed loop =>
      loop.received
  | _ => []

/-- A step of process `tx`.  It commits nothing, or everything it wrote. -/
structure ProcActs (parse : Parser) (tx : Nat) (before : OverlapShared)
    (proc : SyncProc) (after : OverlapShared) (next : SyncProc) : Prop where
  ok : ProcOk parse tx after next
  undisturbed : ∀ other, other ≠ tx →
    RowStore.Undisturbed other before.store after.store
  server : after.server = before.server
  reported : ∀ uid ∈ before.reportedAbsent, uid ∈ after.reportedAbsent
  committed : after.committed = before.committed ∨
    (TxOk parse before (before.store.own tx) proc.received none ∧
      after.committed = before.seen (before.store.own tx))

section ProcActs

variable {parse : Parser} {tx : Nat} {shared after : OverlapShared}
  {proc next : SyncProc} {loop : SyncLoop} {uid : Nat} {chunk : List Nat}
  {fetched : List FetchData} {received : List Nat} {cleared : Option Nat}

/-- Nothing is written. -/
theorem ProcActs.still (hok : ProcOk parse tx shared next) :
    ProcActs parse tx shared proc shared next :=
  ⟨hok, fun other _ => RowStore.Undisturbed.refl other _, rfl,
    fun _ habsent => habsent, .inl rfl⟩

theorem ProcActs.put {key : SyncKey} {version : Option (SyncRow key)}
    (hfree : shared.store.Free tx key)
    (hok : ProcOk parse tx (shared.put tx key version) next) :
    ProcActs parse tx shared proc (shared.put tx key version) next :=
  ⟨hok, fun _ hother => RowStore.undisturbed_put hother hfree version, rfl,
    fun _ habsent => habsent, .inl rfl⟩

theorem ProcActs.delete {chosen : (key : SyncKey) → SyncRow key → Bool}
    {candidates : List SyncKey} {store : RowStore SyncRow}
    (hdelete : shared.store.deleteChosen tx chosen candidates = some store)
    (hok : ProcOk parse tx { shared with store := store } next) :
    ProcActs parse tx shared proc { shared with store := store } next := by
  obtain ⟨hfree, rfl⟩ := deleteChosen_eq hdelete
  refine ⟨hok, fun _ hother => RowStore.undisturbed_removeAll hother ?_, rfl,
    fun _ habsent => habsent, .inl rfl⟩
  intro key hkey
  exact hfree key (RowStore.mem_matching.mp hkey).1

theorem own_commit (shared : OverlapShared) (tx : Nat) (key : SyncKey) :
    (shared.commit tx).store.own tx key = none :=
  RowStore.own_commit key

theorem committed_commit (shared : OverlapShared) (tx : Nat) :
    (shared.commit tx).committed = shared.seen (shared.store.own tx) := by
  rw [seen_own]
  rfl

theorem ProcActs.commit
    (htx : TxOk parse shared (shared.store.own tx) proc.received none)
    (hok : ProcOk parse tx (shared.commit tx) next) :
    ProcActs parse tx shared proc (shared.commit tx) next :=
  ⟨hok, fun _ hother => RowStore.undisturbed_commit hother, rfl,
    fun _ habsent => habsent, .inr ⟨htx, committed_commit shared tx⟩⟩

theorem ProcActs.rollback : ProcActs parse tx shared proc (shared.rollback tx)
    .finished :=
  ⟨fun _ => RowStore.own_rollback _,
    fun _ hother => RowStore.undisturbed_rollback hother, rfl,
    fun _ habsent => habsent, .inl rfl⟩

/-! ### Through one statement -/

/-- A statement that clears nothing. -/
theorem forall_cleared_none {P : Nat → Prop} :
    ∀ gone ∈ (none : Option Nat), P gone := by
  rintro _ ⟨⟩

theorem Covers.write {own written : Overlay SyncRow} {remaining later : List Nat}
    (hcovers : Covers parse shared own loop remaining later)
    (hwrites : Writes shared after own written cleared)
    (hcleared : ∀ uid ∈ cleared, uid ∈ remaining) :
    Covers parse after written loop remaining later := by
  obtain ⟨top, hcovers⟩ := hcovers
  refine ⟨top, hcovers.rewrite hwrites.server ?_⟩
  intro message _ hout haccounted
  refine hwrites.accounted ?_ haccounted
  intro hgone
  exact hout (hcleared _ hgone)

theorem LoopOk.write (hloop : LoopOk shared loop)
    (hserver : after.server = shared.server) : LoopOk after loop where
  uidvalidity := hloop.uidvalidity.trans (congrArg _ hserver.symm)
  received := hserver ▸ hloop.received

theorem UidOk.write (huid : UidOk parse tx shared loop uid chunk fetched)
    (hwrites : Writes shared after (shared.store.own tx)
      (after.store.own tx) cleared)
    (hcleared : ∀ gone ∈ cleared, gone = uid) :
    UidOk parse tx after loop uid chunk fetched where
  loopOk := huid.loopOk.write hwrites.server
  agrees := hwrites.server ▸ huid.agrees
  arrived := huid.arrived
  unmoved := hwrites.mailbox.trans huid.unmoved
  covers := by
    refine huid.covers.write hwrites ?_
    intro gone hgone
    rw [hcleared gone hgone]
    exact List.mem_cons_self

theorem SavedOk.write {saved : Overlay SyncRow} {parsed : ParsedMessage}
    (hsaved : SavedOk parse tx shared loop uid chunk fetched saved parsed)
    (hwrites : Writes shared after (shared.store.own tx)
      (after.store.own tx) none)
    (hlocked : ∀ key, shared.store.own tx key ≠ none →
      after.store.own tx key ≠ none) :
    SavedOk parse tx after loop uid chunk fetched saved parsed := by
  have hsame : Writes shared after saved saved none :=
    .same saved hwrites.committed hwrites.server hwrites.reported
  refine ⟨hwrites.txOk hsaved.written forall_cleared_none, hsame.txOk hsaved.kept forall_cleared_none, ?_,
    hsaved.covers.write hsame forall_cleared_none, hsaved.parsed⟩
  intro key hkey
  exact hlocked key (hsaved.locked key hkey)

theorem own_put_ne_none {key : SyncKey} {version : Option (SyncRow key)}
    (other : SyncKey) (hown : shared.store.own tx other ≠ none) :
    (shared.put tx key version).store.own tx other ≠ none := by
  by_cases hsame : other = key
  · subst hsame
    change (shared.store.put tx other version).own tx other ≠ none
    rw [RowStore.own_put_self]
    exact Option.some_ne_none _
  · change (shared.store.put tx key version).own tx other ≠ none
    rw [RowStore.own_put_of_ne hsame]
    exact hown

/-- The message at `uid` comes under way. -/
theorem TxOk.enter {own : Overlay SyncRow}
    (htx : TxOk parse shared own received none) :
    TxOk parse shared own received (some uid) where
  rows := htx.rows
  hold := by
    intro other hown htombstoned
    rcases htx.hold other hown htombstoned with
      hseen | ⟨hreceived, hlt, hnow | hstored⟩
    · exact .inl hseen
    · cases hnow
    · exact .inr ⟨hreceived, hlt, .inr hstored⟩
  mailbox := htx.mailbox

/-- The message at `uid` is stored. -/
theorem TxOk.settle {own : Overlay SyncRow}
    (htx : TxOk parse shared own received (some uid))
    (hstored : ∀ message ∈ shared.server.messages, message.uid = uid →
      (shared.seen own).Stored parse message) :
    TxOk parse shared own received none where
  rows := htx.rows
  hold := by
    intro other hown htombstoned
    rcases htx.hold other hown htombstoned with
      hseen | ⟨hreceived, hlt, hnow | hkept⟩
    · exact .inl hseen
    · obtain rfl := Option.some.inj hnow
      exact .inr ⟨hreceived, hlt, .inr hstored⟩
    · exact .inr ⟨hreceived, hlt, .inr hkept⟩
  mailbox := htx.mailbox

/-! ### One UID -/

/-- On to the next UID of the chunk. -/
theorem nextUid_ok (hloop : LoopOk shared loop)
    (hagrees : FetchAgrees shared.server fetched)
    (harrived : ∀ data ∈ fetched, data.body ≠ [] → data.uid ∈ loop.received)
    (hunmoved : shared.store.own tx .mailbox = none)
    (htx : TxOk parse shared (shared.store.own tx) loop.received none)
    (hcovers : Covers parse shared (shared.store.own tx) loop
      (chunk ++ loop.batches.flatten) loop.batches.flatten) :
    ProcOk parse tx shared (nextUid loop chunk fetched) := by
  cases chunk with
  | nil => exact ⟨hloop, htx, hcovers⟩
  | cons uid rest =>
      exact ⟨⟨hloop, hagrees, harrived, hunmoved, hcovers⟩, htx⟩

/-- `uid` is dealt with and passed. -/
theorem UidOk.passed (huid : UidOk parse tx shared loop uid chunk fetched)
    (htx : TxOk parse shared (shared.store.own tx) loop.received none)
    (hdealt : ∀ message ∈ shared.server.messages, message.uid = uid →
      AccountedIn parse shared (shared.seen (shared.store.own tx)) message)
    (inserted : Nat) :
    ProcOk parse tx shared
      (nextUid { loop.pass uid with inserted := inserted } chunk fetched) := by
  refine nextUid_ok ⟨huid.loopOk.uidvalidity, huid.loopOk.received⟩ huid.agrees
    huid.arrived huid.unmoved htx ?_
  refine huid.covers.next (Nat.le_refl _)
    (fun held hheld => ⟨held, hheld, Nat.le_refl _⟩) ?_
  intro message hmessage hsame
  exact .inl (hdealt message hmessage hsame)

/-- What arrived for `uid` is its message. -/
theorem UidOk.body_eq (huid : UidOk parse tx shared loop uid chunk fetched)
    {data : FetchData} (hdata : fetchedBody fetched uid = some data)
    {message : ServerMessage} (hmessage : message ∈ shared.server.messages)
    (hsame : message.uid = uid) : message.body = data.body := by
  obtain ⟨hmem, hdataUid, hbody⟩ := fetchedBody_spec hdata
  exact (huid.agrees data hmem hbody).2 message hmessage
    (hsame.trans hdataUid.symm)

theorem UidOk.mem_received (huid : UidOk parse tx shared loop uid chunk fetched)
    {data : FetchData} (hdata : fetchedBody fetched uid = some data) :
    uid ∈ loop.received := by
  obtain ⟨hmem, hdataUid, hbody⟩ := fetchedBody_spec hdata
  exact hdataUid ▸ huid.arrived data hmem hbody

/-- An exception inside the savepoint undoes what was written since. -/
theorem UidOk.raiseTo (huid : UidOk parse tx shared loop uid chunk fetched)
    {saved : Overlay SyncRow}
    (htx : TxOk parse shared saved loop.received (some uid))
    (hlocked : ∀ key, saved key ≠ none → shared.store.own tx key ≠ none)
    (hcovers : Covers parse shared saved loop
      (uid :: chunk ++ loop.batches.flatten) loop.batches.flatten)
    (hdata : ∃ data, fetchedBody fetched uid = some data) {fault : Fault}
    (hraise : raiseTo tx shared saved
      (.handling loop uid chunk fetched .failing) fault = (after, next)) :
    ProcActs parse tx shared proc after next := by
  cases fault with
  | contention =>
      obtain ⟨rfl, rfl⟩ := Prod.mk.inj hraise
      exact ProcActs.rollback
  | other =>
      obtain ⟨rfl, rfl⟩ := Prod.mk.inj hraise
      have hown : (shared.store.rollbackTo tx saved).own tx = saved := by
        refine RowStore.own_rollbackTo ?_
        intro key hkey
        obtain ⟨version, hversion⟩ :=
          Option.ne_none_iff_exists'.mp (hlocked key hkey)
        exact (RowStore.owner_of_own hversion).1
      have hsame : Writes shared
          { shared with store := shared.store.rollbackTo tx saved } saved saved
          none :=
        .same saved rfl rfl (fun _ habsent => habsent)
      refine ⟨⟨⟨huid.loopOk.write rfl, huid.agrees, huid.arrived, ?_, ?_⟩, ?_,
        hdata⟩, fun _ hother => RowStore.undisturbed_rollbackTo hother saved,
        rfl, fun _ habsent => habsent, .inl rfl⟩
      · change (shared.store.rollbackTo tx saved).own tx .mailbox = none
        rw [hown]
        by_contra hmoved
        exact hlocked _ hmoved huid.unmoved
      · change Covers parse _ ((shared.store.rollbackTo tx saved).own tx) _ _ _
        rw [hown]
        exact hcovers.write hsame forall_cleared_none
      · change TxOk parse _ ((shared.store.rollbackTo tx saved).own tx) _ _
        rw [hown]
        exact hsame.txOk htx forall_cleared_none

theorem UidOk.look (huid : UidOk parse tx shared loop uid chunk fetched)
    (htx : TxOk parse shared (shared.store.own tx) loop.received none)
    {answer : StepAnswer}
    (hstep : procStep parse tx shared (.handling loop uid chunk fetched .look)
      answer = some (after, next)) :
    ProcActs parse tx shared proc after next := by
  simp only [procStep, uidStep] at hstep
  split at hstep
  · split at hstep
    · cases hstep
      exact .still ⟨huid, htx⟩
    · split at hstep
      · cases hstep
        exact .still ⟨⟨⟨huid.loopOk.uidvalidity, huid.loopOk.received⟩,
          huid.agrees, huid.arrived, huid.unmoved, huid.covers⟩, htx⟩
      · obtain ⟨-, hsome⟩ := Option.ite_none_right_eq_some.mp hstep
        obtain ⟨rfl, rfl⟩ := Prod.mk.inj (Option.some.inj hsome)
        -- The probe's answer is all that is added.
        have hwrites : Writes shared
            { shared with reportedAbsent := uid :: shared.reportedAbsent }
            (shared.store.own tx) (shared.store.own tx) none :=
          .same _ rfl rfl fun _ habsent => List.mem_cons_of_mem _ habsent
        refine ⟨?_, fun other _ => RowStore.Undisturbed.refl other _, rfl,
          fun _ habsent => List.mem_cons_of_mem _ habsent, .inl rfl⟩
        refine (huid.write hwrites forall_cleared_none).passed (hwrites.txOk htx forall_cleared_none) ?_
          loop.inserted
        intro message _ hsame
        exact .inr (.inr (hsame ▸ List.mem_cons_self))
      · cases hstep
  · rename_i data hdata
    split at hstep
    · cases hstep
      exact .still ⟨huid, htx, data, hdata⟩
    · cases hstep
      exact .still ⟨huid, htx.enter, data, hdata⟩

theorem UidOk.record (huid : UidOk parse tx shared loop uid chunk fetched)
    (htx : TxOk parse shared (shared.store.own tx) loop.received none)
    {answer : StepAnswer}
    (hstep : procStep parse tx shared (.handling loop uid chunk fetched .record)
      answer = some (after, next)) :
    ProcActs parse tx shared proc after next := by
  cases answer with
  | now txNow =>
      simp only [procStep, uidStep] at hstep
      obtain ⟨hfree, hsome⟩ := Option.ite_none_right_eq_some.mp hstep
      obtain ⟨rfl, rfl⟩ := Prod.mk.inj (Option.some.inj hsome)
      refine .put hfree ?_
      have hmarked : (shared.seen (shared.store.own tx)).Tombstoned uid →
          (attemptRow (shared.store.view tx (.hold uid)) uid
            txNow).gaveUpAt.isSome := by
        rintro ⟨row, hrow, hgave⟩
        rw [seen_own] at hrow
        rw [hrow]
        exact hgave
      have hwrites := writes_put (.hold uid)
        (attemptRow (shared.store.view tx (.hold uid)) uid txNow) hmarked
      have hafter := huid.write hwrites forall_cleared_none
      have htxAfter := hwrites.txOk htx forall_cleared_none
      split
      · exact ⟨hafter, htxAfter, _, RowStore.own_put_self _ _⟩
      · refine nextUid_ok ⟨hafter.loopOk.uidvalidity, hafter.loopOk.received⟩
          hafter.agrees hafter.arrived hafter.unmoved htxAfter ?_
        refine hafter.covers.next (Nat.le_max_left _ _) ?_ ?_
        · intro held hheld
          refine ⟨min held uid, ?_, Nat.min_le_left _ _⟩
          simp [SyncLoop.hold, Option.mem_def.mp hheld]
        · intro message _ hsame
          refine .inr ⟨_, rfl, ?_⟩
          cases loop.holdAt with
          | none => exact Nat.le_of_eq hsame.symm
          | some held => exact hsame ▸ Nat.min_le_right _ _
  | done | select | fetch | probe | raised => cases hstep

theorem UidOk.giveUp (huid : UidOk parse tx shared loop uid chunk fetched)
    (htx : TxOk parse shared (shared.store.own tx) loop.received none)
    (hrecorded : ∃ row : TransientFetch,
      shared.store.own tx (.hold uid) = some (some row))
    {answer : StepAnswer}
    (hstep : procStep parse tx shared (.handling loop uid chunk fetched .giveUp)
      answer = some (after, next)) :
    ProcActs parse tx shared proc after next := by
  obtain ⟨recorded, hown⟩ := hrecorded
  have hview : shared.store.view tx (.hold uid) = some recorded := by
    rw [← seen_own]
    exact seen_of_some hown
  cases answer with
  | now txNow =>
      simp only [procStep, uidStep, hview] at hstep
      obtain ⟨hfree, hsome⟩ := Option.ite_none_right_eq_some.mp hstep
      obtain ⟨rfl, rfl⟩ := Prod.mk.inj (Option.some.inj hsome)
      refine .put hfree ?_
      have hwrites : Writes shared _ (shared.store.own tx) _ none :=
        writes_put (.hold uid) (gaveUpRow recorded txNow) fun _ => rfl
      refine (huid.write hwrites forall_cleared_none).passed (hwrites.txOk htx forall_cleared_none) ?_
        loop.inserted
      rintro message _ rfl
      exact .inr (.inl ⟨_, seen_put_self _ _, rfl⟩)
  | done | select | fetch | probe | raised => cases hstep

theorem UidOk.clearing (huid : UidOk parse tx shared loop uid chunk fetched)
    (htx : TxOk parse shared (shared.store.own tx) loop.received none)
    (hdata : ∃ data, fetchedBody fetched uid = some data)
    {candidates : List SyncKey} {answer : StepAnswer}
    (hstep : procStep parse tx shared
      (.handling loop uid chunk fetched (.clearing candidates)) answer =
        some (after, next)) :
    ProcActs parse tx shared proc after next := by
  obtain ⟨data, hbody⟩ := hdata
  cases answer with
  | done =>
      simp only [procStep, uidStep] at hstep
      obtain ⟨store, hdelete, hsome⟩ := Option.map_eq_some_iff.mp hstep
      obtain ⟨rfl, rfl⟩ := Prod.mk.inj hsome
      refine .delete hdelete ?_
      have hwrites : Writes shared { shared with store := store }
          (shared.store.own tx) (store.own tx) (some uid) := by
        refine writes_delete hdelete ?_ ?_
        · rintro (_ | _ | _ | _ | other) _ hchosen
          · cases hchosen
          · cases hchosen
          · cases hchosen
          · cases hchosen
          · exact Option.some_ne_none other
        · intro other _ hother _
          exact decide_eq_false fun hsame => hother (hsame ▸ rfl)
      have hgone : ∀ gone ∈ some uid, gone = uid :=
        fun gone hgone => (Option.some.inj hgone).symm
      have hafter := huid.write hwrites hgone
      refine ⟨⟨⟨hafter.loopOk.uidvalidity, hafter.loopOk.received⟩,
        hafter.agrees, hafter.arrived, hafter.unmoved, hafter.covers⟩, ?_,
        data, hbody⟩
      refine hwrites.txOk htx.enter ?_
      intro gone hmem
      obtain rfl := hgone gone hmem
      exact ⟨rfl, huid.mem_received hbody, huid.covers.uid_lt, huid.unmoved⟩
  | now | select | fetch | probe | raised => cases hstep

theorem UidOk.storing (huid : UidOk parse tx shared loop uid chunk fetched)
    (htx : TxOk parse shared (shared.store.own tx) loop.received (some uid))
    (hdata : ∃ data, fetchedBody fetched uid = some data)
    {answer : StepAnswer}
    (hstep : procStep parse tx shared
      (.handling loop uid chunk fetched .storing) answer = some (after, next)) :
    ProcActs parse tx shared proc after next := by
  have hkept : ∀ key, shared.store.own tx key ≠ none →
      shared.store.own tx key ≠ none := fun _ hown => hown
  simp only [procStep, uidStep] at hstep
  split at hstep
  · exact huid.raiseTo htx hkept huid.covers hdata (Option.some.inj hstep)
  · exact huid.raiseTo htx hkept huid.covers hdata (Option.some.inj hstep)
  · rename_i parsed hparsed
    obtain ⟨data, hbody, hparse⟩ := Option.bind_eq_some_iff.mp hparsed
    have hsaved : SavedOk parse tx shared loop uid chunk fetched
        (shared.store.own tx) parsed :=
      ⟨htx, htx, hkept, huid.covers, data, hbody, hparse⟩
    split at hstep
    · rename_i row hrow
      cases hstep
      refine .still ⟨huid, hsaved, row, ?_, rfl⟩
      rw [seen_own]
      exact hrow
    · cases hstep
      exact .still ⟨huid, hsaved⟩
  · cases hstep

section Saved

variable {saved : Overlay SyncRow} {parsed : ParsedMessage}

/-- An exception inside the savepoint, whichever statement raised it. -/
theorem UidOk.raised (huid : UidOk parse tx shared loop uid chunk fetched)
    (hsaved : SavedOk parse tx shared loop uid chunk fetched saved parsed)
    {fault : Fault}
    (hraise : Localmail.raiseTo tx shared saved
      (.handling loop uid chunk fetched .failing) fault = (after, next)) :
    ProcActs parse tx shared proc after next := by
  obtain ⟨data, hbody, -⟩ := hsaved.parsed
  exact huid.raiseTo hsaved.kept hsaved.locked hsaved.covers ⟨data, hbody⟩
    hraise

theorem UidOk.inserting (huid : UidOk parse tx shared loop uid chunk fetched)
    (hsaved : SavedOk parse tx shared loop uid chunk fetched saved parsed)
    {answer : StepAnswer}
    (hstep : procStep parse tx shared
      (.handling loop uid chunk fetched (.inserting saved parsed)) answer =
        some (after, next)) :
    ProcActs parse tx shared proc after next := by
  cases answer with
  | done =>
      simp only [procStep, uidStep] at hstep
      obtain ⟨hfree, hinsert⟩ := Option.ite_none_right_eq_some.mp hstep
      split at hinsert
      · cases hinsert
        exact .still ⟨huid, hsaved⟩
      · rename_i hnone
        obtain ⟨rfl, rfl⟩ := Prod.mk.inj (Option.some.inj hinsert)
        have hunseen : shared.seen (shared.store.own tx)
            (.message parsed.dedupKey) = none := by
          rw [seen_own]
          exact hnone
        have hwrites := (writes_put (.message parsed.dedupKey)
          (⟨shared.nextMessageId, parsed.dedupKey,
            (fetchedBody fetched uid).bind FetchData.internalDate⟩ : MessageRow)
          hunseen).drawing (shared.nextMessageId + 1)
        refine ⟨⟨?_, ?_, ?_⟩, fun _ hother =>
          RowStore.undisturbed_put hother hfree _, rfl,
          fun _ habsent => habsent, .inl rfl⟩
        · exact huid.write hwrites forall_cleared_none
        · exact hsaved.write hwrites fun key hkey => own_put_ne_none key hkey
        · exact ⟨_, seen_put_self _ _, rfl⟩
  | raised fault => exact huid.raised hsaved (Option.some.inj hstep)
  | now | select | fetch | probe => cases hstep

theorem UidOk.rereading (huid : UidOk parse tx shared loop uid chunk fetched)
    (hsaved : SavedOk parse tx shared loop uid chunk fetched saved parsed)
    {answer : StepAnswer}
    (hstep : procStep parse tx shared
      (.handling loop uid chunk fetched (.rereading saved parsed)) answer =
        some (after, next)) :
    ProcActs parse tx shared proc after next := by
  cases answer with
  | done =>
      simp only [procStep, uidStep] at hstep
      split at hstep
      · rename_i row hrow
        cases hstep
        refine .still ⟨huid, hsaved, row, ?_, rfl⟩
        rw [seen_own]
        exact hrow
      · exact huid.raised hsaved (Option.some.inj hstep)
  | raised fault => exact huid.raised hsaved (Option.some.inj hstep)
  | now | select | fetch | probe => cases hstep

theorem UidOk.labelling (huid : UidOk parse tx shared loop uid chunk fetched)
    (hsaved : SavedOk parse tx shared loop uid chunk fetched saved parsed)
    {id : Nat} {didInsert : Bool}
    (hmessage : ∃ row : MessageRow, shared.seen (shared.store.own tx)
      (.message parsed.dedupKey) = some row ∧ row.id = id)
    {answer : StepAnswer}
    (hstep : procStep parse tx shared
      (.handling loop uid chunk fetched
        (.labelling saved parsed id didInsert)) answer = some (after, next)) :
    ProcActs parse tx shared proc after next := by
  obtain ⟨row, hrow, rfl⟩ := hmessage
  cases answer with
  | done =>
      simp only [procStep, uidStep] at hstep
      obtain ⟨hfree, hsome⟩ := Option.ite_none_right_eq_some.mp hstep
      obtain ⟨rfl, rfl⟩ := Prod.mk.inj (Option.some.inj hsome)
      refine .put hfree ?_
      have hwrites : Writes shared _ (shared.store.own tx) _ none :=
        writes_put (.label row.id) (⟨row.id, uid,
          ((fetchedBody fetched uid).map FetchData.flags).getD []⟩ : LabelRow)
          trivial
      refine ⟨huid.write hwrites forall_cleared_none,
        hsaved.write hwrites fun key hkey => own_put_ne_none key hkey, row, ?_,
        ?_⟩
      · have hne : SyncKey.message parsed.dedupKey ≠ .label row.id := by
          rintro ⟨⟩
        exact (seen_put_of_ne hne _).trans hrow
      · exact congrArg Option.isSome (seen_put_self _ _)
  | raised fault => exact huid.raised hsaved (Option.some.inj hstep)
  | now | select | fetch | probe => cases hstep

theorem UidOk.attaching (huid : UidOk parse tx shared loop uid chunk fetched)
    (hsaved : SavedOk parse tx shared loop uid chunk fetched saved parsed)
    (hlinked : (shared.seen (shared.store.own tx)).Linked parsed.dedupKey)
    {didInsert : Bool} {answer : StepAnswer}
    (hstep : procStep parse tx shared
      (.handling loop uid chunk fetched (.attaching saved parsed didInsert))
        answer = some (after, next)) :
    ProcActs parse tx shared proc after next := by
  cases answer with
  | done =>
      obtain ⟨rfl, rfl⟩ := Prod.mk.inj (Option.some.inj hstep)
      obtain ⟨data, hbody, hparse⟩ := hsaved.parsed
      have hstored : ∀ message ∈ shared.server.messages, message.uid = uid →
          (shared.seen (shared.store.own tx)).Stored parse message := by
        intro message hmessage hsame
        refine .inl ⟨parsed, ?_, hlinked⟩
        rw [huid.body_eq hbody hmessage hsame]
        exact hparse
      refine .still (huid.passed (hsaved.written.settle hstored) ?_ _)
      intro message hmessage hsame
      exact .inl (hstored message hmessage hsame)
  | raised fault => exact huid.raised hsaved (Option.some.inj hstep)
  | now | select | fetch | probe => cases hstep

end Saved

theorem UidOk.failing (huid : UidOk parse tx shared loop uid chunk fetched)
    (htx : TxOk parse shared (shared.store.own tx) loop.received (some uid))
    {answer : StepAnswer}
    (hstep : procStep parse tx shared
      (.handling loop uid chunk fetched .failing) answer = some (after, next)) :
    ProcActs parse tx shared proc after next := by
  cases answer with
  | done =>
      obtain ⟨hfree, rfl, rfl⟩ := procStep_failing hstep
      refine .put hfree ?_
      have hwrites : Writes shared _ (shared.store.own tx) _ none :=
        writes_put (.failed uid)
          (failedRow (shared.store.view tx (.failed uid)) uid
            (((fetchedBody fetched uid).map FetchData.body).getD [])) trivial
      refine (huid.write hwrites forall_cleared_none).passed
        ((hwrites.txOk htx forall_cleared_none).settle ?_) ?_ loop.inserted
      · rintro message - rfl
        exact .inr (congrArg Option.isSome (seen_put_self _ _))
      · rintro message - rfl
        exact .inl (.inr (congrArg Option.isSome (seen_put_self _ _)))
  | now | select | fetch | probe | raised => cases hstep

/-- One step for the UID a pass is at, whatever the stage. -/
theorem UidOk.step (huid : UidOk parse tx shared loop uid chunk fetched)
    {stage : UidStage}
    (hstage : StageOk parse tx shared loop uid chunk fetched stage)
    {answer : StepAnswer}
    (hstep : procStep parse tx shared (.handling loop uid chunk fetched stage)
      answer = some (after, next)) :
    ProcActs parse tx shared proc after next := by
  cases stage with
  | look => exact huid.look hstage hstep
  | record => exact huid.record hstage hstep
  | giveUp => exact huid.giveUp hstage.1 hstage.2 hstep
  | clearing candidates => exact huid.clearing hstage.1 hstage.2 hstep
  | storing => exact huid.storing hstage.1 hstage.2 hstep
  | inserting saved parsed => exact huid.inserting hstage hstep
  | rereading saved parsed => exact huid.rereading hstage hstep
  | labelling saved parsed id didInsert =>
      exact huid.labelling hstage.1 hstage.2 hstep
  | attaching saved parsed didInsert =>
      exact huid.attaching hstage.1 hstage.2 hstep
  | failing => exact huid.failing hstage.1 hstep

end ProcActs

end Localmail
