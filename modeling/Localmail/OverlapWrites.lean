/-
The statements of the overlapping passes as their own transaction sees them:
each leaves what was accounted for, the tombstone of a UID under way apart.
-/
import Localmail.OverlapSafety

namespace Localmail

/-! ### A transaction's own statements -/

/-- A statement of a transaction: what it saw kept it still sees kept, the
tombstone of `cleared` apart. -/
structure Writes (before after : OverlapShared) (own written : Overlay SyncRow)
    (cleared : Option Nat) : Prop where
  committed : after.committed = before.committed
  server : after.server = before.server
  reported : ∀ uid ∈ before.reportedAbsent, uid ∈ after.reportedAbsent
  rows : KeepsRows before own → KeepsRows after written
  message : ∀ key row, before.seen own (.message key) = some row →
    after.seen written (.message key) = some row
  label : ∀ id, (before.seen own (.label id)).isSome →
    (after.seen written (.label id)).isSome
  failed : ∀ uid, (before.seen own (.failed uid)).isSome →
    (after.seen written (.failed uid)).isSome
  hold : ∀ uid, cleared ≠ some uid → (before.seen own).Tombstoned uid →
    (after.seen written).Tombstoned uid
  mailbox : written .mailbox = own .mailbox

namespace Writes

variable {parse : Parser} {before after : OverlapShared}
  {own written : Overlay SyncRow} {cleared : Option Nat}

theorem stored (hwrites : Writes before after own written cleared)
    {message : ServerMessage} (hstored : (before.seen own).Stored parse message) :
    (after.seen written).Stored parse message := by
  rcases hstored with ⟨parsed, hparsed, row, hrow, hlabel⟩ | hfailed
  · exact .inl ⟨parsed, hparsed, row, hwrites.message _ row hrow,
      hwrites.label _ hlabel⟩
  · exact .inr (hwrites.failed _ hfailed)

theorem accounted (hwrites : Writes before after own written cleared)
    {message : ServerMessage} (hout : cleared ≠ some message.uid)
    (haccounted : AccountedIn parse before (before.seen own) message) :
    AccountedIn parse after (after.seen written) message := by
  rcases haccounted with hstored | htombstoned | habsent
  · exact .inl (hwrites.stored hstored)
  · exact .inr (.inl (hwrites.hold _ hout htombstoned))
  · exact .inr (.inr (hwrites.reported _ habsent))

theorem safeBelow (hwrites : Writes before after own written none) {bound : Nat}
    (hsafe : SafeBelow parse before (before.seen own) bound) :
    SafeBelow parse after (after.seen written) bound where
  le := hwrites.server ▸ hsafe.le
  accounted := by
    intro message hmessage hlt
    rw [hwrites.server] at hmessage
    exact hwrites.accounted nofun (hsafe.accounted message hmessage hlt)

/-- A statement keeps a transaction in order.  A tombstone may go only while
the message of its UID is being stored and the resume point is not written. -/
theorem txOk {received : List Nat} {current : Option Nat}
    (hwrites : Writes before after own written cleared)
    (htx : TxOk parse before own received current)
    (hcleared : ∀ uid ∈ cleared, current = some uid ∧ uid ∈ received ∧
      uid < before.server.uidnext ∧ own .mailbox = none) :
    TxOk parse after written received current where
  rows := hwrites.rows htx.rows
  hold := by
    intro uid _ htombstoned
    rw [hwrites.committed] at htombstoned
    by_cases hgone : cleared = some uid
    · obtain ⟨hcurrent, hreceived, hlt, -⟩ := hcleared uid hgone
      exact .inr ⟨hreceived, hwrites.server ▸ hlt, .inl hcurrent⟩
    · by_cases hown : own (.hold uid) = none
      · obtain ⟨row, hrow, hgave⟩ := htombstoned
        exact .inl (hwrites.hold uid hgone
          ⟨row, (seen_of_none hown).trans hrow, hgave⟩)
      · rcases htx.hold uid hown htombstoned with
          hseen | ⟨hreceived, hlt, hnow | hstored⟩
        · exact .inl (hwrites.hold uid hgone hseen)
        · exact .inr ⟨hreceived, hwrites.server ▸ hlt, .inl hnow⟩
        · refine .inr ⟨hreceived, hwrites.server ▸ hlt, .inr ?_⟩
          intro message hmessage huid
          rw [hwrites.server] at hmessage
          exact hwrites.stored (hstored message hmessage huid)
  mailbox := by
    intro version hown
    rw [hwrites.mailbox] at hown
    obtain ⟨row, hversion, hvalidity, hsafe⟩ := htx.mailbox version hown
    refine ⟨row, hversion, hwrites.server ▸ hvalidity, ?_⟩
    intro uidnext hrow
    have hnone : cleared = none := by
      rcases hgone : cleared with _ | uid
      · rfl
      · have hunmoved := (hcleared uid hgone).2.2.2
        rw [hown] at hunmoved
        cases hunmoved
    subst hnone
    exact hwrites.safeBelow (hsafe uidnext hrow)

/-- Drawing from the sequence is no write. -/
theorem drawing (hwrites : Writes before after own written cleared) (id : Nat) :
    Writes before { after with nextMessageId := id } own written cleared :=
  { hwrites with
    rows := fun hrows =>
      have hafter := hwrites.rows hrows
      ⟨hafter.message, hafter.label, hafter.failed⟩ }

end Writes

section Statements

variable {parse : Parser} {tx : Nat} {shared : OverlapShared}
  {received : List Nat} {current : Option Nat}

/-- What a single-row statement may write: no second row for a message, and
no tombstone without its mark. -/
def MayWrite (view : SyncView) : (key : SyncKey) → SyncRow key → Prop
  | .mailbox, _ => False
  | .message key, _ => view (.message key) = none
  | .label _, _ => True
  | .failed _, _ => True
  | .hold uid, (row : TransientFetch) =>
      view.Tombstoned uid → row.gaveUpAt.isSome

theorem seen_put_self (key : SyncKey) (version : Option (SyncRow key)) :
    (shared.put tx key version).seen
      ((shared.put tx key version).store.own tx) key = version :=
  seen_of_some (RowStore.own_put_self key version)

theorem seen_put_of_ne {key other : SyncKey} (hne : other ≠ key)
    (version : Option (SyncRow key)) :
    (shared.put tx key version).seen
        ((shared.put tx key version).store.own tx) other =
      shared.seen (shared.store.own tx) other := by
  unfold OverlapShared.seen Overlay.over
  rw [show (shared.put tx key version).store.own tx other =
    shared.store.own tx other from RowStore.own_put_of_ne hne version]
  rfl

theorem writes_put (key : SyncKey) (row : SyncRow key)
    (hmay : MayWrite (shared.seen (shared.store.own tx)) key row) :
    Writes shared (shared.put tx key (some row)) (shared.store.own tx)
      ((shared.put tx key (some row)).store.own tx) none where
  committed := rfl
  server := rfl
  reported := fun _ habsent => habsent
  rows := by
    intro hrows
    refine ⟨?_, ?_, ?_⟩
    · intro other version hown
      by_cases hsame : SyncKey.message other = key
      · subst hsame
        change (shared.store.put tx (.message other) (some row)).own tx _ = _ at hown
        rw [RowStore.own_put_self] at hown
        refine ⟨?_, by rw [← Option.some.inj hown]; exact Option.some_ne_none _⟩
        cases hheld : shared.store.own tx (.message other) with
        | none => exact (seen_of_none hheld).symm.trans hmay
        | some held => exact (hrows.message other held hheld).1
      · exact hrows.message other version
          ((RowStore.own_put_of_ne hsame _).symm.trans hown)
    · intro id version hown
      by_cases hsame : SyncKey.label id = key
      · subst hsame
        change (shared.store.put tx (.label id) (some row)).own tx _ = _ at hown
        rw [RowStore.own_put_self] at hown
        rw [← Option.some.inj hown]
        exact Option.some_ne_none _
      · exact hrows.label id version
          ((RowStore.own_put_of_ne hsame _).symm.trans hown)
    · intro uid version hown
      by_cases hsame : SyncKey.failed uid = key
      · subst hsame
        change (shared.store.put tx (.failed uid) (some row)).own tx _ = _ at hown
        rw [RowStore.own_put_self] at hown
        rw [← Option.some.inj hown]
        exact Option.some_ne_none _
      · exact hrows.failed uid version
          ((RowStore.own_put_of_ne hsame _).symm.trans hown)
  message := by
    intro other old hold
    by_cases hsame : SyncKey.message other = key
    · subst hsame
      rw [show shared.seen (shared.store.own tx) (.message other) = none
        from hmay] at hold
      cases hold
    · rw [seen_put_of_ne hsame]
      exact hold
  label := by
    intro id hold
    by_cases hsame : SyncKey.label id = key
    · subst hsame
      rw [seen_put_self]
      rfl
    · rw [seen_put_of_ne hsame]
      exact hold
  failed := by
    intro uid hold
    by_cases hsame : SyncKey.failed uid = key
    · subst hsame
      rw [seen_put_self]
      rfl
    · rw [seen_put_of_ne hsame]
      exact hold
  hold := by
    intro uid _ htombstoned
    by_cases hsame : SyncKey.hold uid = key
    · subst hsame
      exact ⟨row, seen_put_self _ _, hmay htombstoned⟩
    · obtain ⟨old, hold, hgave⟩ := htombstoned
      exact ⟨old, (seen_put_of_ne hsame _).trans hold, hgave⟩
  mailbox := by
    refine RowStore.own_put_of_ne ?_ _
    rintro rfl
    exact hmay

section PutMailbox

variable {row : MailboxRow}

theorem own_put_mailbox (key : SyncKey) (hne : key ≠ .mailbox) :
    (shared.put tx .mailbox (some row)).store.own tx key =
      shared.store.own tx key :=
  RowStore.own_put_of_ne hne _

theorem stored_put_mailbox {message : ServerMessage}
    (hstored : (shared.seen (shared.store.own tx)).Stored parse message) :
    ((shared.put tx .mailbox (some row)).seen
      ((shared.put tx .mailbox (some row)).store.own tx)).Stored parse
        message := by
  rcases hstored with ⟨parsed, hparsed, found, hfound, hlabel⟩ | hfailed
  · have hmessage : SyncKey.message parsed.dedupKey ≠ .mailbox := nofun
    have hlabelKey : SyncKey.label found.id ≠ .mailbox := nofun
    exact .inl ⟨parsed, hparsed, found,
      (seen_put_of_ne hmessage _).trans hfound,
      (congrArg Option.isSome (seen_put_of_ne hlabelKey _)).trans hlabel⟩
  · have hfailedKey : SyncKey.failed message.uid ≠ .mailbox := nofun
    exact .inr ((congrArg Option.isSome (seen_put_of_ne hfailedKey _)).trans
      hfailed)

theorem tombstoned_put_mailbox {uid : Nat}
    (htombstoned : (shared.seen (shared.store.own tx)).Tombstoned uid) :
    ((shared.put tx .mailbox (some row)).seen
      ((shared.put tx .mailbox (some row)).store.own tx)).Tombstoned uid := by
  obtain ⟨found, hfound, hgave⟩ := htombstoned
  have hkey : SyncKey.hold uid ≠ .mailbox := nofun
  exact ⟨found, (seen_put_of_ne hkey _).trans hfound, hgave⟩

theorem accounted_put_mailbox {message : ServerMessage}
    (haccounted : AccountedIn parse shared
      (shared.seen (shared.store.own tx)) message) :
    AccountedIn parse (shared.put tx .mailbox (some row))
      ((shared.put tx .mailbox (some row)).seen
        ((shared.put tx .mailbox (some row)).store.own tx)) message := by
  rcases haccounted with hstored | htombstoned | habsent
  · exact .inl (stored_put_mailbox hstored)
  · exact .inr (.inl (tombstoned_put_mailbox htombstoned))
  · exact .inr (.inr habsent)

/-- The resume point is written. -/
theorem TxOk.put_mailbox
    (htx : TxOk parse shared (shared.store.own tx) received none)
    (hvalidity : row.uidvalidity = some shared.server.uidvalidity)
    (hsafe : ∀ uidnext ∈ row.uidnext,
      SafeBelow parse shared (shared.seen (shared.store.own tx)) uidnext) :
    TxOk parse (shared.put tx .mailbox (some row))
      ((shared.put tx .mailbox (some row)).store.own tx) received none := by
  refine ⟨⟨?_, ?_, ?_⟩, ?_, ?_⟩
  · intro key version hown
    rw [own_put_mailbox (.message key) nofun] at hown
    exact htx.rows.message key version hown
  · intro id version hown
    rw [own_put_mailbox (.label id) nofun] at hown
    exact htx.rows.label id version hown
  · intro uid version hown
    rw [own_put_mailbox (.failed uid) nofun] at hown
    exact htx.rows.failed uid version hown
  · intro uid hown hcommitted
    rw [own_put_mailbox (.hold uid) nofun] at hown
    rcases htx.hold uid hown hcommitted with
      hseen | ⟨hreceived, hlt, hnow | hstored⟩
    · exact .inl (tombstoned_put_mailbox hseen)
    · cases hnow
    · exact .inr ⟨hreceived, hlt, .inr fun message hmessage huid =>
        stored_put_mailbox (hstored message hmessage huid)⟩
  · intro version hown
    obtain rfl : some row = version := Option.some.inj
      ((RowStore.own_put_self _ _).symm.trans hown)
    refine ⟨row, rfl, hvalidity, ?_⟩
    intro uidnext hrow
    obtain ⟨hle, haccounted⟩ := hsafe uidnext hrow
    exact ⟨hle, fun message hmessage hlt =>
      accounted_put_mailbox (haccounted message hmessage hlt)⟩

end PutMailbox

/-- A statement that touches hold rows only. -/
theorem writes_holds {after : OverlapShared} {own written : Overlay SyncRow}
    {cleared : Option Nat} (hcommitted : after.committed = shared.committed)
    (hserver : after.server = shared.server)
    (hreported : ∀ uid ∈ shared.reportedAbsent, uid ∈ after.reportedAbsent)
    (hsame : ∀ key, key.heldUid = none → written key = own key)
    (hhold : ∀ uid, cleared ≠ some uid → (shared.seen own).Tombstoned uid →
      (after.seen written).Tombstoned uid) :
    Writes shared after own written cleared := by
  have hseen : ∀ key, key.heldUid = none →
      after.seen written key = shared.seen own key := by
    intro key hkey
    unfold OverlapShared.seen Overlay.over
    rw [hsame key hkey]
    exact congrArg _ (congrFun hcommitted key)
  refine ⟨hcommitted, hserver, hreported, ?_, ?_, ?_, ?_, hhold,
    hsame .mailbox rfl⟩
  · intro hrows
    refine ⟨?_, ?_, ?_⟩
    · intro key version hown
      rw [hsame (.message key) rfl] at hown
      rw [hcommitted]
      exact hrows.message key version hown
    · intro id version hown
      rw [hsame (.label id) rfl] at hown
      exact hrows.label id version hown
    · intro uid version hown
      rw [hsame (.failed uid) rfl] at hown
      exact hrows.failed uid version hown
  · intro key row hrow
    exact (hseen (.message key) rfl).trans hrow
  · intro id hsome
    rw [hseen (.label id) rfl]
    exact hsome
  · intro uid hsome
    rw [hseen (.failed uid) rfl]
    exact hsome

/-- Nothing is written. -/
theorem Writes.same {after : OverlapShared} (own : Overlay SyncRow)
    (hcommitted : after.committed = shared.committed)
    (hserver : after.server = shared.server)
    (hreported : ∀ uid ∈ shared.reportedAbsent, uid ∈ after.reportedAbsent) :
    Writes shared after own own none := by
  refine writes_holds hcommitted hserver hreported (fun _ _ => rfl) ?_
  rintro uid - ⟨row, hrow, hgave⟩
  refine ⟨row, ?_, hgave⟩
  unfold OverlapShared.seen Overlay.over at hrow ⊢
  rw [← hrow]
  exact congrArg _ (congrFun hcommitted _)

theorem deleteChosen_eq {store after : RowStore SyncRow}
    {chosen : (key : SyncKey) → SyncRow key → Bool} {candidates : List SyncKey}
    (hdelete : store.deleteChosen tx chosen candidates = some after) :
    (∀ key ∈ candidates, store.Free tx key) ∧
      after = store.removeAll tx (store.matching tx chosen candidates) := by
  obtain ⟨hfree, hafter⟩ := Option.ite_none_right_eq_some.mp hdelete
  exact ⟨hfree, (Option.some.inj hafter).symm⟩

/-- Hold rows are deleted, among them no tombstone but that of `cleared`. -/
theorem writes_delete {chosen : (key : SyncKey) → SyncRow key → Bool}
    {candidates : List SyncKey} {after : RowStore SyncRow}
    {cleared : Option Nat}
    (hdelete : shared.store.deleteChosen tx chosen candidates = some after)
    (hholds : ∀ key row, chosen key row = true → key.heldUid ≠ none)
    (hkeeps : ∀ (uid : Nat) (row : TransientFetch), cleared ≠ some uid →
      row.gaveUpAt.isSome → chosen (.hold uid) row = false) :
    Writes shared { shared with store := after } (shared.store.own tx)
      (after.own tx) cleared := by
  obtain ⟨-, rfl⟩ := deleteChosen_eq hdelete
  have hout : ∀ key, (∀ row, shared.store.view tx key = some row →
      chosen key row = false) →
      (shared.store.removeAll tx (shared.store.matching tx chosen
        candidates)).own tx key = shared.store.own tx key := by
    intro key hnot
    rw [RowStore.own_removeAll, if_neg]
    intro hmem
    obtain ⟨-, row, hrow, hchosen⟩ := RowStore.mem_matching.mp hmem
    rw [hnot row hrow] at hchosen
    cases hchosen
  refine writes_holds rfl rfl (fun _ habsent => habsent) ?_ ?_
  · intro key hkey
    refine hout key fun row _ => ?_
    cases hchosen : chosen key row with
    | false => rfl
    | true => exact absurd hkey (hholds key row hchosen)
  · rintro uid hcleared ⟨row, hrow, hgave⟩
    refine ⟨row, ?_, hgave⟩
    have hview : shared.store.view tx (.hold uid) = some row := by
      rw [← seen_own]
      exact hrow
    have hsame := hout (.hold uid) fun other hother => by
      obtain rfl := Option.some.inj (hview.symm.trans hother)
      exact hkeeps uid row hcleared hgave
    unfold OverlapShared.seen Overlay.over at hrow ⊢
    rw [hsame]
    exact hrow

/-- Hold rows are rewritten and keep their give-up mark. -/
theorem writes_update {chosen : (key : SyncKey) → SyncRow key → Bool}
    {candidates : List SyncKey} {after : RowStore SyncRow}
    {rewrite : (key : SyncKey) → SyncRow key → SyncRow key}
    (hupdate : shared.store.updateChosen tx chosen rewrite candidates =
      some after)
    (hholds : ∀ key row, chosen key row = true → key.heldUid ≠ none)
    (hkeeps : ∀ (uid : Nat) (row : TransientFetch), row.gaveUpAt.isSome →
      (show TransientFetch from rewrite (.hold uid) row).gaveUpAt.isSome) :
    Writes shared { shared with store := after } (shared.store.own tx)
      (after.own tx) none := by
  obtain ⟨-, hafter⟩ := Option.ite_none_right_eq_some.mp hupdate
  obtain rfl := Option.some.inj hafter
  refine writes_holds rfl rfl (fun _ habsent => habsent) ?_ ?_
  · intro key hkey
    rw [RowStore.own_rewriteAll, if_neg]
    intro hmem
    obtain ⟨-, row, -, hchosen⟩ := RowStore.mem_matching.mp hmem
    exact hholds key row hchosen hkey
  · rintro uid - ⟨row, hrow, hgave⟩
    have hview : shared.store.view tx (.hold uid) = some row := by
      rw [← seen_own]
      exact hrow
    unfold SyncView.Tombstoned OverlapShared.seen Overlay.over
    rw [RowStore.own_rewriteAll]
    split
    · rw [hview]
      exact ⟨_, rfl, hkeeps uid row hgave⟩
    · exact ⟨row, hrow, hgave⟩

end Statements

end Localmail
