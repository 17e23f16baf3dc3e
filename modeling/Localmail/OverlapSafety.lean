/-
What the rows of the overlapping passes account for, as one transaction sees
them, and what others may do around it without taking that away.
-/
import Localmail.OverlapPass
import Localmail.SyncNoLoss

namespace Localmail

/-! ### What a view accounts for -/

namespace SyncView

/-- The message with this dedup key is labelled in the mailbox. -/
def Linked (view : SyncView) (key : DedupKey) : Prop :=
  ∃ row : MessageRow, view (.message key) = some row ∧
    (view (.label row.id)).isSome

def Failed (view : SyncView) (uid : Nat) : Prop :=
  (view (.failed uid)).isSome

def Tombstoned (view : SyncView) (uid : Nat) : Prop :=
  ∃ row : TransientFetch, view (.hold uid) = some row ∧ row.gaveUpAt.isSome

/-- The message was fetched and is kept. -/
def Stored (view : SyncView) (parse : Parser) (message : ServerMessage) :
    Prop :=
  (∃ parsed ∈ parse message.body, view.Linked parsed.dedupKey) ∨
    view.Failed message.uid

end SyncView

/-- What is committed. -/
def OverlapShared.committed (shared : OverlapShared) : SyncView :=
  shared.store.committed

/-- What a transaction that has written `own` sees. -/
def OverlapShared.seen (shared : OverlapShared) (own : Overlay SyncRow) :
    SyncView :=
  own.over shared.store.committed

/-- One message of the server is labelled, set aside as failed, given up on,
or was answered as gone. -/
def AccountedIn (parse : Parser) (shared : OverlapShared) (view : SyncView)
    (message : ServerMessage) : Prop :=
  view.Stored parse message ∨ view.Tombstoned message.uid ∨
    message.uid ∈ shared.reportedAbsent

/-- A resume point nothing is lost below, now or later. -/
structure SafeBelow (parse : Parser) (shared : OverlapShared) (view : SyncView)
    (bound : Nat) : Prop where
  le : bound ≤ shared.server.uidnext
  accounted : ∀ message ∈ shared.server.messages, message.uid < bound →
    AccountedIn parse shared view message

/-- A transaction deletes no message, label or failed row and replaces no
message row. -/
structure KeepsRows (shared : OverlapShared) (own : Overlay SyncRow) :
    Prop where
  message : ∀ key version, own (.message key) = some version →
    shared.committed (.message key) = none ∧ version ≠ none
  label : ∀ id version, own (.label id) = some version → version ≠ none
  failed : ∀ uid version, own (.failed uid) = some version → version ≠ none

/-- What a transaction has written so far.  It takes away a tombstone only
where it received the body, and writes a resume point only if it is safe;
`current` is the UID it is storing. -/
structure TxOk (parse : Parser) (shared : OverlapShared)
    (own : Overlay SyncRow) (received : List Nat) (current : Option Nat) :
    Prop where
  rows : KeepsRows shared own
  hold : ∀ uid, own (.hold uid) ≠ none → shared.committed.Tombstoned uid →
    (shared.seen own).Tombstoned uid ∨
      (uid ∈ received ∧ uid < shared.server.uidnext ∧
        (current = some uid ∨ ∀ message ∈ shared.server.messages,
          message.uid = uid → (shared.seen own).Stored parse message))
  mailbox : ∀ version, own .mailbox = some version →
    ∃ row : MailboxRow, version = some row ∧
      row.uidvalidity = some shared.server.uidvalidity ∧
      ∀ uidnext ∈ row.uidnext, SafeBelow parse shared (shared.seen own) uidnext

/-! ### Reading through an overlay -/

section Seen

variable {parse : Parser} {shared : OverlapShared} {own : Overlay SyncRow}
  {received : List Nat} {current : Option Nat}

theorem seen_of_none {key : SyncKey} (hnone : own key = none) :
    shared.seen own key = shared.committed key := by
  simp [OverlapShared.seen, OverlapShared.committed, Overlay.over, hnone]

theorem seen_of_some {key : SyncKey} {version : Option (SyncRow key)}
    (hsome : own key = some version) : shared.seen own key = version := by
  simp [OverlapShared.seen, Overlay.over, hsome]

theorem seen_own (shared : OverlapShared) (tx : Nat) :
    shared.seen (shared.store.own tx) = shared.store.view tx := by
  funext key
  exact (RowStore.view_eq_over key).symm

theorem seen_empty (shared : OverlapShared) :
    shared.seen (fun _ => none) = shared.committed := rfl

/-- A transaction that has written nothing. -/
theorem KeepsRows.idle (hnone : ∀ key, own key = none) :
    KeepsRows shared own where
  message := fun key _ hsome =>
    absurd (hnone (.message key)) (by simp [hsome])
  label := fun id _ hsome => absurd (hnone (.label id)) (by simp [hsome])
  failed := fun uid _ hsome => absurd (hnone (.failed uid)) (by simp [hsome])

theorem TxOk.idle (received : List Nat) (current : Option Nat)
    (hnone : ∀ key, own key = none) :
    TxOk parse shared own received current where
  rows := .idle hnone
  hold := fun uid hsome => absurd (hnone (.hold uid)) hsome
  mailbox := fun _ hsome => absurd (hnone .mailbox) (by simp [hsome])

/-- A committed message row is what the transaction sees. -/
theorem KeepsRows.seen_message (hrows : KeepsRows shared own)
    {key : DedupKey} {row : MessageRow}
    (hrow : shared.committed (.message key) = some row) :
    shared.seen own (.message key) = some row := by
  cases hown : own (.message key) with
  | none => exact (seen_of_none hown).trans hrow
  | some version =>
      have hnone := (hrows.message key version hown).1
      rw [hrow] at hnone
      cases hnone

theorem KeepsRows.seen_label (hrows : KeepsRows shared own) {id : Nat}
    (hrow : (shared.committed (.label id)).isSome) :
    (shared.seen own (.label id)).isSome := by
  cases hown : own (.label id) with
  | none => rwa [seen_of_none hown]
  | some version =>
      rw [seen_of_some hown]
      exact Option.isSome_iff_ne_none.mpr (hrows.label id version hown)

theorem KeepsRows.seen_failed (hrows : KeepsRows shared own) {uid : Nat}
    (hrow : (shared.committed (.failed uid)).isSome) :
    (shared.seen own (.failed uid)).isSome := by
  cases hown : own (.failed uid) with
  | none => rwa [seen_of_none hown]
  | some version =>
      rw [seen_of_some hown]
      exact Option.isSome_iff_ne_none.mpr (hrows.failed uid version hown)

/-- What is committed as stored is stored in every transaction's eyes. -/
theorem KeepsRows.seen_stored (hrows : KeepsRows shared own)
    {message : ServerMessage} (hstored : shared.committed.Stored parse message) :
    (shared.seen own).Stored parse message := by
  rcases hstored with ⟨parsed, hparsed, row, hrow, hlabel⟩ | hfailed
  · exact .inl ⟨parsed, hparsed, row, hrows.seen_message hrow,
      hrows.seen_label hlabel⟩
  · exact .inr (hrows.seen_failed hfailed)

/-- Outside the message it is storing, a transaction sees accounted for what
is committed as such. -/
theorem TxOk.seen_accounted (htx : TxOk parse shared own received current)
    {message : ServerMessage} (hmessage : message ∈ shared.server.messages)
    (hcurrent : current ≠ some message.uid)
    (haccounted : AccountedIn parse shared shared.committed message) :
    AccountedIn parse shared (shared.seen own) message := by
  rcases haccounted with hstored | htombstoned | habsent
  · exact .inl (htx.rows.seen_stored hstored)
  · cases hown : own (.hold message.uid) with
    | none =>
        obtain ⟨row, hrow, hgave⟩ := htombstoned
        exact .inr (.inl ⟨row, (seen_of_none hown).trans hrow, hgave⟩)
    | some version =>
        rcases htx.hold message.uid (by simp [hown]) htombstoned with
          hseen | ⟨-, -, hnow | hstored⟩
        · exact .inr (.inl hseen)
        · exact absurd hnow hcurrent
        · exact .inl (hstored message hmessage rfl)
  · exact .inr (.inr habsent)

/-- A committed tombstone a transaction no longer sees gave way to its
message. -/
theorem TxOk.seen_tombstone (htx : TxOk parse shared own received none)
    {uid : Nat} (htombstoned : shared.committed.Tombstoned uid) :
    (shared.seen own).Tombstoned uid ∨
      (uid ∈ received ∧ uid < shared.server.uidnext ∧
        ∀ message ∈ shared.server.messages, message.uid = uid →
          (shared.seen own).Stored parse message) := by
  cases hown : own (.hold uid) with
  | none =>
      obtain ⟨row, hrow, hgave⟩ := htombstoned
      exact .inl ⟨row, (seen_of_none hown).trans hrow, hgave⟩
  | some version =>
      rcases htx.hold uid (by simp [hown]) htombstoned with
        hseen | ⟨hreceived, hlt, hnow | hstored⟩
      · exact .inl hseen
      · cases hnow
      · exact .inr ⟨hreceived, hlt, hstored⟩

theorem SafeBelow.mono {view : SyncView} {bound lower : Nat}
    (hsafe : SafeBelow parse shared view bound) (hle : lower ≤ bound) :
    SafeBelow parse shared view lower where
  le := Nat.le_trans hle hsafe.le
  accounted := fun message hmessage hlt =>
    hsafe.accounted message hmessage (Nat.lt_of_lt_of_le hlt hle)

end Seen

/-! ### What happens around a transaction -/

/-- A step of others as transaction `tx` finds it: its rows and locks are
untouched, and whatever was committed as accounted for still is. -/
structure Around (parse : Parser) (tx : Nat) (before after : OverlapShared) :
    Prop where
  own : after.store.own tx = before.store.own tx
  locked : ∀ key, before.store.own tx key ≠ none →
    after.committed key = before.committed key
  evolves : before.server.Evolves after.server
  uidvalidity : after.server.uidvalidity = before.server.uidvalidity
  reported : ∀ uid ∈ before.reportedAbsent, uid ∈ after.reportedAbsent
  message : ∀ key row, before.committed (.message key) = some row →
    after.committed (.message key) = some row
  label : ∀ id, (before.committed (.label id)).isSome →
    (after.committed (.label id)).isSome
  failed : ∀ uid, (before.committed (.failed uid)).isSome →
    (after.committed (.failed uid)).isSome
  hold : ∀ uid, before.committed.Tombstoned uid →
    after.committed.Tombstoned uid ∨
      (uid < before.server.uidnext ∧ ∀ message ∈ before.server.messages,
        message.uid = uid → after.committed.Stored parse message)

section Around

variable {parse : Parser} {tx : Nat} {before after : OverlapShared}
  {own : Overlay SyncRow} {received : List Nat} {current : Option Nat}

theorem Around.old_message (haround : Around parse tx before after)
    {message : ServerMessage} (hmessage : message ∈ after.server.messages)
    (hlt : message.uid < before.server.uidnext) :
    message ∈ before.server.messages :=
  haround.evolves.message_of_lt haround.uidvalidity hmessage hlt

/-- Through rows `tx` holds, a message row stays what it was. -/
theorem Around.seen_message (haround : Around parse tx before after)
    {key : DedupKey} {row : MessageRow}
    (hrow : before.seen own (.message key) = some row) :
    after.seen own (.message key) = some row := by
  cases hown : own (.message key) with
  | none =>
      rw [seen_of_none hown] at hrow ⊢
      exact haround.message key row hrow
  | some version =>
      rw [seen_of_some hown] at hrow ⊢
      exact hrow

theorem Around.seen_label (haround : Around parse tx before after)
    {id : Nat} (hrow : (before.seen own (.label id)).isSome) :
    (after.seen own (.label id)).isSome := by
  cases hown : own (.label id) with
  | none =>
      rw [seen_of_none hown] at hrow ⊢
      exact haround.label id hrow
  | some version =>
      rw [seen_of_some hown] at hrow ⊢
      exact hrow

theorem Around.seen_failed (haround : Around parse tx before after)
    {uid : Nat} (hrow : (before.seen own (.failed uid)).isSome) :
    (after.seen own (.failed uid)).isSome := by
  cases hown : own (.failed uid) with
  | none =>
      rw [seen_of_none hown] at hrow ⊢
      exact haround.failed uid hrow
  | some version =>
      rw [seen_of_some hown] at hrow ⊢
      exact hrow

theorem Around.seen_linked (haround : Around parse tx before after)
    {key : DedupKey} (hlinked : (before.seen own).Linked key) :
    (after.seen own).Linked key := by
  obtain ⟨row, hrow, hlabel⟩ := hlinked
  exact ⟨row, haround.seen_message hrow, haround.seen_label hlabel⟩

theorem Around.seen_stored (haround : Around parse tx before after)
    {message : ServerMessage} (hstored : (before.seen own).Stored parse message) :
    (after.seen own).Stored parse message := by
  rcases hstored with ⟨parsed, hparsed, hlinked⟩ | hfailed
  · exact .inl ⟨parsed, hparsed, haround.seen_linked hlinked⟩
  · exact .inr (haround.seen_failed hfailed)

theorem KeepsRows.around (hrows : KeepsRows before own)
    (haround : Around parse tx before after)
    (hlocked : ∀ key, own key ≠ none → before.store.own tx key ≠ none) :
    KeepsRows after own where
  message := by
    intro key version hown
    obtain ⟨hnone, hversion⟩ := hrows.message key version hown
    refine ⟨?_, hversion⟩
    rw [← hnone]
    exact haround.locked _ (hlocked _ (by simp [hown]))
  label := hrows.label
  failed := hrows.failed

/-- A tombstone `tx` sees stays one, unless its message was stored. -/
theorem Around.seen_tombstoned (haround : Around parse tx before after)
    (hrows : KeepsRows after own) {uid : Nat}
    (htombstoned : (before.seen own).Tombstoned uid) :
    (after.seen own).Tombstoned uid ∨
      (uid < before.server.uidnext ∧ ∀ message ∈ before.server.messages,
        message.uid = uid → (after.seen own).Stored parse message) := by
  obtain ⟨row, hrow, hgave⟩ := htombstoned
  cases hown : own (.hold uid) with
  | none =>
      rw [seen_of_none hown] at hrow
      rcases haround.hold uid ⟨row, hrow, hgave⟩ with
        ⟨kept, hkept, hset⟩ | ⟨hlt, hstored⟩
      · exact .inl ⟨kept, (seen_of_none hown).trans hkept, hset⟩
      · exact .inr ⟨hlt, fun message hmessage huid =>
          hrows.seen_stored (hstored message hmessage huid)⟩
  | some version =>
      rw [seen_of_some hown] at hrow
      exact .inl ⟨row, (seen_of_some hown).trans hrow, hgave⟩

theorem Around.seen_accounted (haround : Around parse tx before after)
    (hrows : KeepsRows after own) {message : ServerMessage}
    (hmessage : message ∈ before.server.messages)
    (haccounted : AccountedIn parse before (before.seen own) message) :
    AccountedIn parse after (after.seen own) message := by
  rcases haccounted with hstored | htombstoned | habsent
  · exact .inl (haround.seen_stored hstored)
  · rcases haround.seen_tombstoned hrows htombstoned with hkept | ⟨-, hstored⟩
    · exact .inr (.inl hkept)
    · exact .inl (hstored message hmessage rfl)
  · exact .inr (.inr (haround.reported _ habsent))

theorem SafeBelow.around {bound : Nat}
    (hsafe : SafeBelow parse before (before.seen own) bound)
    (haround : Around parse tx before after) (hrows : KeepsRows after own) :
    SafeBelow parse after (after.seen own) bound where
  le := Nat.le_trans hsafe.le (haround.evolves.uidnext_le haround.uidvalidity)
  accounted := by
    intro message hmessage hlt
    have hold := haround.old_message hmessage (Nat.lt_of_lt_of_le hlt hsafe.le)
    exact haround.seen_accounted hrows hold (hsafe.accounted message hold hlt)

/-- A committed resume point that is safe stays safe. -/
theorem SafeBelow.around_committed {bound : Nat}
    (hsafe : SafeBelow parse before before.committed bound)
    (haround : Around parse tx before after) :
    SafeBelow parse after after.committed bound := by
  rw [← seen_empty] at hsafe ⊢
  exact hsafe.around haround (.idle fun _ => rfl)

theorem TxOk.around (htx : TxOk parse before own received current)
    (haround : Around parse tx before after)
    (hlocked : ∀ key, own key ≠ none → before.store.own tx key ≠ none) :
    TxOk parse after own received current where
  rows := htx.rows.around haround hlocked
  hold := by
    intro uid hown htombstoned
    have hsame := haround.locked _ (hlocked _ hown)
    obtain ⟨row, hrow, hgave⟩ := htombstoned
    rw [hsame] at hrow
    have hbefore : (before.seen own).Tombstoned uid →
        (after.seen own).Tombstoned uid := by
      rintro ⟨kept, hkept, hset⟩
      refine ⟨kept, ?_, hset⟩
      cases hversion : own (.hold uid) with
      | none => exact absurd hversion hown
      | some version =>
          rw [seen_of_some hversion] at hkept ⊢
          exact hkept
    rcases htx.hold uid hown ⟨row, hrow, hgave⟩ with
      hseen | ⟨hreceived, hlt, hnow | hstored⟩
    · exact .inl (hbefore hseen)
    · exact .inr ⟨hreceived, Nat.lt_of_lt_of_le hlt
        (haround.evolves.uidnext_le haround.uidvalidity), .inl hnow⟩
    · refine .inr ⟨hreceived, Nat.lt_of_lt_of_le hlt
        (haround.evolves.uidnext_le haround.uidvalidity), .inr ?_⟩
      intro message hmessage huid
      have hold := haround.old_message hmessage (huid ▸ hlt)
      exact haround.seen_stored (hstored message hold huid)
  mailbox := by
    intro version hown
    obtain ⟨row, hversion, hvalidity, hsafe⟩ := htx.mailbox version hown
    refine ⟨row, hversion, hvalidity.trans
      (congrArg some haround.uidvalidity.symm), ?_⟩
    intro uidnext hrow
    exact (hsafe uidnext hrow).around haround (htx.rows.around haround hlocked)

end Around

end Localmail
