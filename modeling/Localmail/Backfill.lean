/-
`backfill_internal_date`: the mailboxes of an account are read one after
another, each committed before the next, and every message gets the earliest
date one of them reports.  Later mailboxes read rows the pass itself has dated.
-/
import Mathlib.Data.Finset.Card
import Mathlib.Logic.Function.Basic
import Localmail.RunningLeast
import Localmail.SyncPass

namespace Localmail

namespace Backfill

universe u

/-! ### The account and the server -/

structure MailboxRow where
  id : Nat
  name : String
  uidvalidity : Option Nat
deriving Repr, DecidableEq

structure LabelRow where
  messageId : Nat
  mailboxId : Nat
  uid : Nat
deriving Repr, DecidableEq

/-- The mailboxes of an account and its labels, a UID once in each mailbox. -/
structure Account where
  mailboxes : List MailboxRow
  labels : List LabelRow
  uid_unique : ∀ left ∈ labels, ∀ right ∈ labels,
    left.mailboxId = right.mailboxId → left.uid = right.uid → left = right

/-- A UID that is not returned, one returned without a date that has a zone,
one with. -/
inductive DateAnswer (τ : Type u) where
  | missing
  | unusable
  | dated (when : τ)

/-- The answers of the server: to a SELECT its UIDVALIDITY, if it is not
refused, and to a FETCH by UID. -/
structure Server (τ : Type u) where
  selectFolder : String → Option (Option Nat)
  internalDate : String → Nat → DateAnswer τ

def uidvalidityChanged : Option Nat → Option Nat → Bool
  | some server, some expected => server ≠ expected
  | _, _ => false

section Model

variable {τ : Type u}

def Server.readable (server : Server τ) (mailbox : MailboxRow) : Bool :=
  match server.selectFolder mailbox.name with
  | none => false
  | some serverUidvalidity =>
      !uidvalidityChanged serverUidvalidity mailbox.uidvalidity

/-- One FETCH of INTERNALDATE, with what `aware_internal_date` makes of it. -/
def Server.fetch (server : Server τ) (name : String) (chunk : List Nat) :
    List (Nat × Option τ) :=
  chunk.filterMap fun uid =>
    match server.internalDate name uid with
    | .missing => none
    | .unusable => some (uid, none)
    | .dated when => some (uid, some when)

/-! ### The pass -/

structure BackfillResult where
  scanned : Nat
  updated : Nat
  missing : Nat
  unusable : Nat
  skippedMailboxes : List String
deriving Repr, DecidableEq

/-- `messages.internal_date` as committed, and the variables of the pass. -/
structure Pass (τ : Type u) where
  stored : Nat → Option τ
  scanned : Finset Nat
  answered : Finset Nat
  skipped : List String
  original : AList fun _ : Nat => Option τ
  earliest : AList fun _ : Nat => τ

def Pass.start (stored : Nat → Option τ) : Pass τ :=
  ⟨stored, ∅, ∅, [], ∅, ∅⟩

variable [LinearOrder τ]

/-- The variables the answers of one mailbox change. -/
structure Reading (τ : Type u) where
  answered : Finset Nat
  earliest : AList fun _ : Nat => τ
  lowered : List Nat

def Reading.item (msgIdByUid : Nat → Option Nat) (reading : Reading τ)
    (item : Nat × Option τ) : Reading τ :=
  match msgIdByUid item.1 with
  | none => reading
  | some mid =>
      let answered := insert mid reading.answered
      match item.2 with
      | none => { reading with answered }
      | some when =>
          if isEarlier when (reading.earliest.lookup mid) then
            ⟨answered, reading.earliest.insert mid when,
              reading.lowered.insert mid⟩
          else { reading with answered }

/-- The `UPDATE`, of a row that holds another date. -/
def writeDate (stored : Nat → Option τ) (mid : Nat) (date : Option τ) :
    Nat → Option τ :=
  if stored mid = date then stored else Function.update stored mid date

/-- The rows of a mailbox that are asked about. -/
def candidates (refetch : Bool) (labels : List LabelRow) (pass : Pass τ)
    (mailbox : MailboxRow) : List LabelRow :=
  labels.filter fun label =>
    label.mailboxId = mailbox.id &&
      (refetch || (pass.stored label.messageId).isNone ||
        label.messageId ∈ pass.original)

/-- `msg_ids_by_uid.get`. -/
def msgIdByUid (rows : List LabelRow) (uid : Nat) : Option Nat :=
  (rows.find? fun label => label.uid = uid).map LabelRow.messageId

def fetched (server : Server τ) (name : String) (rows : List LabelRow) :
    List (Nat × Option τ) :=
  (batches batchSize (rows.map LabelRow.uid).mergeSort).flatMap
    (server.fetch name)

def readMailbox (server : Server τ) (pass : Pass τ) (mailbox : MailboxRow)
    (rows : List LabelRow) : Pass τ :=
  let reading := (fetched server mailbox.name rows).foldl
    (Reading.item (msgIdByUid rows)) ⟨pass.answered, pass.earliest, []⟩
  { stored := reading.lowered.foldl (fun stored mid =>
      writeDate stored mid (reading.earliest.lookup mid)) pass.stored
    scanned := pass.scanned ∪ (rows.map LabelRow.messageId).toFinset
    answered := reading.answered
    skipped := pass.skipped
    original := rows.foldl (fun original label =>
      setDefault original label.messageId (pass.stored label.messageId))
      pass.original
    earliest := reading.earliest }

def visit (server : Server τ) (refetch : Bool) (labels : List LabelRow)
    (pass : Pass τ) (mailbox : MailboxRow) : Pass τ :=
  let rows := candidates refetch labels pass mailbox
  if rows = [] then pass
  else if server.readable mailbox then readMailbox server pass mailbox rows
  else { pass with skipped := pass.skipped ++ [mailbox.name] }

def Pass.result (pass : Pass τ) : BackfillResult where
  scanned := pass.scanned.card
  updated := pass.earliest.entries.countP fun entry =>
    pass.original.lookup entry.1 ≠ some (some entry.2)
  missing := (pass.scanned \ pass.answered).card
  unusable := (pass.answered \ pass.earliest.keys.toFinset).card
  skippedMailboxes := pass.skipped

/-- The rows a pass leaves and its result, with the mailboxes in the order the
first `SELECT` returns them. -/
def backfillInternalDate (server : Server τ) (refetch : Bool)
    (labels : List LabelRow) (mailboxes : List MailboxRow)
    (stored : Nat → Option τ) : (Nat → Option τ) × BackfillResult :=
  let pass := mailboxes.foldl (visit server refetch labels) (.start stored)
  (pass.stored, pass.result)

/-! ### One mailbox -/

section OneMailbox

variable {msgIds : Nat → Option Nat} {items : List (Nat × Option τ)}
  {reading : Reading τ} {answered : Finset Nat}
  {earliest : AList fun _ : Nat => τ}

/-- An answer for the message. -/
def Answer (msgIds : Nat → Option Nat) (items : List (Nat × Option τ))
    (mid : Nat) (date : Option τ) : Prop :=
  ∃ uid, (uid, date) ∈ items ∧ msgIds uid = some mid

/-- What the answers so far have changed. -/
structure ReadSoFar (msgIds : Nat → Option Nat) (answered : Finset Nat)
    (earliest : AList fun _ : Nat => τ) (items : List (Nat × Option τ))
    (reading : Reading τ) : Prop where
  answered_iff : ∀ mid, mid ∈ reading.answered ↔
    mid ∈ answered ∨ ∃ date, Answer msgIds items mid date
  least : ∀ mid dates, KeepsLeast dates (earliest.lookup mid) →
    KeepsLeast (dates ∪ { when | Answer msgIds items mid (some when) })
      (reading.earliest.lookup mid)
  lowered : ∀ mid ∈ reading.lowered, mid ∈ reading.earliest
  kept : ∀ mid, mid ∉ reading.lowered →
    reading.earliest.lookup mid = earliest.lookup mid

omit [LinearOrder τ] in
theorem answer_append_iff (item : Nat × Option τ) (mid : Nat)
    (date : Option τ) :
    Answer msgIds (items ++ [item]) mid date ↔
      Answer msgIds items mid date ∨
        item.2 = date ∧ msgIds item.1 = some mid := by
  unfold Answer
  constructor
  · rintro ⟨uid, hmem, hmid⟩
    rcases List.mem_append.mp hmem with hold | hnew
    · exact .inl ⟨uid, hold, hmid⟩
    · obtain rfl := List.mem_singleton.mp hnew
      exact .inr ⟨rfl, hmid⟩
  · rintro (⟨uid, hold, hmid⟩ | ⟨rfl, hmid⟩)
    · exact ⟨uid, List.mem_append_left _ hold, hmid⟩
    · exact ⟨item.1, List.mem_append_right _ (List.mem_singleton.mpr rfl), hmid⟩

theorem readSoFar_nil :
    ReadSoFar msgIds answered earliest [] ⟨answered, earliest, []⟩ where
  answered_iff := by simp [Answer]
  least := by
    intro mid dates hkept
    simpa [Answer] using hkept
  lowered := nofun
  kept := fun _ _ => rfl

omit [LinearOrder τ] in
theorem dates_append (item : Nat × Option τ) (mid : Nat) :
    { when | Answer msgIds (items ++ [item]) mid (some when) } =
      { when | Answer msgIds items mid (some when) } ∪
        { when | item.2 = some when ∧ msgIds item.1 = some mid } := by
  ext when
  exact answer_append_iff item mid (some when)

/-- Where the item dates no message, or another one. -/
theorem ReadSoFar.least_of_undated
    (hread : ReadSoFar msgIds answered earliest items reading)
    {item : Nat × Option τ} {mid : Nat}
    (hother : ∀ when, ¬ (item.2 = some when ∧ msgIds item.1 = some mid))
    {dates : Set τ} (hkept : KeepsLeast dates (earliest.lookup mid)) :
    KeepsLeast (dates ∪ { when | Answer msgIds (items ++ [item]) mid (some when) })
      (reading.earliest.lookup mid) := by
  apply (hread.least mid dates hkept).of_eq
  rw [dates_append]
  have hempty : { when | item.2 = some when ∧ msgIds item.1 = some mid } = ∅ :=
    Set.eq_empty_of_forall_notMem hother
  rw [hempty, Set.union_empty]

omit [LinearOrder τ] in
theorem mem_insert_answered_iff {found uid : Nat} (hmid : msgIds uid = some found)
    {seen : Finset Nat}
    (hseen : ∀ mid, mid ∈ seen ↔
      mid ∈ answered ∨ ∃ date, Answer msgIds items mid date)
    (date : Option τ) (mid : Nat) :
    mid ∈ insert found seen ↔
      mid ∈ answered ∨
        ∃ other, Answer msgIds (items ++ [(uid, date)]) mid other := by
  simp only [Finset.mem_insert, hseen, answer_append_iff, hmid,
    Option.some.injEq, exists_or, exists_and_right, exists_eq', true_and]
  tauto

theorem ReadSoFar.item_dated
    (hread : ReadSoFar msgIds answered earliest items reading)
    {found uid : Nat} (hmid : msgIds uid = some found) (when : τ) :
    ReadSoFar msgIds answered earliest (items ++ [(uid, some when)])
      (reading.item msgIds (uid, some when)) := by
  have hanswered := mem_insert_answered_iff hmid hread.answered_iff (some when)
  have hleast : ∀ dates, KeepsLeast dates (earliest.lookup found) →
      KeepsLeast (dates ∪ { date | Answer msgIds
        (items ++ [(uid, some when)]) found (some date) })
        (if isEarlier when (reading.earliest.lookup found) then some when
          else reading.earliest.lookup found) := by
    intro dates hkept
    apply ((hread.least found dates hkept).insert when).of_eq
    ext date
    simp only [dates_append, hmid, Set.mem_insert_iff, Set.mem_union,
      Set.mem_ofPred_eq, Option.some.injEq, and_true]
    tauto
  have hother : ∀ mid, mid ≠ found → ∀ dates,
      KeepsLeast dates (earliest.lookup mid) →
      KeepsLeast (dates ∪ { date | Answer msgIds
        (items ++ [(uid, some when)]) mid (some date) })
        (reading.earliest.lookup mid) := by
    intro mid hne dates hkept
    apply hread.least_of_undated _ hkept
    rintro date ⟨-, hsame⟩
    exact hne (Option.some.inj (hsame.symm.trans hmid))
  simp only [Reading.item, hmid]
  split
  · rename_i hearlier
    refine ⟨hanswered, ?_, ?_, ?_⟩
    · intro mid dates hkept
      by_cases hsame : mid = found
      · subst hsame
        have hlowered := hleast dates hkept
        rw [if_pos hearlier] at hlowered
        rw [AList.lookup_insert]
        exact hlowered
      · rw [AList.lookup_insert_ne hsame]
        exact hother mid hsame dates hkept
    · intro mid hlowered
      rw [AList.mem_insert]
      exact (List.mem_insert_iff.mp hlowered).imp id (hread.lowered mid)
    · intro mid hlowered
      rw [List.mem_insert_iff, not_or] at hlowered
      rw [AList.lookup_insert_ne hlowered.1]
      exact hread.kept mid hlowered.2
  · rename_i hlater
    refine ⟨hanswered, ?_, hread.lowered, hread.kept⟩
    intro mid dates hkept
    by_cases hsame : mid = found
    · subst hsame
      have hkeep := hleast dates hkept
      rw [if_neg hlater] at hkeep
      exact hkeep
    · exact hother mid hsame dates hkept

theorem ReadSoFar.item
    (hread : ReadSoFar msgIds answered earliest items reading)
    (item : Nat × Option τ) :
    ReadSoFar msgIds answered earliest (items ++ [item])
      (reading.item msgIds item) := by
  obtain ⟨uid, date⟩ := item
  cases hmid : msgIds uid with
  | none =>
      simp only [Reading.item, hmid]
      refine ⟨?_, ?_, hread.lowered, hread.kept⟩
      · intro mid
        rw [hread.answered_iff]
        simp [answer_append_iff, hmid]
      · intro mid dates hkept
        exact hread.least_of_undated (by simp [hmid]) hkept
  | some found =>
      cases date with
      | none =>
          simp only [Reading.item, hmid]
          refine ⟨mem_insert_answered_iff hmid hread.answered_iff none, ?_,
            hread.lowered, hread.kept⟩
          intro mid dates hkept
          exact hread.least_of_undated (by simp) hkept
      | some when => exact hread.item_dated hmid when

theorem readSoFar_foldl (msgIds : Nat → Option Nat) (answered : Finset Nat)
    (earliest : AList fun _ : Nat => τ) (items : List (Nat × Option τ)) :
    ReadSoFar msgIds answered earliest items
      (items.foldl (Reading.item msgIds) ⟨answered, earliest, []⟩) := by
  induction items using List.reverseRecOn with
  | nil => exact readSoFar_nil
  | append_singleton items item ih =>
      rw [List.foldl_append]
      exact ih.item item

end OneMailbox

/-! ### The rows of one mailbox -/

section Rows

variable {server : Server τ} {name : String} {rows : List LabelRow}

/-- How a FETCH gives the date it is an answer of. -/
def answerOf : Option τ → DateAnswer τ
  | none => .unusable
  | some when => .dated when

omit [LinearOrder τ] in
theorem mem_fetch_iff {chunk : List Nat} {uid : Nat} {date : Option τ} :
    (uid, date) ∈ server.fetch name chunk ↔
      uid ∈ chunk ∧ server.internalDate name uid = answerOf date := by
  simp only [Server.fetch, List.mem_filterMap]
  constructor
  · rintro ⟨asked, hasked, hanswer⟩
    cases hdate : server.internalDate name asked with
    | missing =>
        rw [hdate] at hanswer
        cases hanswer
    | unusable =>
        rw [hdate] at hanswer
        cases hanswer
        exact ⟨hasked, hdate⟩
    | dated when =>
        rw [hdate] at hanswer
        cases hanswer
        exact ⟨hasked, hdate⟩
  · rintro ⟨hasked, hdate⟩
    refine ⟨uid, hasked, ?_⟩
    rw [hdate]
    cases date <;> rfl

omit [LinearOrder τ] in
theorem mem_fetched_iff {uid : Nat} {date : Option τ} :
    (uid, date) ∈ fetched server name rows ↔
      (∃ label ∈ rows, label.uid = uid) ∧
        server.internalDate name uid = answerOf date := by
  have hbatched : uid ∈ (batches batchSize
      (rows.map LabelRow.uid).mergeSort).flatten ↔
        ∃ label ∈ rows, label.uid = uid := by
    rw [batches_flatten (by decide), List.mem_mergeSort, List.mem_map]
  simp only [fetched, List.mem_flatMap, mem_fetch_iff]
  rw [← hbatched, List.mem_flatten]
  constructor
  · rintro ⟨chunk, hchunk, huid, hdate⟩
    exact ⟨⟨chunk, hchunk, huid⟩, hdate⟩
  · rintro ⟨⟨chunk, hchunk, huid⟩, hdate⟩
    exact ⟨chunk, hchunk, huid, hdate⟩

/-- No two rows share a UID. -/
def UidsDiffer (rows : List LabelRow) : Prop :=
  ∀ left ∈ rows, ∀ right ∈ rows, left.uid = right.uid → left = right

theorem msgIdByUid_eq_some_iff (hdiffer : UidsDiffer rows) {uid mid : Nat} :
    msgIdByUid rows uid = some mid ↔
      ∃ label ∈ rows, label.uid = uid ∧ label.messageId = mid := by
  simp only [msgIdByUid, Option.map_eq_some_iff]
  constructor
  · rintro ⟨label, hfound, hmid⟩
    exact ⟨label, List.mem_of_find?_eq_some hfound,
      by simpa using List.find?_some hfound, hmid⟩
  · rintro ⟨label, hlabel, huid, hmid⟩
    have hsome : (rows.find? fun label => label.uid = uid).isSome = true :=
      List.find?_isSome.mpr ⟨label, hlabel, by simpa using huid⟩
    obtain ⟨found, hfound⟩ := Option.isSome_iff_exists.mp hsome
    have hfoundUid : found.uid = uid := by simpa using List.find?_some hfound
    obtain rfl := hdiffer found (List.mem_of_find?_eq_some hfound) label hlabel
      (hfoundUid.trans huid.symm)
    exact ⟨found, hfound, hmid⟩

omit [LinearOrder τ] in
theorem answer_fetched_iff (hdiffer : UidsDiffer rows) {mid : Nat}
    {date : Option τ} :
    Answer (msgIdByUid rows) (fetched server name rows) mid date ↔
      ∃ label ∈ rows, label.messageId = mid ∧
        server.internalDate name label.uid = answerOf date := by
  simp only [Answer, mem_fetched_iff, msgIdByUid_eq_some_iff hdiffer]
  constructor
  · rintro ⟨uid, ⟨-, hdate⟩, label, hlabel, rfl, hmid⟩
    exact ⟨label, hlabel, hmid, hdate⟩
  · rintro ⟨label, hlabel, hmid, hdate⟩
    exact ⟨label.uid, ⟨⟨label, hlabel, rfl⟩, hdate⟩, label, hlabel, rfl, hmid⟩

theorem writeDate_apply (stored : Nat → Option τ) (mid wanted : Nat)
    (date : Option τ) :
    writeDate stored mid date wanted =
      if wanted = mid then date else stored wanted := by
  unfold writeDate
  split
  · rename_i hsame
    split
    · rename_i hwanted
      rw [hwanted, hsame]
    · rfl
  · rw [Function.update_apply]

theorem foldl_writeDate (dates : Nat → Option τ) (mids : List Nat)
    (stored : Nat → Option τ) (wanted : Nat) :
    (mids.foldl (fun stored mid => writeDate stored mid (dates mid)) stored)
        wanted =
      if wanted ∈ mids then dates wanted else stored wanted := by
  induction mids generalizing stored with
  | nil => rfl
  | cons mid rest ih =>
      rw [List.foldl_cons, ih, writeDate_apply]
      by_cases hrest : wanted ∈ rest
      · rw [if_pos hrest, if_pos (List.mem_cons_of_mem mid hrest)]
      · by_cases hsame : wanted = mid
        · subst hsame
          simp
        · simp [hrest, hsame]

omit [LinearOrder τ] in
theorem lookup_foldl_setDefault (values : Nat → Option τ)
    (rows : List LabelRow) (dict : AList fun _ : Nat => Option τ)
    (wanted : Nat) :
    (rows.foldl (fun dict label =>
        setDefault dict label.messageId (values label.messageId)) dict).lookup
        wanted =
      (dict.lookup wanted).or
        (if wanted ∈ rows.map LabelRow.messageId then some (values wanted)
        else none) := by
  induction rows generalizing dict with
  | nil => simp
  | cons label rest ih =>
      rw [List.foldl_cons, ih, lookup_setDefault]
      by_cases hsame : wanted = label.messageId
      · subst hsame
        cases dict.lookup label.messageId <;> simp
      · simp [hsame]

end Rows

end Model

end Backfill

end Localmail
