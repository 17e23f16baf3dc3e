/-
A backfill pass over all mailboxes of an account.  What a pass knows depends on
the rows it has read and on no order of them: a row the pass has dated itself
stays among those it asks about.
-/
import Mathlib.Data.Finset.Card
import Mathlib.Data.Set.Card
import Localmail.Backfill

namespace Localmail

namespace Backfill

universe u

section Model

variable {τ : Type u} [LinearOrder τ]

/-! ### The whole pass -/

section Whole

/-- Unless it refetches, a pass leaves a message alone that has a date. -/
def eligible (refetch : Bool) (before : Nat → Option τ) (mid : Nat) : Bool :=
  refetch || (before mid).isNone

/-- The rows of a mailbox the pass is about. -/
def asked (refetch : Bool) (labels : List LabelRow) (before : Nat → Option τ)
    (mailbox : MailboxRow) : List LabelRow :=
  labels.filter fun label =>
    label.mailboxId = mailbox.id && eligible refetch before label.messageId

/-- Those of them that are read, with the mailbox they are read in. -/
def readRows (server : Server τ) (refetch : Bool) (labels : List LabelRow)
    (before : Nat → Option τ) (mailbox : MailboxRow) :
    List (MailboxRow × LabelRow) :=
  if server.readable mailbox then
    (asked refetch labels before mailbox).map (mailbox, ·)
  else []

def rowAnswer (server : Server τ) (row : MailboxRow × LabelRow) :
    DateAnswer τ :=
  server.internalDate row.1.name row.2.uid

/-- The dates the rows of a message are given. -/
def datesOf (server : Server τ) (read : List (MailboxRow × LabelRow))
    (mid : Nat) : Set τ :=
  { when | ∃ row ∈ read, row.2.messageId = mid ∧
    rowAnswer server row = .dated when }

/-- What a pass knows and has stored once it has read these rows; `before` are
the dates it started from. -/
structure PassInv (server : Server τ) (refetch : Bool)
    (before : Nat → Option τ) (read : List (MailboxRow × LabelRow))
    (pass : Pass τ) : Prop where
  eligible_of_mem : ∀ row ∈ read, eligible refetch before row.2.messageId = true
  stored : ∀ mid, pass.stored mid = (pass.earliest.lookup mid).or (before mid)
  original : ∀ mid, pass.original.lookup mid =
    if mid ∈ pass.scanned then some (before mid) else none
  scanned_iff : ∀ mid, mid ∈ pass.scanned ↔ ∃ row ∈ read, row.2.messageId = mid
  answered_iff : ∀ mid, mid ∈ pass.answered ↔
    ∃ row ∈ read, row.2.messageId = mid ∧ rowAnswer server row ≠ .missing
  least : ∀ mid, KeepsLeast (datesOf server read mid) (pass.earliest.lookup mid)

variable {server : Server τ} {refetch : Bool} {labels : List LabelRow}
  {before : Nat → Option τ} {read : List (MailboxRow × LabelRow)}
  {pass : Pass τ}

theorem passInv_start : PassInv server refetch before [] (.start before) where
  eligible_of_mem := nofun
  stored := fun _ => rfl
  original := fun _ => rfl
  scanned_iff := by simp [Pass.start]
  answered_iff := by simp [Pass.start]
  least := by
    intro mid
    simp [Pass.start, KeepsLeast, datesOf]

theorem PassInv.scanned_of_dated (hinv : PassInv server refetch before read pass)
    {mid : Nat} (hdated : (pass.earliest.lookup mid).isSome = true) :
    mid ∈ pass.scanned := by
  obtain ⟨when, row, hrow, hmid, -⟩ := (hinv.least mid).isSome_iff.mp hdated
  exact (hinv.scanned_iff mid).mpr ⟨row, hrow, hmid⟩

theorem PassInv.mem_original_iff
    (hinv : PassInv server refetch before read pass) (mid : Nat) :
    mid ∈ pass.original ↔ mid ∈ pass.scanned := by
  rw [← AList.lookup_isSome, hinv.original]
  split <;> simp_all

/-- What the running state selects is what the state at the start does. -/
theorem PassInv.candidates_eq (hinv : PassInv server refetch before read pass)
    (mailbox : MailboxRow) :
    candidates refetch labels pass mailbox =
      asked refetch labels before mailbox := by
  apply List.filter_congr
  intro label hlabel
  congr 1
  rw [Bool.eq_iff_iff]
  simp only [eligible, Bool.or_eq_true, decide_eq_true_eq, hinv.mem_original_iff,
    hinv.stored, Option.isNone_iff_eq_none, Option.or_eq_none_iff]
  constructor
  · rintro ((hrefetch | ⟨-, hnull⟩) | hscanned)
    · exact .inl hrefetch
    · exact .inr hnull
    · obtain ⟨row, hrow, hmid⟩ := (hinv.scanned_iff _).mp hscanned
      simpa [eligible, hmid] using hinv.eligible_of_mem row hrow
  · rintro (hrefetch | hnull)
    · exact .inl (.inl hrefetch)
    · -- a message dated in this pass has been scanned
      by_cases hdated : (pass.earliest.lookup label.messageId).isSome = true
      · exact .inr (hinv.scanned_of_dated hdated)
      · exact .inl (.inr ⟨by simpa using hdated, hnull⟩)

omit [LinearOrder τ] in
theorem exists_answerOf_iff (answer : DateAnswer τ) :
    (∃ date, answer = answerOf date) ↔ answer ≠ .missing := by
  cases answer with
  | missing => exact iff_of_false (by rintro ⟨_ | _, ⟨⟩⟩) (fun h => h rfl)
  | unusable => exact iff_of_true ⟨none, rfl⟩ nofun
  | dated when => exact iff_of_true ⟨some when, rfl⟩ nofun

theorem PassInv.stored_of_not_scanned
    (hinv : PassInv server refetch before read pass) {mid : Nat}
    (hscanned : mid ∉ pass.scanned) : pass.stored mid = before mid := by
  have hundated : pass.earliest.lookup mid = none := by
    by_contra hdated
    exact hscanned (hinv.scanned_of_dated (Option.isSome_iff_ne_none.mpr hdated))
  rw [hinv.stored, hundated]
  rfl

omit [LinearOrder τ] in
theorem datesOf_append (mailbox : MailboxRow) (rows : List LabelRow)
    (mid : Nat) :
    datesOf server (read ++ rows.map (mailbox, ·)) mid =
      datesOf server read mid ∪
        { when | ∃ label ∈ rows, label.messageId = mid ∧
          server.internalDate mailbox.name label.uid = .dated when } := by
  ext when
  simp [datesOf, rowAnswer, or_and_right, exists_or]

theorem PassInv.readMailbox (hinv : PassInv server refetch before read pass)
    (mailbox : MailboxRow) {rows : List LabelRow} (hdiffer : UidsDiffer rows)
    (heligible : ∀ label ∈ rows,
      eligible refetch before label.messageId = true) :
    PassInv server refetch before (read ++ rows.map (mailbox, ·))
      (readMailbox server pass mailbox rows) := by
  have hread := readSoFar_foldl (msgIdByUid rows) pass.answered pass.earliest
    (fetched server mailbox.name rows)
  have hnew : ∀ mid, mid ∈ rows.map LabelRow.messageId ↔
      ∃ row ∈ rows.map (mailbox, ·), row.2.messageId = mid := by
    simp
  refine ⟨?_, ?_, ?_, ?_, ?_, ?_⟩
  · intro row hrow
    rcases List.mem_append.mp hrow with hold | hadded
    · exact hinv.eligible_of_mem row hold
    · obtain ⟨label, hlabel, rfl⟩ := List.mem_map.mp hadded
      exact heligible label hlabel
  · intro mid
    dsimp only [Backfill.readMailbox]
    rw [foldl_writeDate]
    split
    · rename_i hlowered
      obtain ⟨when, hwhen⟩ := Option.isSome_iff_exists.mp
        (AList.lookup_isSome.mpr (hread.lowered mid hlowered))
      rw [hwhen]
      rfl
    · rename_i hkept
      rw [hinv.stored, hread.kept mid hkept]
  · intro mid
    dsimp only [Backfill.readMailbox]
    rw [lookup_foldl_setDefault, hinv.original]
    simp only [Finset.mem_union, List.mem_toFinset]
    by_cases hscanned : mid ∈ pass.scanned
    · simp only [hscanned, if_true, true_or, Option.some_or]
    · simp only [hscanned, if_false, false_or, Option.none_or,
        hinv.stored_of_not_scanned hscanned]
  · intro mid
    simp only [Backfill.readMailbox, Finset.mem_union, List.mem_toFinset, hnew,
      hinv.scanned_iff, List.mem_append, or_and_right, exists_or]
  · intro mid
    dsimp only [Backfill.readMailbox]
    rw [hread.answered_iff, hinv.answered_iff]
    simp only [answer_fetched_iff hdiffer, List.mem_append, or_and_right,
      exists_or]
    apply or_congr_right
    rw [exists_comm]
    simp [rowAnswer, ← exists_answerOf_iff]
  · intro mid
    apply (hread.least mid _ (hinv.least mid)).of_eq
    rw [datesOf_append]
    simp only [answer_fetched_iff hdiffer, answerOf]

/-- A mailbox is read, skipped, or has nothing the pass is about. -/
theorem PassInv.visit (hinv : PassInv server refetch before read pass)
    (account : Account) (mailbox : MailboxRow) :
    PassInv server refetch before
      (read ++ readRows server refetch account.labels before mailbox)
      (visit server refetch account.labels pass mailbox) := by
  have hdiffer : UidsDiffer (asked refetch account.labels before mailbox) := by
    intro left hleft right hright huid
    simp only [asked, List.mem_filter, Bool.and_eq_true, decide_eq_true_eq]
      at hleft hright
    exact account.uid_unique left hleft.1 right hright.1
      (hleft.2.1.trans hright.2.1.symm) huid
  have heligible : ∀ label ∈ asked refetch account.labels before mailbox,
      eligible refetch before label.messageId = true := by
    intro label hlabel
    have hchosen := (List.mem_filter.mp hlabel).2
    exact (Bool.and_eq_true_iff.mp hchosen).2
  unfold Backfill.visit readRows
  rw [hinv.candidates_eq]
  dsimp only
  by_cases hnone : asked refetch account.labels before mailbox = []
  · rw [if_pos hnone, hnone]
    simpa using hinv
  · rw [if_neg hnone]
    by_cases hreadable : server.readable mailbox = true
    · rw [if_pos hreadable, if_pos hreadable]
      exact hinv.readMailbox mailbox hdiffer heligible
    · rw [if_neg hreadable, if_neg hreadable, List.append_nil]
      exact ⟨hinv.eligible_of_mem, hinv.stored, hinv.original,
        hinv.scanned_iff, hinv.answered_iff, hinv.least⟩

/-- The rows read in these mailboxes, and the pass after them. -/
def rowsRead (server : Server τ) (refetch : Bool) (labels : List LabelRow)
    (before : Nat → Option τ) (mailboxes : List MailboxRow) :
    List (MailboxRow × LabelRow) :=
  mailboxes.flatMap (readRows server refetch labels before)

def passOver (server : Server τ) (refetch : Bool) (labels : List LabelRow)
    (mailboxes : List MailboxRow) (before : Nat → Option τ) : Pass τ :=
  mailboxes.foldl (visit server refetch labels) (.start before)

theorem passInv_passOver (server : Server τ) (refetch : Bool)
    (account : Account) (before : Nat → Option τ)
    (mailboxes : List MailboxRow) :
    PassInv server refetch before
      (rowsRead server refetch account.labels before mailboxes)
      (passOver server refetch account.labels mailboxes before) := by
  induction mailboxes using List.reverseRecOn with
  | nil => exact passInv_start
  | append_singleton visited mailbox ih =>
      have hstep := ih.visit account mailbox
      simpa [passOver, rowsRead, List.foldl_append] using hstep

/-- The mailboxes that were needed and could not be read. -/
def skippedNames (server : Server τ) (refetch : Bool) (labels : List LabelRow)
    (before : Nat → Option τ) (mailboxes : List MailboxRow) : List String :=
  (mailboxes.filter fun mailbox =>
    asked refetch labels before mailbox ≠ [] && !server.readable mailbox).map
    MailboxRow.name

theorem skipped_passOver (server : Server τ) (refetch : Bool)
    (account : Account) (before : Nat → Option τ)
    (mailboxes : List MailboxRow) :
    (passOver server refetch account.labels mailboxes before).skipped =
      skippedNames server refetch account.labels before mailboxes := by
  induction mailboxes using List.reverseRecOn with
  | nil => rfl
  | append_singleton visited mailbox ih =>
      have hinv := passInv_passOver server refetch account before visited
      rw [passOver, List.foldl_append, ← passOver, List.foldl_cons,
        List.foldl_nil, Backfill.visit, hinv.candidates_eq, skippedNames,
        List.filter_append, List.map_append, ← skippedNames]
      by_cases hnone : asked refetch account.labels before mailbox = []
      · simp [hnone, ih]
      · by_cases hreadable : server.readable mailbox = true
        · simp [hnone, hreadable, Backfill.readMailbox, ih]
        · simp [hnone, hreadable, ih]

/-! ### The outcome -/

/-- The dates the readable mailboxes report for a message. -/
def reported (server : Server τ) (account : Account) (mid : Nat) : Set τ :=
  { when | ∃ mailbox ∈ account.mailboxes, server.readable mailbox = true ∧
    ∃ label ∈ account.labels, label.mailboxId = mailbox.id ∧
      label.messageId = mid ∧
      server.internalDate mailbox.name label.uid = .dated when }

/-- The message is one the pass may date, and some mailbox dates it. -/
def ToDate (server : Server τ) (refetch : Bool) (account : Account)
    (before : Nat → Option τ) (mid : Nat) : Prop :=
  eligible refetch before mid = true ∧ (reported server account mid).Nonempty

omit [LinearOrder τ] in
theorem mem_rowsRead_iff {account : Account} {order : List MailboxRow}
    (horder : order.Perm account.mailboxes) {row : MailboxRow × LabelRow} :
    row ∈ rowsRead server refetch account.labels before order ↔
      row.1 ∈ account.mailboxes ∧ server.readable row.1 = true ∧
        row.2 ∈ account.labels ∧ row.2.mailboxId = row.1.id ∧
        eligible refetch before row.2.messageId = true := by
  simp only [rowsRead, List.mem_flatMap, horder.mem_iff, readRows, asked]
  constructor
  · rintro ⟨mailbox, hmailbox, hrow⟩
    by_cases hreadable : server.readable mailbox = true
    · rw [if_pos hreadable] at hrow
      obtain ⟨label, hlabel, rfl⟩ := List.mem_map.mp hrow
      simp only [List.mem_filter, Bool.and_eq_true, decide_eq_true_eq] at hlabel
      exact ⟨hmailbox, hreadable, hlabel.1, hlabel.2.1, hlabel.2.2⟩
    · rw [if_neg hreadable] at hrow
      cases hrow
  · rintro ⟨hmailbox, hreadable, hlabel, hid, heligible⟩
    refine ⟨row.1, hmailbox, ?_⟩
    rw [if_pos hreadable]
    simp [Prod.ext_iff, hlabel, hid, heligible]

omit [LinearOrder τ] in
theorem datesOf_rowsRead {account : Account} {order : List MailboxRow}
    (horder : order.Perm account.mailboxes) (mid : Nat) :
    datesOf server (rowsRead server refetch account.labels before order) mid =
      { when | eligible refetch before mid = true ∧
        when ∈ reported server account mid } := by
  ext when
  simp only [datesOf, rowAnswer, mem_rowsRead_iff horder, reported,
    Set.mem_ofPred_eq]
  constructor
  · rintro ⟨row, ⟨hmailbox, hreadable, hlabel, hid, heligible⟩, rfl, hdate⟩
    exact ⟨heligible, row.1, hmailbox, hreadable, row.2, hlabel, hid, rfl, hdate⟩
  · rintro ⟨heligible, mailbox, hmailbox, hreadable, label, hlabel, hid, rfl,
      hdate⟩
    exact ⟨(mailbox, label), ⟨hmailbox, hreadable, hlabel, hid, heligible⟩, rfl,
      hdate⟩

section Counts

variable (hinv : PassInv server refetch before read pass)

include hinv

theorem PassInv.answered_subset : pass.answered ⊆ pass.scanned := by
  intro mid hanswered
  obtain ⟨row, hrow, hmid, -⟩ := (hinv.answered_iff mid).mp hanswered
  exact (hinv.scanned_iff mid).mpr ⟨row, hrow, hmid⟩

theorem PassInv.dated_subset : pass.earliest.keys.toFinset ⊆ pass.answered := by
  intro mid hdated
  have hmem : mid ∈ pass.earliest := AList.mem_keys.mpr (List.mem_toFinset.mp hdated)
  obtain ⟨when, row, hrow, hmid, hdate⟩ :=
    (hinv.least mid).isSome_iff.mp (AList.lookup_isSome.mpr hmem)
  refine (hinv.answered_iff mid).mpr ⟨row, hrow, hmid, ?_⟩
  rw [hdate]
  nofun

/-- Every message asked about is missing, unusable or dated. -/
theorem PassInv.scanned_eq :
    pass.result.scanned = pass.result.missing + pass.result.unusable +
      pass.earliest.keys.length := by
  have hkeys : pass.earliest.keys.toFinset.card = pass.earliest.keys.length :=
    List.toFinset_card_of_nodup pass.earliest.keys_nodup
  have hanswered := Finset.card_sdiff_add_card_eq_card hinv.answered_subset
  have hdated := Finset.card_sdiff_add_card_eq_card hinv.dated_subset
  simp only [Pass.result]
  omega

/-- Against the value first read, an entry counts if the row has changed. -/
theorem PassInv.updated_eq :
    pass.result.updated = { mid | pass.stored mid ≠ before mid }.ncard := by
  have hentry : ∀ entry ∈ pass.earliest.entries,
      pass.original.lookup entry.1 ≠ some (some entry.2) ↔
        pass.stored entry.1 ≠ before entry.1 := by
    intro entry hentry
    have hlookup : pass.earliest.lookup entry.1 = some entry.2 :=
      AList.mem_lookup_iff.mpr hentry
    have hscanned := hinv.scanned_of_dated (Option.isSome_of_eq_some hlookup)
    rw [hinv.original, if_pos hscanned, hinv.stored, hlookup, Option.some_or]
    simp [eq_comm]
  have hcount : pass.result.updated =
      (pass.earliest.keys.filter fun mid =>
        pass.stored mid ≠ before mid).toFinset.card := by
    rw [List.toFinset_card_of_nodup (pass.earliest.keys_nodup.filter _),
      ← List.countP_eq_length_filter, AList.keys, List.keys, List.countP_map]
    apply List.countP_congr
    intro entry hmem
    simpa using hentry entry hmem
  rw [hcount, ← Set.ncard_coe_finset]
  congr 1
  ext mid
  simp only [List.coe_toFinset, List.mem_filter, decide_eq_true_eq,
    Set.mem_ofPred_eq, and_iff_right_iff_imp]
  intro hchanged
  rw [← AList.mem_keys, ← AList.lookup_isSome]
  by_contra hundated
  rw [Option.not_isSome_iff_eq_none] at hundated
  rw [hinv.stored, hundated] at hchanged
  exact hchanged rfl

end Counts

/-- What the four counts say; which mailboxes were skipped, in any order. -/
structure SameResult (left right : BackfillResult) : Prop where
  scanned : left.scanned = right.scanned
  updated : left.updated = right.updated
  missing : left.missing = right.missing
  unusable : left.unusable = right.unusable
  skippedMailboxes : left.skippedMailboxes.Perm right.skippedMailboxes

/-- A pass is determined by the rows it has read. -/
theorem PassInv.same {otherRead : List (MailboxRow × LabelRow)}
    {other : Pass τ} (hinv : PassInv server refetch before read pass)
    (hother : PassInv server refetch before otherRead other)
    (hrows : ∀ row, row ∈ read ↔ row ∈ otherRead)
    (hskipped : pass.skipped.Perm other.skipped) :
    pass.stored = other.stored ∧ SameResult pass.result other.result := by
  have hscanned : pass.scanned = other.scanned := by
    ext mid
    simp only [hinv.scanned_iff, hother.scanned_iff, hrows]
  have hanswered : pass.answered = other.answered := by
    ext mid
    simp only [hinv.answered_iff, hother.answered_iff, hrows]
  have hlookup : ∀ mid, pass.earliest.lookup mid = other.earliest.lookup mid := by
    intro mid
    apply (hinv.least mid).unique
    apply (hother.least mid).of_eq
    simp only [datesOf, hrows]
  have hkeys : pass.earliest.keys.toFinset = other.earliest.keys.toFinset := by
    ext mid
    rw [List.mem_toFinset, List.mem_toFinset, ← AList.mem_keys, ← AList.mem_keys,
      ← AList.lookup_isSome, ← AList.lookup_isSome, hlookup]
  have hstored : pass.stored = other.stored := by
    funext mid
    rw [hinv.stored, hother.stored, hlookup]
  refine ⟨hstored, ⟨?_, ?_, ?_, ?_, hskipped⟩⟩
  · simp only [Pass.result, hscanned]
  · rw [hinv.updated_eq, hother.updated_eq, hstored]
  · simp only [Pass.result, hscanned, hanswered]
  · simp only [Pass.result, hanswered, hkeys]

/-- Every message to be dated holds its earliest date and the others what they
held; the counts say how many were asked about, dated and changed. -/
structure Exact (server : Server τ) (refetch : Bool) (account : Account)
    (before : Nat → Option τ)
    (outcome : (Nat → Option τ) × BackfillResult) : Prop where
  dated : ∀ mid, ToDate server refetch account before mid →
    ∃ when, IsLeast (reported server account mid) when ∧
      outcome.1 mid = some when
  unchanged : ∀ mid, ¬ ToDate server refetch account before mid →
    outcome.1 mid = before mid
  scanned : outcome.2.scanned = outcome.2.missing + outcome.2.unusable +
    { mid | ToDate server refetch account before mid }.ncard
  updated : outcome.2.updated = { mid | outcome.1 mid ≠ before mid }.ncard

section Orders

variable (server refetch before) (account : Account)
  {order : List MailboxRow} (horder : order.Perm account.mailboxes)

include horder

theorem lookup_isSome_iff_toDate (mid : Nat) :
    ((passOver server refetch account.labels order before).earliest.lookup
        mid).isSome = true ↔ ToDate server refetch account before mid := by
  have hinv := passInv_passOver server refetch account before order
  rw [(hinv.least mid).isSome_iff, datesOf_rowsRead horder, ToDate]
  simp [Set.Nonempty]

theorem backfill_exact :
    Exact server refetch account before
      (backfillInternalDate server refetch account.labels order before) := by
  have hinv := passInv_passOver server refetch account before order
  have hdated := lookup_isSome_iff_toDate server refetch before account horder
  refine ⟨?_, ?_, ?_, hinv.updated_eq⟩
  · intro mid htoDate
    obtain ⟨when, hlookup⟩ :=
      Option.isSome_iff_exists.mp ((hdated mid).mpr htoDate)
    refine ⟨when, ?_, ?_⟩
    · have hleast := hinv.least mid
      rw [hlookup, datesOf_rowsRead horder] at hleast
      simpa [htoDate.1] using (show IsLeast _ when from hleast)
    · change (passOver server refetch account.labels order before).stored mid = _
      rw [hinv.stored, hlookup]
      rfl
  · intro mid htoDate
    have hlookup := Option.not_isSome_iff_eq_none.mp
      (mt (hdated mid).mp htoDate)
    change (passOver server refetch account.labels order before).stored mid = _
    rw [hinv.stored, hlookup]
    rfl
  · have hset : { mid | ToDate server refetch account before mid } =
        ↑(passOver server refetch account.labels order
          before).earliest.keys.toFinset := by
      ext mid
      rw [Set.mem_ofPred_eq, ← hdated, AList.lookup_isSome, AList.mem_keys]
      simp
    rw [hset, Set.ncard_coe_finset,
      List.toFinset_card_of_nodup (AList.keys_nodup _)]
    exact hinv.scanned_eq

theorem backfill_same {other : List MailboxRow}
    (hother : other.Perm account.mailboxes) :
    (backfillInternalDate server refetch account.labels other before).1 =
        (backfillInternalDate server refetch account.labels order before).1 ∧
      SameResult
        (backfillInternalDate server refetch account.labels other before).2
        (backfillInternalDate server refetch account.labels order before).2 := by
  apply (passInv_passOver server refetch account before other).same
    (passInv_passOver server refetch account before order)
  · intro row
    rw [mem_rowsRead_iff hother, mem_rowsRead_iff horder]
  · rw [skipped_passOver, skipped_passOver]
    exact ((hother.trans horder.symm).filter _).map _

/-- What a second pass would date holds its date already. -/
theorem backfill_again {second : List MailboxRow}
    (hsecond : second.Perm account.mailboxes) :
    (backfillInternalDate server refetch account.labels second
        (backfillInternalDate server refetch account.labels order before).1).1 =
      (backfillInternalDate server refetch account.labels order before).1 := by
  have hfirst := backfill_exact server refetch before account horder
  have hagain := backfill_exact server refetch
    (backfillInternalDate server refetch account.labels order before).1 account
    hsecond
  funext mid
  by_cases htoDate : ToDate server refetch account
      (backfillInternalDate server refetch account.labels order before).1 mid
  · have hbefore : ToDate server refetch account before mid := by
      by_contra hnot
      rw [ToDate, eligible, hfirst.unchanged mid hnot] at htoDate
      exact hnot htoDate
    obtain ⟨when, hleast, hwhen⟩ := hfirst.dated mid hbefore
    obtain ⟨again, hleastAgain, hagainWhen⟩ := hagain.dated mid htoDate
    rw [hwhen, hagainWhen, IsLeast.unique hleast hleastAgain]
  · exact hagain.unchanged mid htoDate

/-- The pass is exact, depends on no order of the mailboxes, and a second one
changes nothing. -/
theorem backfill_exact_in_any_order :
    Exact server refetch account before
        (backfillInternalDate server refetch account.labels order before) ∧
      (∀ other : List MailboxRow, other.Perm account.mailboxes →
        (backfillInternalDate server refetch account.labels other before).1 =
            (backfillInternalDate server refetch account.labels order
              before).1 ∧
          SameResult
            (backfillInternalDate server refetch account.labels other before).2
            (backfillInternalDate server refetch account.labels order
              before).2) ∧
      ∀ second : List MailboxRow, second.Perm account.mailboxes →
        let first :=
          (backfillInternalDate server refetch account.labels order before).1
        (backfillInternalDate server refetch account.labels second first).1 =
            first ∧
          (backfillInternalDate server refetch account.labels second
            first).2.updated = 0 := by
  refine ⟨backfill_exact server refetch before account horder, ?_, ?_⟩
  · intro other hother
    exact backfill_same server refetch before account horder hother
  · intro second hsecond
    have hagain := backfill_again server refetch before account horder hsecond
    refine ⟨hagain, ?_⟩
    rw [(backfill_exact server refetch _ account hsecond).updated, hagain]
    simp

end Orders

end Whole

end Model

/-- A message labelled in two mailboxes; the second one reports it earlier. -/
def twoCopies : Account where
  mailboxes := [⟨1, "INBOX", some 7⟩, ⟨2, "Archive", none⟩]
  labels := [⟨10, 1, 5⟩, ⟨10, 2, 6⟩]
  uid_unique := by decide

def twoDates : Server Nat where
  selectFolder _ := some (some 7)
  internalDate _ uid := if uid = 5 then .dated 300 else .dated 200

theorem twoCopies_exact :
    [⟨2, "Archive", none⟩, ⟨1, "INBOX", some 7⟩].Perm twoCopies.mailboxes ∧
      Exact twoDates false twoCopies (fun _ => none)
        (backfillInternalDate twoDates false twoCopies.labels
          [⟨2, "Archive", none⟩, ⟨1, "INBOX", some 7⟩] fun _ => none) :=
  ⟨List.Perm.swap _ _ _,
    (backfill_exact_in_any_order twoDates false (fun _ => none) twoCopies
      (List.Perm.swap _ _ _)).1⟩

end Backfill

end Localmail
