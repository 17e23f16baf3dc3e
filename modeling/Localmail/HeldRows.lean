/-
`transient_fetches` as a lookup by UID, and what each statement on the table
does to a lookup.
-/
import Localmail.HeldBody
import Localmail.KeyedRows

namespace Localmail

/-- The row of a UID. -/
def SyncDb.held (db : SyncDb) (uid : Nat) : Option TransientFetch :=
  db.holds.find? fun row => row.uid = uid

/-- The primary key of `transient_fetches`, and that UIDs are positive. -/
structure SyncDb.KeyedHolds (db : SyncDb) : Prop where
  nodup : (db.holds.map TransientFetch.uid).Nodup
  pos : ∀ row ∈ db.holds, 0 < row.uid

theorem SyncDb.held_uid {db : SyncDb} {uid : Nat} {row : TransientFetch}
    (hheld : db.held uid = some row) : row.uid = uid := key_of_find? hheld

theorem SyncDb.mem_of_held {db : SyncDb} {uid : Nat} {row : TransientFetch}
    (hheld : db.held uid = some row) : row ∈ db.holds :=
  List.mem_of_find?_eq_some hheld

/-- Lookup by the first component of a list without repeated keys. -/
theorem SyncDb.KeyedHolds.held_of_mem {db : SyncDb} (hkeyed : db.KeyedHolds)
    {row : TransientFetch} (hmem : row ∈ db.holds) :
    db.held row.uid = some row :=
  find?_of_mem_nodup hkeyed.nodup hmem

theorem SyncDb.KeyedHolds.tombstoned_iff {db : SyncDb}
    (hkeyed : db.KeyedHolds) {uid : Nat} :
    db.Tombstoned uid ↔
      ∃ row, db.held uid = some row ∧ row.gaveUpAt.isSome := by
  constructor
  · rintro ⟨row, hrow, rfl, hgave⟩
    exact ⟨row, hkeyed.held_of_mem hrow, hgave⟩
  · rintro ⟨row, hheld, hgave⟩
    exact ⟨row, SyncDb.mem_of_held hheld, SyncDb.held_uid hheld, hgave⟩

theorem SyncDb.KeyedHolds.of_holds_eq {before after : SyncDb}
    (hkeyed : before.KeyedHolds) (hholds : after.holds = before.holds) :
    after.KeyedHolds :=
  ⟨hholds ▸ hkeyed.nodup, hholds ▸ hkeyed.pos⟩

/-! ### Rewriting and deleting rows -/

section Rewrite

variable {db : SyncDb} {rewrite : TransientFetch → TransientFetch}
  (huid : ∀ row, (rewrite row).uid = row.uid)

include huid

theorem held_rewrite (uid : Nat) :
    SyncDb.held { db with holds := db.holds.map rewrite } uid =
      (db.held uid).map rewrite := by
  simp only [SyncDb.held, List.find?_map]
  congr 2
  funext row
  simp [huid]

theorem keyedHolds_rewrite (hkeyed : db.KeyedHolds) :
    SyncDb.KeyedHolds { db with holds := db.holds.map rewrite } := by
  have huids : (db.holds.map rewrite).map TransientFetch.uid =
      db.holds.map TransientFetch.uid := by
    rw [List.map_map]
    exact List.map_congr_left fun row _ => huid row
  refine ⟨huids ▸ hkeyed.nodup, ?_⟩
  intro row hrow
  obtain ⟨old, hold, rfl⟩ := List.mem_map.mp hrow
  rw [huid]
  exact hkeyed.pos old hold

end Rewrite

section Delete

variable {db : SyncDb} (hkeyed : db.KeyedHolds)
  (kept : TransientFetch → Bool)

include hkeyed

theorem keyedHolds_filter :
    SyncDb.KeyedHolds { db with holds := db.holds.filter kept } :=
  ⟨hkeyed.nodup.sublist (List.filter_sublist.map _),
    fun row hrow => hkeyed.pos row (List.mem_of_mem_filter hrow)⟩

theorem held_filter (uid : Nat) :
    SyncDb.held { db with holds := db.holds.filter kept } uid =
      (db.held uid).filter kept := by
  have hkept := keyedHolds_filter hkeyed kept
  apply Option.ext
  intro row
  rw [Option.filter_eq_some_iff]
  constructor
  · intro hheld
    obtain ⟨hmem, hkeep⟩ := List.mem_filter.mp (SyncDb.mem_of_held hheld)
    exact ⟨SyncDb.held_uid hheld ▸ hkeyed.held_of_mem hmem, hkeep⟩
  · rintro ⟨hheld, hkeep⟩
    have hmem := List.mem_filter.mpr ⟨SyncDb.mem_of_held hheld, hkeep⟩
    exact SyncDb.held_uid hheld ▸ hkept.held_of_mem hmem

end Delete

/-! ### The statements -/

/-- What `record_attempt` makes of the row it finds. -/
def attempted (uid : Nat) (txNow : Micros) :
    Option TransientFetch → TransientFetch
  | some row =>
      { row with attemptCount := row.attemptCount + 1, lastSeenAt := txNow }
  | none => ⟨uid, 1, txNow, txNow, none⟩

theorem recordAttempt_snd (db : SyncDb) (uid : Nat) (txNow : Micros) :
    (recordAttempt db uid txNow).2 =
      (attempted uid txNow (db.held uid)).firstSeenAt := by
  unfold recordAttempt SyncDb.held
  cases db.holds.find? fun row => decide (row.uid = uid) with
  | none => rfl
  | some row => rfl

theorem held_recordAttempt (db : SyncDb) (uid other : Nat) (txNow : Micros) :
    (recordAttempt db uid txNow).1.held other =
      if other = uid then some (attempted uid txNow (db.held uid))
      else db.held other := by
  cases hfind : db.holds.find? fun row => decide (row.uid = uid) with
  | some row =>
      simp only [recordAttempt, hfind]
      rw [held_rewrite (fun row => by split <;> rfl)]
      have hheld : db.held uid = some row := hfind
      split
      · rename_i hsame
        subst hsame
        simp [hheld, attempted, SyncDb.held_uid hheld]
      · rename_i hne
        cases hother : db.held other with
        | none => rfl
        | some found =>
            have hfound := SyncDb.held_uid hother
            simp [hfound, hne]
  | none =>
      simp only [recordAttempt, hfind, SyncDb.held, List.find?_append]
      split
      · rename_i hsame
        subst hsame
        simp [hfind, attempted]
      · rename_i hne
        have hne' : ¬ uid = other := fun hsame => hne hsame.symm
        simp [hne']

theorem keyedHolds_recordAttempt {db : SyncDb} (hkeyed : db.KeyedHolds)
    {uid : Nat} (hpos : 0 < uid) (txNow : Micros) :
    (recordAttempt db uid txNow).1.KeyedHolds := by
  cases hfind : db.holds.find? fun row => decide (row.uid = uid) with
  | some row =>
      simp only [recordAttempt, hfind]
      exact keyedHolds_rewrite (fun row => by split <;> rfl) hkeyed
  | none =>
      simp only [recordAttempt, hfind]
      have habsent : uid ∉ db.holds.map TransientFetch.uid := by
        intro hmem
        obtain ⟨row, hrow, huid⟩ := List.mem_map.mp hmem
        exact List.find?_eq_none.mp hfind row hrow (by simpa using huid)
      constructor
      · rw [List.map_append, List.nodup_append]
        refine ⟨hkeyed.nodup, List.nodup_singleton _, ?_⟩
        rintro first hfirst second hsecond rfl
        cases List.mem_singleton.mp hsecond
        exact habsent hfirst
      · intro row hrow
        obtain hold | hnew := List.mem_append.mp hrow
        · exact hkeyed.pos row hold
        · rw [List.mem_singleton.mp hnew]
          exact hpos

theorem held_markGaveUp (db : SyncDb) (uid other : Nat) (txNow : Micros) :
    (markGaveUp db uid txNow).held other =
      if other = uid then
        (db.held uid).map fun row =>
          { row with gaveUpAt := some (row.gaveUpAt.getD txNow) }
      else db.held other := by
  unfold markGaveUp
  rw [held_rewrite (fun row => by split <;> rfl)]
  cases hother : db.held other with
  | none =>
      split
      · rename_i hsame
        subst hsame
        simp [hother]
      · rfl
  | some row =>
      have huid := SyncDb.held_uid hother
      split
      · rename_i hsame
        subst hsame
        simp [hother, huid]
      · rename_i hne
        simp [huid, hne]

theorem keyedHolds_markGaveUp {db : SyncDb} (hkeyed : db.KeyedHolds)
    (uid : Nat) (txNow : Micros) : (markGaveUp db uid txNow).KeyedHolds :=
  keyedHolds_rewrite (fun row => by split <;> rfl) hkeyed

theorem held_clearAttempts {db : SyncDb} (hkeyed : db.KeyedHolds)
    (uid other : Nat) :
    (clearAttempts db uid).held other =
      if other = uid then none else db.held other := by
  unfold clearAttempts
  rw [held_filter hkeyed]
  cases hother : db.held other with
  | none => simp
  | some row =>
      have huid := SyncDb.held_uid hother
      split
      · rename_i hsame
        simp [huid, hsame]
      · rename_i hne
        simp [huid, hne]

/-- The garbage collection spares tombstones and what is not below the
resume point. -/
theorem held_reclaimBelow {db : SyncDb} (hkeyed : db.KeyedHolds)
    {uid resumeAt : Nat} {row : TransientFetch}
    (hheld : db.held uid = some row)
    (hspared : resumeAt ≤ uid ∨ row.gaveUpAt.isSome) :
    (reclaimBelow db resumeAt).held uid = some row := by
  unfold reclaimBelow
  rw [held_filter hkeyed, hheld, Option.filter_eq_some_iff]
  refine ⟨rfl, ?_⟩
  have huid := SyncDb.held_uid hheld
  obtain hle | hgave := hspared
  · simp [huid, hle]
  · have hset := Option.isSome_iff_ne_none.mp hgave
    simp [hset]

theorem keyedHolds_reclaimBelow {db : SyncDb} (hkeyed : db.KeyedHolds)
    (resumeAt : Nat) : (reclaimBelow db resumeAt).KeyedHolds :=
  keyedHolds_filter hkeyed _

/-! ### A body that arrived -/

theorem processOneMessage_holds {parse : Parser} {db linked : SyncDb}
    {uid : Nat} {raw : Bytes} {flags : List String}
    {internalDate : Option Micros} {fault : Option Fault} {didInsert : Bool}
    (hprocess : processOneMessage parse db uid raw flags internalDate fault =
      .ok (linked, didInsert)) :
    linked.holds = db.holds := by
  unfold processOneMessage at hprocess
  split at hprocess
  · cases hprocess
  · split at hprocess
    · cases hprocess
    · simp only at hprocess
      split at hprocess
      · cases hprocess
      · rename_i parsed _ _ hlabel
        cases hprocess
        rw [(upsertLabel_spec hlabel).2.2.1]
        unfold upsertMessage
        split <;> rfl

theorem recordFailedMessage_holds (db : SyncDb) (uid : Nat) (raw : Bytes) :
    (recordFailedMessage db uid raw).holds = db.holds := by
  unfold recordFailedMessage
  split <;> rfl

/-- What the branch for an arrived body does to the pass: it moves on to the
UID, keeps the clamp, and clears at most the row of that UID. -/
structure BodyStored (uid : Nat) (before after : Pass) : Prop where
  args : after.args = before.args
  now : after.now = before.now
  space : after.serverUidvalidity = before.serverUidvalidity
  batches : after.batches = before.batches
  seen : after.highestSeen = max before.highestSeen uid
  hold : after.holdAt = before.holdAt
  others : ∀ other, other ≠ uid → after.work.held other = before.work.held other
  keyed : after.work.KeyedHolds
  fewer : ∀ row, after.work.held uid = some row → before.work.held uid = some row

theorem storeBody_stored {parse : Parser} {pass next : Pass} {uid : Nat}
    {data : FetchData} {fault : Option Fault} (hkeyed : pass.work.KeyedHolds)
    (hstore : storeBody parse pass uid data fault = some next) :
    BodyStored uid pass next := by
  unfold storeBody at hstore
  dsimp only at hstore
  generalize hcleared : (if uid ∈ pass.heldAttempts then
      ({ pass with
        work := clearAttempts pass.work uid
        heldAttempts := pass.heldAttempts.filter fun held => held ≠ uid } : Pass)
    else pass) = cleared at hstore
  have hsame : BodyStored uid pass
      { cleared with highestSeen := max cleared.highestSeen uid } := by
    split at hcleared
    · subst hcleared
      refine ⟨rfl, rfl, rfl, rfl, rfl, rfl, fun other hne => ?_,
        keyedHolds_filter hkeyed _, fun row hrow => ?_⟩
      · exact (held_clearAttempts hkeyed uid other).trans (if_neg hne)
      · rw [held_clearAttempts hkeyed uid uid, if_pos rfl] at hrow
        cases hrow
    · subst hcleared
      exact ⟨rfl, rfl, rfl, rfl, rfl, rfl, fun _ _ => rfl, hkeyed,
        fun _ hrow => hrow⟩
  have hwork : ∀ after : Pass, after.args = cleared.args →
      after.now = cleared.now →
      after.serverUidvalidity = cleared.serverUidvalidity →
      after.batches = cleared.batches →
      after.highestSeen = max cleared.highestSeen uid →
      after.holdAt = cleared.holdAt →
      after.work.holds = cleared.work.holds → BodyStored uid pass after := by
    intro after hargs hnow hspace hbatches hseen hhold hholds
    have hheld : ∀ other, after.work.held other = cleared.work.held other :=
      fun other => by rw [SyncDb.held, hholds]; rfl
    exact ⟨hargs.trans hsame.args, hnow.trans hsame.now,
      hspace.trans hsame.space, hbatches.trans hsame.batches,
      hseen.trans hsame.seen, hhold.trans hsame.hold,
      fun other hne => (hheld other).trans (hsame.others other hne),
      hsame.keyed.of_holds_eq hholds,
      fun row hrow => hsame.fewer row ((hheld uid).symm.trans hrow)⟩
  split at hstore
  · rename_i linked didInsert hprocess
    cases hstore
    exact hwork _ rfl rfl rfl rfl rfl rfl (processOneMessage_holds hprocess)
  · cases hstore
  · cases hstore
    exact hwork _ rfl rfl rfl rfl rfl rfl (recordFailedMessage_holds _ _ _)

/-! ### A UID without a body -/

/-- What the hold branch does to the pass: the row counts one more attempt
from the same beginning, and either the clamp comes down to the UID or the
window is over and the row is a tombstone. -/
structure Held (uid : Nat) (before after : Pass) : Prop where
  args : after.args = before.args
  now : after.now = before.now
  space : after.serverUidvalidity = before.serverUidvalidity
  batches : after.batches = before.batches
  seen : after.highestSeen ≤ max before.highestSeen uid
  hold : ∀ clamp ∈ before.holdAt, ∃ lower ∈ after.holdAt, lower ≤ clamp
  others : ∀ other, other ≠ uid → after.work.held other = before.work.held other
  keyed : after.work.KeyedHolds
  since : ∀ row, before.work.held uid = some row →
    ∃ row', after.work.held uid = some row' ∧
      row'.firstSeenAt = row.firstSeenAt ∧
      ∀ gave, row.gaveUpAt = some gave → row'.gaveUpAt = some gave
  gaveUp : ∀ row', after.work.held uid = some row' → row'.gaveUpAt.isSome →
    (∃ row, before.work.held uid = some row ∧ row.gaveUpAt.isSome) ∨
      holdExpired row'.firstSeenAt after.now after.args.maxBodyFetchHold = true

theorem holdOrGiveUp_held {pass : Pass} {uid : Nat}
    (hkeyed : pass.work.KeyedHolds) (hpos : 0 < uid) (txNow : Micros) :
    Held uid pass (holdOrGiveUp pass uid txNow) ∧
      (keepsHolding pass uid txNow = true →
        ∃ clamp ∈ (holdOrGiveUp pass uid txNow).holdAt, clamp ≤ uid) ∧
      (keepsHolding pass uid txNow = false →
        ∃ row, (holdOrGiveUp pass uid txNow).work.held uid = some row ∧
          row.gaveUpAt.isSome) := by
  have hfirst := recordAttempt_snd pass.work uid txNow
  have hheld := held_recordAttempt pass.work uid uid txNow
  rw [if_pos rfl] at hheld
  have hrecorded := keyedHolds_recordAttempt hkeyed hpos txNow
  unfold holdOrGiveUp keepsHolding
  dsimp only
  rw [hfirst]
  split
  · rename_i hexpired
    have hmarked := held_markGaveUp (recordAttempt pass.work uid txNow).1 uid
      uid txNow
    rw [if_pos rfl, hheld] at hmarked
    refine ⟨⟨rfl, rfl, rfl, rfl, Nat.le_refl _,
      fun clamp hclamp => ⟨clamp, hclamp, Nat.le_refl _⟩, ?_,
      keyedHolds_markGaveUp hrecorded uid txNow, ?_, ?_⟩, ?_, ?_⟩
    · intro other hne
      rw [held_markGaveUp, if_neg hne, held_recordAttempt, if_neg hne]
    · intro row hrow
      refine ⟨_, hmarked, by rw [hrow]; rfl, fun gave hgave => ?_⟩
      rw [hrow]
      simp [attempted, hgave]
    · intro row' hrow' _
      rw [hmarked] at hrow'
      cases hrow'
      exact .inr hexpired
    · intro hkeeps
      rw [hexpired] at hkeeps
      cases hkeeps
    · exact fun _ => ⟨_, hmarked, rfl⟩
  · rename_i hopen
    refine ⟨⟨rfl, rfl, rfl, rfl, Nat.le_max_left _ _, ?_, ?_, hrecorded, ?_,
      ?_⟩, ?_, ?_⟩
    · intro clamp hclamp
      refine ⟨min clamp uid, ?_, Nat.min_le_left _ _⟩
      simp [Option.mem_def.mp hclamp]
    · intro other hne
      rw [held_recordAttempt, if_neg hne]
    · intro row hrow
      refine ⟨_, hheld, by rw [hrow]; rfl, fun gave hgave => ?_⟩
      rw [hrow]
      exact hgave
    · intro row' hrow' hgave
      rw [hheld] at hrow'
      cases hrow'
      cases hbefore : pass.work.held uid with
      | none =>
          rw [hbefore] at hgave
          cases hgave
      | some row =>
          rw [hbefore] at hgave
          exact .inl ⟨row, rfl, hgave⟩
    · intro _
      refine ⟨_, rfl, ?_⟩
      cases pass.holdAt with
      | none => exact Nat.le_refl uid
      | some clamp => exact Nat.min_le_right _ _
    · intro hexpired
      simp only [Bool.not_eq_eq_eq_not, Bool.not_false] at hexpired
      exact absurd hexpired hopen

end Localmail
