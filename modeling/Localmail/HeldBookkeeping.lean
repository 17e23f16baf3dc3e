/-
The held-body bookkeeping is a sound state machine.  Besides the invariants of
all runs, one window is followed: while a held UID stays unfetchable, and no
purge takes its row, its hold began when it began.
-/
import Localmail.HeldWindow

namespace Localmail

/-! ### One window -/

/-- Through this event the UID stays unfetchable, and nothing re-arms it: a
pass that reaches it finds it listed, fetches something, gets no body for it
and is not told that it is gone. -/
def staysUnfetchable (uid : Nat) (state : HoldState) : HoldEvent → Bool
  | .search listed _ =>
      match state.phase with
      | .selected selected =>
          (uid < resumeFrom selected.row || uid ∈ listed) &&
            (capUids (listedUids selected listed) selected.args.maxMessages
                ≠ [] || listedUids selected listed = [])
      | _ => true
  | .handle stillOnServer _ _ =>
      match state.phase with
      | .inBatch pass (head :: _) fetched =>
          head ≠ uid || (fetchedBody fetched uid).isNone &&
            (pass.serverEmptyingBodies || stillOnServer)
      | _ => true
  | .retry _ => !decide (state.db.Tombstoned uid)
  | .select .. | .fetch _ | .checkpoint | .crash | .purge .. => true

/-- A purge does not delete the UID's row. -/
def purgeSpares (uid : Nat) (state : HoldState) : HoldEvent → Bool
  | .purge now olderThan =>
      (purgeGaveUp state.db now olderThan).held uid = state.db.held uid
  | .select .. | .search .. | .fetch _ | .handle .. | .checkpoint | .crash
  | .retry _ => true

/-- The UID's row is the one that began at `since`, and it is a tombstone or
the next pass reaches it. -/
structure HeldSince (uid : Nat) (since : Micros) (db : SyncDb)
    (row : TransientFetch) : Prop where
  held : db.held uid = some row
  first : row.firstSeenAt = since
  reached : row.gaveUpAt.isSome ∨ resumeFrom db.mailbox ≤ uid

/-- In a pass: the row is a tombstone, or clamps the pass, or is still to
come. -/
structure PassTracks (uid : Nat) (since : Micros) (pass : Pass)
    (remaining : List Nat) : Prop where
  sorted : remaining.Pairwise (· ≤ ·)
  row : ∃ row, pass.work.held uid = some row ∧ row.firstSeenAt = since ∧
    (row.gaveUpAt.isSome ∨ (∃ clamp ∈ pass.holdAt, clamp ≤ uid) ∨
      pass.highestSeen < uid ∧
        (uid ∈ remaining ∨ ∀ other ∈ remaining, other < uid))

def TrackedPhase (uid : Nat) (since : Micros) (db : SyncDb) : Phase → Prop
  | .idle => True
  | .selected selected => selected.row = db.mailbox
  | .betweenBatches pass => PassTracks uid since pass pass.batches.flatten
  | .inBatch pass chunk _ =>
      PassTracks uid since pass (chunk ++ pass.batches.flatten)

structure Tracked (uid : Nat) (since : Micros) (state : HoldState) : Prop where
  pos : 0 < uid
  row : ∃ row, HeldSince uid since state.db row
  phase : TrackedPhase uid since state.db state.phase

section Tracking

variable {uid : Nat} {since : Micros} {pass next : Pass}
  {head : Nat} {chunk later : List Nat}

/-- Another UID is dealt with. -/
theorem PassTracks.other
    (htracks : PassTracks uid since pass (head :: chunk ++ later))
    (hne : head ≠ uid)
    (hheld : next.work.held uid = pass.work.held uid)
    (hseen : next.highestSeen ≤ max pass.highestSeen head)
    (hhold : ∀ clamp ∈ pass.holdAt, ∃ lower ∈ next.holdAt, lower ≤ clamp) :
    PassTracks uid since next (chunk ++ later) where
  sorted := (List.pairwise_cons.mp htracks.sorted).2
  row := by
    obtain ⟨row, hrow, hfirst, hsafe⟩ := htracks.row
    refine ⟨row, hheld.trans hrow, hfirst, ?_⟩
    obtain hgave | ⟨clamp, hclamp, hle⟩ | ⟨hlt, hahead⟩ := hsafe
    · exact .inl hgave
    · obtain ⟨lower, hlower, hlowerLe⟩ := hhold clamp hclamp
      exact .inr (.inl ⟨lower, hlower, Nat.le_trans hlowerLe hle⟩)
    · have hhead : head < uid := by
        obtain hmem | hall := hahead
        · have hrest := (List.mem_cons.mp hmem).resolve_left
            fun hsame => hne hsame.symm
          have hle := (List.pairwise_cons.mp htracks.sorted).1 uid hrest
          omega
        · exact hall head List.mem_cons_self
      refine .inr (.inr ⟨?_, ?_⟩)
      · exact Nat.lt_of_le_of_lt hseen (Nat.max_lt.mpr ⟨hlt, hhead⟩)
      · refine hahead.imp (fun hmem => ?_) fun hall other hother =>
          hall other (List.mem_cons_of_mem _ hother)
        exact (List.mem_cons.mp hmem).resolve_left fun hsame => hne hsame.symm

/-- The UID itself comes back empty once more. -/
theorem PassTracks.self {txNow : Micros}
    (htracks : PassTracks uid since pass (uid :: chunk ++ later))
    (hkeyed : pass.work.KeyedHolds) (hpos : 0 < uid) :
    PassTracks uid since (holdOrGiveUp pass uid txNow) (chunk ++ later) where
  sorted := (List.pairwise_cons.mp htracks.sorted).2
  row := by
    obtain ⟨hheld, hclamp, htomb⟩ := holdOrGiveUp_held hkeyed hpos txNow
    obtain ⟨row, hrow, hfirst, -⟩ := htracks.row
    obtain ⟨row', hrow', hsame, -⟩ := hheld.since row hrow
    refine ⟨row', hrow', hsame.trans hfirst, ?_⟩
    cases hkeeps : keepsHolding pass uid txNow with
    | true => exact .inr (.inl (hclamp hkeeps))
    | false =>
        obtain ⟨marked, hmarked, hgave⟩ := htomb hkeeps
        cases hrow'.symm.trans hmarked
        exact .inl hgave

end Tracking

theorem listedUids_sorted (selected : Selected) (listed : List Nat) :
    (listedUids selected listed).Pairwise (· ≤ ·) := by
  unfold listedUids
  split
  · exact List.pairwise_insertionSort (· ≤ ·) listed
  · exact List.pairwise_insertionSort (· ≤ ·) _

/-- The next pass's own filter keeps what is not below its resume point. -/
theorem mem_listedUids {selected : Selected} {listed : List Nat} {uid : Nat}
    (hlisted : uid ∈ listed) (hle : resumeFrom selected.row ≤ uid) :
    uid ∈ listedUids selected listed := by
  unfold listedUids
  split
  · simpa using hlisted
  · simp only [filterNewUids, mem_sortUids, List.mem_filter,
      decide_eq_true_eq]
    exact ⟨hlisted, hle⟩

/-- In a sorted list, what a prefix leaves out is above all it keeps. -/
theorem mem_take_or_lt {uids : List Nat} (hsorted : uids.Pairwise (· ≤ ·))
    {uid : Nat} (hmem : uid ∈ uids) (count : Nat) :
    uid ∈ uids.take count ∨ ∀ other ∈ uids.take count, other < uid := by
  by_cases hkept : uid ∈ uids.take count
  · exact .inl hkept
  · refine .inr fun other hother => ?_
    rw [← List.take_append_drop count uids] at hmem hsorted
    have hdropped := (List.mem_append.mp hmem).resolve_left hkept
    have hle := (List.pairwise_append.mp hsorted).2.2 other hother uid hdropped
    have hne : other ≠ uid := fun hsame => hkept (hsame ▸ hother)
    omega

theorem PassTracks.start {uid : Nat} {since : Micros} {state : HoldState}
    (hrow : ∃ row, HeldSince uid since state.db row) {selected : Selected}
    (hselected : selected.row = state.db.mailbox) {listed : List Nat}
    (hlisted : resumeFrom selected.row ≤ uid → uid ∈ listed) (now : Micros) :
    PassTracks uid since
      (startPass state.db selected
        (capUids (listedUids selected listed) selected.args.maxMessages) now)
      (startPass state.db selected
        (capUids (listedUids selected listed)
          selected.args.maxMessages) now).batches.flatten := by
  have hflatten : (startPass state.db selected
      (capUids (listedUids selected listed)
        selected.args.maxMessages) now).batches.flatten =
      capUids (listedUids selected listed) selected.args.maxMessages :=
    batches_flatten (by decide) _
  obtain ⟨count, htake⟩ := capUids_eq_take (listedUids selected listed)
    selected.args.maxMessages
  have hsorted := listedUids_sorted selected listed
  rw [hflatten, htake]
  refine ⟨hsorted.sublist (List.take_sublist _ _), ?_⟩
  obtain ⟨row, hheld, hfirst, hreached⟩ := hrow
  refine ⟨row, hheld, hfirst, hreached.imp_right fun hle => .inr ⟨?_, ?_⟩⟩
  · rw [← hselected] at hle
    have hpos := resumeFrom_pos selected.row
    change resumeFrom selected.row - 1 < uid
    omega
  · rw [← hselected] at hle
    exact mem_take_or_lt hsorted (mem_listedUids (hlisted hle) hle) count

/-- A checkpoint leaves the row, and the resume point not past it unless it
is a tombstone. -/
theorem PassTracks.checkpoint {uid : Nat} {since : Micros} {pass : Pass}
    {remaining : List Nat} (htracks : PassTracks uid since pass remaining)
    (hkeyed : pass.work.KeyedHolds) (hpos : 0 < uid) :
    (∃ row, HeldSince uid since (checkpointPass pass) row) ∧
      PassTracks uid since { pass with work := checkpointPass pass }
        remaining := by
  obtain ⟨row, hrow, hfirst, hsafe⟩ := htracks.row
  have hspared : checkpointUidnext pass.highestSeen pass.holdAt ≤ uid ∨
      row.gaveUpAt.isSome := by
    obtain hgave | ⟨clamp, hclamp, hle⟩ | ⟨hlt, -⟩ := hsafe
    · exact .inr hgave
    · exact .inl (Nat.le_trans
        (checkpointUidnext_le_held pass.highestSeen hclamp) hle)
    · exact .inl (Nat.le_trans
        (checkpointUidnext_le pass.highestSeen pass.holdAt) hlt)
  have hkept := held_checkpointPass hkeyed hrow hspared
  refine ⟨⟨row, hkept, hfirst, hspared.symm.imp_right fun hle => ?_⟩,
    htracks.sorted, row, hkept, hfirst, hsafe⟩
  rw [checkpointPass_mailbox]
  refine resumeFrom_le hpos ?_
  rintro uidnext ⟨⟩
  exact hle

/-- A step through which the UID stays unfetchable keeps its window. -/
theorem Tracked.step {parse : Parser} {uidvalidity uid : Nat}
    {since : Micros} {state next : HoldState} {event : HoldEvent}
    (htracked : Tracked uid since state) (hinv : HoldInv uidvalidity state)
    (hstays : staysUnfetchable uid state event = true)
    (hspares : purgeSpares uid state event = true)
    (hstep : holdStep parse uidvalidity state event = some next) :
    Tracked uid since next := by
  obtain ⟨hpos, hrow, hphase⟩ := htracked
  have hokay := hinv.phase
  cases event with
  | select args serverUidnext =>
      simp only [holdStep] at hstep
      split at hstep
      · rw [selectMailbox_between hinv.space] at hstep
        cases hstep
        exact ⟨hpos, hrow, rfl⟩
      · cases hstep
  | search listed now =>
      simp only [holdStep] at hstep
      split at hstep
      · rename_i selected hselected
        rw [hselected] at hphase
        simp only [staysUnfetchable, hselected, Bool.and_eq_true,
          Bool.or_eq_true, decide_eq_true_eq] at hstays
        obtain ⟨hlisted, hcap⟩ := hstays
        have hmem : resumeFrom selected.row ≤ uid → uid ∈ listed :=
          fun hle => hlisted.resolve_left (Nat.not_lt.mpr hle)
        split at hstep
        · split at hstep
          · rename_i hempty
            cases hstep
            refine ⟨hpos, ?_, trivial⟩
            obtain ⟨row, hheld, hfirst, hreached⟩ := hrow
            refine ⟨row, hheld, hfirst, hreached.imp_right fun hle => ?_⟩
            -- listed and nothing to fetch cannot both be
            rw [← show selected.row = state.db.mailbox from hphase] at hle
            have hthere := mem_listedUids (hmem hle) hle
            rw [hcap.resolve_left (not_not_intro hempty)] at hthere
            cases hthere
          · cases hstep
            exact ⟨hpos, hrow, .start hrow hphase hmem now⟩
        · cases hstep
      · cases hstep
  | fetch answer =>
      simp only [holdStep] at hstep
      split at hstep
      · rename_i pass hpass
        rw [hpass] at hphase
        split at hstep
        · rename_i chunk rest hbatches
          cases hstep
          have htracks : PassTracks uid since pass pass.batches.flatten :=
            hphase
          rw [hbatches, List.flatten_cons] at htracks
          exact ⟨hpos, hrow, htracks.sorted, htracks.row⟩
        · cases hstep
      · cases hstep
  | handle stillOnServer fault txNow =>
      simp only [holdStep] at hstep
      split at hstep
      · rename_i pass head chunk fetched hbatch
        rw [hbatch] at hphase hokay
        have hpass : PassHolds uidvalidity state pass
          (head :: chunk ++ pass.batches.flatten) := hokay
        have htracks : PassTracks uid since pass
          (head :: chunk ++ pass.batches.flatten) := hphase
        simp only [staysUnfetchable, hbatch, Bool.or_eq_true,
          Bool.and_eq_true, decide_eq_true_eq, Option.isNone_iff_eq_none]
          at hstays
        split at hstep
        · rename_i data hdata
          have hne : head ≠ uid := by
            rintro rfl
            obtain ⟨hnone, -⟩ := hstays.resolve_left fun hne => hne rfl
            rw [hnone] at hdata
            cases hdata
          split at hstep
          · rename_i stored hstored
            cases hstep
            have hbody := storeBody_stored hpass.keyed hstored
            refine ⟨hpos, hrow, ?_⟩
            change PassTracks uid since stored
              (chunk ++ stored.batches.flatten)
            rw [hbody.batches]
            exact htracks.other hne
              (hbody.others uid fun hsame => hne hsame.symm)
              (Nat.le_of_eq hbody.seen)
              fun clamp hclamp => ⟨clamp, hbody.hold ▸ hclamp, Nat.le_refl _⟩
          · cases hstep
            exact ⟨hpos, hrow, trivial⟩
        · split at hstep
          · cases hstep
            obtain ⟨hheld, -⟩ := holdOrGiveUp_held hpass.keyed
              (hpass.pos head List.mem_cons_self) txNow
            refine ⟨hpos, hrow, ?_⟩
            change PassTracks uid since _ (chunk ++
              (holdOrGiveUp pass head txNow).batches.flatten)
            rw [hheld.batches]
            by_cases hself : head = uid
            · subst hself
              exact htracks.self hpass.keyed hpos
            · exact htracks.other hself
                (hheld.others uid fun hsame => hself hsame.symm)
                hheld.seen hheld.hold
          · rename_i hgone
            cases hstep
            have hne : head ≠ uid := by
              rintro rfl
              obtain ⟨-, hpresent⟩ := hstays.resolve_left fun hne => hne rfl
              exact hgone hpresent
            exact ⟨hpos, hrow, htracks.other hne rfl (Nat.le_refl _)
              fun clamp hclamp => ⟨clamp, hclamp, Nat.le_refl _⟩⟩
      · cases hstep
  | checkpoint =>
      simp only [holdStep] at hstep
      split at hstep
      · rename_i pass fetched hbatch
        rw [hbatch] at hphase hokay
        have hpass : PassHolds uidvalidity state pass
          pass.batches.flatten := hokay
        have htracks : PassTracks uid since pass pass.batches.flatten := hphase
        obtain ⟨hcommitted, hnext⟩ := htracks.checkpoint hpass.keyed hpos
        cases hstep
        refine ⟨hpos, hcommitted, ?_⟩
        change TrackedPhase uid since _ (if pass.batches = [] then _ else _)
        split
        · trivial
        · exact hnext
      · cases hstep
  | crash =>
      cases hstep
      exact ⟨hpos, hrow, trivial⟩
  | retry now =>
      simp only [holdStep] at hstep
      split at hstep
      · rename_i hidle
        cases hstep
        obtain ⟨row, hheld, hfirst, hreached⟩ := hrow
        have hlive : ¬ row.gaveUpAt.isSome := by
          intro hgave
          simp only [staysUnfetchable, Bool.not_eq_eq_eq_not, Bool.not_true,
            decide_eq_false_iff_not] at hstays
          exact hstays (hinv.keyed.tombstoned_iff.mpr ⟨row, hheld, hgave⟩)
        refine ⟨hpos, ⟨row, ?_, hfirst, .inr ?_⟩, ?_⟩
        · change (retryFailedFetches state.db now).held uid = some row
          rw [held_retryFailedFetches, hheld]
          simp [hlive]
        · refine resumeFrom_le hpos ?_
          intro rewound hrewound
          obtain ⟨stored, hstored, hle⟩ :=
            retryFailedFetches_uidnext_le hrewound
          have hstoredLe : stored ≤ resumeFrom state.db.mailbox :=
            le_resumeFrom hstored
          exact Nat.le_trans hle
            (Nat.le_trans hstoredLe (hreached.resolve_left hlive))
        · rw [hidle]
          trivial
      · cases hstep
  | purge now olderThan =>
      simp only [holdStep] at hstep
      split at hstep
      · rename_i hidle
        cases hstep
        simp only [purgeSpares, decide_eq_true_eq] at hspares
        obtain ⟨row, hheld, hfirst, hreached⟩ := hrow
        refine ⟨hpos, ⟨row, hspares.trans hheld, hfirst, hreached⟩, ?_⟩
        rw [hidle]
        trivial
      · cases hstep

/-- A held UID keeps its window through any run in which it stays
unfetchable and no purge takes its row. -/
theorem heldSince_kept {parse : Parser} {uidvalidity uid : Nat}
    {since : Micros} {state final : HoldState} {row : TransientFetch}
    (hinv : HoldInv uidvalidity state) (hidle : state.phase = .idle)
    (hheld : HeldSince uid since state.db row)
    (hrun : GuardedReach (holdStep parse uidvalidity)
      (fun before event => staysUnfetchable uid before event = true ∧
        purgeSpares uid before event = true) state final) :
    ∃ row', HeldSince uid since final.db row' := by
  have hpos : 0 < uid :=
    SyncDb.held_uid hheld.held ▸ hinv.keyed.pos row
      (SyncDb.mem_of_held hheld.held)
  have hboth : HoldInv uidvalidity final ∧ Tracked uid since final := by
    apply hrun.invariant
    · refine ⟨hinv, hpos, ⟨row, hheld⟩, ?_⟩
      rw [hidle]
      trivial
    · intro before event after hbefore hguard hstep
      exact ⟨hbefore.1.step hstep,
        hbefore.2.step hbefore.1 hguard.1 hguard.2 hstep⟩
  exact hboth.2.row

/-! ### Tombstones -/

/-- A row becomes a tombstone only in the commit of a pass in which its window
was over. -/
theorem gaveUp_expired {parse : Parser} {uidvalidity : Nat}
    {state next : HoldState} {event : HoldEvent} {row : TransientFetch}
    (hinv : HoldInv uidvalidity state)
    (hstep : holdStep parse uidvalidity state event = some next)
    (hrow : row ∈ next.db.holds) (hgave : row.gaveUpAt.isSome)
    (hnew : ¬ state.db.Tombstoned row.uid) :
    ∃ pass fetched, state.phase = .inBatch pass [] fetched ∧
      holdExpired row.firstSeenAt pass.now pass.args.maxBodyFetchHold =
        true := by
  have hold : row ∉ state.db.holds := fun hmem => hnew ⟨row, hmem, rfl, hgave⟩
  have hphase := hinv.phase
  cases event with
  | select args serverUidnext =>
      simp only [holdStep] at hstep
      split at hstep
      · rw [selectMailbox_between hinv.space] at hstep
        cases hstep
        exact absurd hrow hold
      · cases hstep
  | search listed now =>
      simp only [holdStep] at hstep
      split at hstep
      · split at hstep
        · split at hstep <;> cases hstep <;> exact absurd hrow hold
        · cases hstep
      · cases hstep
  | fetch answer =>
      simp only [holdStep] at hstep
      split at hstep
      · split at hstep <;> cases hstep
        exact absurd hrow hold
      · cases hstep
  | handle stillOnServer fault txNow =>
      simp only [holdStep] at hstep
      split at hstep
      · split at hstep
        · split at hstep <;> cases hstep <;> exact absurd hrow hold
        · split at hstep <;> cases hstep <;> exact absurd hrow hold
      · cases hstep
  | checkpoint =>
      simp only [holdStep] at hstep
      split at hstep
      · rename_i pass fetched hbatch
        cases hstep
        rw [hbatch] at hphase
        have hpass : PassHolds uidvalidity state pass
          pass.batches.flatten := hphase
        refine ⟨pass, fetched, hbatch, ?_⟩
        have hwork := hpass.keyed.held_of_mem (List.mem_of_mem_filter hrow)
        refine (hpass.fresh row.uid row hwork hgave).resolve_left ?_
        exact fun hthere => hnew (hinv.keyed.tombstoned_iff.mpr hthere)
      · cases hstep
  | crash =>
      cases hstep
      exact absurd hrow hold
  | retry now =>
      simp only [holdStep] at hstep
      split at hstep
      · cases hstep
        obtain ⟨old, holdRow, hsame⟩ := List.mem_map.mp hrow
        refine absurd ⟨old, holdRow, ?_⟩ hnew
        split at hsame
        · subst hsame
          exact ⟨rfl, hgave⟩
        · subst hsame
          exact ⟨rfl, hgave⟩
      · cases hstep
  | purge now olderThan =>
      simp only [holdStep] at hstep
      split at hstep
      · cases hstep
        exact absurd (List.mem_of_mem_filter hrow) hold
      · cases hstep

/-- A tombstone goes, or changes its moment, only in a purge or in the commit
of a transaction that received its body. -/
theorem tombstone_kept {parse : Parser} {uidvalidity : Nat}
    {state next : HoldState} {event : HoldEvent} {row : TransientFetch}
    {gave : Micros} (hinv : HoldInv uidvalidity state)
    (hstep : holdStep parse uidvalidity state event = some next)
    (hrow : row ∈ state.db.holds) (hgave : row.gaveUpAt = some gave) :
    (∃ row' ∈ next.db.holds, row'.uid = row.uid ∧
        row'.gaveUpAt = some gave) ∨
      (∃ now olderThan, event = .purge now olderThan) ∨
      event = .checkpoint ∧ row.uid ∈ state.bodies := by
  have hsame : next.db.holds = state.db.holds →
      ∃ row' ∈ next.db.holds, row'.uid = row.uid ∧
        row'.gaveUpAt = some gave :=
    fun hholds => ⟨row, hholds ▸ hrow, rfl, hgave⟩
  have hphase := hinv.phase
  cases event with
  | select args serverUidnext =>
      simp only [holdStep] at hstep
      split at hstep
      · rw [selectMailbox_between hinv.space] at hstep
        cases hstep
        exact .inl (hsame rfl)
      · cases hstep
  | search listed now =>
      simp only [holdStep] at hstep
      split at hstep
      · split at hstep
        · split at hstep <;> cases hstep <;> exact .inl (hsame rfl)
        · cases hstep
      · cases hstep
  | fetch answer =>
      simp only [holdStep] at hstep
      split at hstep
      · split at hstep <;> cases hstep
        exact .inl (hsame rfl)
      · cases hstep
  | handle stillOnServer fault txNow =>
      simp only [holdStep] at hstep
      split at hstep
      · split at hstep
        · split at hstep <;> cases hstep <;> exact .inl (hsame rfl)
        · split at hstep <;> cases hstep <;> exact .inl (hsame rfl)
      · cases hstep
  | checkpoint =>
      simp only [holdStep] at hstep
      split at hstep
      · rename_i pass fetched hbatch
        cases hstep
        rw [hbatch] at hphase
        have hpass : PassHolds uidvalidity state pass
          pass.batches.flatten := hphase
        obtain hbody | ⟨row', hrow', hgave'⟩ := hpass.kept row.uid row gave
          (hinv.keyed.held_of_mem hrow) hgave
        · exact .inr (.inr ⟨rfl, hbody⟩)
        · have hkept := held_checkpointPass hpass.keyed hrow'
            (.inr (by rw [hgave']; rfl))
          exact .inl ⟨row', SyncDb.mem_of_held hkept, SyncDb.held_uid hkept,
            hgave'⟩
      · cases hstep
  | crash =>
      cases hstep
      exact .inl (hsame rfl)
  | retry now =>
      simp only [holdStep] at hstep
      split at hstep
      · cases hstep
        refine .inl ⟨_, List.mem_map_of_mem hrow, ?_⟩
        split
        · exact ⟨rfl, hgave⟩
        · exact ⟨rfl, hgave⟩
      · cases hstep
  | purge now olderThan => exact .inr (.inl ⟨now, olderThan, rfl⟩)

theorem tombstoned_of_retry {db : SyncDb} {now : Micros} {uid : Nat}
    (hgave : (retryFailedFetches db now).Tombstoned uid) :
    db.Tombstoned uid := by
  obtain ⟨row, hrow, huid, hset⟩ := hgave
  obtain ⟨old, hold, rfl⟩ := List.mem_map.mp hrow
  refine ⟨old, hold, ?_⟩
  by_cases hgiven : old.gaveUpAt.isSome
  · simp only [hgiven, ↓reduceIte] at huid
    exact ⟨huid, hgiven⟩
  · simp only [hgiven, Bool.false_eq_true, ↓reduceIte] at hset

/-! ### The bookkeeping -/

/-- The held-body bookkeeping is sound.  In every state the passes and the
operator lead to: the watermark is not past what the latest pass left held; a
held UID keeps its window while it stays unfetchable and no purge takes its
row; a UID is given up only when its window is over; a tombstone goes or
changes only through a body or a purge; and a rewind moves the watermark back
at most, to where the next pass reaches every tombstone. -/
theorem held_bookkeeping_sound (parse : Parser) (uidvalidity : Nat)
    {start state : HoldState} (hstart : start.Between uidvalidity)
    (hreach : Reach (holdStep parse uidvalidity) start state) :
    (∀ uid ∈ state.left, ∀ uidnext ∈ state.db.mailbox.uidnext,
      uidnext ≤ uid) ∧
    (∀ uid since row final, state.phase = .idle →
      HeldSince uid since state.db row →
      GuardedReach (holdStep parse uidvalidity)
        (fun before event => staysUnfetchable uid before event = true ∧
          purgeSpares uid before event = true) state final →
      ∃ row', HeldSince uid since final.db row') ∧
    (∀ event next row, holdStep parse uidvalidity state event = some next →
      row ∈ next.db.holds → row.gaveUpAt.isSome →
      ¬ state.db.Tombstoned row.uid →
      ∃ pass fetched, state.phase = .inBatch pass [] fetched ∧
        (pass.args.maxBodyFetchHold ≤ 0 ∨
          pass.args.maxBodyFetchHold ≤ pass.now - row.firstSeenAt)) ∧
    (∀ event next row gave,
      holdStep parse uidvalidity state event = some next →
      row ∈ state.db.holds → row.gaveUpAt = some gave →
      (∃ row' ∈ next.db.holds, row'.uid = row.uid ∧
        row'.gaveUpAt = some gave) ∨
      (∃ now olderThan, event = .purge now olderThan) ∨
      event = .checkpoint ∧ row.uid ∈ state.bodies) ∧
    (∀ now next, holdStep parse uidvalidity state (.retry now) = some next →
      (∀ rewound ∈ next.db.mailbox.uidnext,
        ∃ stored ∈ state.db.mailbox.uidnext, rewound ≤ stored) ∧
      ∀ uid, next.db.Tombstoned uid → ∀ args serverUidnext listed,
        uid ∈ listed → uid ∈ listedUids
          (selectMailbox ⟨uidvalidity, serverUidnext, []⟩ next.db args
            true).2 listed) := by
  have hinv : HoldInv uidvalidity state :=
    hreach.invariant hstart.holdInv
      fun _ _ _ hbefore _ hstep => hbefore.step hstep
  refine ⟨hinv.left, ?_, ?_, ?_, ?_⟩
  · intro uid since row final hidle hheld hrun
    exact heldSince_kept hinv hidle hheld hrun
  · intro event next row hstep hrow hgave hnew
    obtain ⟨pass, fetched, hphase, hexpired⟩ :=
      gaveUp_expired hinv hstep hrow hgave hnew
    refine ⟨pass, fetched, hphase, ?_⟩
    simpa [holdExpired] using hexpired
  · intro event next row gave hstep hrow hgave
    exact tombstone_kept hinv hstep hrow hgave
  · intro now next hstep
    have hnext := hinv.step hstep
    simp only [holdStep] at hstep
    split at hstep
    · cases hstep
      refine ⟨fun rewound hrewound =>
        retryFailedFetches_uidnext_le hrewound, ?_⟩
      intro uid hgave args serverUidnext listed hlisted
      rw [selectMailbox_between hnext.space]
      refine mem_listedUids hlisted (resumeFrom_le ?_ ?_)
      · obtain ⟨row, hrow, rfl, -⟩ := hgave
        exact hnext.keyed.pos row hrow
      · exact retryFailedFetches_reaches now (tombstoned_of_retry hgave)
    · cases hstep

namespace HeldWitness

/-- No body of these runs is ever parsed. -/
def noParser : Parser := fun _ => none

def synced : HoldState :=
  ⟨⟨⟨none, none⟩, [], 1, [], [], []⟩, .idle, [], [], []⟩

theorem synced_between : synced.Between 1 :=
  ⟨rfl, nofun, List.nodup_nil, nofun, rfl⟩

/-- One pass that finds UID 3 without a body. -/
def emptyPass (now : Micros) : List HoldEvent :=
  [.select ⟨none, 100⟩ 4, .search [3] now, .fetch [], .handle true none now,
    .checkpoint]

/-- UID 3 is held, given up on, re-driven and held again. -/
def rearmed : List HoldEvent :=
  emptyPass 0 ++ emptyPass 200 ++ [.retry 300] ++ emptyPass 310

/-- The operator purges, and the next pass finds it without a body again. -/
def purged : List HoldEvent :=
  .purge 320 none :: emptyPass 330

end HeldWitness

open HeldWitness in
/-- A purge deletes the row of an armed tombstone that is being held again,
and the next pass opens a new window for it. -/
theorem held_window_reopened_by_purge :
    ¬ ∀ (parse : Parser) (uidvalidity : Nat) (start state : HoldState),
      start.Between uidvalidity →
      Reach (holdStep parse uidvalidity) start state →
      ∀ uid since row final row', state.phase = .idle →
        HeldSince uid since state.db row →
        GuardedReach (holdStep parse uidvalidity)
          (fun before event => staysUnfetchable uid before event = true)
          state final →
        final.db.held uid = some row' → row'.firstSeenAt = since := by
  intro hclaim
  have hsame := hclaim noParser 1 synced _ synced_between
    (GuardedReach.of_replay rearmed rfl) 3 300 _ _ _ rfl
    ⟨rfl, rfl, .inr (by decide)⟩ (GuardedReach.of_replay purged rfl) rfl
  revert hsame
  decide

open HeldWitness in
theorem held_bookkeeping_sound_rearmed :
    ∃ state, replayGuarded (holdStep noParser 1) (fun _ _ => True) synced
        rearmed = some state ∧ state.left = [3] ∧
      state.db.mailbox.uidnext = some 3 ∧ state.db.Tombstoned 3 ∧
      ∀ uid ∈ state.left, ∀ uidnext ∈ state.db.mailbox.uidnext,
        uidnext ≤ uid := by
  refine ⟨_, rfl, rfl, rfl, by decide, ?_⟩
  exact (held_bookkeeping_sound noParser 1 synced_between
    (GuardedReach.of_replay rearmed rfl)).1

end Localmail
