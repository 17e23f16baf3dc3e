/-
What every run of the held-body bookkeeping keeps: the clamp below what a pass
holds, tombstones only past their window, and a rewind that reaches them all.
-/
import Localmail.HeldRows

namespace Localmail

/-! ### The invariant -/

/-- What holds of a pass and its open transaction, with `remaining` still to
come. -/
structure PassHolds (uidvalidity : Nat) (state : HoldState) (pass : Pass)
    (remaining : List Nat) : Prop where
  space : pass.serverUidvalidity = uidvalidity
  keyed : pass.work.KeyedHolds
  pos : ∀ uid ∈ remaining, 0 < uid
  holding : ∀ uid ∈ state.holding, ∃ clamp ∈ pass.holdAt, clamp ≤ uid
  fresh : ∀ uid row, pass.work.held uid = some row → row.gaveUpAt.isSome →
    (∃ old, state.db.held uid = some old ∧ old.gaveUpAt.isSome) ∨
      holdExpired row.firstSeenAt pass.now pass.args.maxBodyFetchHold = true
  kept : ∀ uid old gave, state.db.held uid = some old →
    old.gaveUpAt = some gave →
      uid ∈ state.bodies ∨
        ∃ row, pass.work.held uid = some row ∧ row.gaveUpAt = some gave

def HoldPhaseOk (uidvalidity : Nat) (state : HoldState) : Phase → Prop
  | .idle => True
  | .selected selected =>
      selected.serverUidvalidity = uidvalidity ∧ state.left = [] ∧
        state.holding = []
  | .betweenBatches pass =>
      PassHolds uidvalidity state pass pass.batches.flatten
  | .inBatch pass chunk _ =>
      PassHolds uidvalidity state pass (chunk ++ pass.batches.flatten)

structure HoldInv (uidvalidity : Nat) (state : HoldState) : Prop where
  space : ∀ stored ∈ state.db.mailbox.uidvalidity, stored = uidvalidity
  keyed : state.db.KeyedHolds
  left : ∀ uid ∈ state.left, ∀ uidnext ∈ state.db.mailbox.uidnext,
    uidnext ≤ uid
  phase : HoldPhaseOk uidvalidity state state.phase

theorem HoldState.Between.holdInv {uidvalidity : Nat} {state : HoldState}
    (hbetween : state.Between uidvalidity) : HoldInv uidvalidity state where
  space := hbetween.space
  keyed := ⟨hbetween.keyed, hbetween.pos⟩
  left := by
    rw [hbetween.left]
    nofun
  phase := by
    rw [hbetween.idle]
    trivial

/-! ### One UID at a time -/

section Handle

variable {uidvalidity : Nat} {state : HoldState} {pass next : Pass}
  {uid : Nat} {chunk later : List Nat}

theorem PassHolds.stored
    (hpass : PassHolds uidvalidity state pass (uid :: chunk ++ later))
    (hstored : BodyStored uid pass next) (phase : Phase) :
    PassHolds uidvalidity
      { state with
        phase := phase
        holding := state.holding.filter (· ≠ uid)
        bodies := uid :: state.bodies } next (chunk ++ later) where
  space := hstored.space.trans hpass.space
  keyed := hstored.keyed
  pos := fun other hother => hpass.pos other (List.mem_cons_of_mem _ hother)
  holding := fun other hother =>
    hstored.hold ▸ hpass.holding other (List.mem_of_mem_filter hother)
  fresh := by
    intro other row hrow hgave
    rw [hstored.now, hstored.args]
    by_cases hother : other = uid
    · subst hother
      exact hpass.fresh other row (hstored.fewer row hrow) hgave
    · exact hpass.fresh other row
        ((hstored.others other hother).symm.trans hrow) hgave
  kept := by
    intro other old gave hold hgave
    by_cases hother : other = uid
    · exact .inl (hother ▸ List.mem_cons_self)
    · rw [hstored.others other hother]
      exact (hpass.kept other old gave hold hgave).imp_left
        (List.mem_cons_of_mem _)

theorem PassHolds.heldBack
    (hpass : PassHolds uidvalidity state pass (uid :: chunk ++ later))
    (hheld : Held uid pass next) {holding : List Nat} (phase : Phase)
    (hholding : ∀ other ∈ holding, other ∈ state.holding ∨
      other = uid ∧ ∃ clamp ∈ next.holdAt, clamp ≤ uid) :
    PassHolds uidvalidity
      { state with phase := phase, holding := holding } next
      (chunk ++ later) where
  space := hheld.space.trans hpass.space
  keyed := hheld.keyed
  pos := fun other hother => hpass.pos other (List.mem_cons_of_mem _ hother)
  holding := by
    intro other hother
    obtain hold | ⟨rfl, hclamp⟩ := hholding other hother
    · obtain ⟨clamp, hclamp, hle⟩ := hpass.holding other hold
      obtain ⟨lower, hlower, hlowerLe⟩ := hheld.hold clamp hclamp
      exact ⟨lower, hlower, Nat.le_trans hlowerLe hle⟩
    · exact hclamp
  fresh := by
    intro other row' hrow' hgave
    by_cases hother : other = uid
    · subst hother
      obtain ⟨row, hrow, hrowGave⟩ | hexpired := hheld.gaveUp row' hrow' hgave
      · obtain ⟨again, hagain, hfirst, -⟩ := hheld.since row hrow
        cases hrow'.symm.trans hagain
        rw [hfirst, hheld.now, hheld.args]
        exact hpass.fresh other row hrow hrowGave
      · exact .inr hexpired
    · rw [hheld.now, hheld.args]
      exact hpass.fresh other row'
        ((hheld.others other hother).symm.trans hrow') hgave
  kept := by
    intro other old gave hold hgave
    refine (hpass.kept other old gave hold hgave).imp_right ?_
    rintro ⟨row, hrow, hrowGave⟩
    by_cases hother : other = uid
    · subst hother
      obtain ⟨row', hrow', -, hsame⟩ := hheld.since row hrow
      exact ⟨row', hrow', hsame gave hrowGave⟩
    · exact ⟨row, (hheld.others other hother).trans hrow, hrowGave⟩

/-- A UID reported gone only moves the running maximum. -/
theorem PassHolds.gone
    (hpass : PassHolds uidvalidity state pass (uid :: chunk ++ later))
    (phase : Phase) (seen : Nat) :
    PassHolds uidvalidity { state with phase := phase }
      { pass with highestSeen := seen } (chunk ++ later) where
  space := hpass.space
  keyed := hpass.keyed
  pos := fun other hother => hpass.pos other (List.mem_cons_of_mem _ hother)
  holding := hpass.holding
  fresh := hpass.fresh
  kept := hpass.kept

end Handle

/-! ### Starting and committing -/

theorem selectMailbox_between {uidvalidity serverUidnext : Nat} {db : SyncDb}
    (hspace : ∀ stored ∈ db.mailbox.uidvalidity, stored = uidvalidity)
    (args : PassArgs) :
    selectMailbox ⟨uidvalidity, serverUidnext, []⟩ db args true =
      (db, ⟨args, db.mailbox, uidvalidity, serverUidnext⟩) := by
  simp only [selectMailbox, ↓reduceIte, Prod.mk.injEq, and_true]
  rw [if_neg]
  rintro ⟨hfull, hsome⟩
  obtain ⟨stored, hstored⟩ := Option.isSome_iff_exists.mp hsome
  simp [Selected.fullSync, hstored, hspace stored hstored] at hfull

theorem mem_of_mem_capUids {uids : List Nat} {cap : Option Int} {uid : Nat}
    (hmem : uid ∈ capUids uids cap) : uid ∈ uids := by
  obtain ⟨count, htake⟩ := capUids_eq_take uids cap
  rw [htake] at hmem
  exact List.mem_of_mem_take hmem

theorem mem_of_mem_listedUids {selected : Selected} {listed : List Nat}
    {uid : Nat} (hmem : uid ∈ listedUids selected listed) : uid ∈ listed := by
  unfold listedUids at hmem
  split at hmem
  · simpa using hmem
  · simp only [filterNewUids, mem_sortUids] at hmem
    exact List.mem_of_mem_filter hmem

theorem PassHolds.start {uidvalidity : Nat} {state : HoldState}
    (hinv : HoldInv uidvalidity state) {selected : Selected}
    (hspace : selected.serverUidvalidity = uidvalidity)
    (hholding : state.holding = []) {uids : List Nat}
    (hpos : ∀ uid ∈ uids, 0 < uid) (now : Micros) (phase : Phase) :
    PassHolds uidvalidity { state with phase := phase }
      (startPass state.db selected uids now)
      (startPass state.db selected uids now).batches.flatten where
  space := hspace
  keyed := hinv.keyed
  pos := by
    intro uid huid
    change uid ∈ (batches batchSize uids).flatten at huid
    rw [batches_flatten (by decide)] at huid
    exact hpos uid huid
  holding := by
    intro uid huid
    change uid ∈ state.holding at huid
    rw [hholding] at huid
    cases huid
  fresh := fun uid row hrow hgave => .inl ⟨row, hrow, hgave⟩
  kept := fun uid old gave hold hgave => .inr ⟨old, hold, hgave⟩

theorem checkpointPass_mailbox (pass : Pass) :
    (checkpointPass pass).mailbox = ⟨some pass.serverUidvalidity,
      some (checkpointUidnext pass.highestSeen pass.holdAt)⟩ := rfl

theorem keyedHolds_checkpointPass {pass : Pass}
    (hkeyed : pass.work.KeyedHolds) : (checkpointPass pass).KeyedHolds := by
  have hprogress : (updateMailboxProgress pass.work pass.serverUidvalidity
      (checkpointUidnext pass.highestSeen pass.holdAt)).KeyedHolds :=
    hkeyed.of_holds_eq rfl
  exact keyedHolds_reclaimBelow hprogress _

/-- A checkpoint keeps the row of a tombstone, and any row the resume point
is not past. -/
theorem held_checkpointPass {pass : Pass} (hkeyed : pass.work.KeyedHolds)
    {uid : Nat} {row : TransientFetch} (hheld : pass.work.held uid = some row)
    (hspared : checkpointUidnext pass.highestSeen pass.holdAt ≤ uid ∨
      row.gaveUpAt.isSome) :
    (checkpointPass pass).held uid = some row :=
  held_reclaimBelow (hkeyed.of_holds_eq rfl) hheld hspared

theorem HoldInv.checkpoint {uidvalidity : Nat} {state : HoldState}
    {pass : Pass} (hpass : PassHolds uidvalidity state pass
      pass.batches.flatten) :
    HoldInv uidvalidity
      { db := checkpointPass pass
        phase :=
          if pass.batches = [] then .idle
          else .betweenBatches { pass with work := checkpointPass pass }
        left := state.holding
        holding := state.holding
        bodies := [] } where
  space := by
    intro stored hstored
    cases hstored
    exact hpass.space
  keyed := keyedHolds_checkpointPass hpass.keyed
  left := by
    intro uid huid uidnext huidnext
    cases huidnext
    obtain ⟨clamp, hclamp, hle⟩ := hpass.holding uid huid
    exact Nat.le_trans (checkpointUidnext_le_held pass.highestSeen hclamp) hle
  phase := by
    change HoldPhaseOk uidvalidity _ (if pass.batches = [] then _ else _)
    split
    · trivial
    · refine ⟨hpass.space, keyedHolds_checkpointPass hpass.keyed, hpass.pos,
        hpass.holding, fun uid row hrow hgave => .inl ⟨row, hrow, hgave⟩, ?_⟩
      exact fun uid old gave hold hgave => .inr ⟨old, hold, hgave⟩

/-! ### The operator -/

theorem min?_le {uids : List Nat} {lowest uid : Nat}
    (hlowest : uids.min? = some lowest) (huid : uid ∈ uids) : lowest ≤ uid :=
  (List.min?_eq_some_iff.mp hlowest).2 uid huid

/-- The rewind never moves forward, and reaches every tombstone. -/
theorem planUidnextRewind_spec (uids : List Nat) (current : Option Nat) :
    (∀ rewound ∈ planUidnextRewind (uids.map fun uid => (0, uid))
        (fun _ => current) 0, ∃ stored ∈ current, rewound < stored) ∧
      ∀ uid ∈ uids, ∀ resumed ∈
        (planUidnextRewind (uids.map fun uid => (0, uid))
          (fun _ => current) 0).or current, resumed ≤ uid := by
  have hmap : (uids.map fun uid => (0, uid)).filterMap (fun pair : Nat × Nat =>
      if pair.1 = 0 then some pair.2 else none) = uids := by
    rw [List.filterMap_map]
    exact List.filterMap_some
  unfold planUidnextRewind
  rw [hmap]
  cases current with
  | none => exact ⟨nofun, nofun⟩
  | some stored =>
      cases hmin : uids.min? with
      | none =>
          rw [List.min?_eq_none_iff] at hmin
          exact ⟨nofun, by rw [hmin]; nofun⟩
      | some lowest =>
          simp only
          split
          · rename_i hlt
            refine ⟨?_, ?_⟩
            · rintro rewound ⟨⟩
              exact ⟨stored, rfl, hlt⟩
            · rintro uid huid resumed ⟨⟩
              exact min?_le hmin huid
          · rename_i hge
            refine ⟨nofun, ?_⟩
            rintro uid huid resumed ⟨⟩
            exact Nat.le_trans (Nat.not_lt.mp hge) (min?_le hmin huid)

theorem mem_listGaveUp {db : SyncDb} {uid : Nat} :
    uid ∈ listGaveUp db ↔ db.Tombstoned uid := by
  simp only [listGaveUp, List.mem_map, List.mem_filter]
  constructor
  · rintro ⟨row, ⟨hrow, hgave⟩, huid⟩
    exact ⟨row, hrow, huid, hgave⟩
  · rintro ⟨row, hrow, huid, hgave⟩
    exact ⟨row, ⟨hrow, hgave⟩, huid⟩

theorem held_armForRetry (db : SyncDb) (now : Micros) (uid : Nat) :
    (armForRetry db now).held uid = (db.held uid).map fun row =>
      if row.gaveUpAt.isSome then
        { row with attemptCount := 0, firstSeenAt := now, lastSeenAt := now }
      else row :=
  held_rewrite (fun row => by split <;> rfl) uid

theorem held_retryFailedFetches (db : SyncDb) (now : Micros) (uid : Nat) :
    (retryFailedFetches db now).held uid = (db.held uid).map fun row =>
      if row.gaveUpAt.isSome then
        { row with attemptCount := 0, firstSeenAt := now, lastSeenAt := now }
      else row :=
  held_armForRetry _ now uid

theorem keyedHolds_retryFailedFetches {db : SyncDb}
    (hkeyed : db.KeyedHolds) (now : Micros) :
    (retryFailedFetches db now).KeyedHolds :=
  keyedHolds_rewrite (fun row => by split <;> rfl) (hkeyed.of_holds_eq rfl)

/-- The rewound watermark is the old one or lower. -/
theorem retryFailedFetches_uidnext_le {db : SyncDb} {now : Micros}
    {rewound : Nat}
    (hrewound : rewound ∈ (retryFailedFetches db now).mailbox.uidnext) :
    ∃ stored ∈ db.mailbox.uidnext, rewound ≤ stored := by
  obtain ⟨hback, -⟩ :=
    planUidnextRewind_spec (listGaveUp db) db.mailbox.uidnext
  change rewound ∈ Option.or _ _ at hrewound
  cases hplan : planUidnextRewind ((listGaveUp db).map fun uid => (0, uid))
      (fun _ => db.mailbox.uidnext) 0 with
  | none =>
      rw [hplan] at hrewound
      exact ⟨rewound, hrewound, Nat.le_refl _⟩
  | some planned =>
      rw [hplan] at hrewound
      cases hrewound
      obtain ⟨stored, hstored, hlt⟩ := hback rewound hplan
      exact ⟨stored, hstored, Nat.le_of_lt hlt⟩

/-- After the rewind no tombstone is below the watermark. -/
theorem retryFailedFetches_reaches {db : SyncDb} {uid : Nat} (now : Micros)
    (hgave : db.Tombstoned uid) :
    ∀ resumed ∈ (retryFailedFetches db now).mailbox.uidnext,
      resumed ≤ uid :=
  (planUidnextRewind_spec (listGaveUp db) db.mailbox.uidnext).2 uid
    (mem_listGaveUp.mpr hgave)

/-! ### Steps -/

/-- Every step keeps the invariant. -/
theorem HoldInv.step {parse : Parser} {uidvalidity : Nat}
    {state next : HoldState} {event : HoldEvent}
    (hinv : HoldInv uidvalidity state)
    (hstep : holdStep parse uidvalidity state event = some next) :
    HoldInv uidvalidity next := by
  have hdead : HoldInv uidvalidity state.rolledBack :=
    ⟨hinv.space, hinv.keyed, hinv.left, trivial⟩
  have hphase := hinv.phase
  cases event with
  | select args serverUidnext =>
      simp only [holdStep] at hstep
      split at hstep
      · rw [selectMailbox_between hinv.space] at hstep
        cases hstep
        exact ⟨hinv.space, hinv.keyed, nofun, rfl, rfl, rfl⟩
      · cases hstep
  | search listed now =>
      simp only [holdStep] at hstep
      split at hstep
      · rename_i selected hselected
        rw [hselected] at hphase
        obtain ⟨hspace, hleft, hholding⟩ := hphase
        split at hstep
        · rename_i hpos
          split at hstep
          · cases hstep
            refine ⟨?_, hinv.keyed.of_holds_eq rfl, ?_, trivial⟩
            · rintro stored ⟨⟩
              exact hspace
            · rw [hleft]
              nofun
          · cases hstep
            refine ⟨hinv.space, hinv.keyed, hinv.left, ?_⟩
            exact .start hinv hspace hholding
              (fun uid huid => hpos uid
                (mem_of_mem_listedUids (mem_of_mem_capUids huid))) now _
        · cases hstep
      · cases hstep
  | fetch answer =>
      simp only [holdStep] at hstep
      split at hstep
      · rename_i pass hpass
        rw [hpass] at hphase
        split at hstep
        · rename_i chunk rest hbatches
          cases hstep
          refine ⟨hinv.space, hinv.keyed, hinv.left, ?_⟩
          have hholds : PassHolds uidvalidity state pass
            pass.batches.flatten := hphase
          rw [hbatches, List.flatten_cons] at hholds
          exact ⟨hholds.space, hholds.keyed, hholds.pos, hholds.holding,
            hholds.fresh, hholds.kept⟩
        · cases hstep
      · cases hstep
  | handle stillOnServer fault txNow =>
      simp only [holdStep] at hstep
      split at hstep
      · rename_i pass uid chunk fetched hbatch
        rw [hbatch] at hphase
        have hpass : PassHolds uidvalidity state pass
          (uid :: chunk ++ pass.batches.flatten) := hphase
        split at hstep
        · rename_i data hdata
          split at hstep
          · rename_i stored hstored
            cases hstep
            have hbody := storeBody_stored hpass.keyed hstored
            refine ⟨hinv.space, hinv.keyed, hinv.left, ?_⟩
            have hnext := hpass.stored hbody (.inBatch stored chunk fetched)
            rw [← hbody.batches] at hnext
            exact hnext
          · cases hstep
            exact hdead
        · split at hstep
          · cases hstep
            obtain ⟨hheld, hclamp, -⟩ := holdOrGiveUp_held hpass.keyed
              (hpass.pos uid List.mem_cons_self) txNow
            refine ⟨hinv.space, hinv.keyed, hinv.left, ?_⟩
            have hholding : ∀ other ∈ (if keepsHolding pass uid txNow then
                uid :: state.holding else state.holding),
                other ∈ state.holding ∨ other = uid ∧
                  ∃ clamp ∈ (holdOrGiveUp pass uid txNow).holdAt,
                    clamp ≤ uid := by
              intro other hother
              split at hother
              · rename_i hkeeps
                obtain rfl | hold := List.mem_cons.mp hother
                · exact .inr ⟨rfl, hclamp hkeeps⟩
                · exact .inl hold
              · exact .inl hother
            have hnext := hpass.heldBack hheld
              (.inBatch (holdOrGiveUp pass uid txNow) chunk fetched) hholding
            rw [← hheld.batches] at hnext
            exact hnext
          · cases hstep
            exact ⟨hinv.space, hinv.keyed, hinv.left, hpass.gone _ _⟩
      · cases hstep
  | checkpoint =>
      simp only [holdStep] at hstep
      split at hstep
      · rename_i pass fetched hbatch
        rw [hbatch] at hphase
        cases hstep
        exact .checkpoint hphase
      · cases hstep
  | crash =>
      cases hstep
      exact hdead
  | retry now =>
      simp only [holdStep] at hstep
      split at hstep
      · rename_i hidle
        cases hstep
        refine ⟨hinv.space, keyedHolds_retryFailedFetches hinv.keyed now, ?_,
          ?_⟩
        · intro uid huid uidnext huidnext
          obtain ⟨stored, hstored, hle⟩ :=
            retryFailedFetches_uidnext_le huidnext
          exact Nat.le_trans hle (hinv.left uid huid stored hstored)
        · rw [hidle]
          trivial
      · cases hstep
  | purge now olderThan =>
      simp only [holdStep] at hstep
      split at hstep
      · rename_i hidle
        cases hstep
        refine ⟨hinv.space, keyedHolds_filter hinv.keyed _, hinv.left, ?_⟩
        rw [hidle]
        trivial
      · cases hstep

end Localmail
