/-
Whether the reuse of a refresh token is still noticed.  Rotations and sweeps of
any families follow one another, each with its own `now()`; a sweep drops a
consumed token at its own expiry, while the tokens minted after it may live on.
-/
import Localmail.AuthTables

namespace Localmail

/-- `RotateResult`. -/
inductive RotateResult where
  | rotated (newToken : Nat)
  | reuse (family : Nat)
  | unknown
deriving Repr, DecidableEq

namespace AuthTables

variable (db : AuthTables)

/-- `_raw_state`: the family, and whether the token is consumed. -/
def rawState (secret : Nat) : Option (Nat × Bool) :=
  (db.refreshes secret).map fun row => (row.family, row.consumedAt.isSome)

/-- `_delete_family`. -/
def deleteFamily (family : Nat) : AuthTables :=
  db.deleteRefreshes fun row => row.family = family

def mintRefresh (now ttl : Nat) (clientId : Text) (userId family : Nat) :
    AuthTables :=
  db.insertRefresh ⟨clientId, userId, now, now + secs ttl, family, none⟩

/-- `sweep_consumed`. -/
def sweepConsumed (now : Nat) : AuthTables :=
  db.deleteRefreshes fun row => row.consumedAt.isSome && row.expiresAt < now

/-- The guard of the `UPDATE` that claims a token. -/
def claimable (secret : Nat) : Bool :=
  match db.refreshes secret with
  | none => false
  | some row =>
      row.consumedAt.isNone &&
        (db.users row.userId).any fun user =>
          credentialValidSql (some user) row.createdAt

def claimRefresh (now secret : Nat) : AuthTables :=
  db.updateRefresh secret fun row => { row with consumedAt := some now }

def rotateRefresh (now ttl secret : Nat) : AuthTables × RotateResult :=
  match db.rawState secret with
  | none => (db, .unknown)
  | some (family, true) => (db.deleteFamily family, .reuse family)
  | some (_, false) =>
      match loadRefresh db.reader now secret with
      | none => (db, .unknown)
      | some row =>
          if db.claimable secret then
            (((db.claimRefresh now secret).mintRefresh now ttl row.clientId
              row.userId row.family).sweepConsumed now, .rotated db.fresh)
          else
            match db.rawState secret with
            | some (_, true) => (db.deleteFamily row.family, .reuse row.family)
            | _ => (db, .unknown)

end AuthTables

/-! ### Runs -/

/-- The tables at a moment, with every token minted so far for the family that
is followed. -/
structure FamilyRun where
  db : AuthTables
  now : Nat
  chain : List Nat

/-- A call, some time after the one before it.  A grant mints the first token
of a new family. -/
inductive FamilyEvent where
  | grant (elapsed ttl : Nat) (clientId : Text) (userId : Nat)
  | rotate (elapsed ttl secret : Nat)
  | sweep (elapsed : Nat)
deriving Repr, DecidableEq

def FamilyEvent.elapsed : FamilyEvent → Nat
  | .grant elapsed _ _ _ | .rotate elapsed _ _ | .sweep elapsed => elapsed

/-- No refresh tokens yet. -/
def FamilyRun.start (users : Nat → Option UserRow) : FamilyRun :=
  ⟨{ AuthTables.empty with users := users }, 0, []⟩

/-- The chain with the token just minted, if it is of the family. -/
def chainWith (family : Nat) (chain : List Nat) (minted mintedFamily : Nat) :
    List Nat :=
  if mintedFamily = family then minted :: chain else chain

def FamilyRun.step (family : Nat) (run : FamilyRun) (event : FamilyEvent) :
    FamilyRun :=
  let now := run.now + event.elapsed
  match event with
  | .grant _ ttl clientId userId =>
      ⟨run.db.mintRefresh now ttl clientId userId run.db.fresh, now,
        chainWith family run.chain run.db.fresh run.db.fresh⟩
  | .rotate _ ttl secret =>
      let (db, result) := run.db.rotateRefresh now ttl secret
      match result with
      | .rotated newToken =>
          ⟨db, now, (run.db.rawState secret).elim run.chain fun state =>
            chainWith family run.chain newToken state.1⟩
      | .reuse _ | .unknown => ⟨db, now, run.chain⟩
  | .sweep _ => ⟨run.db.sweepConsumed now, now, run.chain⟩

/-- While a token of the family is live, every earlier one is a tombstone, and
presenting it deletes the family. -/
def Detectable (family : Nat) (run : FamilyRun) : Prop :=
  ∀ moment, run.now ≤ moment → ∀ live row,
    loadRefresh run.db.reader moment live = some row → row.family = family →
    ∀ earlier ∈ run.chain, earlier < live →
      (∃ old, run.db.refreshes earlier = some old ∧
        old.consumedAt.isSome = true ∧ old.family = family) ∧
      ∀ ttl, run.db.rotateRefresh moment ttl earlier =
        (run.db.deleteFamily family, .reuse family)

def FamilyLive (family : Nat) (db : AuthTables) (now : Nat) : Prop :=
  ∃ live row, loadRefresh db.reader now live = some row ∧ row.family = family

/-- No tombstone of the family is past its expiry. -/
def TombstonesUnexpired (family : Nat) (db : AuthTables) (now : Nat) : Prop :=
  ∀ tomb old, db.refreshes tomb = some old → old.family = family →
    old.consumedAt.isSome = true → now ≤ old.expiresAt

/-- The event sweeps no expired tombstone of a family that lives on: a
rotation of the family mints a token that lives, another call leaves a live one
as it is. -/
def FamilyEvent.Meets (family : Nat) (run : FamilyRun) (event : FamilyEvent) :
    Prop :=
  let now := run.now + event.elapsed
  match event with
  | .grant _ _ _ _ => True
  | .rotate _ ttl secret =>
      ∀ row, loadRefresh run.db.reader now secret = some row →
        (if row.family = family then 0 < ttl else FamilyLive family run.db now) →
          TombstonesUnexpired family run.db now
  | .sweep _ =>
      FamilyLive family run.db now → TombstonesUnexpired family run.db now

/-- At every moment of the run. -/
def AlwaysDetectable (family : Nat) : FamilyRun → List FamilyEvent → Prop
  | run, [] => Detectable family run
  | run, event :: rest =>
      Detectable family run ∧ AlwaysDetectable family (run.step family event) rest

def AllMeet (family : Nat) : FamilyRun → List FamilyEvent → Prop
  | _, [] => True
  | run, event :: rest =>
      event.Meets family run ∧ AllMeet family (run.step family event) rest

/-! ### Rows -/

/-- The row's user is there and its credentials are honoured. -/
def ValidUser (db : AuthTables) (row : RefreshRow) : Prop :=
  ∃ user, db.users row.userId = some user ∧
    credentialValidSql (some user) row.createdAt = true

section Rows

variable {db : AuthTables} {family now secret : Nat} {row : RefreshRow}
  {chain : List Nat}

theorem loadRefresh_eq_some_iff :
    loadRefresh db.reader now secret = some row ↔
      db.refreshes secret = some row ∧ row.consumedAt = none ∧
        now < row.expiresAt ∧ ValidUser db row := by
  constructor
  · intro hload
    obtain ⟨hrow, hconsumed, huser⟩ := loadRefresh_eq_some hload
    refine ⟨hrow, hconsumed, ?_, huser⟩
    unfold loadRefresh at hload
    rw [hrow] at hload
    obtain ⟨user, hfound, -⟩ := huser
    dsimp only at hload
    rw [hfound] at hload
    dsimp only at hload
    split at hload
    · rename_i hvalid
      simp only [Bool.and_eq_true, decide_eq_true_eq] at hvalid
      exact hvalid.1.1
    · cases hload
  · rintro ⟨hrow, hconsumed, hnow, user, hfound, hvalid⟩
    change db.reader (.refresh secret) = some row at hrow
    change db.reader (.user row.userId) = some user at hfound
    simp [loadRefresh, hrow, hfound, hconsumed, hnow, hvalid]

theorem loadRefresh_earlier {later : Nat} (hle : now ≤ later)
    (hload : loadRefresh db.reader later secret = some row) :
    loadRefresh db.reader now secret = some row := by
  obtain ⟨hrow, hconsumed, hnow, huser⟩ := loadRefresh_eq_some_iff.mp hload
  exact loadRefresh_eq_some_iff.mpr
    ⟨hrow, hconsumed, Nat.lt_of_le_of_lt hle hnow, huser⟩

theorem claimable_of_loadRefresh
    (hload : loadRefresh db.reader now secret = some row) :
    db.claimable secret = true := by
  obtain ⟨hrow, hconsumed, -, user, huser, hvalid⟩ :=
    loadRefresh_eq_some_iff.mp hload
  simp [AuthTables.claimable, hrow, hconsumed, huser, hvalid]

/-- The tables after the claim and the mint, before the sweep. -/
def rotating (db : AuthTables) (now ttl secret : Nat) (row : RefreshRow) :
    AuthTables :=
  (db.claimRefresh now secret).mintRefresh now ttl row.clientId row.userId
    row.family

/-- What a rotation does; whatever it loads it claims. -/
theorem rotateRefresh_of_loadRefresh (ttl : Nat)
    (hload : loadRefresh db.reader now secret = some row) :
    db.rotateRefresh now ttl secret =
      ((rotating db now ttl secret row).sweepConsumed now, .rotated db.fresh) := by
  obtain ⟨hrow, hconsumed, -⟩ := loadRefresh_eq_some_iff.mp hload
  have hstate : db.rawState secret = some (row.family, false) := by
    simp [AuthTables.rawState, hrow, hconsumed]
  rw [AuthTables.rotateRefresh, hstate]
  dsimp only
  rw [hload]
  exact if_pos (claimable_of_loadRefresh hload)

theorem rotateRefresh_of_consumed (ttl : Nat)
    (hrow : db.refreshes secret = some row)
    (hconsumed : row.consumedAt.isSome = true) :
    db.rotateRefresh now ttl secret =
      (db.deleteFamily row.family, .reuse row.family) := by
  have hstate : db.rawState secret = some (row.family, true) := by
    simp [AuthTables.rawState, hrow, hconsumed]
  rw [AuthTables.rotateRefresh, hstate]

theorem rotateRefresh_unknown (ttl : Nat)
    (hload : loadRefresh db.reader now secret = none)
    (hlive : ∀ row, db.refreshes secret = some row → row.consumedAt = none) :
    db.rotateRefresh now ttl secret = (db, .unknown) := by
  unfold AuthTables.rotateRefresh
  cases hrow : db.refreshes secret with
  | none =>
      have hstate : db.rawState secret = none := by
        simp [AuthTables.rawState, hrow]
      rw [hstate]
  | some row =>
      have hstate : db.rawState secret = some (row.family, false) := by
        simp [AuthTables.rawState, hrow, hlive row hrow]
      rw [hstate]
      dsimp only
      rw [hload]

/-- Of two numbers one is the token just minted, one the token presented. -/
theorem refreshes_rotating (ttl : Nat) (hrow : db.refreshes secret = some row)
    (hbelow : secret < db.fresh) (other : Nat) :
    (rotating db now ttl secret row).refreshes other =
      if other = db.fresh then
        some ⟨row.clientId, row.userId, now, now + secs ttl, row.family, none⟩
      else if other = secret then some { row with consumedAt := some now }
      else db.refreshes other := by
  have hclaimed : (db.claimRefresh now secret).refreshes =
      Function.update db.refreshes secret
        (some { row with consumedAt := some now }) := by
    rw [AuthTables.claimRefresh, AuthTables.updateRefresh, hrow]
    rfl
  change Function.update (db.claimRefresh now secret).refreshes db.fresh
    (some _) other = _
  by_cases hfresh : other = db.fresh
  · subst hfresh
    rw [Function.update_self, if_pos rfl]
  · rw [Function.update_of_ne hfresh, if_neg hfresh, hclaimed]
    by_cases hsame : other = secret
    · subst hsame
      rw [Function.update_self, if_pos rfl]
    · rw [Function.update_of_ne hsame, if_neg hsame]

/-! ### The chain -/

/-- Numbers are given out once, the chain has every row of the family, and
only its newest token can be unconsumed. -/
structure ChainInv (family : Nat) (chain : List Nat) (db : AuthTables)
    (now : Nat) : Prop where
  below : ∀ token row, db.refreshes token = some row →
    token < db.fresh ∧ row.family < db.fresh ∧ row.createdAt ≤ now
  chained : ∀ token ∈ chain, token < db.fresh ∧ family < db.fresh
  listed : ∀ token row, db.refreshes token = some row → row.family = family →
    token ∈ chain
  newest : ∀ token row, db.refreshes token = some row → row.family = family →
    row.consumedAt = none → ∀ other ∈ chain, other ≤ token

/-- While a token of the family is live, every earlier one is a tombstone. -/
def KeptIn (family : Nat) (chain : List Nat) (db : AuthTables) (now : Nat) :
    Prop :=
  ∀ live row, loadRefresh db.reader now live = some row →
    row.family = family → ∀ earlier ∈ chain, earlier < live →
      ∃ old, db.refreshes earlier = some old ∧
        old.consumedAt.isSome = true ∧ old.family = family

theorem KeptIn.later {later : Nat} (hkept : KeptIn family chain db now)
    (hle : now ≤ later) : KeptIn family chain db later :=
  fun live row hload => hkept live row (loadRefresh_earlier hle hload)

theorem detectable_iff {run : FamilyRun} :
    Detectable family run ↔ KeptIn family run.chain run.db run.now := by
  constructor
  · intro hdetectable live row hload hfamily earlier hearlier hlt
    exact (hdetectable run.now (Nat.le_refl _) live row hload hfamily earlier
      hearlier hlt).1
  · intro hkept moment hmoment live row hload hfamily earlier hearlier hlt
    obtain ⟨old, hold, hconsumed, rfl⟩ :=
      hkept.later hmoment live row hload hfamily earlier hearlier hlt
    exact ⟨⟨old, hold, hconsumed, rfl⟩,
      fun ttl => rotateRefresh_of_consumed ttl hold hconsumed⟩

theorem ChainInv.later {later : Nat} (hinv : ChainInv family chain db now)
    (hle : now ≤ later) : ChainInv family chain db later where
  below := by
    intro token row hrow
    obtain ⟨htoken, hfamily, hcreated⟩ := hinv.below token row hrow
    exact ⟨htoken, hfamily, hcreated.trans hle⟩
  chained := hinv.chained
  listed := hinv.listed
  newest := hinv.newest

/-- The row was there before a deletion, and was not chosen. -/
theorem refreshes_deleteRefreshes {chosen : RefreshRow → Bool} :
    (db.deleteRefreshes chosen).refreshes secret = some row ↔
      db.refreshes secret = some row ∧ chosen row = false := by
  change (db.refreshes secret).filter _ = some row ↔ _
  rw [Option.filter_eq_some_iff]
  simp

theorem loadRefresh_deleteRefreshes {chosen : RefreshRow → Bool} :
    loadRefresh (db.deleteRefreshes chosen).reader now secret = some row ↔
      loadRefresh db.reader now secret = some row ∧ chosen row = false := by
  rw [loadRefresh_eq_some_iff, loadRefresh_eq_some_iff,
    refreshes_deleteRefreshes]
  constructor
  · rintro ⟨⟨hrow, hchosen⟩, hconsumed, hnow, huser⟩
    exact ⟨⟨hrow, hconsumed, hnow, huser⟩, hchosen⟩
  · rintro ⟨⟨hrow, hconsumed, hnow, huser⟩, hchosen⟩
    exact ⟨⟨hrow, hchosen⟩, hconsumed, hnow, huser⟩

theorem ChainInv.delete (hinv : ChainInv family chain db now)
    (chosen : RefreshRow → Bool) :
    ChainInv family chain (db.deleteRefreshes chosen) now where
  below := fun token row hrow =>
    hinv.below token row (refreshes_deleteRefreshes.mp hrow).1
  chained := hinv.chained
  listed := fun token row hrow =>
    hinv.listed token row (refreshes_deleteRefreshes.mp hrow).1
  newest := fun token row hrow =>
    hinv.newest token row (refreshes_deleteRefreshes.mp hrow).1

/-- A sweep spares what a live token needs exactly if nothing of the family has
expired meanwhile. -/
theorem keptIn_sweepConsumed_iff (hinv : ChainInv family chain db now)
    (hkept : KeptIn family chain db now) :
    KeptIn family chain (db.sweepConsumed now) now ↔
      (FamilyLive family db now → TombstonesUnexpired family db now) := by
  constructor
  · rintro hswept ⟨live, row, hload, hfamily⟩ tomb old hold holdFamily hconsumed
    obtain ⟨hrow, hunconsumed, -⟩ := loadRefresh_eq_some_iff.mp hload
    have hlt : tomb < live := by
      refine Nat.lt_of_le_of_ne (hinv.newest live row hrow hfamily hunconsumed
        tomb (hinv.listed tomb old hold holdFamily)) ?_
      rintro rfl
      obtain rfl := Option.some.inj (hold.symm.trans hrow)
      rw [hunconsumed] at hconsumed
      cases hconsumed
    have hstill : loadRefresh (db.sweepConsumed now).reader now live = some row :=
      loadRefresh_deleteRefreshes.mpr ⟨hload, by simp [hunconsumed]⟩
    obtain ⟨found, hfound, -, -⟩ := hswept live row hstill hfamily tomb
      (hinv.listed tomb old hold holdFamily) hlt
    obtain ⟨hbefore, hspared⟩ := refreshes_deleteRefreshes.mp hfound
    obtain rfl := Option.some.inj (hold.symm.trans hbefore)
    simpa [hconsumed] using hspared
  · intro hsafe live row hload hfamily earlier hearlier hlt
    obtain ⟨hbefore, -⟩ := loadRefresh_deleteRefreshes.mp hload
    obtain ⟨old, hold, hconsumed, holdFamily⟩ :=
      hkept live row hbefore hfamily earlier hearlier hlt
    have hunexpired := hsafe ⟨live, row, hbefore, hfamily⟩ earlier old hold
      holdFamily hconsumed
    refine ⟨old, refreshes_deleteRefreshes.mpr ⟨hold, ?_⟩, hconsumed, holdFamily⟩
    simpa [hconsumed] using hunexpired

/-! ### A new family -/

theorem refreshes_mintRefresh (ttl : Nat) (clientId : Text)
    (userId mintedFamily other : Nat) :
    (db.mintRefresh now ttl clientId userId mintedFamily).refreshes other =
      if other = db.fresh then
        some ⟨clientId, userId, now, now + secs ttl, mintedFamily, none⟩
      else db.refreshes other := by
  change Function.update db.refreshes db.fresh (some _) other = _
  rw [Function.update_apply]

theorem mem_chainWith {minted mintedFamily token : Nat} :
    token ∈ chainWith family chain minted mintedFamily ↔
      token = minted ∧ mintedFamily = family ∨ token ∈ chain := by
  unfold chainWith
  by_cases hfamily : mintedFamily = family <;> simp [hfamily]

theorem ChainInv.notMem_of_unused (hinv : ChainInv family chain db now)
    (hunused : db.fresh ≤ family) (token : Nat) : token ∉ chain := by
  intro hmem
  exact absurd (hinv.chained token hmem).2 (Nat.not_lt.mpr hunused)

theorem ChainInv.grant (hinv : ChainInv family chain db now) (ttl : Nat)
    (clientId : Text) (userId : Nat) :
    ChainInv family (chainWith family chain db.fresh db.fresh)
      (db.mintRefresh now ttl clientId userId db.fresh) now where
  below := by
    intro token row hrow
    rw [refreshes_mintRefresh] at hrow
    split at hrow
    · rename_i hfresh
      cases hrow
      have htoken : token < db.fresh + 1 := hfresh ▸ Nat.lt_succ_self token
      exact ⟨htoken, Nat.lt_succ_self _, Nat.le_refl _⟩
    · obtain ⟨htoken, hfamily, hcreated⟩ := hinv.below token row hrow
      exact ⟨Nat.lt_succ_of_lt htoken, Nat.lt_succ_of_lt hfamily, hcreated⟩
  chained := by
    intro token htoken
    obtain ⟨hfresh, hsame⟩ | hold := mem_chainWith.mp htoken
    · change token < db.fresh + 1 ∧ family < db.fresh + 1
      omega
    · obtain ⟨hlt, hused⟩ := hinv.chained token hold
      exact ⟨Nat.lt_succ_of_lt hlt, Nat.lt_succ_of_lt hused⟩
  listed := by
    intro token row hrow hfamily
    rw [refreshes_mintRefresh] at hrow
    split at hrow
    · rename_i hfresh
      cases hrow
      exact mem_chainWith.mpr (.inl ⟨hfresh, hfamily⟩)
    · exact mem_chainWith.mpr (.inr (hinv.listed token row hrow hfamily))
  newest := by
    intro token row hrow hfamily hconsumed other hother
    rw [refreshes_mintRefresh] at hrow
    split at hrow
    · rename_i hfresh
      cases hrow
      obtain ⟨rfl, -⟩ | hold := mem_chainWith.mp hother
      · exact Nat.le_of_eq hfresh.symm
      · exact hfresh ▸ Nat.le_of_lt (hinv.chained other hold).1
    · have hused := (hinv.below token row hrow).2.1
      obtain ⟨-, hsame⟩ | hold := mem_chainWith.mp hother
      · exact absurd (hfamily.trans hsame.symm) (Nat.ne_of_lt hused)
      · exact hinv.newest token row hrow hfamily hconsumed other hold

theorem KeptIn.grant (hinv : ChainInv family chain db now)
    (hkept : KeptIn family chain db now) (ttl : Nat) (clientId : Text)
    (userId : Nat) :
    KeptIn family (chainWith family chain db.fresh db.fresh)
      (db.mintRefresh now ttl clientId userId db.fresh) now := by
  intro live row hload hfamily earlier hearlier hlt
  obtain ⟨hrow, hconsumed, hnow, huser⟩ := loadRefresh_eq_some_iff.mp hload
  rw [refreshes_mintRefresh] at hrow
  split at hrow
  · rename_i hfresh
    cases hrow
    -- the new family has had no other token
    obtain ⟨rfl, -⟩ | hold := mem_chainWith.mp hearlier
    · exact absurd hfresh (Nat.ne_of_gt hlt)
    · exact absurd hold (hinv.notMem_of_unused (Nat.le_of_eq hfamily) earlier)
  · have hbelow := hinv.below live row hrow
    have hold : earlier ∈ chain := by
      obtain ⟨-, hsame⟩ | hold := mem_chainWith.mp hearlier
      · exact absurd (hfamily.trans hsame.symm) (Nat.ne_of_lt hbelow.2.1)
      · exact hold
    obtain ⟨old, hfound, htomb⟩ := hkept live row
      (loadRefresh_eq_some_iff.mpr ⟨hrow, hconsumed, hnow, huser⟩) hfamily
      earlier hold hlt
    refine ⟨old, ?_, htomb⟩
    rw [refreshes_mintRefresh,
      if_neg (Nat.ne_of_lt (hinv.chained earlier hold).1)]
    exact hfound

/-! ### A rotation -/

section Rotation

variable (hinv : ChainInv family chain db now)
  (hload : loadRefresh db.reader now secret = some row) (ttl : Nat)

include hinv hload

theorem ChainInv.rotating_eq (other : Nat) :
    (rotating db now ttl secret row).refreshes other =
      if other = db.fresh then
        some ⟨row.clientId, row.userId, now, now + secs ttl, row.family, none⟩
      else if other = secret then some { row with consumedAt := some now }
      else db.refreshes other := by
  obtain ⟨hrow, -⟩ := loadRefresh_eq_some_iff.mp hload
  exact refreshes_rotating ttl hrow (hinv.below secret row hrow).1 other

/-- A row after the rotation is the successor, the tombstone or as before. -/
theorem ChainInv.rotating_cases {other : Nat} {found : RefreshRow}
    (hfound : (rotating db now ttl secret row).refreshes other = some found) :
    (other = db.fresh ∧ found =
      ⟨row.clientId, row.userId, now, now + secs ttl, row.family, none⟩) ∨
    (other = secret ∧ found = { row with consumedAt := some now }) ∨
    (other ≠ secret ∧ db.refreshes other = some found) := by
  rw [hinv.rotating_eq hload ttl] at hfound
  split at hfound
  · exact .inl ⟨‹_›, (Option.some.inj hfound).symm⟩
  · split at hfound
    · exact .inr (.inl ⟨‹_›, (Option.some.inj hfound).symm⟩)
    · exact .inr (.inr ⟨‹_›, hfound⟩)

theorem ChainInv.rotating_of_ne {other : Nat} {found : RefreshRow}
    (hne : other ≠ secret) (hfound : db.refreshes other = some found) :
    (rotating db now ttl secret row).refreshes other = some found := by
  rw [hinv.rotating_eq hload ttl,
    if_neg (Nat.ne_of_lt (hinv.below other found hfound).1), if_neg hne]
  exact hfound

theorem ChainInv.rotate :
    ChainInv family (chainWith family chain db.fresh row.family)
      (rotating db now ttl secret row) now where
  below := by
    obtain ⟨hrow, -⟩ := loadRefresh_eq_some_iff.mp hload
    obtain ⟨hsecret, hfamily, hcreated⟩ := hinv.below secret row hrow
    intro token found hfound
    obtain ⟨rfl, rfl⟩ | ⟨rfl, rfl⟩ | ⟨-, hbefore⟩ :=
      hinv.rotating_cases hload ttl hfound
    · exact ⟨Nat.lt_succ_self _, Nat.lt_succ_of_lt hfamily, Nat.le_refl _⟩
    · exact ⟨Nat.lt_succ_of_lt hsecret, Nat.lt_succ_of_lt hfamily, hcreated⟩
    · obtain ⟨htoken, hused, hmade⟩ := hinv.below token found hbefore
      exact ⟨Nat.lt_succ_of_lt htoken, Nat.lt_succ_of_lt hused, hmade⟩
  chained := by
    obtain ⟨hrow, -⟩ := loadRefresh_eq_some_iff.mp hload
    intro token htoken
    obtain ⟨rfl, hsame⟩ | hold := mem_chainWith.mp htoken
    · have hused := (hinv.below secret row hrow).2.1
      exact ⟨Nat.lt_succ_self _, hsame ▸ Nat.lt_succ_of_lt hused⟩
    · obtain ⟨hlt, hused⟩ := hinv.chained token hold
      exact ⟨Nat.lt_succ_of_lt hlt, Nat.lt_succ_of_lt hused⟩
  listed := by
    obtain ⟨hrow, -⟩ := loadRefresh_eq_some_iff.mp hload
    intro token found hfound hfamily
    rw [mem_chainWith]
    obtain ⟨rfl, rfl⟩ | ⟨rfl, rfl⟩ | ⟨-, hbefore⟩ :=
      hinv.rotating_cases hload ttl hfound
    · exact .inl ⟨rfl, hfamily⟩
    · exact .inr (hinv.listed token row hrow hfamily)
    · exact .inr (hinv.listed token found hbefore hfamily)
  newest := by
    obtain ⟨hrow, hunconsumed, -⟩ := loadRefresh_eq_some_iff.mp hload
    intro token found hfound hfamily hconsumed other hother
    obtain ⟨rfl, rfl⟩ | ⟨rfl, rfl⟩ | ⟨hne, hbefore⟩ :=
      hinv.rotating_cases hload ttl hfound
    · obtain ⟨rfl, -⟩ | hold := mem_chainWith.mp hother
      · exact Nat.le_refl _
      · exact Nat.le_of_lt (hinv.chained other hold).1
    · cases hconsumed
    · obtain ⟨rfl, hsame⟩ | hold := mem_chainWith.mp hother
      · -- two unconsumed tokens of one family would be the same
        have hle := hinv.newest token found hbefore hfamily hconsumed secret
          (hinv.listed secret row hrow hsame)
        have hge := hinv.newest secret row hrow hsame hunconsumed token
          (hinv.listed token found hbefore hfamily)
        exact absurd (Nat.le_antisymm hge hle) hne
      · exact hinv.newest token found hbefore hfamily hconsumed other hold

theorem KeptIn.rotate (hkept : KeptIn family chain db now) :
    KeptIn family (chainWith family chain db.fresh row.family)
      (rotating db now ttl secret row) now := by
  obtain ⟨hrow, hunconsumed, -⟩ := loadRefresh_eq_some_iff.mp hload
  have hsecret := (hinv.below secret row hrow).1
  have htomb : (rotating db now ttl secret row).refreshes secret =
      some { row with consumedAt := some now } := by
    rw [hinv.rotating_eq hload ttl, if_neg (Nat.ne_of_lt hsecret), if_pos rfl]
  -- a tombstone of before is one still
  have hcarry : ∀ earlier old, db.refreshes earlier = some old →
      old.consumedAt.isSome = true →
      (rotating db now ttl secret row).refreshes earlier = some old := by
    intro earlier old hold hconsumed
    refine hinv.rotating_of_ne hload ttl ?_ hold
    rintro rfl
    obtain rfl := Option.some.inj (hrow.symm.trans hold)
    rw [hunconsumed] at hconsumed
    cases hconsumed
  intro live found hlive hfamily earlier hearlier hlt
  obtain ⟨hfound, hfoundConsumed, hnow, huser⟩ :=
    loadRefresh_eq_some_iff.mp hlive
  obtain ⟨rfl, rfl⟩ | ⟨rfl, rfl⟩ | ⟨hne, hbefore⟩ :=
    hinv.rotating_cases hload ttl hfound
  · have hold : earlier ∈ chain := by
      obtain ⟨rfl, -⟩ | hold := mem_chainWith.mp hearlier
      · exact absurd hlt (Nat.lt_irrefl _)
      · exact hold
    obtain rfl | hearlierNe := eq_or_ne earlier secret
    · exact ⟨_, htomb, rfl, hfamily⟩
    · have hbelow := hinv.newest secret row hrow hfamily hunconsumed earlier hold
      obtain ⟨old, hfoundOld, hconsumed, holdFamily⟩ :=
        hkept secret row hload hfamily earlier hold
          (Nat.lt_of_le_of_ne hbelow hearlierNe)
      exact ⟨old, hcarry earlier old hfoundOld hconsumed, hconsumed, holdFamily⟩
  · cases hfoundConsumed
  · have hold : earlier ∈ chain := by
      obtain ⟨rfl, -⟩ | hold := mem_chainWith.mp hearlier
      · have hbelow := (hinv.below live found hbefore).1
        exact absurd hlt (Nat.lt_asymm hbelow)
      · exact hold
    obtain ⟨old, hfoundOld, hconsumed, holdFamily⟩ := hkept live found
      (loadRefresh_eq_some_iff.mpr ⟨hbefore, hfoundConsumed, hnow, huser⟩)
      hfamily earlier hold hlt
    exact ⟨old, hcarry earlier old hfoundOld hconsumed, hconsumed, holdFamily⟩

/-- The family lives after the mint if its successor does, or if it is another
family that did before. -/
theorem familyLive_rotating_iff :
    FamilyLive family (rotating db now ttl secret row) now ↔
      if row.family = family then 0 < ttl else FamilyLive family db now := by
  obtain ⟨hrow, hunconsumed, hnow, user, huser, hvalid⟩ :=
    loadRefresh_eq_some_iff.mp hload
  have hcreated := (hinv.below secret row hrow).2.2
  by_cases hsame : row.family = family
  · rw [if_pos hsame]
    constructor
    · rintro ⟨live, found, hlive, hfamily⟩
      obtain ⟨hfound, hfoundConsumed, hlater, -⟩ :=
        loadRefresh_eq_some_iff.mp hlive
      obtain ⟨rfl, rfl⟩ | ⟨rfl, rfl⟩ | ⟨hne, hbefore⟩ :=
        hinv.rotating_cases hload ttl hfound
      · simp only [secs] at hlater
        omega
      · cases hfoundConsumed
      · have hle := hinv.newest live found hbefore hfamily hfoundConsumed secret
          (hinv.listed secret row hrow hsame)
        have hge := hinv.newest secret row hrow hsame hunconsumed live
          (hinv.listed live found hbefore hfamily)
        exact absurd (Nat.le_antisymm hge hle) hne
    · intro httl
      refine ⟨db.fresh, _, loadRefresh_eq_some_iff.mpr
        ⟨(hinv.rotating_eq hload ttl db.fresh).trans (if_pos rfl), rfl, ?_,
          user, huser, ?_⟩, hsame⟩
      · simp only [secs]
        omega
      · -- honoured at its creation, the successor's user is honoured now
        simp only [credentialValidSql, Bool.and_eq_true] at hvalid ⊢
        refine ⟨hvalid.1, ?_⟩
        cases hcutoff : (some user).bind UserRow.sessionsInvalidatedAt with
        | none => rfl
        | some cutoff =>
            rw [hcutoff] at hvalid
            exact decide_eq_true ((of_decide_eq_true hvalid.2).trans hcreated)
  · rw [if_neg hsame]
    constructor
    · rintro ⟨live, found, hlive, hfamily⟩
      obtain ⟨hfound, hfoundConsumed, hlater, hfoundUser⟩ :=
        loadRefresh_eq_some_iff.mp hlive
      obtain ⟨rfl, rfl⟩ | ⟨rfl, rfl⟩ | ⟨-, hbefore⟩ :=
        hinv.rotating_cases hload ttl hfound
      · exact absurd hfamily hsame
      · exact absurd hfamily hsame
      · exact ⟨live, found, loadRefresh_eq_some_iff.mpr
          ⟨hbefore, hfoundConsumed, hlater, hfoundUser⟩, hfamily⟩
    · rintro ⟨live, found, hlive, hfamily⟩
      obtain ⟨hfound, hfoundConsumed, hlater, hfoundUser⟩ :=
        loadRefresh_eq_some_iff.mp hlive
      have hne : live ≠ secret := by
        rintro rfl
        obtain rfl := Option.some.inj (hrow.symm.trans hfound)
        exact hsame hfamily
      exact ⟨live, found, loadRefresh_eq_some_iff.mpr
        ⟨hinv.rotating_of_ne hload ttl hne hfound, hfoundConsumed, hlater,
          hfoundUser⟩, hfamily⟩

/-- The token just consumed has not expired. -/
theorem tombstonesUnexpired_rotating_iff :
    TombstonesUnexpired family (rotating db now ttl secret row) now ↔
      TombstonesUnexpired family db now := by
  obtain ⟨hrow, hunconsumed, hnow, -⟩ := loadRefresh_eq_some_iff.mp hload
  constructor
  · intro hunexpired tomb old hold hfamily hconsumed
    refine hunexpired tomb old (hinv.rotating_of_ne hload ttl ?_ hold) hfamily
      hconsumed
    rintro rfl
    obtain rfl := Option.some.inj (hrow.symm.trans hold)
    rw [hunconsumed] at hconsumed
    cases hconsumed
  · intro hunexpired tomb old hold hfamily hconsumed
    obtain ⟨rfl, rfl⟩ | ⟨rfl, rfl⟩ | ⟨-, hbefore⟩ :=
      hinv.rotating_cases hload ttl hold
    · cases hconsumed
    · exact Nat.le_of_lt hnow
    · exact hunexpired tomb old hbefore hfamily hconsumed

end Rotation

end Rows

/-! ### One event -/

section Step

variable {db : AuthTables} {family now : Nat} {run : FamilyRun}

/-- A rotation deletes a family, leaves the tables alone, or rotates. -/
theorem rotateRefresh_cases (db : AuthTables) (now ttl secret : Nat) :
    (∃ row, db.refreshes secret = some row ∧ row.consumedAt.isSome = true ∧
      db.rotateRefresh now ttl secret =
        (db.deleteFamily row.family, .reuse row.family)) ∨
    (loadRefresh db.reader now secret = none ∧
      db.rotateRefresh now ttl secret = (db, .unknown)) ∨
    ∃ row, loadRefresh db.reader now secret = some row ∧
      db.rotateRefresh now ttl secret =
        ((rotating db now ttl secret row).sweepConsumed now,
          .rotated db.fresh) := by
  by_cases htomb : ∃ row, db.refreshes secret = some row ∧
      row.consumedAt.isSome = true
  · obtain ⟨row, hrow, hconsumed⟩ := htomb
    exact .inl ⟨row, hrow, hconsumed, rotateRefresh_of_consumed ttl hrow hconsumed⟩
  · refine .inr ?_
    cases hload : loadRefresh db.reader now secret with
    | none =>
        refine .inl ⟨rfl, rotateRefresh_unknown ttl hload ?_⟩
        intro row hrow
        by_contra hconsumed
        exact htomb ⟨row, hrow, Option.isSome_iff_ne_none.mpr hconsumed⟩
    | some row => exact .inr ⟨row, rfl, rotateRefresh_of_loadRefresh ttl hload⟩

/-- What `_exchange_refresh_sync` makes of a rotation; what it refuses it rolls
back, but for the deletion of a family. -/
def AuthTables.afterRotation (db : AuthTables) (config : AuthConfig)
    (now : Nat) (clientId : Text) :
    AuthTables × RotateResult → AuthTables × Except AuthError (List Key)
  | (_, .unknown) => (db, .error .refreshInvalid)
  | (cleared, .reuse family) =>
      (cleared.deleteTokens fun _ row => row.refreshFamily = some family,
        .error .refreshReuse)
  | (swept, .rotated newToken) =>
      match loadRefresh swept.reader now newToken with
      | none => (db, .error .refreshInvalid)
      | some next =>
          match swept.mintAccess config now next.userId clientId next.family with
          | .error error => (db, .error error)
          | .ok (issued, handed) => (issued, .ok (.refresh newToken :: handed))

/-- The exchange of a refresh token is its rotation and what follows. -/
theorem exchangeRefresh_eq_afterRotation (db : AuthTables)
    (config : AuthConfig) (now secret : Nat) (clientId : Text) :
    db.exchangeRefresh config now secret clientId =
      db.afterRotation config now clientId
        (db.rotateRefresh now config.refreshTtl secret) := by
  unfold AuthTables.exchangeRefresh
  obtain ⟨row, hrow, hconsumed, hrotate⟩ | ⟨hload, hrotate⟩ |
      ⟨row, hload, hrotate⟩ :=
    rotateRefresh_cases db now config.refreshTtl secret
  · rw [hrow, hrotate]
    dsimp only
    rw [if_pos hconsumed]
    rfl
  · rw [hrotate]
    cases hrow : db.refreshes secret with
    | none => rfl
    | some row =>
        have hlive : ¬ row.consumedAt.isSome = true := by
          intro hconsumed
          rw [rotateRefresh_of_consumed _ hrow hconsumed] at hrotate
          cases congrArg Prod.snd hrotate
        dsimp only
        rw [if_neg hlive, hload]
        rfl
  · obtain ⟨hrow, hconsumed, -⟩ := loadRefresh_eq_some_iff.mp hload
    rw [hrow, hrotate]
    dsimp only
    rw [if_neg (by simp [hconsumed]), hload]
    unfold AuthTables.rotate AuthTables.afterRotation rotating
      AuthTables.claimRefresh AuthTables.mintRefresh AuthTables.sweepConsumed
    dsimp only
    generalize AuthTables.deleteRefreshes _ _ = swept
    cases loadRefresh swept.reader now db.fresh with
    | none => rfl
    | some next =>
        dsimp only
        cases swept.mintAccess config now next.userId clientId next.family <;>
          rfl

/-- Deleting a whole family takes no tombstone a live token of it needs. -/
theorem KeptIn.deleteFamily {chain : List Nat}
    (hkept : KeptIn family chain db now) (deleted : Nat) :
    KeptIn family chain (db.deleteFamily deleted) now := by
  intro live row hload hfamily earlier hearlier hlt
  obtain ⟨hbefore, hspared⟩ := loadRefresh_deleteRefreshes.mp hload
  obtain ⟨old, hold, hconsumed, holdFamily⟩ :=
    hkept live row hbefore hfamily earlier hearlier hlt
  refine ⟨old, refreshes_deleteRefreshes.mpr ⟨hold, ?_⟩, hconsumed, holdFamily⟩
  rw [holdFamily, ← hfamily]
  exact hspared

/-- What one event keeps of the chain, and when it keeps what a live token
needs. -/
theorem step_spec (event : FamilyEvent)
    (hinv : ChainInv family run.chain run.db run.now)
    (hkept : KeptIn family run.chain run.db run.now) :
    ChainInv family (run.step family event).chain (run.step family event).db
        (run.step family event).now ∧
      (KeptIn family (run.step family event).chain (run.step family event).db
          (run.step family event).now ↔ event.Meets family run) := by
  have hlater : run.now ≤ run.now + event.elapsed := Nat.le_add_right _ _
  replace hinv := hinv.later hlater
  replace hkept := hkept.later hlater
  cases event with
  | grant elapsed ttl clientId userId =>
      exact ⟨hinv.grant ttl clientId userId,
        iff_of_true (hkept.grant hinv ttl clientId userId) trivial⟩
  | sweep elapsed =>
      exact ⟨hinv.delete _, keptIn_sweepConsumed_iff hinv hkept⟩
  | rotate elapsed ttl secret =>
      simp only [FamilyEvent.elapsed] at hinv hkept
      obtain ⟨row, hrow, hconsumed, hrotate⟩ | ⟨hload, hrotate⟩ |
          ⟨row, hload, hrotate⟩ :=
        rotateRefresh_cases run.db (run.now + elapsed) ttl secret
      · have hunloaded : ∀ found,
            loadRefresh run.db.reader (run.now + elapsed) secret ≠ some found := by
          intro found hload
          obtain ⟨hfound, hunconsumed, -⟩ := loadRefresh_eq_some_iff.mp hload
          obtain rfl := Option.some.inj (hrow.symm.trans hfound)
          rw [hunconsumed] at hconsumed
          cases hconsumed
        simp only [FamilyRun.step, FamilyEvent.elapsed, hrotate]
        exact ⟨hinv.delete _, iff_of_true (hkept.deleteFamily row.family)
          fun found hload => absurd hload (hunloaded found)⟩
      · simp only [FamilyRun.step, FamilyEvent.elapsed, hrotate]
        refine ⟨hinv, iff_of_true hkept ?_⟩
        intro row hfound
        rw [FamilyEvent.elapsed, hload] at hfound
        cases hfound
      · have hrow := (loadRefresh_eq_some_iff.mp hload).1
        have hstate : run.db.rawState secret =
            some (row.family, row.consumedAt.isSome) := by
          rw [AuthTables.rawState, hrow]
          rfl
        simp only [FamilyRun.step, FamilyEvent.elapsed, hrotate, hstate,
          Option.elim_some]
        have hrotated := hinv.rotate hload ttl
        refine ⟨hrotated.delete _, ?_⟩
        rw [keptIn_sweepConsumed_iff hrotated (KeptIn.rotate hinv hload ttl hkept),
          familyLive_rotating_iff hinv hload ttl,
          tombstonesUnexpired_rotating_iff hinv hload ttl]
        simp only [FamilyEvent.Meets, FamilyEvent.elapsed, hload,
          Option.some.injEq, forall_eq']

theorem chainInv_start (family : Nat) (users : Nat → Option UserRow) :
    ChainInv family [] (FamilyRun.start users).db 0 where
  below := nofun
  chained := nofun
  listed := nofun
  newest := nofun

theorem keptIn_start (family : Nat) (users : Nat → Option UserRow) :
    KeptIn family [] (FamilyRun.start users).db 0 := by
  intro live row hload hfamily earlier hearlier
  exact absurd hearlier List.not_mem_nil

/-- From a state that keeps what live tokens need, along any run. -/
theorem alwaysDetectable_iff_of_kept (family : Nat) (events : List FamilyEvent)
    (run : FamilyRun) (hinv : ChainInv family run.chain run.db run.now)
    (hkept : KeptIn family run.chain run.db run.now) :
    AlwaysDetectable family run events ↔ AllMeet family run events := by
  induction events generalizing run with
  | nil => exact iff_of_true (detectable_iff.mpr hkept) trivial
  | cons event rest ih =>
      obtain ⟨hnext, hmeets⟩ := step_spec event hinv hkept
      simp only [AlwaysDetectable, AllMeet, detectable_iff.mpr hkept, true_and]
      constructor
      · intro halways
        have hstep : Detectable family (run.step family event) := by
          cases rest with
          | nil => exact halways
          | cons => exact halways.1
        have hkeptNext := detectable_iff.mp hstep
        exact ⟨hmeets.mp hkeptNext, (ih _ hnext hkeptNext).mp halways⟩
      · rintro ⟨hmeet, hrest⟩
        exact (ih _ hnext (hmeets.mpr hmeet)).mpr hrest

/-- Reuse is noticed at every moment of a run exactly if no sweep in it takes
an expired tombstone of a family that lives on. -/
theorem reuse_detectable_iff (users : Nat → Option UserRow) (family : Nat)
    (events : List FamilyEvent) :
    AlwaysDetectable family (FamilyRun.start users) events ↔
      AllMeet family (FamilyRun.start users) events :=
  alwaysDetectable_iff_of_kept family events _ (chainInv_start family users)
    (keptIn_start family users)

end Step

/-- One enabled user. -/
def oneUser : Nat → Option UserRow :=
  fun _ => some ⟨text "ann", text "hash", false, false, none, none⟩

/-- A token that lives ten seconds is rotated, its successor lives a hundred,
and a sweep follows a second after the first one's expiry. -/
def outlivedRun : List FamilyEvent :=
  [.grant 0 10 (text "client") 0, .rotate 5000000 100 0, .sweep 6000000]

/-- The successor is live, and the first token is unknown. -/
theorem outlived_token_unknown :
    ¬ AlwaysDetectable 0 (FamilyRun.start oneUser) outlivedRun := by
  intro halways
  obtain ⟨-, -, -, hdetectable⟩ := halways
  have hgone : (outlivedRun.foldl (FamilyRun.step 0)
      (FamilyRun.start oneUser)).db.refreshes 0 = none := by decide +kernel
  obtain ⟨⟨old, hold, -⟩, -⟩ := hdetectable _ (Nat.le_refl _) 1
    ⟨text "client", 0, 5000000, 105000000, 0, none⟩ (by decide +kernel) rfl 0
    (by decide) (by decide)
  exact Option.some_ne_none old (hold.symm.trans hgone)

end Localmail
