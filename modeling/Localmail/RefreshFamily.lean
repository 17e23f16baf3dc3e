/-
Refresh exchanges of a token family, each on its own: what it has locked, what
it knows of the token it was presented with, and that a rotation holds the one
live row it replaces until it commits.
-/
import Localmail.CredentialActs

namespace Localmail

/-- The exchange is over. -/
def RefreshExchange.finished (exchange : RefreshExchange) : Bool :=
  match exchange.phase with
  | .rotated _ _ | .reuse _ | .stopped => true
  | _ => false

/-- Refresh exchanges, with new grants and any changes to users. -/
def refreshRules (config : CredentialConfig) :
    ProcessRules Shared RefreshExchange Outside :=
  credentialRules (refreshStep config) ⟨0, [], .stopped⟩ RefreshExchange.finished
    (fun exchange => exchange.phase = .begin)
    fun
      | .tick _ | .setUser _ _ | .deleteUser _ | .grant _ _ _ _ _ => true
      | .login _ _ _ | .consent _ _ _ _ => false

abbrev RefreshWorld := World Shared RefreshExchange

namespace RefreshExchange

variable (exchange : RefreshExchange)

/-- The row it was presented with, as loaded. -/
def loaded : Option RefreshRow :=
  match exchange.phase with
  | .claim _ row | .claiming _ row | .reread _ row | .mint _ row
  | .sweep _ row _ | .sweeping _ row _ _ | .loadNew _ row _
  | .mintAccess _ row _ _ | .finish _ row _ _ => some row
  | _ => none

/-- The family it has claimed a token of, not yet committed. -/
def rotating : Option Nat :=
  match exchange.phase with
  | .mint _ row | .sweep _ row _ | .sweeping _ row _ _ | .loadNew _ row _
  | .mintAccess _ row _ _ | .finish _ row _ _ => some row.family
  | _ => none

/-- The successor it has inserted, not yet committed. -/
def inserted : Option Nat :=
  match exchange.phase with
  | .sweep _ _ next | .sweeping _ _ next _ | .loadNew _ _ next
  | .mintAccess _ _ next _ | .finish _ _ next _ => some next
  | _ => none

/-- The family it deletes, or has deleted, because of a reuse. -/
def containing : Option Nat :=
  match exchange.phase with
  | .deleteFamily family | .deletingFamily family _ | .purgeAccess family
  | .purgingAccess family _ | .finishReuse family | .reuse family =>
      some family
  | _ => none

end RefreshExchange

/-- Every version of the refresh token is of the family. -/
structure InFamily (shared : Shared) (token family : Nat) : Prop where
  used : token < shared.fresh
  familyUsed : family < shared.fresh
  versions : AllVersions shared (.refresh token) fun row => row.family = family

/-- No version of the refresh token is live. -/
structure Spent (shared : Shared) (token : Nat) : Prop where
  used : token < shared.fresh
  versions : AllVersions shared (.refresh token) fun row =>
    row.consumedAt.isSome = true

/-- Every used secret has a family. -/
def Families (shared : Shared) : Prop :=
  ∀ token, token < shared.fresh → ∃ family, InFamily shared token family

/-- A refresh or access token of the family. -/
def OfFamily (family : Nat) : (key : Key) → CredentialRow key → Prop
  | .refresh _, row => row.family = family
  | .token _, row => row.refreshFamily = some family
  | .user _, _ | .code _, _ => False

structure RotationInv (shared : Shared) (pid : Nat)
    (exchange : RefreshExchange) : Prop where
  own : ∀ key row, shared.store.owner key = some pid →
    shared.store.dirty key = some row →
    ∃ family, exchange.rotating = some family ∧ OfFamily family key row
  loaded : ∀ row, exchange.loaded = some row →
    InFamily shared exchange.token row.family
  claimed : ∀ family, exchange.rotating = some family →
    shared.store.owner (.refresh exchange.token) = some pid ∧
      (∀ row, shared.store.dirty (.refresh exchange.token) = some row →
        row.consumedAt.isSome = true) ∧
      ∃ row, shared.store.committed (.refresh exchange.token) = some row ∧
        row.consumedAt = none ∧ row.family = family
  inserted : ∀ next, exchange.inserted = some next →
    shared.store.owner (.refresh next) = some pid
  newRow : ∀ now row next newRow,
    exchange.phase = .mintAccess now row next newRow →
    newRow.family = row.family
  containing : ∀ family, exchange.containing = some family →
    family < shared.fresh
  rotated : ∀ next access, exchange.phase = .rotated next access →
    Spent shared exchange.token

section Steps

variable {config : CredentialConfig} {pid tx : Nat} {shared next : Shared}
  {exchange after : RefreshExchange}

theorem InFamily.acts {token family : Nat}
    (hfamily : InFamily shared token family) (hacts : Acts tx shared next) :
    InFamily next token family where
  used := Nat.lt_of_lt_of_le hfamily.used hacts.fresh_le
  familyUsed := Nat.lt_of_lt_of_le hfamily.familyUsed hacts.fresh_le
  versions := by
    refine hfamily.versions.acts hacts ?_ ?_
    · rintro _ ⟨⟩
      exact hfamily.used
    · rintro old _ ⟨consumedAt, rfl⟩ hold
      exact hold

theorem InFamily.settles {token family : Nat}
    (hfamily : InFamily shared token family) (hsettles : Settles shared next) :
    InFamily next token family where
  used := Nat.lt_of_lt_of_le hfamily.used hsettles.fresh
  familyUsed := Nat.lt_of_lt_of_le hfamily.familyUsed hsettles.fresh
  versions := hfamily.versions.settles hsettles rfl hfamily.used

theorem Spent.acts {token : Nat} (hspent : Spent shared token)
    (hacts : Acts tx shared next) : Spent next token where
  used := Nat.lt_of_lt_of_le hspent.used hacts.fresh_le
  versions := by
    refine hspent.versions.acts hacts ?_ ?_
    · rintro _ ⟨⟩
      exact hspent.used
    · rintro old _ ⟨consumedAt, rfl⟩ -
      rfl

theorem Spent.settles {token : Nat} (hspent : Spent shared token)
    (hsettles : Settles shared next) : Spent next token where
  used := Nat.lt_of_lt_of_le hspent.used hsettles.fresh
  versions := hspent.versions.settles hsettles rfl hspent.used

/-- What an exchange reads of a refresh token has the token's family. -/
theorem Families.of_read (hfamilies : Families shared)
    (hunused : FreshUnused shared) {token : Nat} {row : RefreshRow}
    (hread : shared.read pid (.refresh token) = some row) :
    InFamily shared token row.family := by
  have hused : token < shared.fresh := by
    by_cases howner : shared.store.owner (.refresh token) = some pid
    · exact hunused.lt_of_owner howner rfl
    · have hcommitted : shared.store.committed (.refresh token) ≠ none := by
        rw [← RowStore.view_of_not_owner howner, ← Shared.read, hread]
        exact Option.some_ne_none _
      exact hunused.lt_of_committed hcommitted rfl
  obtain ⟨family, hfamily⟩ := hfamilies token hused
  have hsame : row.family = family := hfamily.versions.of_read hread
  exact hsame ▸ hfamily

theorem RotationInv.transfer (hinv : RotationInv shared pid exchange)
    (hundisturbed : RowStore.Undisturbed pid shared.store next.store)
    (hfresh : shared.fresh ≤ next.fresh)
    (hfamily : ∀ token family, InFamily shared token family →
      InFamily next token family)
    (hspent : ∀ token, Spent shared token → Spent next token) :
    RotationInv next pid exchange where
  own := by
    intro key row howner hdirty
    have hbefore := (hundisturbed.owner _).mp howner
    exact hinv.own key row hbefore
      ((hundisturbed.dirty _ hbefore).symm.trans hdirty)
  loaded := fun row hloaded => hfamily _ _ (hinv.loaded row hloaded)
  claimed := by
    intro family hrotating
    obtain ⟨howner, hdirty, row, hcommitted, hrow⟩ :=
      hinv.claimed family hrotating
    refine ⟨(hundisturbed.owner _).mpr howner, ?_, row,
      (hundisturbed.committed _ howner).trans hcommitted, hrow⟩
    rw [hundisturbed.dirty _ howner]
    exact hdirty
  inserted := fun successor hinserted =>
    (hundisturbed.owner _).mpr (hinv.inserted successor hinserted)
  newRow := hinv.newRow
  containing := fun family hcontaining =>
    Nat.lt_of_lt_of_le (hinv.containing family hcontaining) hfresh
  rotated := fun successor access hphase =>
    hspent _ (hinv.rotated successor access hphase)

/-- An exchange that moved on without touching the tables. -/
theorem RotationInv.of_moved (hinv : RotationInv shared pid exchange)
    (htoken : after.token = exchange.token)
    (hrotating : after.rotating = exchange.rotating)
    (hinserted : ∀ next, after.inserted = some next →
      shared.store.owner (.refresh next) = some pid)
    (hloaded : ∀ row, after.loaded = some row →
      InFamily shared after.token row.family)
    (hnewRow : ∀ now row next newRow,
      after.phase = .mintAccess now row next newRow →
      newRow.family = row.family)
    (hcontaining : ∀ family, after.containing = some family →
      family < shared.fresh)
    (hrotated : ∀ next access, after.phase ≠ .rotated next access) :
    RotationInv shared pid after where
  own := hrotating ▸ hinv.own
  loaded := hloaded
  claimed := by
    rw [hrotating, htoken]
    exact hinv.claimed
  inserted := hinserted
  newRow := hnewRow
  containing := hcontaining
  rotated := fun next access hphase => absurd hphase (hrotated next access)

/-- An exchange with no lock, and none it needs. -/
theorem RotationInv.of_unlocked
    (hown : ∀ key, shared.store.owner key ≠ some pid)
    (hrotating : after.rotating = none) (hinserted : after.inserted = none)
    (hloaded : after.loaded = none)
    (hcontaining : ∀ family, after.containing = some family →
      family < shared.fresh)
    (hrotated : ∀ next access, after.phase = .rotated next access →
      Spent shared after.token) :
    RotationInv shared pid after where
  own := fun key row howner => absurd howner (hown key)
  loaded := by simp [hloaded]
  claimed := by simp [hrotating]
  inserted := by simp [hinserted]
  newRow := by
    intro now row next newRow hphase
    simp [RefreshExchange.loaded, hphase] at hloaded
  containing := hcontaining
  rotated := hrotated

/-- Deleting rows keeps what is known of the claimed one. -/
theorem RotationInv.delete (hinv : RotationInv shared pid exchange)
    {chosen : (key : Key) → CredentialRow key → Bool} {candidates : List Key}
    {store : CredentialStore}
    (hdeleted : shared.store.deleteChosen pid chosen candidates = some store) :
    RotationInv { shared with store := store } pid exchange := by
  have hacts : Acts pid shared { shared with store := store } :=
    .delete chosen candidates store hdeleted
  obtain ⟨-, hstore⟩ := deleteChosen_eq_some hdeleted
  have howner : ∀ key, shared.store.owner key = some pid →
      store.owner key = some pid := by
    intro key howner
    simp [hstore, RowStore.removeAll, howner]
  have hdirty : ∀ key row, store.dirty key = some row →
      store.owner key = some pid → shared.store.owner key = some pid ∧
        shared.store.dirty key = some row := by
    intro key row hdirty howner
    simp only [hstore, RowStore.removeAll] at hdirty howner
    split at hdirty
    · cases hdirty
    · rename_i hout
      exact ⟨(if_neg hout).symm.trans howner, hdirty⟩
  refine ⟨?_, ?_, ?_, ?_, hinv.newRow, hinv.containing, ?_⟩
  · intro key row hown hrow
    obtain ⟨hbefore, hsame⟩ := hdirty key row hrow hown
    exact hinv.own key row hbefore hsame
  · intro row hloaded
    exact (hinv.loaded row hloaded).acts hacts
  · intro family hrotating
    obtain ⟨hown, hconsumed, hcommitted⟩ := hinv.claimed family hrotating
    refine ⟨howner _ hown, ?_, ?_⟩
    · intro row hrow
      exact hconsumed row (hdirty _ row hrow (howner _ hown)).2
    · rw [hstore]
      exact hcommitted
  · intro successor hinserted
    exact howner _ (hinv.inserted successor hinserted)
  · intro successor access hphase
    exact (hinv.rotated successor access hphase).acts hacts

/-- An exchange that has claimed nothing sees what is committed. -/
theorem RotationInv.committed_of_read (hinv : RotationInv shared pid exchange)
    (hrotating : exchange.rotating = none) {token : Nat} {row : RefreshRow}
    (hread : shared.read pid (.refresh token) = some row) :
    shared.store.committed (.refresh token) = some row := by
  by_cases howner : shared.store.owner (.refresh token) = some pid
  · rw [Shared.read, RowStore.view_of_owner howner] at hread
    obtain ⟨family, hclaimed, -⟩ := hinv.own _ row howner hread
    rw [hrotating] at hclaimed
    cases hclaimed
  · rw [← RowStore.view_of_not_owner howner]
    exact hread

theorem RotationInv.claim {token now : Nat} {clientId : Text}
    {row current : RefreshRow}
    (hinv : RotationInv shared pid ⟨token, clientId, .claiming now row⟩)
    (hfree : shared.store.Free pid (.refresh token))
    (hread : shared.read pid (.refresh token) = some current)
    (hlive : current.consumedAt = none) :
    RotationInv (shared.put pid (.refresh token)
      (some { current with consumedAt := some now })) pid
      ⟨token, clientId, .mint now row⟩ := by
  have hacts : Acts pid shared (shared.put pid (.refresh token)
      (some { current with consumedAt := some now })) := by
    refine .put _ _ current hfree hread ?_
    rintro _ ⟨⟩
    exact ⟨now, rfl⟩
  have hfamily := hinv.loaded row rfl
  have hsame : current.family = row.family := hfamily.versions.of_read hread
  have hcommitted := hinv.committed_of_read rfl hread
  refine ⟨?_, ?_, ?_, nofun, nofun, nofun, nofun⟩
  · intro key version howner hdirty
    by_cases hkey : key = .refresh token
    · subst hkey
      have hversion := (RowStore.dirty_put_self _).symm.trans hdirty
      obtain rfl := Option.some.inj hversion
      exact ⟨row.family, rfl, hsame⟩
    · obtain ⟨family, hrotating, -⟩ := hinv.own key version
        ((RowStore.owner_put_of_ne hkey _).symm.trans howner)
        ((RowStore.dirty_put_of_ne hkey _).symm.trans hdirty)
      cases hrotating
  · rintro _ ⟨⟩
    exact hfamily.acts hacts
  · rintro _ ⟨⟩
    refine ⟨RowStore.owner_put_self _, ?_, current, hcommitted, hlive, hsame⟩
    intro version hdirty
    have hversion := (RowStore.dirty_put_self _).symm.trans hdirty
    obtain rfl := Option.some.inj hversion
    rfl

/-- A rotation inserts a row of its family. -/
theorem RotationInv.insert (hinv : RotationInv shared pid exchange)
    (hunused : FreshUnused shared) {family : Nat}
    (hrotating : exchange.rotating = some family) {key : Key}
    {row : CredentialRow key} (hrow : OfFamily family key row)
    (hsecret : key.secret = some shared.fresh) (descent : List (Key × Nat)) :
    RotationInv (shared.insert pid key row descent) pid exchange := by
  have hacts : Acts pid shared (shared.insert pid key row descent) :=
    .insert key row descent hsecret
  have hold : ∀ other, shared.store.owner other = some pid → other ≠ key := by
    rintro other howner rfl
    exact Nat.lt_irrefl _ (hunused.lt_of_owner howner hsecret)
  refine ⟨?_, ?_, ?_, ?_, hinv.newRow, ?_, ?_⟩
  · intro other version howner hdirty
    by_cases hkey : other = key
    · subst hkey
      have hversion := (RowStore.dirty_put_self _).symm.trans hdirty
      obtain rfl := Option.some.inj hversion
      exact ⟨family, hrotating, hrow⟩
    · exact hinv.own other version
        ((RowStore.owner_put_of_ne hkey _).symm.trans howner)
        ((RowStore.dirty_put_of_ne hkey _).symm.trans hdirty)
  · intro loaded hloaded
    exact (hinv.loaded loaded hloaded).acts hacts
  · intro claimed hclaimed
    obtain ⟨howner, hdirty, hcommitted⟩ := hinv.claimed claimed hclaimed
    have hne := hold _ howner
    refine ⟨(RowStore.owner_put_of_ne hne _).trans howner, ?_, hcommitted⟩
    intro version hversion
    exact hdirty version ((RowStore.dirty_put_of_ne hne _).symm.trans hversion)
  · intro successor hinserted
    have howner := hinv.inserted successor hinserted
    exact (RowStore.owner_put_of_ne (hold _ howner) _).trans howner
  · intro contained hcontaining
    exact Nat.lt_succ_of_lt (hinv.containing contained hcontaining)
  · intro successor access hphase
    exact (hinv.rotated successor access hphase).acts hacts

theorem RotationInv.advance (hinv : RotationInv shared pid exchange)
    (hunused : FreshUnused shared) (hfamilies : Families shared)
    (hstep : refreshStep config pid shared exchange = some (next, after)) :
    RotationInv next pid after := by
  obtain ⟨token, clientId, phase⟩ := exchange
  have hstopped : RotationInv (shared.rollback pid) pid ⟨token, clientId, .stopped⟩ :=
    .of_unlocked owner_rollback_ne rfl rfl rfl nofun nofun
  cases phase <;> simp only [refreshStep] at hstep
  case begin =>
    cases hstep
    exact hinv.of_moved rfl rfl nofun nofun nofun nofun nofun
  case rawState now =>
    split at hstep
    · cases hstep
      exact hstopped
    · rename_i row hrow
      split at hstep
      · cases hstep
        refine hinv.of_moved rfl rfl nofun nofun nofun ?_ nofun
        rintro _ ⟨⟩
        exact (hfamilies.of_read hunused hrow).familyUsed
      · cases hstep
        exact hinv.of_moved rfl rfl nofun nofun nofun nofun nofun
  case load now =>
    split at hstep
    · cases hstep
      exact hstopped
    · rename_i row hload
      cases hstep
      refine hinv.of_moved rfl rfl nofun ?_ nofun nofun nofun
      rintro _ ⟨⟩
      exact hfamilies.of_read hunused (loadRefresh_eq_some hload).1
  case claim now row =>
    cases hstep
    split
    all_goals exact hinv.of_moved rfl rfl nofun hinv.loaded nofun nofun nofun
  case claiming now row =>
    split at hstep
    · rename_i hfree
      split at hstep
      · cases hstep
        exact hinv.of_moved rfl rfl nofun hinv.loaded nofun nofun nofun
      · rename_i current hcurrent
        split at hstep
        · rename_i hlive
          cases hstep
          exact hinv.claim hfree hcurrent (Option.isNone_iff_eq_none.mp hlive)
        · cases hstep
          exact hinv.of_moved rfl rfl nofun hinv.loaded nofun nofun nofun
    · cases hstep
  case reread now row =>
    split at hstep
    · cases hstep
      exact hstopped
    · split at hstep
      · cases hstep
        refine hinv.of_moved rfl rfl nofun nofun nofun ?_ nofun
        rintro _ ⟨⟩
        exact (hinv.loaded row rfl).familyUsed
      · cases hstep
        exact hstopped
  case mint now row =>
    cases hstep
    have hinserted : RotationInv (shared.mintRefresh pid config now row.userId
        row.clientId (some row.family)
        (RefreshExchange.lineage ⟨token, clientId, .mint now row⟩ shared row)) pid
        ⟨token, clientId, .mint now row⟩ := by
      unfold Shared.mintRefresh
      apply hinv.insert hunused rfl
      · rfl
      · rfl
    refine hinserted.of_moved rfl rfl ?_ hinserted.loaded nofun nofun nofun
    rintro _ ⟨⟩
    exact RowStore.owner_put_self _
  case sweep now row successor =>
    cases hstep
    exact hinv.of_moved rfl rfl hinv.inserted hinv.loaded nofun nofun nofun
  case sweeping now row successor candidates =>
    split at hstep
    · cases hstep
    · rename_i store hdeleted
      cases hstep
      have hafter := hinv.delete hdeleted
      exact hafter.of_moved rfl rfl hafter.inserted hafter.loaded nofun nofun
        nofun
  case loadNew now row successor =>
    split at hstep
    · cases hstep
      exact hstopped
    · rename_i newRow hload
      cases hstep
      refine hinv.of_moved rfl rfl hinv.inserted hinv.loaded ?_ nofun nofun
      rintro _ _ _ _ ⟨⟩
      have hdirty : shared.store.dirty (.refresh successor) = some newRow := by
        rw [← RowStore.view_of_owner (hinv.inserted successor rfl)]
        exact (loadRefresh_eq_some hload).1
      obtain ⟨family, hfamily, hrow⟩ :=
        hinv.own _ newRow (hinv.inserted successor rfl) hdirty
      exact hrow.trans (Option.some.inj hfamily).symm
  case mintAccess now row successor newRow =>
    split at hstep
    · cases hstep
      have hnewRow := hinv.newRow now row successor newRow rfl
      have hinserted : RotationInv (shared.mintAccess pid config now
          newRow.userId clientId newRow.family
          (RefreshExchange.lineage ⟨token, clientId, .mintAccess now row successor newRow⟩
            shared row)) pid ⟨token, clientId, .mintAccess now row successor newRow⟩ := by
        unfold Shared.mintAccess
        apply hinv.insert hunused rfl
        · exact congrArg some hnewRow
        · rfl
      exact hinserted.of_moved rfl rfl hinserted.inserted hinserted.loaded nofun
        nofun nofun
    · cases hstep
      exact hstopped
  case finish now row successor access =>
    cases hstep
    obtain ⟨howner, hconsumed, -⟩ := hinv.claimed row.family rfl
    refine .of_unlocked owner_commit_ne rfl rfl rfl nofun ?_
    rintro _ _ ⟨⟩
    refine ⟨(hinv.loaded row rfl).used, ?_, ?_⟩
    · intro version hcommitted
      exact hconsumed version
        ((RowStore.view_of_owner howner).symm.trans hcommitted)
    · intro version hlocked
      exact absurd (if_pos howner) hlocked
  case deleteFamily family =>
    cases hstep
    exact hinv.of_moved rfl rfl nofun nofun nofun hinv.containing nofun
  case deletingFamily family candidates =>
    split at hstep
    · cases hstep
    · rename_i store hdeleted
      cases hstep
      exact (hinv.delete hdeleted).of_moved rfl rfl nofun nofun nofun
        hinv.containing nofun
  case purgeAccess family =>
    cases hstep
    exact hinv.of_moved rfl rfl nofun nofun nofun hinv.containing nofun
  case purgingAccess family candidates =>
    split at hstep
    · cases hstep
    · rename_i store hdeleted
      cases hstep
      exact (hinv.delete hdeleted).of_moved rfl rfl nofun nofun nofun
        hinv.containing nofun
  case finishReuse family =>
    cases hstep
    exact .of_unlocked owner_commit_ne rfl rfl rfl hinv.containing nofun
  case rotated | reuse | stopped => cases hstep

end Steps

end Localmail
