/-
Revocations among the exchanges.  An exchange looks at the user's cutoff in
one statement, its check, and mints later under the time its transaction began.
What the mints descend from, and what each exchange has checked, is what the
revocations have to be compared with.
-/
import Localmail.RefreshFamily

namespace Localmail

inductive RevocableProcess where
  | code (exchange : CodeExchange)
  | refresh (exchange : RefreshExchange)
  | bearer (refresh : BearerRefresh)
  | revoke (revocation : Revocation)
deriving Repr, DecidableEq

def revocableStep (config : CredentialConfig) (tx : Nat) (shared : Shared) :
    RevocableProcess → Option (Shared × RevocableProcess)
  | .code exchange =>
      (codeStep config tx shared exchange).map (Prod.map id .code)
  | .refresh exchange =>
      (refreshStep config tx shared exchange).map (Prod.map id .refresh)
  | .bearer refresh => (bearerStep tx shared refresh).map (Prod.map id .bearer)
  | .revoke revocation =>
      (revokeStep tx shared revocation).map (Prod.map id .revoke)

def RevocableProcess.finished : RevocableProcess → Bool
  | .code ⟨_, _, .done _ _ _⟩ | .code ⟨_, _, .stopped⟩ => true
  | .refresh ⟨_, _, .rotated _ _⟩ | .refresh ⟨_, _, .reuse _⟩
  | .refresh ⟨_, _, .stopped⟩ => true
  | .bearer ⟨_, .done _⟩ | .bearer ⟨_, .stopped⟩ => true
  | .revoke ⟨_, .done _⟩ | .revoke ⟨_, .stopped⟩ => true
  | _ => false

def RevocableProcess.initial : RevocableProcess → Bool
  | .code ⟨_, _, .load⟩ | .refresh ⟨_, _, .begin⟩ | .bearer ⟨_, .begin⟩
  | .revoke ⟨_, .begin⟩ => true
  | _ => false

/-- Users are created and edited, but only a revocation sets their cutoff. -/
def keepsCutoff (shared : Shared) (id : Nat) (row : UserRow) : Bool :=
  match shared.store.committed (.user id) with
  | none => true
  | some old => row.sessionsInvalidatedAt = old.sessionsInvalidatedAt

def revocableOutside (shared : Shared) : Outside → Option Shared
  | .setUser id row =>
      if keepsCutoff shared id row then shared.outside (.setUser id row)
      else none
  | .tick elapsed => shared.outside (.tick elapsed)
  | .login userId createdAt expiresAt =>
      shared.outside (.login userId createdAt expiresAt)
  | .consent userId clientId createdAt expiresAt =>
      shared.outside (.consent userId clientId createdAt expiresAt)
  | .deleteUser _ | .grant _ _ _ _ _ => none

/-- Exchanges and revocations, with logins, consents and edits of users. -/
def revocableRules (config : CredentialConfig) :
    ProcessRules Shared RevocableProcess Outside where
  advance := revocableStep config
  abandon := fun tx shared => shared.rollback tx
  stopped := .revoke ⟨0, .stopped⟩
  finished := RevocableProcess.finished
  initial := RevocableProcess.initial
  outside := revocableOutside

abbrev RevocableWorld := World Shared RevocableProcess

/-! ### Checks -/

/-- When the row says it was created. -/
def rowCreatedAt : (key : Key) → CredentialRow key → Nat
  | .user _, _ => 0
  | .token _, row => row.createdAt
  | .code _, row => row.createdAt
  | .refresh _, row => row.createdAt

/-- What an exchange has looked at: the user, the credential presented and its
creation time, and the time its mints will carry, once that is fixed. -/
structure Check where
  user : Nat
  key : Key
  createdAt : Nat
  stamp : Option Nat
deriving Repr, DecidableEq

/-- What is minted on the strength of the check descends from this. -/
def Check.lineage (check : Check) (shared : Shared) : List (Key × Nat) :=
  (check.key, check.createdAt) :: shared.descent check.key

/-- Something in the lineage is older than the cutoff. -/
def OldFor (cutoff : Nat) (lineage : List (Key × Nat)) : Prop :=
  ∃ ancestor ∈ lineage, ancestor.2 < cutoff

instance (cutoff : Nat) (lineage : List (Key × Nat)) :
    Decidable (OldFor cutoff lineage) :=
  inferInstanceAs (Decidable (∃ ancestor ∈ lineage, _))

/-- Between its check and its last mint: what the exchange has checked. -/
def RevocableProcess.checked : RevocableProcess → Option Check
  | .code ⟨secret, _, .burning subject burn⟩
  | .code ⟨secret, _, .burned subject (some burn)⟩ =>
      if burn.stillValid then
        some ⟨subject, .code secret, burn.row.createdAt, none⟩
      else none
  | .code ⟨secret, _, .mintBegin subject burn⟩ =>
      some ⟨subject, .code secret, burn.row.createdAt, none⟩
  | .code ⟨secret, _, .mintRefresh subject burn now⟩
  | .code ⟨secret, _, .loadNew subject burn now _⟩
  | .code ⟨secret, _, .mintAccess subject burn now _ _⟩ =>
      some ⟨subject, .code secret, burn.row.createdAt, some now⟩
  | .refresh ⟨token, _, .claiming now row⟩
  | .refresh ⟨token, _, .mint now row⟩
  | .refresh ⟨token, _, .sweep now row _⟩
  | .refresh ⟨token, _, .sweeping now row _ _⟩
  | .refresh ⟨token, _, .loadNew now row _⟩
  | .refresh ⟨token, _, .mintAccess now row _ _⟩ =>
      some ⟨row.userId, .refresh token, row.createdAt, some now⟩
  | .bearer ⟨token, .touch now row⟩ | .bearer ⟨token, .touching now row⟩
  | .bearer ⟨token, .issue now row⟩ =>
      some ⟨row.userId, .token token, row.createdAt, some now⟩
  | _ => none

/-- What the exchange will have checked if its next step is its check and
passes. -/
def RevocableProcess.checking (shared : Shared) (tx : Nat) :
    RevocableProcess → Option Check
  | .code ⟨secret, _, .burn _ _⟩ =>
      (shared.read tx (.code secret)).map fun row =>
        ⟨row.userId, .code secret, row.createdAt, none⟩
  | .refresh ⟨token, _, .claim now row⟩ =>
      some ⟨row.userId, .refresh token, row.createdAt, some now⟩
  | .bearer ⟨token, .verify now⟩ =>
      (shared.read tx (.token token)).map fun row =>
        ⟨row.userId, .token token, row.createdAt, some now⟩
  | _ => none

/-- The user and the cutoff of a revocation that has begun. -/
def RevocableProcess.cutoff : RevocableProcess → Option (Nat × Nat)
  | .revoke ⟨userId, .update now⟩ | .revoke ⟨userId, .updating now⟩
  | .revoke ⟨userId, .finish now⟩ | .revoke ⟨userId, .done now⟩ =>
      some (userId, now)
  | _ => none

/-- What is minted on the check will be cut off too, if it descends from
something the cutoff cuts off. -/
def Check.Behind (check : Check) (shared : Shared) (cutoff : Nat) : Prop :=
  OldFor cutoff (check.lineage shared) →
    match check.stamp with
    | none => False
    | some stamp => stamp < cutoff

instance (check : Check) (shared : Shared) (cutoff : Nat) :
    Decidable (check.Behind shared cutoff) := by
  unfold Check.Behind
  split <;> infer_instance

/-- The same of a row that is already there. -/
def RowBehind (shared : Shared) (userId cutoff : Nat) (key : Key)
    (row : CredentialRow key) : Prop :=
  rowUser key row = userId → OldFor cutoff (shared.descent key) →
    rowCreatedAt key row < cutoff

instance (shared : Shared) (userId cutoff : Nat) (key : Key)
    (row : CredentialRow key) :
    Decidable (RowBehind shared userId cutoff key row) := by
  unfold RowBehind
  infer_instance

/-- Both versions of a row are behind the cutoff. -/
def KeyBehind (shared : Shared) (userId cutoff : Nat) (key : Key) : Prop :=
  (∀ row ∈ shared.store.committed key,
    RowBehind shared userId cutoff key row) ∧
  ((shared.store.owner key).isSome → ∀ row ∈ shared.store.dirty key,
    RowBehind shared userId cutoff key row)

/-- The revocations are in order with the exchanges.  When an exchange makes
its check, what it will mint is behind the cutoff of every revocation of that
user that has begun and not committed; when a revocation begins, the same holds
of every check that stands and of every credential of the user; and when it
writes its cutoff, the one in the row is not later. -/
def RevocationsOrdered (world : RevocableWorld) :
    WorldEvent RevocableProcess Outside → Prop
  | .advance pid =>
      match world.procs[pid]? with
      | some (.revoke ⟨userId, .begin⟩) =>
          (∀ proc ∈ world.procs, ∀ check ∈ proc.checked,
            check.user = userId → check.Behind world.shared world.shared.clock) ∧
          ∀ key ∈ world.shared.store.keys, key.secret.isSome →
            KeyBehind world.shared userId world.shared.clock key
      | some (.revoke ⟨userId, .updating now⟩) =>
          ∀ user ∈ world.shared.store.committed (.user userId),
            ∀ old ∈ user.sessionsInvalidatedAt, old ≤ now
      | some proc =>
          ∀ check ∈ proc.checking world.shared pid, ∀ other ∈ world.procs,
            ∀ open' ∈ other.cutoff, other.finished = false →
              open'.1 = check.user → check.Behind world.shared open'.2
      | none => True
  | .outside _ | .spawn _ | .crash _ => True

instance (shared : Shared) (userId cutoff : Nat) (key : Key) :
    Decidable (KeyBehind shared userId cutoff key) := by
  unfold KeyBehind
  infer_instance

instance (world : RevocableWorld) (event : WorldEvent RevocableProcess Outside) :
    Decidable (RevocationsOrdered world event) := by
  unfold RevocationsOrdered
  split
  · split <;> infer_instance
  all_goals infer_instance

/-! ### What an exchange knows of the rows it has read -/

/-- Every version of the row satisfies `P`, and its secret is used. -/
structure Fixed (shared : Shared) (key : Key) (P : CredentialRow key → Prop) :
    Prop where
  used : ∀ secret, key.secret = some secret → secret < shared.fresh
  versions : AllVersions shared key P

/-- No version of a code differs from another, and none of a refresh token in
its user or creation time. -/
structure Identities (shared : Shared) : Prop where
  code : ∀ secret, secret < shared.fresh →
    ∃ row, AllVersions shared (.code secret) fun version => version = row
  refresh : ∀ secret, secret < shared.fresh →
    ∃ userId createdAt, AllVersions shared (.refresh secret) fun version =>
      version.userId = userId ∧ version.createdAt = createdAt

/-- The user the code was loaded for, until the burn is over. -/
def CodeExchange.subject (exchange : CodeExchange) : Option Nat :=
  match exchange.phase with
  | .begin subject | .burn subject _ | .burning subject _ => some subject
  | _ => none

structure CodeKnows (shared : Shared) (exchange : CodeExchange) : Prop where
  subject : ∀ subject, exchange.subject = some subject →
    Fixed shared (.code exchange.code) fun row => row.userId = subject
  burning : ∀ subject burn, exchange.phase = .burning subject burn →
    Fixed shared (.code exchange.code) fun row => row = burn.row

structure RefreshKnows (shared : Shared) (exchange : RefreshExchange) :
    Prop where
  loaded : ∀ row, exchange.loaded = some row →
    Fixed shared (.refresh exchange.token) fun version =>
      version.userId = row.userId ∧ version.createdAt = row.createdAt
  inserted : ∀ row next, exchange.loaded = some row →
    exchange.inserted = some next →
    Fixed shared (.refresh next) fun version => version.userId = row.userId
  newRow : ∀ now row next newRow,
    exchange.phase = .mintAccess now row next newRow →
    newRow.userId = row.userId

def RevocableProcess.Knows (shared : Shared) : RevocableProcess → Prop
  | .code exchange => CodeKnows shared exchange
  | .refresh exchange => RefreshKnows shared exchange
  | .bearer _ | .revoke _ => True

section Knowledge

variable {pid tx : Nat} {shared next : Shared}

theorem Fixed.acts {key : Key} {P : CredentialRow key → Prop}
    (hfixed : Fixed shared key P) (hacts : Acts tx shared next)
    (hkept : ∀ old new, Updates key old new → P old → P new) :
    Fixed next key P where
  used := fun secret hsecret =>
    Nat.lt_of_lt_of_le (hfixed.used secret hsecret) hacts.fresh_le
  versions := hfixed.versions.acts hacts hfixed.used hkept

theorem Fixed.settles {key : Key} {P : CredentialRow key → Prop}
    (hfixed : Fixed shared key P) (hsettles : Settles shared next)
    {secret : Nat} (hsecret : key.secret = some secret) :
    Fixed next key P where
  used := fun secret hsecret =>
    Nat.lt_of_lt_of_le (hfixed.used secret hsecret) hsettles.fresh
  versions := hfixed.versions.settles hsettles hsecret (hfixed.used _ hsecret)

/-- What is read under a secret is under a used one. -/
theorem FreshUnused.lt_of_read (hunused : FreshUnused shared) {key : Key}
    {row : CredentialRow key} (hread : shared.read tx key = some row)
    {secret : Nat} (hsecret : key.secret = some secret) :
    secret < shared.fresh := by
  by_cases howner : shared.store.owner key = some tx
  · exact hunused.lt_of_owner howner hsecret
  · have hcommitted : shared.store.committed key ≠ none := by
      rw [← RowStore.view_of_not_owner howner, ← Shared.read, hread]
      exact Option.some_ne_none _
    exact hunused.lt_of_committed hcommitted hsecret

theorem Identities.code_of_read (hident : Identities shared)
    (hunused : FreshUnused shared) {secret : Nat} {row : CodeRow}
    (hread : shared.read tx (.code secret) = some row) :
    Fixed shared (.code secret) fun version => version = row := by
  have hused := hunused.lt_of_read hread rfl
  obtain ⟨known, hversions⟩ := hident.code secret hused
  obtain rfl : row = known := hversions.of_read hread
  refine ⟨?_, hversions⟩
  rintro _ ⟨⟩
  exact hused

theorem Identities.refresh_of_read (hident : Identities shared)
    (hunused : FreshUnused shared) {secret : Nat} {row : RefreshRow}
    (hread : shared.read tx (.refresh secret) = some row) :
    Fixed shared (.refresh secret) fun version =>
      version.userId = row.userId ∧ version.createdAt = row.createdAt := by
  have hused := hunused.lt_of_read hread rfl
  obtain ⟨userId, createdAt, hversions⟩ := hident.refresh secret hused
  obtain ⟨rfl, rfl⟩ : row.userId = userId ∧ row.createdAt = createdAt :=
    hversions.of_read hread
  refine ⟨?_, hversions⟩
  rintro _ ⟨⟩
  exact hused

theorem Identities.acts (hident : Identities shared)
    (hunused : FreshUnused shared) (hacts : Acts tx shared next) :
    Identities next where
  code := by
    intro secret _
    by_cases hold : secret < shared.fresh
    · obtain ⟨row, hversions⟩ := hident.code secret hold
      refine ⟨row, hversions.acts hacts ?_ fun _ _ => False.elim⟩
      rintro _ ⟨⟩
      exact hold
    · rcases hacts.newest hunused (.code secret) rfl (by omega) with
        ⟨hcommitted, howner⟩ | ⟨row, descent, rfl⟩
      · exact ⟨⟨[], 0, 0, 0⟩, .of_absent hcommitted howner⟩
      · refine ⟨row, AllVersions.of_insert ?_ ?_ descent⟩
        · exact (hunused _ secret rfl (by omega)).1
        · rfl
  refresh := by
    intro secret _
    by_cases hold : secret < shared.fresh
    · obtain ⟨userId, createdAt, hversions⟩ := hident.refresh secret hold
      refine ⟨userId, createdAt, hversions.acts hacts ?_ ?_⟩
      · rintro _ ⟨⟩
        exact hold
      · rintro old _ ⟨consumedAt, rfl⟩ hversion
        exact hversion
    · rcases hacts.newest hunused (.refresh secret) rfl (by omega) with
        ⟨hcommitted, howner⟩ | ⟨row, descent, rfl⟩
      · exact ⟨0, 0, .of_absent hcommitted howner⟩
      · refine ⟨row.userId, row.createdAt, .of_insert ?_ ⟨rfl, rfl⟩ descent⟩
        exact (hunused _ secret rfl (by omega)).1

theorem Identities.settles (hident : Identities shared)
    (hunused : FreshUnused shared) (hsettles : Settles shared next) :
    Identities next where
  code := by
    intro secret _
    by_cases hold : secret < shared.fresh
    · obtain ⟨row, hversions⟩ := hident.code secret hold
      exact ⟨row, hversions.settles hsettles rfl hold⟩
    · have howner := (hunused (.code secret) secret rfl (by omega)).2
      rw [← hsettles.owner] at howner
      cases hcommitted : next.store.committed (.code secret) with
      | none => exact ⟨⟨[], 0, 0, 0⟩, .of_absent hcommitted howner⟩
      | some row =>
          refine ⟨row, ?_, by simp [howner]⟩
          intro version hversion
          exact Option.some.inj (hversion.symm.trans hcommitted)
  refresh := by
    intro secret _
    by_cases hold : secret < shared.fresh
    · obtain ⟨userId, createdAt, hversions⟩ := hident.refresh secret hold
      exact ⟨userId, createdAt, hversions.settles hsettles rfl hold⟩
    · have howner := (hunused (.refresh secret) secret rfl (by omega)).2
      rw [← hsettles.owner] at howner
      cases hcommitted : next.store.committed (.refresh secret) with
      | none => exact ⟨0, 0, .of_absent hcommitted howner⟩
      | some row =>
          refine ⟨row.userId, row.createdAt, ?_, by simp [howner]⟩
          intro version hversion
          obtain rfl := Option.some.inj (hversion.symm.trans hcommitted)
          exact ⟨rfl, rfl⟩

end Knowledge

/-! ### Steps of an exchange -/

/-- The check finds the credential as recorded, and its user with a cutoff that
does not cut it off. -/
def Passes (shared : Shared) (tx : Nat) (check : Check) : Prop :=
  ∃ (row : CredentialRow check.key) (user : UserRow),
    shared.read tx check.key = some row ∧
      rowUser check.key row = check.user ∧
      rowCreatedAt check.key row = check.createdAt ∧
      shared.read tx (.user check.user) = some user ∧
      credentialValidSql (some user) check.createdAt = true

/-- A step that inserts nothing and takes no lock on a user. -/
structure Quiet (pid : Nat) (shared next : Shared) : Prop where
  acts : Acts pid shared next
  fresh : next.fresh = shared.fresh
  descent : next.descent = shared.descent
  users : ∀ id, next.store.owner (.user id) = some pid →
    shared.store.owner (.user id) = some pid

/-- The inserted row carries the user and the stamp of the check, and descends
from what was checked. -/
structure Mints (pid : Nat) (shared next : Shared) (check : Check) (key : Key)
    (row : CredentialRow key) : Prop where
  user : rowUser key row = check.user
  stamp : check.stamp = some (rowCreatedAt key row)
  secret : key.secret = some shared.fresh
  inserts : next = shared.insert pid key row (check.lineage shared)

structure ExchangeStep (pid : Nat) (shared next : Shared)
    (before after : RevocableProcess) : Prop where
  tables : Quiet pid shared next ∨
    ∃ check key row, before.checked = some check ∧
      Mints pid shared next check key row
  checked : ∀ check, after.checked = some check →
    before.checked = some check ∨
    next = shared ∧
      (before.checked = some { check with stamp := none } ∨
        before.checking shared pid = some check ∧ Passes shared pid check)

section Quietness

variable {pid : Nat} {shared : Shared}

theorem Quiet.idle : Quiet pid shared shared :=
  ⟨.idle, rfl, rfl, fun _ => id⟩

theorem Quiet.commit : Quiet pid shared (shared.commit pid) :=
  ⟨.commit, rfl, rfl, fun _ howner => absurd howner (owner_commit_ne _)⟩

theorem Quiet.rollback : Quiet pid shared (shared.rollback pid) :=
  ⟨.rollback, rfl, rfl, fun _ howner => absurd howner (owner_rollback_ne _)⟩

theorem Quiet.put {key : Key} {version : Option (CredentialRow key)}
    (hacts : Acts pid shared (shared.put pid key version)) {secret : Nat}
    (hsecret : key.secret = some secret) :
    Quiet pid shared (shared.put pid key version) := by
  refine ⟨hacts, rfl, rfl, ?_⟩
  intro id howner
  have hne : Key.user id ≠ key := by
    rintro rfl
    cases hsecret
  exact (RowStore.owner_put_of_ne hne _).symm.trans howner

theorem Quiet.delete {chosen : (key : Key) → CredentialRow key → Bool}
    {candidates : List Key} {store : CredentialStore}
    (hdeleted : shared.store.deleteChosen pid chosen candidates = some store)
    (hchosen : ∀ id row, chosen (.user id) row = false) :
    Quiet pid shared { shared with store := store } := by
  refine ⟨.delete chosen candidates store hdeleted, rfl, rfl, ?_⟩
  intro id howner
  obtain ⟨-, rfl⟩ := deleteChosen_eq_some hdeleted
  simp only [RowStore.removeAll] at howner
  split at howner
  · rename_i hmem
    obtain ⟨-, row, -, hmatch⟩ := RowStore.mem_matching.mp hmem
    rw [hchosen id row] at hmatch
    cases hmatch
  · exact howner

end Quietness

section Programs

variable {config : CredentialConfig} {pid : Nat} {shared next : Shared}

theorem CodeKnows.of_nothing {exchange : CodeExchange}
    (hsubject : exchange.subject = none) : CodeKnows shared exchange where
  subject := by simp [hsubject]
  burning := by
    intro subject burn hphase
    simp [CodeExchange.subject, hphase] at hsubject

/-- An exchange that goes on without a check. -/
theorem ExchangeStep.of_quiet {before after : RevocableProcess}
    (hquiet : Quiet pid shared next)
    (hchecked : ∀ check, after.checked = some check →
      before.checked = some check) :
    ExchangeStep pid shared next before after :=
  ⟨Or.inl hquiet, fun check hcheck => Or.inl (hchecked check hcheck)⟩

/-- One that ends without a check. -/
theorem ExchangeStep.of_unchecked {before after : RevocableProcess}
    (hquiet : Quiet pid shared next) (hnone : after.checked = none) :
    ExchangeStep pid shared next before after :=
  .of_quiet hquiet (by simp [hnone])

theorem codeStep_exchange {exchange after : CodeExchange}
    (hknows : CodeKnows shared exchange) (hident : Identities shared)
    (hunused : FreshUnused shared)
    (hstep : codeStep config pid shared exchange = some (next, after)) :
    ExchangeStep pid shared next (.code exchange) (.code after) ∧
      CodeKnows next after := by
  obtain ⟨code, clientId, phase⟩ := exchange
  cases phase <;> simp only [codeStep] at hstep
  case load =>
    split at hstep
    · cases hstep
      exact ⟨.of_unchecked .idle rfl, .of_nothing rfl⟩
    · rename_i row hload
      split at hstep
      · cases hstep
        refine ⟨.of_unchecked .idle rfl, ?_, nofun⟩
        rintro _ ⟨⟩
        have hfixed := hident.code_of_read hunused (loadCode_eq_some hload)
        refine ⟨hfixed.used, ?_, ?_⟩
        · intro version hversion
          rw [hfixed.versions.committed version hversion]
        · intro version howner hversion
          rw [hfixed.versions.dirty version howner hversion]
      · cases hstep
        exact ⟨.of_unchecked .idle rfl, .of_nothing rfl⟩
  case begin subject =>
    cases hstep
    exact ⟨.of_unchecked .idle rfl, hknows.subject, nofun⟩
  case burn subject now =>
    split at hstep
    · cases hstep
      exact ⟨.of_unchecked .idle rfl, .of_nothing rfl⟩
    · rename_i row hrow
      cases hstep
      have hsubject : row.userId = subject :=
        (hknows.subject subject rfl).versions.of_read hrow
      refine ⟨⟨Or.inl .idle, ?_⟩, hknows.subject, ?_⟩
      · intro check hcheck
        simp only [RevocableProcess.checked] at hcheck
        split at hcheck
        · rename_i hvalid
          cases hcheck
          refine Or.inr ⟨rfl, Or.inr ⟨?_, ?_⟩⟩
          · simp [RevocableProcess.checking, hrow, hsubject]
          · simp only [Burn.stillValid, Bool.and_eq_true,
              Option.isSome_iff_exists] at hvalid
            obtain ⟨⟨⟨user, huser⟩, -⟩, hcredential⟩ := hvalid
            refine ⟨row, user, hrow, hsubject, rfl, hsubject ▸ huser, ?_⟩
            rw [← huser]
            exact hcredential
        · cases hcheck
      · rintro _ _ ⟨⟩
        exact hident.code_of_read hunused hrow
  case burning subject burn =>
    split at hstep
    · rename_i hfree
      split at hstep
      · cases hstep
        exact ⟨.of_unchecked .idle rfl, .of_nothing rfl⟩
      · rename_i row hrow
        cases hstep
        obtain rfl : row = burn.row :=
          (hknows.burning subject burn rfl).versions.of_read hrow
        refine ⟨.of_quiet (.put (.put _ _ _ hfree hrow nofun) rfl) ?_,
          .of_nothing rfl⟩
        exact fun check hcheck => hcheck
    · cases hstep
  case burned subject result =>
    split at hstep
    · cases hstep
      exact ⟨.of_unchecked .commit rfl, .of_nothing rfl⟩
    · rename_i burn
      cases hstep
      by_cases hvalid : burn.stillValid = true
      · simp only [hvalid, ↓reduceIte]
        refine ⟨.of_quiet .commit ?_, .of_nothing rfl⟩
        rintro check ⟨⟩
        simp [RevocableProcess.checked, hvalid]
      · simp only [hvalid]
        exact ⟨.of_unchecked .commit rfl, .of_nothing rfl⟩
  case mintBegin subject burn =>
    cases hstep
    refine ⟨⟨Or.inl .idle, ?_⟩, .of_nothing rfl⟩
    rintro check ⟨⟩
    exact Or.inr ⟨rfl, Or.inl rfl⟩
  case mintRefresh subject burn now =>
    split at hstep
    · cases hstep
      refine ⟨⟨Or.inr ⟨_, _, _, rfl, rfl, rfl, rfl, rfl⟩, ?_⟩, .of_nothing rfl⟩
      exact fun check hcheck => Or.inl hcheck
    · cases hstep
      exact ⟨.of_unchecked .rollback rfl, .of_nothing rfl⟩
  case loadNew subject burn now refresh =>
    split at hstep
    · cases hstep
      exact ⟨.of_unchecked .rollback rfl, .of_nothing rfl⟩
    · cases hstep
      exact ⟨.of_quiet .idle fun check hcheck => hcheck, .of_nothing rfl⟩
  case mintAccess subject burn now refresh family =>
    split at hstep
    · cases hstep
      exact ⟨⟨Or.inr ⟨_, _, _, rfl, rfl, rfl, rfl, rfl⟩, nofun⟩,
        .of_nothing rfl⟩
    · cases hstep
      exact ⟨.of_unchecked .rollback rfl, .of_nothing rfl⟩
  case finish =>
    cases hstep
    exact ⟨.of_unchecked .commit rfl, .of_nothing rfl⟩
  case done | stopped => cases hstep

theorem claimMatches_eq_true {read : Reader} {token : Nat}
    (hmatches : claimMatches read token = true) :
    ∃ row user, read (.refresh token) = some row ∧
      read (.user row.userId) = some user ∧
      credentialValidSql (some user) row.createdAt = true := by
  unfold claimMatches at hmatches
  split at hmatches
  · cases hmatches
  · rename_i row hrow
    rw [Bool.and_eq_true] at hmatches
    split at hmatches
    · cases hmatches.2
    · rename_i user huser
      exact ⟨row, user, hrow, huser, hmatches.2⟩

theorem RefreshKnows.of_nothing {exchange : RefreshExchange}
    (hloaded : exchange.loaded = none) : RefreshKnows shared exchange where
  loaded := by simp [hloaded]
  inserted := by simp [hloaded]
  newRow := by
    intro now row successor newRow hphase
    simp [RefreshExchange.loaded, hphase] at hloaded

theorem RefreshKnows.acts {exchange : RefreshExchange} {tx : Nat}
    (hknows : RefreshKnows shared exchange) (hacts : Acts tx shared next) :
    RefreshKnows next exchange where
  loaded := by
    intro row hloaded
    refine (hknows.loaded row hloaded).acts hacts ?_
    rintro old _ ⟨consumedAt, rfl⟩ hold
    exact hold
  inserted := by
    intro row successor hloaded hinserted
    refine (hknows.inserted row successor hloaded hinserted).acts hacts ?_
    rintro old _ ⟨consumedAt, rfl⟩ hold
    exact hold
  newRow := hknows.newRow

/-- An exchange that goes on with the row it loaded and the successor it
inserted. -/
theorem RefreshKnows.of_moved {exchange after : RefreshExchange}
    (hknows : RefreshKnows shared exchange)
    (htoken : after.token = exchange.token)
    (hloaded : after.loaded = exchange.loaded)
    (hinserted : ∀ successor, after.inserted = some successor →
      exchange.inserted = some successor)
    (hnewRow : ∀ now row successor newRow,
      after.phase = .mintAccess now row successor newRow →
      newRow.userId = row.userId) :
    RefreshKnows shared after where
  loaded := by
    rw [hloaded, htoken]
    exact hknows.loaded
  inserted := by
    intro row successor hrow hsuccessor
    exact hknows.inserted row successor (hloaded ▸ hrow)
      (hinserted successor hsuccessor)
  newRow := hnewRow

/-- One that goes on with the row it loaded and has inserted nothing. -/
theorem RefreshKnows.of_loaded {exchange after : RefreshExchange}
    (hknows : RefreshKnows shared exchange)
    (htoken : after.token = exchange.token)
    (hloaded : after.loaded = exchange.loaded)
    (hnone : after.inserted = none) : RefreshKnows shared after := by
  refine hknows.of_moved htoken hloaded (by simp [hnone]) ?_
  intro now row successor newRow hphase
  simp [RefreshExchange.inserted, hphase] at hnone

theorem refreshStep_exchange {exchange after : RefreshExchange}
    (hknows : RefreshKnows shared exchange) (hident : Identities shared)
    (hunused : FreshUnused shared)
    (hstep : refreshStep config pid shared exchange = some (next, after)) :
    ExchangeStep pid shared next (.refresh exchange) (.refresh after) ∧
      RefreshKnows next after := by
  have hacts := refreshStep_acts hstep
  obtain ⟨token, clientId, phase⟩ := exchange
  cases phase <;> simp only [refreshStep] at hstep
  case begin | deleteFamily | purgeAccess =>
    cases hstep
    exact ⟨.of_unchecked .idle rfl, .of_nothing rfl⟩
  case rawState now =>
    repeat' split at hstep
    all_goals
      cases hstep
      first
        | exact ⟨.of_unchecked .rollback rfl, .of_nothing rfl⟩
        | exact ⟨.of_unchecked .idle rfl, .of_nothing rfl⟩
  case load now =>
    split at hstep
    · cases hstep
      exact ⟨.of_unchecked .rollback rfl, .of_nothing rfl⟩
    · rename_i row hload
      cases hstep
      refine ⟨.of_unchecked .idle rfl, ?_, by rintro _ _ _ ⟨⟩,
        by rintro _ _ _ _ ⟨⟩⟩
      rintro _ ⟨⟩
      exact hident.refresh_of_read hunused (loadRefresh_eq_some hload).1
  case claim now row =>
    cases hstep
    split
    · rename_i hmatches
      refine ⟨⟨Or.inl .idle, ?_⟩, hknows.of_loaded rfl rfl rfl⟩
      rintro check ⟨⟩
      obtain ⟨current, user, hcurrent, huser, hvalid⟩ :=
        claimMatches_eq_true hmatches
      obtain ⟨hsame, hcreated⟩ :=
        (hknows.loaded row rfl).versions.of_read hcurrent
      refine Or.inr ⟨rfl, Or.inr ⟨rfl, current, user, hcurrent, hsame, hcreated,
        hsame ▸ huser, ?_⟩⟩
      exact hcreated ▸ hvalid
    · exact ⟨.of_unchecked .idle rfl, hknows.of_loaded rfl rfl rfl⟩
  case claiming now row =>
    split at hstep
    · rename_i hfree
      split at hstep
      · cases hstep
        exact ⟨.of_unchecked .idle rfl, hknows.of_loaded rfl rfl rfl⟩
      · rename_i current hcurrent
        split at hstep
        · cases hstep
          refine ⟨.of_quiet (.put hacts rfl) fun check hcheck => hcheck, ?_⟩
          exact (hknows.acts hacts).of_loaded rfl rfl rfl
        · cases hstep
          exact ⟨.of_unchecked .idle rfl, hknows.of_loaded rfl rfl rfl⟩
    · cases hstep
  case reread now row =>
    repeat' split at hstep
    all_goals
      cases hstep
      first
        | exact ⟨.of_unchecked .rollback rfl, .of_nothing rfl⟩
        | exact ⟨.of_unchecked .idle rfl, .of_nothing rfl⟩
  case mint now row =>
    cases hstep
    refine ⟨⟨Or.inr ⟨_, _, _, rfl, rfl, rfl, rfl, rfl⟩,
      fun check hcheck => Or.inl hcheck⟩, ?_⟩
    have hnone := (hunused (.refresh shared.fresh) _ rfl (Nat.le_refl _)).1
    refine ⟨(hknows.acts hacts).loaded, ?_, by rintro _ _ _ _ ⟨⟩⟩
    rintro _ _ ⟨⟩ ⟨⟩
    refine ⟨?_, AllVersions.of_insert hnone ?_ _⟩
    · rintro _ ⟨⟩
      exact Nat.lt_succ_self _
    · rfl
  case sweep now row successor =>
    cases hstep
    exact ⟨.of_quiet .idle fun check hcheck => hcheck,
      hknows.of_moved rfl rfl (fun _ => id) (by rintro _ _ _ _ ⟨⟩)⟩
  case sweeping now row successor candidates =>
    split at hstep
    · cases hstep
    · rename_i store hdeleted
      cases hstep
      exact ⟨.of_quiet (.delete hdeleted fun _ _ => rfl)
        fun check hcheck => hcheck,
        (hknows.acts hacts).of_moved rfl rfl (fun _ => id) (by rintro _ _ _ _ ⟨⟩)⟩
  case loadNew now row successor =>
    split at hstep
    · cases hstep
      exact ⟨.of_unchecked .rollback rfl, .of_nothing rfl⟩
    · rename_i newRow hload
      cases hstep
      refine ⟨.of_quiet .idle fun check hcheck => hcheck,
        hknows.of_moved rfl rfl (fun _ => id) ?_⟩
      rintro _ _ _ _ ⟨⟩
      exact (hknows.inserted row successor rfl rfl).versions.of_read
        (loadRefresh_eq_some hload).1
  case mintAccess now row successor newRow =>
    split at hstep
    · cases hstep
      refine ⟨⟨Or.inr ⟨_, _, _, rfl, ?_, rfl, rfl, rfl⟩, by rintro _ ⟨⟩⟩, ?_⟩
      · exact hknows.newRow now row successor newRow rfl
      · exact (hknows.acts hacts).of_moved rfl rfl (fun _ => id) (by rintro _ _ _ _ ⟨⟩)
    · cases hstep
      exact ⟨.of_unchecked .rollback rfl, .of_nothing rfl⟩
  case finish | finishReuse =>
    cases hstep
    exact ⟨.of_unchecked .commit rfl, .of_nothing rfl⟩
  case deletingFamily | purgingAccess =>
    split at hstep
    · cases hstep
    · rename_i store hdeleted
      cases hstep
      exact ⟨.of_unchecked (.delete hdeleted fun _ _ => rfl) rfl, .of_nothing rfl⟩
  case rotated | reuse | stopped => cases hstep

theorem bearerStep_exchange {refresh after : BearerRefresh}
    (hstep : bearerStep pid shared refresh = some (next, after)) :
    ExchangeStep pid shared next (.bearer refresh) (.bearer after) := by
  have hacts := bearerStep_acts hstep
  obtain ⟨token, phase⟩ := refresh
  cases phase <;> simp only [bearerStep] at hstep
  case begin =>
    cases hstep
    exact .of_unchecked .idle rfl
  case verify now =>
    split at hstep
    · cases hstep
      exact .of_unchecked .rollback rfl
    · rename_i row user hselect
      cases hstep
      obtain ⟨hrow, huser, hvalid⟩ := verifySelect_eq_some hselect
      refine ⟨Or.inl .idle, ?_⟩
      rintro check ⟨⟩
      refine Or.inr ⟨rfl, Or.inr ⟨?_, row, user, hrow, rfl, rfl, huser, hvalid⟩⟩
      simp [RevocableProcess.checking, hrow]
  case touch now row =>
    split at hstep
    · cases hstep
      exact .of_quiet .idle fun check hcheck => hcheck
    · cases hstep
      refine .of_quiet .idle ?_
      split <;> exact fun check hcheck => hcheck
  case touching now row =>
    split at hstep
    · split at hstep
      · cases hstep
        exact .of_quiet .idle fun check hcheck => hcheck
      · split at hstep
        · cases hstep
          exact .of_quiet (.put hacts rfl) fun check hcheck => hcheck
        · cases hstep
          exact .of_quiet .idle fun check hcheck => hcheck
    · cases hstep
  case issue now row =>
    split at hstep
    · cases hstep
      exact ⟨Or.inr ⟨_, _, _, rfl, rfl, rfl, rfl, rfl⟩, nofun⟩
    · cases hstep
      exact .of_unchecked .rollback rfl
  case delete row successor =>
    cases hstep
    refine .of_quiet .idle ?_
    split <;> exact nofun
  case deleting row successor =>
    split at hstep
    · split at hstep
      · cases hstep
        exact .of_unchecked .idle rfl
      · cases hstep
        exact .of_unchecked (.put hacts rfl) rfl
    · cases hstep
  case finish =>
    cases hstep
    exact .of_unchecked .commit rfl
  case done | stopped => cases hstep

end Programs

end Localmail
