/-
The login rate limiter: logins one after another, each checked against the
audit rows of those before it, and sweeps of old rows at any moment between
them.  A row that could not be written limits nothing, and a failure at the
very moment of a success counts as one before it.
-/
import Localmail.QueryParse
import Localmail.SlidingWindow

namespace Localmail

/-! ### The limiter -/

/-- The caps of `AuthConfig` and its windows and retention, in seconds. -/
structure LoginLimits where
  loginPerUserMax : Int
  loginPerUserWindow : Int
  loginPerIpMax : Int
  loginPerIpWindow : Int
  loginGlobalMax : Int
  loginGlobalWindow : Int
  loginAttemptRetention : Int
deriving Repr, DecidableEq

/-- A row of `api_login_attempts`. -/
structure LoginAttempt where
  ts : Int
  ip : Option Text
  username : Text
  succeeded : Bool
deriving Repr, DecidableEq

inductive RateCap where
  | global
  | ip
  | user
deriving Repr, DecidableEq

/-- `make_interval(secs => …)`, in microseconds. -/
def intervalSecs (seconds : Int) : Int := seconds * 1000000

namespace LoginLimits

variable (limits : LoginLimits)

def widestWindow : Int :=
  max limits.loginGlobalWindow
    (max limits.loginPerIpWindow limits.loginPerUserWindow)

/-- `MAX(ts)` over the successes of a user. -/
def lastSuccess (table : List LoginAttempt) (username : Text) : Option Int :=
  ((table.filter fun row => row.username = username && row.succeeded).map
    LoginAttempt.ts).max?

/-- `ts > COALESCE(since, '-infinity')`. -/
def isAfter (ts : Int) (since : Option Int) : Bool :=
  since.all fun moment => moment < ts

def globalAttempts (table : List LoginAttempt) (now : Int) : Nat :=
  (table.filter fun row => now - intervalSecs limits.widestWindow < row.ts).countP
    fun row => now - intervalSecs limits.loginGlobalWindow < row.ts

/-- `ip = NULL` holds of no row. -/
def ipFailures (table : List LoginAttempt) (clientIp : Option Text)
    (now : Int) : Nat :=
  (table.filter fun row => now - intervalSecs limits.widestWindow < row.ts).countP
    fun row => clientIp.isSome && row.ip = clientIp && !row.succeeded &&
      now - intervalSecs limits.loginPerIpWindow < row.ts

def userFailures (table : List LoginAttempt) (username : Text) (now : Int) :
    Nat :=
  (table.filter fun row => now - intervalSecs limits.widestWindow < row.ts).countP
    fun row => row.username = username && !row.succeeded &&
      now - intervalSecs limits.loginPerUserWindow < row.ts &&
      isAfter row.ts (lastSuccess table username)

/-- `check_login_rate_limits`: the cap that is hit. -/
def checkLoginRateLimits (table : List LoginAttempt) (username : Text)
    (clientIp : Option Text) (now : Int) : Option RateCap :=
  if limits.loginGlobalMax ≤ limits.globalAttempts table now then some .global
  else if clientIp.isSome &&
      limits.loginPerIpMax ≤ limits.ipFailures table clientIp now then some .ip
  else if limits.loginPerUserMax ≤ limits.userFailures table username now then
    some .user
  else none

/-- `_sweep_login_attempts`. -/
def sweepLoginAttempts (table : List LoginAttempt) (now : Int) :
    List LoginAttempt :=
  table.filter fun row =>
    !(row.ts < now - intervalSecs limits.loginAttemptRetention)

end LoginLimits

/-! ### Runs -/

/-- A password check that was made, and whether its row was written. -/
structure PasswordCheck extends LoginAttempt where
  audited : Bool
deriving Repr, DecidableEq

/-- A login at its transaction's `now()`, with what the password check finds if
it is reached and whether the `INSERT` of its row goes through; or a sweep. -/
inductive LoginEvent where
  | login (now : Int) (username : Text) (clientIp : Option Text)
      (succeeded audited : Bool)
  | sweep (now : Int)
deriving Repr, DecidableEq

def LoginEvent.now : LoginEvent → Int
  | .login now _ _ _ _ | .sweep now => now

/-- The audit rows there are, and all password checks so far. -/
structure LoginState where
  table : List LoginAttempt
  checks : List PasswordCheck

def LoginState.start : LoginState := ⟨[], []⟩

/-- `login` up to the token, `record_login_attempt` failing open. -/
def LoginState.step (limits : LoginLimits) (state : LoginState) :
    LoginEvent → LoginState
  | .login now username clientIp succeeded audited =>
      match limits.checkLoginRateLimits state.table username clientIp now with
      | some _ => state
      | none =>
          let attempt := ⟨now, clientIp, username, succeeded⟩
          ⟨if audited then state.table ++ [attempt] else state.table,
            state.checks ++ [⟨attempt, audited⟩]⟩
  | .sweep now =>
      { state with table := limits.sweepLoginAttempts state.table now }

def LoginState.run (limits : LoginLimits) (events : List LoginEvent) :
    LoginState :=
  events.foldl (LoginState.step limits) .start

/-! ### The caps -/

/-- The rows written for the checks. -/
def auditedRows (checks : List PasswordCheck) : List LoginAttempt :=
  (checks.filter PasswordCheck.audited).map PasswordCheck.toLoginAttempt

def auditedFailureOf (username : Text) (check : PasswordCheck) : Bool :=
  check.audited && check.username = username && !check.succeeded

def auditedFailureFrom (ip : Text) (check : PasswordCheck) : Bool :=
  check.audited && check.ip = some ip && !check.succeeded

/-- A failure of the user, later than the last success of all. -/
def failureSinceSuccess (checks : List PasswordCheck) (username : Text)
    (check : PasswordCheck) : Bool :=
  auditedFailureOf username check &&
    LoginLimits.isAfter check.ts
      (LoginLimits.lastSuccess (auditedRows checks) username)

/-- In no window of its length are there more checks than a cap allows; a
negative cap allows none. -/
structure CapsHold (limits : LoginLimits) (checks : List PasswordCheck) :
    Prop where
  perUser : ∀ username inside,
    HalfOpen (intervalSecs limits.loginPerUserWindow) inside →
    countIn (fun check => check.ts) (failureSinceSuccess checks username) inside
      checks ≤ limits.loginPerUserMax.toNat
  perIp : ∀ ip inside,
    HalfOpen (intervalSecs limits.loginPerIpWindow) inside →
    countIn (fun check => check.ts) (auditedFailureFrom ip) inside checks ≤
      limits.loginPerIpMax.toNat
  global : ∀ inside,
    HalfOpen (intervalSecs limits.loginGlobalWindow) inside →
    countIn (fun check => check.ts) PasswordCheck.audited inside checks ≤
      limits.loginGlobalMax.toNat

/-! ### What a check counts -/

section Counts

variable {limits : LoginLimits} {state : LoginState} {now : Int}

theorem countP_auditedRows (p : LoginAttempt → Bool)
    (checks : List PasswordCheck) :
    (auditedRows checks).countP p =
      checks.countP fun check => check.audited && p check.toLoginAttempt := by
  rw [auditedRows, List.countP_map, List.countP_filter]
  apply List.countP_congr
  intro check _
  simp [and_comm]

theorem isAfter_lastSuccess_iff {table : List LoginAttempt} {username : Text}
    {ts : Int} :
    LoginLimits.isAfter ts (LoginLimits.lastSuccess table username) = true ↔
      ∀ row ∈ table, row.username = username → row.succeeded = true →
        row.ts < ts := by
  have hmem : ∀ value, value ∈ (table.filter fun row =>
      row.username = username && row.succeeded).map LoginAttempt.ts ↔
        ∃ row ∈ table, row.username = username ∧ row.succeeded = true ∧
          row.ts = value := by
    intro value
    simp [and_assoc]
  rw [LoginLimits.isAfter, LoginLimits.lastSuccess]
  cases hlast : ((table.filter fun row =>
      row.username = username && row.succeeded).map LoginAttempt.ts).max? with
  | none =>
      rw [List.max?_eq_none_iff] at hlast
      rw [hlast] at hmem
      refine iff_of_true rfl ?_
      intro row hrow husername hsucceeded
      exact absurd ((hmem row.ts).mpr ⟨row, hrow, husername, hsucceeded, rfl⟩)
        List.not_mem_nil
  | some last =>
      obtain ⟨hlastMem, hbound⟩ := List.max?_eq_some_iff.mp hlast
      rw [Option.all_some, decide_eq_true_eq]
      constructor
      · intro hafter row hrow husername hsucceeded
        exact Int.lt_of_le_of_lt
          (hbound _ ((hmem _).mpr ⟨row, hrow, husername, hsucceeded, rfl⟩)) hafter
      · intro hbefore
        obtain ⟨row, hrow, husername, hsucceeded, rfl⟩ := (hmem last).mp hlastMem
        exact hbefore row hrow husername hsucceeded

/-- Of the rows written, those a window can reach are all there. -/
structure TableOf (limits : LoginLimits) (now : Int) (state : LoginState) :
    Prop where
  subset : ∀ row ∈ state.table, row ∈ auditedRows state.checks
  countP_eq : ∀ p : LoginAttempt → Bool,
    (∀ row, p row = true →
      now - intervalSecs limits.loginAttemptRetention ≤ row.ts) →
    state.table.countP p = (auditedRows state.checks).countP p

theorem TableOf.later {later : Int} (htable : TableOf limits now state)
    (hle : now ≤ later) : TableOf limits later state where
  subset := htable.subset
  countP_eq := by
    intro p hp
    apply htable.countP_eq
    intro row hrow
    have hrecent := hp row hrow
    omega

theorem TableOf.countP_recent (htable : TableOf limits now state)
    (hretention : limits.widestWindow ≤ limits.loginAttemptRetention)
    {width : Int} (hwidth : width ≤ limits.widestWindow)
    (p : LoginAttempt → Bool)
    (hp : ∀ row, p row = true → now - intervalSecs width < row.ts) :
    (state.table.filter fun row =>
        now - intervalSecs limits.widestWindow < row.ts).countP p =
      (auditedRows state.checks).countP p := by
  have hwide : ∀ row, p row = true →
      now - intervalSecs limits.widestWindow < row.ts := by
    intro row hrow
    have hrecent := hp row hrow
    simp only [intervalSecs] at hrecent ⊢
    omega
  rw [List.countP_filter, ← htable.countP_eq]
  · apply List.countP_congr
    intro row _
    simp only [Bool.and_eq_true, decide_eq_true_eq, and_iff_left_iff_imp]
    exact hwide row
  · intro row hrow
    have hrecent := hwide row hrow
    simp only [intervalSecs] at hrecent ⊢
    omega

theorem below_caps {table : List LoginAttempt} {username : Text}
    {clientIp : Option Text}
    (hpassed : limits.checkLoginRateLimits table username clientIp now = none) :
    limits.globalAttempts table now < limits.loginGlobalMax ∧
      (clientIp.isSome = true →
        limits.ipFailures table clientIp now < limits.loginPerIpMax) ∧
      limits.userFailures table username now < limits.loginPerUserMax := by
  unfold LoginLimits.checkLoginRateLimits at hpassed
  by_cases hglobal : limits.loginGlobalMax ≤ limits.globalAttempts table now
  · rw [if_pos hglobal] at hpassed
    cases hpassed
  rw [if_neg hglobal] at hpassed
  by_cases hip : (clientIp.isSome &&
      limits.loginPerIpMax ≤ limits.ipFailures table clientIp now) = true
  · rw [if_pos hip] at hpassed
    cases hpassed
  rw [if_neg hip] at hpassed
  by_cases huser : limits.loginPerUserMax ≤
      limits.userFailures table username now
  · rw [if_pos huser] at hpassed
    cases hpassed
  refine ⟨Int.not_le.mp hglobal, ?_, Int.not_le.mp huser⟩
  intro hknown
  rw [hknown, Bool.true_and, decide_eq_true_eq] at hip
  exact Int.not_le.mp hip

theorem windows_le_widest (limits : LoginLimits) :
    limits.loginGlobalWindow ≤ limits.widestWindow ∧
      limits.loginPerIpWindow ≤ limits.widestWindow ∧
      limits.loginPerUserWindow ≤ limits.widestWindow := by
  unfold LoginLimits.widestWindow
  omega

variable (hretention : limits.widestWindow ≤ limits.loginAttemptRetention)
  (htable : TableOf limits now state)

include hretention htable

theorem globalAttempts_eq :
    limits.globalAttempts state.table now =
      countWithin (fun check => check.ts) PasswordCheck.audited
        (intervalSecs limits.loginGlobalWindow) now state.checks := by
  rw [LoginLimits.globalAttempts,
    htable.countP_recent hretention (windows_le_widest limits).1 _ (by simp),
    countP_auditedRows]
  rfl

theorem ipFailures_eq (ip : Text) :
    limits.ipFailures state.table (some ip) now =
      countWithin (fun check => check.ts) (auditedFailureFrom ip)
        (intervalSecs limits.loginPerIpWindow) now state.checks := by
  rw [LoginLimits.ipFailures,
    htable.countP_recent hretention (windows_le_widest limits).2.1 _ (by simp),
    countP_auditedRows]
  apply List.countP_congr
  intro check _
  simp [auditedFailureFrom, and_assoc]

/-- Failures later than every success there is are counted, and others may
be. -/
theorem le_userFailures {username : Text} {fresh : Int → Bool}
    (hfresh : ∀ row ∈ auditedRows state.checks, row.username = username →
      row.succeeded = true → ∀ ts, fresh ts = true → row.ts < ts) :
    countWithin (fun check => check.ts)
        (fun check => auditedFailureOf username check && fresh check.ts)
        (intervalSecs limits.loginPerUserWindow) now state.checks ≤
      limits.userFailures state.table username now := by
  have hwindowed : ∀ row : LoginAttempt,
      (row.username = username && !row.succeeded &&
        now - intervalSecs limits.loginPerUserWindow < row.ts &&
        LoginLimits.isAfter row.ts
          (LoginLimits.lastSuccess state.table username)) = true →
      now - intervalSecs limits.loginPerUserWindow < row.ts := by
    intro row hrow
    simp only [Bool.and_eq_true, decide_eq_true_eq] at hrow
    exact hrow.1.2
  rw [LoginLimits.userFailures,
    htable.countP_recent hretention (windows_le_widest limits).2.2 _ hwindowed,
    countP_auditedRows]
  apply List.countP_mono_left
  intro check _ hcheck
  simp only [auditedFailureOf, Bool.and_eq_true, decide_eq_true_eq] at hcheck ⊢
  obtain ⟨⟨⟨⟨haudited, husername⟩, hfailed⟩, hafter⟩, hwindow⟩ := hcheck
  refine ⟨haudited, ⟨⟨husername, hfailed⟩, hwindow⟩, ?_⟩
  rw [isAfter_lastSuccess_iff]
  intro row hrow hrowUser hsucceeded
  exact hfresh row (htable.subset row hrow) hrowUser hsucceeded _ hafter

end Counts

/-! ### Runs keep to the caps -/

/-- The failures of a user that are later than what `fresh` lets pass. -/
def freshFailure (username : Text) (fresh : Int → Bool)
    (check : PasswordCheck) : Bool :=
  auditedFailureOf username check && fresh check.ts

/-- `fresh` lets no moment pass that some success of the user has reached. -/
def AfterSuccesses (checks : List PasswordCheck) (username : Text)
    (fresh : Int → Bool) : Prop :=
  ∀ row ∈ auditedRows checks, row.username = username → row.succeeded = true →
    ∀ ts, fresh ts = true → row.ts < ts

/-- Every check so far found room in each of its windows. -/
structure LoginInv (limits : LoginLimits) (now : Int) (state : LoginState) :
    Prop where
  table : TableOf limits now state
  perUser : ∀ username fresh, AfterSuccesses state.checks username fresh →
    AdmittedWithin (fun check => check.ts) (freshFailure username fresh)
      (intervalSecs limits.loginPerUserWindow) limits.loginPerUserMax.toNat
      state.checks
  perIp : ∀ ip, AdmittedWithin (fun check => check.ts) (auditedFailureFrom ip)
    (intervalSecs limits.loginPerIpWindow) limits.loginPerIpMax.toNat
    state.checks
  global : AdmittedWithin (fun check => check.ts) PasswordCheck.audited
    (intervalSecs limits.loginGlobalWindow) limits.loginGlobalMax.toNat
    state.checks

section Runs

variable {limits : LoginLimits} {state : LoginState} {now : Int}

theorem loginInv_start (limits : LoginLimits) (now : Int) :
    LoginInv limits now .start where
  table := ⟨nofun, fun _ _ => rfl⟩
  perUser := fun _ _ _ => admittedWithin_nil
  perIp := fun _ => admittedWithin_nil
  global := admittedWithin_nil

theorem auditedRows_append (checks : List PasswordCheck)
    (check : PasswordCheck) :
    auditedRows (checks ++ [check]) = auditedRows checks ++
      if check.audited then [check.toLoginAttempt] else [] := by
  cases haudited : check.audited <;>
    simp [auditedRows, List.filter_append, haudited]

theorem TableOf.append (htable : TableOf limits now state)
    (check : PasswordCheck) :
    TableOf limits now
      ⟨if check.audited then state.table ++ [check.toLoginAttempt]
        else state.table, state.checks ++ [check]⟩ := by
  have hrows : (if check.audited then state.table ++ [check.toLoginAttempt]
      else state.table) = state.table ++
        if check.audited then [check.toLoginAttempt] else [] := by
    cases check.audited <;> simp
  refine ⟨?_, ?_⟩
  · intro row hrow
    simp only [hrows, auditedRows_append] at hrow ⊢
    exact List.mem_append.mpr ((List.mem_append.mp hrow).imp_left
      (htable.subset row))
  · intro p hp
    simp only [hrows, auditedRows_append, List.countP_append,
      htable.countP_eq p hp]

theorem TableOf.sweep (htable : TableOf limits now state) :
    TableOf limits now
      { state with table := limits.sweepLoginAttempts state.table now } where
  subset := fun row hrow => htable.subset row (List.mem_of_mem_filter hrow)
  countP_eq := by
    intro p hp
    rw [← htable.countP_eq p hp, LoginLimits.sweepLoginAttempts,
      List.countP_filter]
    apply List.countP_congr
    intro row _
    simp only [Bool.and_eq_true, and_iff_left_iff_imp]
    intro hrow
    simpa using hp row hrow

theorem LoginInv.later {later : Int} (hinv : LoginInv limits now state)
    (hle : now ≤ later) : LoginInv limits later state :=
  ⟨hinv.table.later hle, hinv.perUser, hinv.perIp, hinv.global⟩

theorem AfterSuccesses.initial {checks : List PasswordCheck}
    {check : PasswordCheck} {username : Text} {fresh : Int → Bool}
    (hafter : AfterSuccesses (checks ++ [check]) username fresh) :
    AfterSuccesses checks username fresh :=
  fun row hrow => hafter row (by
    rw [auditedRows_append]
    exact List.mem_append_left _ hrow)

theorem lt_toNat {count : Nat} {cap : Int} (hlt : (count : Int) < cap) :
    count < cap.toNat := by
  omega

/-- A check that passed the limiter found room in its three windows. -/
theorem LoginInv.check
    (hretention : limits.widestWindow ≤ limits.loginAttemptRetention)
    (hinv : LoginInv limits now state) (check : PasswordCheck)
    (hnow : check.ts = now)
    (hpassed : limits.checkLoginRateLimits state.table check.username check.ip
      now = none) :
    LoginInv limits now
      ⟨if check.audited then state.table ++ [check.toLoginAttempt]
        else state.table, state.checks ++ [check]⟩ := by
  obtain ⟨hglobal, hip, huser⟩ := below_caps hpassed
  refine ⟨hinv.table.append check, ?_, ?_, ?_⟩
  · intro username fresh hfresh
    refine admittedWithin_append_iff.mpr
      ⟨hinv.perUser username fresh hfresh.initial, ?_⟩
    intro hcounts
    have hsame : check.username = username := by
      simp only [freshFailure, auditedFailureOf, Bool.and_eq_true,
        decide_eq_true_eq] at hcounts
      exact hcounts.1.1.2
    rw [hsame] at huser
    rw [hnow]
    exact Nat.lt_of_le_of_lt
      (le_userFailures hretention hinv.table hfresh.initial) (lt_toNat huser)
  · intro ip
    refine admittedWithin_append_iff.mpr ⟨hinv.perIp ip, ?_⟩
    intro hcounts
    have hsame : check.ip = some ip := by
      simp only [auditedFailureFrom, Bool.and_eq_true, decide_eq_true_eq]
        at hcounts
      exact hcounts.1.2
    rw [hsame] at hip
    rw [hnow, ← ipFailures_eq hretention hinv.table]
    exact lt_toNat (hip rfl)
  · refine admittedWithin_append_iff.mpr ⟨hinv.global, ?_⟩
    intro _
    rw [hnow, ← globalAttempts_eq hretention hinv.table]
    exact lt_toNat hglobal

theorem LoginInv.step
    (hretention : limits.widestWindow ≤ limits.loginAttemptRetention)
    (event : LoginEvent) (hinv : LoginInv limits now state)
    (hlater : now ≤ event.now) :
    LoginInv limits event.now (state.step limits event) := by
  replace hinv := hinv.later hlater
  cases event with
  | sweep now => exact ⟨hinv.table.sweep, hinv.perUser, hinv.perIp, hinv.global⟩
  | login now username clientIp succeeded audited =>
      cases hpassed : limits.checkLoginRateLimits state.table username clientIp
          now with
      | some cap =>
          rw [LoginState.step, hpassed]
          exact hinv
      | none =>
          rw [LoginState.step, hpassed]
          exact hinv.check hretention ⟨⟨now, clientIp, username, succeeded⟩,
            audited⟩ rfl hpassed

theorem LoginInv.run
    (hretention : limits.widestWindow ≤ limits.loginAttemptRetention)
    (events : List LoginEvent) (hinv : LoginInv limits now state)
    (hlater : ∀ event ∈ events, now ≤ event.now)
    (hordered : (events.map LoginEvent.now).Pairwise (· ≤ ·)) :
    ∃ last, LoginInv limits last (events.foldl (LoginState.step limits) state) := by
  induction events generalizing state now with
  | nil => exact ⟨now, hinv⟩
  | cons event rest ih =>
      rw [List.map_cons, List.pairwise_cons] at hordered
      apply ih (hinv.step hretention event (hlater event List.mem_cons_self))
      · intro other hother
        exact hordered.1 _ (List.mem_map_of_mem hother)
      · exact hordered.2

/-- Logins one after another keep to every cap, in every window. -/
theorem login_caps_hold (limits : LoginLimits) (events : List LoginEvent)
    (hretention : limits.widestWindow ≤ limits.loginAttemptRetention)
    (hordered : (events.map LoginEvent.now).Pairwise (· ≤ ·)) :
    CapsHold limits (LoginState.run limits events).checks := by
  obtain ⟨last, hinv⟩ : ∃ last,
      LoginInv limits last (LoginState.run limits events) := by
    cases events with
    | nil => exact ⟨0, loginInv_start limits 0⟩
    | cons event rest =>
        apply (loginInv_start limits event.now).run hretention _ _ hordered
        intro other hother
        rw [List.map_cons, List.pairwise_cons] at hordered
        rcases List.mem_cons.mp hother with rfl | hother
        · exact Int.le_refl _
        · exact hordered.1 _ (List.mem_map_of_mem hother)
  refine ⟨?_, ?_, ?_⟩
  · intro username inside hopen
    apply AdmittedWithin.countIn_le hopen
    apply hinv.perUser username fun ts => LoginLimits.isAfter ts
      (LoginLimits.lastSuccess
        (auditedRows (LoginState.run limits events).checks) username)
    intro row hrow husername hsucceeded ts hafter
    exact isAfter_lastSuccess_iff.mp hafter row hrow husername hsucceeded
  · intro ip inside hopen
    exact AdmittedWithin.countIn_le hopen (hinv.perIp ip)
  · intro inside hopen
    exact AdmittedWithin.countIn_le hopen hinv.global

end Runs

/-- One failure for each user in a minute, two for each address, three logins
in all. -/
def tightLimits : LoginLimits := ⟨1, 60, 2, 60, 3, 60, 60⟩

/-- A failure, a sweep, and a success a minute later. -/
def quietEvents : List LoginEvent :=
  [.login 0 (text "ann") none false true, .sweep 1,
    .login 60000000 (text "ann") none true true]

theorem login_caps_hold_quiet :
    CapsHold tightLimits (LoginState.run tightLimits quietEvents).checks :=
  login_caps_hold tightLimits quietEvents (by decide) (by decide)

/-- The failures of a user after its last success. -/
def failuresAfterSuccess (username : Text) (checks : List PasswordCheck) :
    List PasswordCheck :=
  (checks.reverse.takeWhile fun check =>
    !(check.username = username && check.succeeded)).filter fun check =>
      check.username = username && !check.succeeded

/-- Two failures at the moment of a success pass a limit of one; and where no
row can be written, four logins pass a limit of three. -/
theorem ties_and_lost_rows_pass :
    ¬ (countIn (fun check => check.ts) (fun _ => true)
        (fun moment => (0 : Int) ≤ moment && moment < 0 + 60000000)
        (failuresAfterSuccess (text "ann") (LoginState.run tightLimits
          [.login 0 (text "ann") none true true,
            .login 0 (text "ann") none false true,
            .login 0 (text "ann") none false true]).checks) ≤ 1) ∧
      ¬ (countIn (fun check => check.ts) (fun _ => true)
        (fun moment => (0 : Int) ≤ moment && moment < 0 + 60000000)
        (LoginState.run tightLimits
          (List.replicate 4 (.login 0 (text "ann") none false false))).checks ≤
            3) := by
  decide

end Localmail
