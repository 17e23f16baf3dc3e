/-
What is left of a session after its logout.  Up to the logout two runs with the
same calls agree on what no answer wrote; from there on they agree on both
stores, because what they still have under way from before finds nothing to
write.
-/
import Localmail.ForgottenRequests

namespace Localmail

universe u

variable {α φ π δ ρ : Type u} {toLowerCase : Text → Text}
  {keep : Nat → Bool}

/-! ### Two runs up to the logout -/

/-- The two clients took the same calls.  While the first logs out its mail
store is that of the other, and so is its search store as long as no answer
was written to either. -/
structure SameCalls (desktop other : Desktop α φ π δ ρ) : Prop where
  left : DesktopInv desktop
  right : DesktopInv other
  calls : desktop.calls = other.calls
  loggingOut : desktop.loggingOut = other.loggingOut
  lastLogout : desktop.lastLogout = other.lastLogout
  mailSettings : desktop.mail.settings = other.mail.settings
  searchSettings : desktop.search.settings = other.search.settings
  mail : desktop.loggingOut →
    desktop.mail.forget (fun _ => false) = other.mail.forget fun _ => false
  search : desktop.searchShown = false → other.searchShown = false →
    desktop.search.forget (fun _ => false) =
      other.search.forget fun _ => false

theorem SameCalls.symm {desktop other : Desktop α φ π δ ρ}
    (hsame : SameCalls desktop other) : SameCalls other desktop where
  left := hsame.right
  right := hsame.left
  calls := hsame.calls.symm
  loggingOut := hsame.loggingOut.symm
  lastLogout := hsame.lastLogout.symm
  mailSettings := hsame.mailSettings.symm
  searchSettings := hsame.searchSettings.symm
  mail hout := (hsame.mail (hsame.loggingOut.trans hout)).symm
  search hshown hother := (hsame.search hother hshown).symm

/-- Equal results of two steps, from one equation between them. -/
theorem forget_steps {S T : Type u} {view : S → T} {first second : Option S}
    {after last : S} (hmap : first.map view = second.map view)
    (hfirst : first = some after) (hsecond : second = some last) :
    view after = view last := by
  rw [hfirst, hsecond] at hmap
  exact Option.some.inj hmap

theorem screenStep_same {screen other after last : MailScreen α φ π δ}
    {number : Nat} {event : ScreenEvent α φ π δ}
    (hkeep : ∀ answered ∈ event.answers, keep answered)
    (hsame : screen.forget keep = other.forget keep)
    (hstep : screenStep (screen.numberedFrom number) event = some after)
    (hother : screenStep (other.numberedFrom number) event = some last) :
    after.forget keep = last.forget keep := by
  have hmap : (screenStep (screen.numberedFrom number) event).map
      (MailScreen.forget keep) =
        (screenStep (other.numberedFrom number) event).map
          (MailScreen.forget keep) := by
    rw [screenStep_forget screen number event hkeep, hsame,
      ← screenStep_forget other number event hkeep]
  exact forget_steps hmap hstep hother

theorem searchStoreStep_same {client other after last : SearchClient ρ}
    {number : Nat} {event : SearchStoreEvent ρ}
    (hkeep : ∀ answered ∈ event.answers, keep answered)
    (hsame : client.forget keep = other.forget keep)
    (hstep : searchStoreStep toLowerCase (client.numberedFrom number) event =
      some after)
    (hother : searchStoreStep toLowerCase (other.numberedFrom number) event =
      some last) :
    after.forget keep = last.forget keep := by
  have hmap : (searchStoreStep toLowerCase (client.numberedFrom number)
      event).map (SearchClient.forget keep) =
        (searchStoreStep toLowerCase (other.numberedFrom number) event).map
          (SearchClient.forget keep) := by
    rw [searchStoreStep_forget client number event hkeep, hsame,
      ← searchStoreStep_forget other number event hkeep]
  exact forget_steps hmap hstep hother

/-- A call of the search store other than its reset writes no answer. -/
theorem shownAfter_call {client : SearchClient ρ} {shown : Bool}
    {event : SearchStoreEvent ρ} (hcall : event.answers = none)
    (hreset : event ≠ .reset) : shownAfter client shown event = shown := by
  cases event with
  | reset => exact absurd rfl hreset
  | answered | failed => cases hcall
  | _ => rfl

theorem desktopStep_logout {desktop after : Desktop α φ π δ ρ}
    (hstep : desktopStep toLowerCase desktop .logout = some after) :
    desktop.loggingOut = false ∧ after = desktop.logout := by
  rw [desktopStep] at hstep
  split at hstep
  · cases hstep
  · rename_i hout
    exact ⟨by simpa using hout, (Option.some.inj hstep).symm⟩

theorem desktopStep_loggedOut {desktop after : Desktop α φ π δ ρ}
    (hstep : desktopStep toLowerCase desktop .loggedOut = some after) :
    desktop.loggingOut = true ∧ after = desktop.loggedOut := by
  rw [desktopStep] at hstep
  split at hstep
  · rename_i hout
    exact ⟨hout, (Option.some.inj hstep).symm⟩
  · cases hstep

theorem SameCalls.call {desktop other next after : Desktop α φ π δ ρ}
    {event : DesktopEvent α φ π δ ρ} (hsame : SameCalls desktop other)
    (hcall : event.answers = none)
    (hstep : desktopStep toLowerCase desktop event = some next)
    (hother : desktopStep toLowerCase other event = some after) :
    SameCalls next after := by
  have hleft := hsame.left.step hstep
  have hright := hsame.right.step hother
  cases event with
  | mail event =>
      obtain ⟨mail, hscreen, rfl⟩ := Option.map_eq_some_iff.mp hstep
      obtain ⟨last, hlast, rfl⟩ := Option.map_eq_some_iff.mp hother
      have hcalls : event.answers = none := hcall
      refine ⟨hleft, hright, congrArg (callsAfter · event.answers) hsame.calls,
        hsame.loggingOut, hsame.lastLogout, ?_, hsame.searchSettings, ?_,
        hsame.search⟩
      · calc
          mail.settings = event.settings
              (desktop.mail.numberedFrom desktop.calls).settings :=
            screenStep_settings hscreen
          _ = event.settings other.mail.settings :=
            congrArg (ScreenEvent.settings · event) hsame.mailSettings
          _ = last.settings := (screenStep_settings hlast).symm
      · intro hout
        rw [← hsame.calls] at hlast
        exact screenStep_same (by simp [hcalls]) (hsame.mail hout) hscreen
          hlast
  | search event =>
      obtain ⟨search, hsettled, rfl⟩ := Option.map_eq_some_iff.mp hstep
      obtain ⟨last, hlast, rfl⟩ := Option.map_eq_some_iff.mp hother
      have hcalls : event.answers = none := hcall
      have hsettings : search.settings = last.settings := by
        calc
          search.settings = event.settings
              (desktop.search.numberedFrom _).settings :=
            searchStoreStep_settings hsettled
          _ = event.settings other.search.settings :=
            congrArg (SearchStoreEvent.settings · event) hsame.searchSettings
          _ = last.settings := (searchStoreStep_settings hlast).symm
      refine ⟨hleft, hright, congrArg (callsAfter · event.answers) hsame.calls,
        hsame.loggingOut, hsame.lastLogout, hsame.mailSettings, hsettings,
        hsame.mail, ?_⟩
      intro hshown hunshown
      by_cases hreset : event = .reset
      · subst hreset
        obtain rfl := Option.some.inj hsettled
        obtain rfl := Option.some.inj hlast
        exact SearchClient.reset_forget hsame.searchSettings
      · change shownAfter _ _ event = false at hshown hunshown
        rw [shownAfter_call hcalls hreset] at hshown hunshown
        rw [← hsame.calls] at hlast
        exact searchStoreStep_same (by simp [hcalls])
          (hsame.search hshown hunshown) hsettled hlast
  | logout =>
      obtain ⟨-, rfl⟩ := desktopStep_logout hstep
      obtain ⟨-, rfl⟩ := desktopStep_logout hother
      exact ⟨hleft, hright, congrArg (· + 1) hsame.calls, rfl,
        hsame.lastLogout, hsame.mailSettings, hsame.searchSettings,
        fun _ => MailScreen.reset_forget hsame.mailSettings, hsame.search⟩
  | loggedOut =>
      obtain ⟨-, rfl⟩ := desktopStep_loggedOut hstep
      obtain ⟨-, rfl⟩ := desktopStep_loggedOut hother
      exact ⟨hleft, hright, congrArg (· + 1) hsame.calls, rfl,
        congrArg (· + 1) hsame.calls, hsame.mailSettings,
        hsame.searchSettings, nofun, hsame.search⟩

theorem ScreenEvent.settings_of_answer {event : ScreenEvent α φ π δ}
    {number : Nat} (hanswers : event.answers = some number)
    (before : Nat × ImagePolicy) : event.settings before = before := by
  cases event with
  | list event =>
      cases event with
      | setPageSize => cases hanswers
      | _ => rfl
  | setImagePolicy => cases hanswers
  | _ => rfl

theorem SearchStoreEvent.settings_of_answer {event : SearchStoreEvent ρ}
    {number : Nat} (hanswers : event.answers = some number)
    (before : Nat × Option Text × Nat) : event.settings before = before := by
  cases event with
  | answered | failed => rfl
  | _ => cases hanswers

/-- An answer in one of the runs only. -/
theorem SameCalls.answer {desktop other next : Desktop α φ π δ ρ}
    {event : DesktopEvent α φ π δ ρ} (hsame : SameCalls desktop other)
    {number : Nat} (hanswers : event.answers = some number)
    (hguard : LeavesNothing desktop event)
    (hstep : desktopStep toLowerCase desktop event = some next) :
    SameCalls next other := by
  have hleft := hsame.left.step hstep
  cases event with
  | mail event =>
      obtain ⟨mail, hscreen, rfl⟩ := Option.map_eq_some_iff.mp hstep
      have hnumber : event.answers = some number := hanswers
      have hcalls : callsAfter desktop.calls event.answers = desktop.calls := by
        rw [hnumber]
        rfl
      refine ⟨hleft, hsame.right, hcalls.trans hsame.calls, hsame.loggingOut,
        hsame.lastLogout, ?_, hsame.searchSettings, ?_, hsame.search⟩
      · calc
          mail.settings = event.settings
              (desktop.mail.numberedFrom desktop.calls).settings :=
            screenStep_settings hscreen
          _ = desktop.mail.settings :=
            ScreenEvent.settings_of_answer hnumber _
          _ = other.mail.settings := hsame.mailSettings
      · intro hout
        obtain ⟨hidle, -⟩ := hguard number hnumber
        rw [hidle] at hout
        cases hout
  | search event =>
      obtain ⟨search, hsettled, rfl⟩ := Option.map_eq_some_iff.mp hstep
      have hnumber : event.answers = some number := hanswers
      have hcalls : callsAfter desktop.calls event.answers = desktop.calls := by
        rw [hnumber]
        rfl
      refine ⟨hleft, hsame.right, hcalls.trans hsame.calls, hsame.loggingOut,
        hsame.lastLogout, hsame.mailSettings, ?_, hsame.mail, ?_⟩
      · calc
          search.settings = event.settings
              (desktop.search.numberedFrom _).settings :=
            searchStoreStep_settings hsettled
          _ = desktop.search.settings :=
            SearchStoreEvent.settings_of_answer hnumber _
          _ = other.search.settings := hsame.searchSettings
      · intro hshown hother
        change shownAfter _ _ event = false at hshown
        rw [shownAfter_answer hnumber, Bool.or_eq_false_iff] at hshown
        rw [hnumber] at hsettled
        have hold := @searchStoreStep_unwritten _ _ (fun _ => false) _ _ _ _
          hnumber rfl (hsame.left.unpaged hshown.1) hshown.2 hsettled
        exact hold.trans (hsame.search hshown.1 hother)
  | logout | loggedOut => cases hanswers

/-! ### And from it on -/

theorem loggedOut_mail {desktop other : Desktop α φ π δ ρ}
    (hmail : desktop.mail.forget keep = other.mail.forget keep) :
    desktop.loggedOut.mail.forget keep = other.loggedOut.mail.forget keep :=
  congrArg (fun screen : MailScreen α φ π δ =>
    { screen with list := { screen.list with
      store := { screen.list.store with polling := false } } }) hmail

/-- The clients differ in no more than their requests to the calls before
`boundary`, and the latest logout was not before it. -/
structure SameSince (boundary : Nat) (desktop other : Desktop α φ π δ ρ) :
    Prop where
  mail : desktop.mail.forget (boundary ≤ ·) = other.mail.forget (boundary ≤ ·)
  search : desktop.search.forget (boundary ≤ ·) =
    other.search.forget (boundary ≤ ·)
  calls : desktop.calls = other.calls
  loggingOut : desktop.loggingOut = other.loggingOut
  lastLogout : desktop.lastLogout = other.lastLogout
  called : boundary ≤ desktop.calls
  loggedOut : boundary ≤ desktop.lastLogout

namespace SameSince

variable {boundary : Nat} {desktop other next after : Desktop α φ π δ ρ}

theorem symm (hsame : SameSince boundary desktop other) :
    SameSince boundary other desktop where
  mail := hsame.mail.symm
  search := hsame.search.symm
  calls := hsame.calls.symm
  loggingOut := hsame.loggingOut.symm
  lastLogout := hsame.lastLogout.symm
  called := hsame.called.trans_eq hsame.calls
  loggedOut := hsame.loggedOut.trans_eq hsame.lastLogout

theorem stores (hsame : SameSince boundary desktop other) :
    SameStores desktop other where
  list := congrArg (fun screen => screen.list.store) hsame.mail
  panes := congrArg (fun screen => screen.panes) hsame.mail
  search := congrArg (fun client => client.state) hsame.search

theorem shared {event : DesktopEvent α φ π δ ρ}
    (hsame : SameSince boundary desktop other)
    (hsince : event.since boundary = true)
    (hstep : desktopStep toLowerCase desktop event = some next)
    (hother : desktopStep toLowerCase other event = some after) :
    SameSince boundary next after := by
  have hkeep : ∀ number ∈ event.answers, boundary ≤ number := by
    intro number hnumber
    rw [DesktopEvent.since, Option.mem_def.mp hnumber] at hsince
    exact of_decide_eq_true hsince
  cases event with
  | mail event =>
      obtain ⟨mail, hscreen, rfl⟩ := Option.map_eq_some_iff.mp hstep
      obtain ⟨last, hlast, rfl⟩ := Option.map_eq_some_iff.mp hother
      refine ⟨?_, hsame.search, congrArg (callsAfter · event.answers) hsame.calls,
        hsame.loggingOut, hsame.lastLogout, ?_, hsame.loggedOut⟩
      · rw [← hsame.calls] at hlast
        refine screenStep_same ?_ hsame.mail hscreen hlast
        exact fun number hnumber => decide_eq_true (hkeep number hnumber)
      · exact hsame.called.trans (le_callsAfter _ _)
  | search event =>
      obtain ⟨search, hsettled, rfl⟩ := Option.map_eq_some_iff.mp hstep
      obtain ⟨last, hlast, rfl⟩ := Option.map_eq_some_iff.mp hother
      refine ⟨hsame.mail, ?_, congrArg (callsAfter · event.answers) hsame.calls,
        hsame.loggingOut, hsame.lastLogout, ?_, hsame.loggedOut⟩
      · rw [← hsame.calls] at hlast
        refine searchStoreStep_same ?_ hsame.search hsettled hlast
        exact fun number hnumber => decide_eq_true (hkeep number hnumber)
      · exact hsame.called.trans (le_callsAfter _ _)
  | logout =>
      obtain ⟨-, rfl⟩ := desktopStep_logout hstep
      obtain ⟨-, rfl⟩ := desktopStep_logout hother
      refine ⟨?_, hsame.search, congrArg (· + 1) hsame.calls, rfl,
        hsame.lastLogout, hsame.called.trans (Nat.le_succ _), hsame.loggedOut⟩
      exact congrArg MailScreen.reset hsame.mail
  | loggedOut =>
      obtain ⟨-, rfl⟩ := desktopStep_loggedOut hstep
      obtain ⟨-, rfl⟩ := desktopStep_loggedOut hother
      refine ⟨?_, hsame.search, congrArg (· + 1) hsame.calls, rfl,
        congrArg (· + 1) hsame.calls, hsame.called.trans (Nat.le_succ _),
        hsame.called.trans (Nat.le_succ _)⟩
      exact loggedOut_mail hsame.mail

/-- A late answer in one of the runs only. -/
theorem late {event : DesktopEvent α φ π δ ρ}
    (hsame : SameSince boundary desktop other)
    (hsince : event.since boundary = false)
    (hguard : LeavesNothing desktop event)
    (hstep : desktopStep toLowerCase desktop event = some next) :
    SameSince boundary next other := by
  obtain ⟨number, hanswers, hnumber⟩ :
      ∃ number, event.answers = some number ∧ number < boundary := by
    cases hanswers : event.answers with
    | none => simp [DesktopEvent.since, hanswers] at hsince
    | some number =>
        refine ⟨number, rfl, ?_⟩
        simpa [DesktopEvent.since, hanswers] using hsince
  have hlate := hnumber.trans_le hsame.loggedOut
  cases event with
  | mail event =>
      obtain ⟨-, hrecent⟩ := hguard number hanswers
      exact absurd hrecent (Nat.not_le.mpr hlate)
  | search event =>
      obtain ⟨search, hsettled, rfl⟩ := Option.map_eq_some_iff.mp hstep
      have hanswer : event.answers = some number := hanswers
      have hcalls : callsAfter desktop.calls event.answers = desktop.calls := by
        rw [hanswer]
        rfl
      rw [hanswer] at hsettled
      have hold : search.forget (boundary ≤ ·) =
          desktop.search.forget (boundary ≤ ·) :=
        searchStoreStep_late hanswer (decide_eq_false (Nat.not_le.mpr hnumber))
          (hguard number hanswer hlate) hsettled
      exact ⟨hsame.mail, hold.trans hsame.search, hcalls.trans hsame.calls,
        hsame.loggingOut, hsame.lastLogout, hsame.called.trans_eq hcalls.symm,
        hsame.loggedOut⟩
  | logout | loggedOut => cases hanswers

end SameSince

/-! ### Every two runs -/

theorem filter_numbered {β : Type u} (numberOf : β → Nat) {bound : Nat}
    {requests : List β}
    (hissued : ∀ request ∈ requests, numberOf request < bound)
    {boundary : Nat} (hle : bound ≤ boundary) :
    requests.filter (fun request => decide (boundary ≤ numberOf request)) =
      [] := by
  apply List.filter_eq_nil_iff.mpr
  intro request hrequest
  have hlt := (hissued request hrequest).trans_le hle
  simpa using hlt

theorem MailScreen.Issued.forget_all {screen : MailScreen α φ π δ}
    {bound boundary : Nat} (hissued : screen.Issued bound)
    (hle : bound ≤ boundary) :
    screen.forget (boundary ≤ ·) = screen.forget fun _ => false := by
  obtain ⟨⟨hlists, hpolls⟩, hrequests⟩ := hissued
  have hnone : screen.list.polls.filter (fun number => boundary ≤ number) = [] :=
    filter_numbered id hpolls hle
  simp [MailScreen.forget, MailClient.forget, hnone,
    filter_numbered ListRequest.number hlists hle,
    filter_numbered MailRequest.number hrequests hle]

theorem SearchClient.Issued.forget_all {client : SearchClient ρ}
    {bound boundary : Nat} (hissued : client.Issued bound)
    (hle : bound ≤ boundary) :
    client.forget (boundary ≤ ·) = client.forget fun _ => false := by
  simp [SearchClient.forget, filter_numbered SentSearch.number hissued hle]

/-- When both log out, nothing that was asked for before is kept. -/
theorem SameCalls.loggedOut {desktop other next after : Desktop α φ π δ ρ}
    (hsame : SameCalls desktop other)
    (hguard : LeavesNothing desktop .loggedOut)
    (hguarded : LeavesNothing other .loggedOut)
    (hstep : desktopStep toLowerCase desktop .loggedOut = some next)
    (hother : desktopStep toLowerCase other .loggedOut = some after) :
    SameSince (desktop.calls + 1) next after := by
  obtain ⟨hout, rfl⟩ := desktopStep_loggedOut hstep
  obtain ⟨-, rfl⟩ := desktopStep_loggedOut hother
  have hmail : desktop.mail.forget (desktop.calls + 1 ≤ ·) =
      other.mail.forget (desktop.calls + 1 ≤ ·) := by
    calc
      _ = desktop.mail.forget fun _ => false :=
        hsame.left.mail.forget_all (Nat.le_succ _)
      _ = other.mail.forget fun _ => false := hsame.mail hout
      _ = _ :=
        (hsame.right.mail.forget_all
          (hsame.calls.symm.trans_le (Nat.le_succ _))).symm
  have hsearch : desktop.search.forget (desktop.calls + 1 ≤ ·) =
      other.search.forget (desktop.calls + 1 ≤ ·) := by
    calc
      _ = desktop.search.forget fun _ => false :=
        hsame.left.search.forget_all (Nat.le_succ _)
      _ = other.search.forget fun _ => false := hsame.search hguard hguarded
      _ = _ :=
        (hsame.right.search.forget_all
          (hsame.calls.symm.trans_le (Nat.le_succ _))).symm
  refine ⟨?_, hsearch, congrArg (· + 1) hsame.calls, rfl,
    congrArg (· + 1) hsame.calls, Nat.le_refl _, Nat.le_refl _⟩
  exact loggedOut_mail hmail

theorem desktopStep_calls {desktop next : Desktop α φ π δ ρ}
    {event : DesktopEvent α φ π δ ρ}
    (hstep : desktopStep toLowerCase desktop event = some next) :
    next.calls = callsAfter desktop.calls event.answers := by
  cases event with
  | mail event =>
      obtain ⟨mail, -, rfl⟩ := Option.map_eq_some_iff.mp hstep
      rfl
  | search event =>
      obtain ⟨search, -, rfl⟩ := Option.map_eq_some_iff.mp hstep
      rfl
  | logout =>
      obtain ⟨-, rfl⟩ := desktopStep_logout hstep
      rfl
  | loggedOut =>
      obtain ⟨-, rfl⟩ := desktopStep_loggedOut hstep
      rfl

theorem run_calls
    {guard : Desktop α φ π δ ρ → DesktopEvent α φ π δ ρ → Prop}
    {run : List (DesktopEvent α φ π δ ρ)} {desktop last : Desktop α φ π δ ρ}
    (hrun : GuardedRun (desktopStep toLowerCase) guard desktop run last) :
    last.calls = desktop.calls + callCount run := by
  induction run generalizing desktop with
  | nil => exact congrArg Desktop.calls hrun.symm
  | cons event rest ih =>
      obtain ⟨-, next, hstep, hrest⟩ := hrun
      rw [ih hrest, desktopStep_calls hstep]
      simp only [callCount, List.countP_cons]
      cases event.answers with
      | none =>
          simp only [callsAfter, Option.isNone_none, ↓reduceIte]
          omega
      | some number => simp [callsAfter]

/-- The calls of a run are among the events that are no old answers. -/
theorem filter_calls (boundary : Nat) (run : List (DesktopEvent α φ π δ ρ)) :
    run.filter (fun event => event.answers.isNone) =
      (run.filter (DesktopEvent.since boundary)).filter
        fun event => event.answers.isNone := by
  rw [List.filter_filter]
  apply List.filter_congr
  intro event _
  cases hanswers : event.answers <;> simp [DesktopEvent.since, hanswers]

theorem sameCalls_start (pageSize : Nat) (imagePolicy : ImagePolicy)
    (defaultLanguage : Option Text) :
    SameCalls
      (Desktop.start pageSize imagePolicy defaultLanguage : Desktop α φ π δ ρ)
      (Desktop.start pageSize imagePolicy defaultLanguage) where
  left := desktopInv_start pageSize imagePolicy defaultLanguage
  right := desktopInv_start pageSize imagePolicy defaultLanguage
  calls := rfl
  loggingOut := rfl
  lastLogout := rfl
  mailSettings := rfl
  searchSettings := rfl
  mail _ := rfl
  search _ _ := rfl

/-- In every two runs whose steps leave nothing of a session behind, a logout
erases it. -/
theorem logout_erases_session (toLowerCase : Text → Text) (pageSize : Nat)
    (imagePolicy : ImagePolicy) (defaultLanguage : Option Text) :
    LogoutErases toLowerCase LeavesNothing
      (Desktop.start pageSize imagePolicy defaultLanguage :
        Desktop α φ π δ ρ) := by
  intro before after other desktop last hrun hother hdiffer
  obtain ⟨mid, hbefore, hguard, out, hout, hafter⟩ := guardedRun_append.mp hrun
  have hcalls : mid.calls + 1 = callCount before + 1 := by
    rw [run_calls hbefore]
    exact congrArg (· + 1) (Nat.zero_add _)
  rw [DifferInOldAnswers, ← hcalls, List.filter_append,
    List.filter_cons_of_pos rfl] at hdiffer
  obtain ⟨first, tail, rfl, hfirst, htail⟩ :=
    List.filter_eq_append_iff.mp hdiffer.symm
  obtain ⟨waiting, rest, rfl, hwaiting, -, hrest⟩ :=
    List.filter_eq_cons_iff.mp htail
  rw [← List.append_assoc] at hother
  obtain ⟨place, hplace, hguarded, gone, hgone, hending⟩ :=
    guardedRun_append.mp hother
  have hsession : SameCalls mid place := by
    refine @unwinding _ _ _ _ (fun event => event.answers.isNone) SameCalls
      (fun _ _ => SameCalls.symm) ?_ ?_ _ _ _ _ _ _ hbefore hplace ?_
      (sameCalls_start pageSize imagePolicy defaultLanguage)
    · intro state state' event next next' hrel hcall _ _ hstep hstep'
      exact hrel.call (Option.isNone_iff_eq_none.mp hcall) hstep hstep'
    · intro state state' event next hrel hanswer hmeets hstep
      obtain ⟨number, hnumber⟩ := Option.isSome_iff_exists.mp
        (Option.isNone_eq_false_iff.mp hanswer)
      exact hrel.answer hnumber hmeets hstep
    · rw [filter_calls (mid.calls + 1) before,
        filter_calls (mid.calls + 1) (first ++ waiting), List.filter_append,
        hfirst, List.filter_eq_nil_iff.mpr hwaiting, List.append_nil]
  have hsame := hsession.loggedOut hguard hguarded hout hgone
  have hend : SameSince (mid.calls + 1) desktop last := by
    refine unwinding (R := SameSince (mid.calls + 1))
      (fun _ _ => SameSince.symm) ?_ ?_ hafter hending hrest.symm hsame
    · intro state state' event next next' hrel hsince _ _ hstep hstep'
      exact hrel.shared hsince hstep hstep'
    · intro state state' event next hrel hlate hmeets hstep
      exact hrel.late hlate hmeets hstep
  exact hend.stores

instance decideLeavesNothing (desktop : Desktop α φ π δ ρ)
    (event : DesktopEvent α φ π δ ρ) :
    Decidable (LeavesNothing desktop event) :=
  match event with
  | .mail event => inferInstanceAs (Decidable (∀ number ∈ event.answers,
      desktop.loggingOut = false ∧ desktop.lastLogout ≤ number))
  | .search event => inferInstanceAs (Decidable (∀ number ∈ event.answers,
      number < desktop.lastLogout →
        ∀ request ∈ desktop.search.sent, request.number = number →
          request.seq ≠ desktop.search.submitSeq ∧
            (request.kind = .submit ∨
              desktop.search.state.loadingMore = false)))
  | .loggedOut => inferInstanceAs (Decidable (desktop.searchShown = false))
  | .logout => isTrue trivial

namespace LogoutWitness

open SearchWitness (page)

abbrev Event := DesktopEvent Nat Nat Nat Nat Unit

def client : Desktop Nat Nat Nat Nat Unit :=
  .start 2 .block none

def opened (number : Nat) (messageId : String) (content : Nat) : Event :=
  .mail (.answered number (.detail ⟨text messageId, content⟩))

/-- A message is opened and two searches are made, the second of which is
still under way when the search is left and the user logs out. -/
def session (content : Nat) (found : String) : List Event :=
  [.mail (.openMessage (text "m1")), opened 0 "m1" content,
    .search (.setQuery (text "plan")), .search .submit,
    .search (.answered 2 (page [found] none)), .search .submit,
    .search .reset, .logout]

/-- The search is answered, and the next session opens a message. -/
def nextSession (found : String) : List Event :=
  [.search (.answered 3 (page [found] none)),
    .mail (.openMessage (text "m2")), opened 7 "m2" 9]

/-- A message still under way at the logout comes after it. -/
def openedLate (content : Nat) : List Event :=
  [opened 0 "m1" content]

/-- The results of a search are on screen at the logout. -/
def searched (found : String) : List Event :=
  [.search (.setQuery (text "plan")), .search .submit,
    .search (.answered 1 (page [found] none)), .logout]

end LogoutWitness

open LogoutWitness in
theorem logout_erases_session_later :
    ∃ desktop last,
      GuardedRun (desktopStep id) LeavesNothing client
        (session 1 "a" ++ .loggedOut :: nextSession "a") desktop ∧
      GuardedRun (desktopStep id) LeavesNothing client
        (session 2 "b" ++ .loggedOut :: nextSession "b") last ∧
      SameStores desktop last ∧
      desktop.mail.panes.selectedMessage = some ⟨text "m2", 9⟩ := by
  obtain ⟨desktop, hdesktop, hselected⟩ :
      ∃ desktop, replayGuarded (desktopStep id) LeavesNothing client
          (session 1 "a" ++ .loggedOut :: nextSession "a") = some desktop ∧
        desktop.mail.panes.selectedMessage = some ⟨text "m2", 9⟩ :=
    ⟨_, rfl, rfl⟩
  obtain ⟨last, hlast⟩ :
      ∃ last, replayGuarded (desktopStep id) LeavesNothing client
        (session 2 "b" ++ .loggedOut :: nextSession "b") = some last :=
    ⟨_, rfl⟩
  have hrun := GuardedRun.of_replay _ hdesktop
  have hother := GuardedRun.of_replay _ hlast
  refine ⟨desktop, last, hrun, hother, ?_, hselected⟩
  exact logout_erases_session id 2 .block none (session 1 "a")
    (nextSession "a") (session 2 "b" ++ .loggedOut :: nextSession "b") _ _
    hrun hother rfl

open LogoutWitness in
/-- A message that comes late is shown after the logout, and the results on
screen stay there. -/
theorem session_survives_logout :
    ¬ LogoutErases id (fun _ _ => True) client ∧
      ∃ desktop last,
        GuardedRun (desktopStep id) (fun _ _ => True) client
          (searched "a" ++ [.loggedOut]) desktop ∧
        GuardedRun (desktopStep id) (fun _ _ => True) client
          (searched "b" ++ [.loggedOut]) last ∧
        DifferInOldAnswers (callCount (searched "a") + 1)
          (searched "a" ++ [.loggedOut]) (searched "b" ++ [.loggedOut]) ∧
        desktop.search.state.results ≠ last.search.state.results := by
  constructor
  · intro herases
    let before : List Event := [.mail (.openMessage (text "m1")), .logout]
    have hrun (content : Nat) :
        GuardedRun (desktopStep id) (fun _ _ => True) client
          (before ++ .loggedOut :: openedLate content) _ :=
      .of_replay (before ++ .loggedOut :: openedLate content) rfl
    have hsame := herases before (openedLate 1)
      (before ++ .loggedOut :: openedLate 2) _ _ (hrun 1) (hrun 2) rfl
    have hcontent := congrArg
      (fun panes => panes.selectedMessage.map MessageDetail.content) hsame.panes
    revert hcontent
    decide
  · refine ⟨_, _, .of_replay (searched "a" ++ [.loggedOut]) rfl,
      .of_replay (searched "b" ++ [.loggedOut]) rfl, rfl, ?_⟩
    decide

end Localmail
