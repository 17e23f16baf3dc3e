/-
The desktop client from one session to the next: the mail store and the search
store with their requests, and `onLogout` in two events, the part before it
waits for the server and the part after.  Requests are numbered by the call
that made them, so that two runs with the same calls can be compared however
the server answered.
-/
import Localmail.MailScreen
import Localmail.SearchResults
import Localmail.TwoRuns

namespace Localmail

universe u

/-- The client.  `calls` counts the events that are no answers, `lastLogout`
is their number when the latest `onLogout` was done, and `searchShown` says
whether an answer was written to the search store since it was last reset. -/
structure Desktop (α φ π δ ρ : Type u) where
  mail : MailScreen α φ π δ
  search : SearchClient ρ
  calls : Nat
  loggingOut : Bool
  lastLogout : Nat
  searchShown : Bool
deriving Repr, DecidableEq

def Desktop.start {α φ π δ ρ : Type u} (pageSize : Nat)
    (imagePolicy : ImagePolicy) (defaultLanguage : Option Text) :
    Desktop α φ π δ ρ where
  mail := .start pageSize imagePolicy
  search := .start pageSize defaultLanguage
  calls := 0
  loggingOut := false
  lastLogout := 0
  searchShown := false

/-- A call or an answer of either store, and `onLogout` before and after it
waits for the server. -/
inductive DesktopEvent (α φ π δ ρ : Type u) where
  | mail (event : ScreenEvent α φ π δ)
  | search (event : SearchStoreEvent ρ)
  | logout
  | loggedOut

variable {α φ π δ ρ : Type u}

/-- The request an event answers. -/
def DesktopEvent.answers : DesktopEvent α φ π δ ρ → Option Nat
  | .mail event => event.answers
  | .search event => event.answers
  | .logout | .loggedOut => none

def MailClient.numberedFrom (client : MailClient π) (number : Nat) :
    MailClient π :=
  { client with nextRequest := number }

def MailScreen.numberedFrom (screen : MailScreen α φ π δ) (number : Nat) :
    MailScreen α φ π δ :=
  { screen with list := screen.list.numberedFrom number }

def SearchClient.numberedFrom (client : SearchClient ρ) (number : Nat) :
    SearchClient ρ :=
  { client with nextRequest := number }

/-- An answer to `number` would be written to the search store. -/
def SearchClient.applies (client : SearchClient ρ) (number : Nat) : Bool :=
  client.sent.any fun request =>
    request.number = number ∧ request.seq = client.submitSeq

/-- `searchShown` after an event of the search store. -/
def shownAfter (client : SearchClient ρ) (shown : Bool) :
    SearchStoreEvent ρ → Bool
  | .reset => false
  | .answered number _ => shown || client.applies number
  | .failed number _ => shown || client.applies number
  | _ => shown

/-- `onLogout` up to its `await`. -/
def Desktop.logout (desktop : Desktop α φ π δ ρ) : Desktop α φ π δ ρ :=
  { desktop with
    mail := desktop.mail.reset
    loggingOut := true
    calls := desktop.calls + 1 }

/-- The end of `onLogout`; the main view is gone, which stops the polling. -/
def Desktop.loggedOut (desktop : Desktop α φ π δ ρ) : Desktop α φ π δ ρ :=
  { desktop with
    mail := { desktop.mail with list := { desktop.mail.list with
      store := { desktop.mail.list.store with polling := false } } }
    loggingOut := false
    calls := desktop.calls + 1
    lastLogout := desktop.calls + 1 }

/-- The number of calls made once `answers` is no answer, or is one. -/
def callsAfter (calls : Nat) : Option Nat → Nat
  | none => calls + 1
  | some _ => calls

def desktopStep (toLowerCase : Text → Text) (desktop : Desktop α φ π δ ρ) :
    DesktopEvent α φ π δ ρ → Option (Desktop α φ π δ ρ)
  | .mail event =>
      (screenStep (desktop.mail.numberedFrom desktop.calls) event).map
        fun mail => { desktop with
          mail := mail
          calls := callsAfter desktop.calls event.answers }
  | .search event =>
      -- a page that is asked for again keeps its number
      let number := event.answers.getD desktop.calls
      (searchStoreStep toLowerCase (desktop.search.numberedFrom number)
        event).map fun search => { desktop with
          search := search
          calls := callsAfter desktop.calls event.answers
          searchShown := shownAfter desktop.search desktop.searchShown event }
  | .logout => if desktop.loggingOut then none else some desktop.logout
  | .loggedOut => if desktop.loggingOut then some desktop.loggedOut else none

/-! ### What a logout promises -/

/-- The contents of the two stores are the same. -/
structure SameStores (desktop other : Desktop α φ π δ ρ) : Prop where
  list : desktop.mail.list.store = other.mail.list.store
  panes : desktop.mail.panes = other.mail.panes
  search : desktop.search.state = other.search.state

def callCount (run : List (DesktopEvent α φ π δ ρ)) : Nat :=
  run.countP fun event => event.answers.isNone

/-- No answer to a request made by one of the first `calls` calls. -/
def DesktopEvent.since (calls : Nat) (event : DesktopEvent α φ π δ ρ) :
    Bool :=
  match event.answers with
  | none => true
  | some number => calls ≤ number

/-- Two runs that differ only in answers to requests of the first `calls`
calls. -/
def DifferInOldAnswers (calls : Nat)
    (run other : List (DesktopEvent α φ π δ ρ)) : Prop :=
  run.filter (DesktopEvent.since calls) =
    other.filter (DesktopEvent.since calls)

/-- Whatever the server answered to requests made before a logout, the stores
are the same after it, in every two runs whose steps meet `guard`. -/
def LogoutErases (toLowerCase : Text → Text)
    (guard : Desktop α φ π δ ρ → DesktopEvent α φ π δ ρ → Prop)
    (start : Desktop α φ π δ ρ) : Prop :=
  ∀ before after other desktop last,
    GuardedRun (desktopStep toLowerCase) guard start
      (before ++ .loggedOut :: after) desktop →
    GuardedRun (desktopStep toLowerCase) guard start other last →
    DifferInOldAnswers (callCount before + 1) (before ++ .loggedOut :: after)
      other →
    SameStores desktop last

/-- No answer reaches the mail store between its reset and the end of
`onLogout`, nor one to a request made before that end later.  When `onLogout`
ends, no answer was written to the search store since its last reset, and one
that comes later to a request made before finds nothing to write. -/
def LeavesNothing (desktop : Desktop α φ π δ ρ) :
    DesktopEvent α φ π δ ρ → Prop
  | .mail event =>
      ∀ number ∈ event.answers,
        desktop.loggingOut = false ∧ desktop.lastLogout ≤ number
  | .search event =>
      ∀ number ∈ event.answers, number < desktop.lastLogout →
        ∀ request ∈ desktop.search.sent, request.number = number →
          request.seq ≠ desktop.search.submitSeq ∧
            (request.kind = .submit ∨ desktop.search.state.loadingMore = false)
  | .loggedOut => desktop.searchShown = false
  | .logout => True

end Localmail
