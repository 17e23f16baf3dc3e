/-
The reading pane of the desktop client.  An answer to `openMessage` is stored
whatever was opened since, and the flags about external images are reset when
an opening starts, not when it ends.  What keeps the pane truthful is that no
answer finds the traces of a later call.
-/
import Localmail.MailScreen

namespace Localmail

universe u

variable {α φ π δ : Type u}

/-! ### Openings and consent -/

/-- What became of an `openMessage` call.  A call that names the selected
message makes no request. -/
inductive OpeningOutcome where
  | underWay (number : Nat)
  | succeeded
  | failed
  | alreadySelected
deriving Repr, DecidableEq

structure OpeningCall where
  messageId : Text
  outcome : OpeningOutcome
deriving Repr, DecidableEq

/-- The call has the message it names shown. -/
def OpeningCall.Shown (call : OpeningCall) : Prop :=
  call.outcome = .succeeded ∨ call.outcome = .alreadySelected

instance (call : OpeningCall) : Decidable call.Shown :=
  inferInstanceAs (Decidable (_ ∨ _))

/-- The store with a record of what happened: the latest `openMessage` call,
whether the stored message was fetched with its external images, and the
messages whose images were asked for while they were selected, since each was
last opened. -/
structure ReadingPane (α φ π δ : Type u) where
  screen : MailScreen α φ π δ
  latest : Option OpeningCall
  withImages : Bool
  consented : List Text
deriving Repr, DecidableEq

def ReadingPane.start (pageSize : Nat) (imagePolicy : ImagePolicy) :
    ReadingPane α φ π δ where
  screen := .start pageSize imagePolicy
  latest := none
  withImages := false
  consented := []

def MailScreen.selectedId (screen : MailScreen α φ π δ) : Option Text :=
  screen.panes.selectedMessage.map MessageDetail.id

/-- The kind of the request with a number. -/
def MailScreen.asked (screen : MailScreen α φ π δ) (number : Nat) :
    Option MailRequestKind :=
  (screen.requests.find? fun request => request.number = number).map
    MailRequest.kind

/-- The message a `getMessage` call names. -/
def MailRequestKind.messageId : MailRequestKind → Text
  | .message messageId _ | .images messageId => messageId
  | .accounts | .folders _ => []

def MailRequestKind.opens : MailRequestKind → Bool
  | .message _ _ => true
  | _ => false

/-- A call of the store, a change of the setting, or what becomes of a
`getMessage` call; an answer is the message that was asked for. -/
inductive PaneEvent (δ : Type u) where
  | openMessage (messageId : Text)
  | loadExternalImagesForSelectedMessage
  | setImagePolicy (policy : ImagePolicy)
  | arrived (number : Nat) (content : δ)
  | failed (number : Nat) (error : Text)

def PaneEvent.onScreen (screen : MailScreen α φ π δ) :
    PaneEvent δ → ScreenEvent α φ π δ
  | .openMessage messageId => .openMessage messageId
  | .loadExternalImagesForSelectedMessage =>
      .loadExternalImagesForSelectedMessage
  | .setImagePolicy policy => .setImagePolicy policy
  | .arrived number content =>
      .answered number (.detail
        ⟨((screen.asked number).map MailRequestKind.messageId).getD [],
          content⟩)
  | .failed number error => .answered number (.failed error)

/-- The record of a call once request `number` is settled. -/
def settleCall (number : Nat) (outcome : OpeningOutcome) (call : OpeningCall) :
    OpeningCall :=
  if call.outcome = .underWay number then { call with outcome := outcome }
  else call

/-- Whether the stored message has its images after an answer. -/
def imagesAfter (pane : ReadingPane α φ π δ) : Option MailRequestKind → Bool
  | some (.message _ included) => included
  | some (.images messageId) =>
      decide (pane.screen.selectedId = some messageId) || pane.withImages
  | _ => pane.withImages

/-- The record after an event. -/
def ReadingPane.followed (pane : ReadingPane α φ π δ)
    (after : MailScreen α φ π δ) : PaneEvent δ → ReadingPane α φ π δ
  | .openMessage messageId =>
      if pane.screen.selectedId = some messageId then
        { pane with
          screen := after
          latest := some ⟨messageId, .alreadySelected⟩ }
      else
        { pane with
          screen := after
          latest := some
            ⟨messageId, .underWay pane.screen.list.nextRequest⟩
          consented := pane.consented.filter (· ≠ messageId) }
  | .loadExternalImagesForSelectedMessage =>
      { pane with
        screen := after
        consented := pane.screen.selectedId.toList ++ pane.consented }
  | .setImagePolicy _ => { pane with screen := after }
  | .arrived number _ =>
      { pane with
        screen := after
        latest := pane.latest.map (settleCall number .succeeded)
        withImages := imagesAfter pane (pane.screen.asked number) }
  | .failed number _ =>
      { pane with
        screen := after
        latest := pane.latest.map (settleCall number .failed) }

def paneStep (pane : ReadingPane α φ π δ) (event : PaneEvent δ) :
    Option (ReadingPane α φ π δ) :=
  (screenStep pane.screen (event.onScreen pane.screen)).map fun after =>
    pane.followed after event

/-- The message last opened is the one shown, the flag about its images is
right, and they are allowed only if they were asked for. -/
structure PaneTruthful (pane : ReadingPane α φ π δ) : Prop where
  selected : ∀ call, pane.latest = some call → call.Shown →
    pane.screen.selectedId = some call.messageId
  included : pane.screen.panes.externalImagesIncluded = pane.withImages
  allowed : pane.screen.panes.externalImagesAllowed = true →
    ∃ messageId ∈ pane.consented, pane.screen.selectedId = some messageId

/-! ### The orders that do no harm -/

section Orderly

variable (pane : ReadingPane α φ π δ)

/-- An opened message finds no other one shown by a later call, and no
permission that is not its own; images that are still wanted find the
permission not taken back. -/
def OrderlyArrival : Option MailRequestKind → Prop
  | some (.message messageId _) =>
      (∀ call ∈ pane.latest, call.Shown → call.messageId = messageId) ∧
        (pane.screen.panes.externalImagesAllowed = true →
          messageId ∈ pane.consented)
  | some (.images messageId) =>
      pane.screen.selectedId = some messageId → messageId ∈ pane.consented
  | _ => True

/-- The last opening under way does not fail while the stored message has its
images and the flag, reset by that opening, does not say so. -/
def OrderlyFailure (number : Nat) : Option MailRequestKind → Prop
  | some (.message _ _) =>
      pane.withImages = true →
        pane.screen.panes.externalImagesIncluded = false →
        ∃ other ∈ pane.screen.remaining number, other.kind.opens = true
  | _ => True

def Orderly : PaneEvent δ → Prop
  | .arrived number _ => OrderlyArrival pane (pane.screen.asked number)
  | .failed number _ => OrderlyFailure pane number (pane.screen.asked number)
  | _ => True

instance : ∀ asked, Decidable (OrderlyArrival pane asked)
  | some (.message _ _) => inferInstanceAs (Decidable (_ ∧ _))
  | some (.images _) => inferInstanceAs (Decidable (_ → _))
  | some .accounts | some (.folders _) | none => .isTrue trivial

instance (number : Nat) : ∀ asked, Decidable (OrderlyFailure pane number asked)
  | some (.message _ _) => inferInstanceAs (Decidable (_ → _))
  | some .accounts | some (.folders _) | some (.images _) | none =>
      .isTrue trivial

instance : ∀ event, Decidable (Orderly pane event)
  | .arrived _ _ => inferInstanceAs (Decidable (OrderlyArrival _ _))
  | .failed _ _ => inferInstanceAs (Decidable (OrderlyFailure _ _ _))
  | .openMessage _ | .loadExternalImagesForSelectedMessage
  | .setImagePolicy _ => .isTrue trivial

end Orderly

/-! ### What an event does -/

/-- What an event of the pane can see. -/
structure PaneView where
  selected : Option Text
  included : Bool
  allowed : Bool
  requests : List MailRequest
  nextRequest : Nat
  latest : Option OpeningCall
  withImages : Bool
  consented : List Text

def ReadingPane.view (pane : ReadingPane α φ π δ) : PaneView where
  selected := pane.screen.selectedId
  included := pane.screen.panes.externalImagesIncluded
  allowed := pane.screen.panes.externalImagesAllowed
  requests := pane.screen.requests
  nextRequest := pane.screen.list.nextRequest
  latest := pane.latest
  withImages := pane.withImages
  consented := pane.consented

namespace PaneView

def asked (view : PaneView) (number : Nat) : Option MailRequestKind :=
  (view.requests.find? fun request => request.number = number).map
    MailRequest.kind

def remaining (view : PaneView) (number : Nat) : List MailRequest :=
  view.requests.filter fun other => other.number ≠ number

/-- The request is settled with an outcome. -/
def settled (view : PaneView) (number : Nat) (outcome : OpeningOutcome) :
    PaneView :=
  { view with
    requests := view.remaining number
    latest := view.latest.map (settleCall number outcome) }

def sent (view : PaneView) (kind : MailRequestKind) : PaneView :=
  { view with
    requests := ⟨view.nextRequest, kind⟩ :: view.requests
    nextRequest := view.nextRequest + 1 }

end PaneView

inductive PaneMove (view : PaneView) : PaneEvent δ → PaneView → Prop
  | again {messageId : Text} (same : view.selected = some messageId) :
      PaneMove view (.openMessage messageId)
        { view with latest := some ⟨messageId, .alreadySelected⟩ }
  | opens {messageId : Text} (included : Bool)
      (other : view.selected ≠ some messageId) :
      PaneMove view (.openMessage messageId)
        { view.sent (.message messageId included) with
          included := false
          allowed := false
          latest := some ⟨messageId, .underWay view.nextRequest⟩
          consented := view.consented.filter (· ≠ messageId) }
  | stays : PaneMove view .loadExternalImagesForSelectedMessage
      { view with consented := view.selected.toList ++ view.consented }
  | allows {messageId : Text} (same : view.selected = some messageId) :
      PaneMove view .loadExternalImagesForSelectedMessage
        { view with
          allowed := true
          consented := view.selected.toList ++ view.consented }
  | asks {messageId : Text} (same : view.selected = some messageId) :
      PaneMove view .loadExternalImagesForSelectedMessage
        { view.sent (.images messageId) with
          consented := view.selected.toList ++ view.consented }
  | sets (policy : ImagePolicy) : PaneMove view (.setImagePolicy policy) view
  | opened {number : Nat} {content : δ} {messageId : Text} {included : Bool}
      (asked : view.asked number = some (.message messageId included)) :
      PaneMove view (.arrived number content)
        { view.settled number .succeeded with
          selected := some messageId
          included := included
          withImages := included }
  | completed {number : Nat} {content : δ} {messageId : Text}
      (asked : view.asked number = some (.images messageId))
      (same : view.selected = some messageId) :
      PaneMove view (.arrived number content)
        { view.settled number .succeeded with
          selected := some messageId
          included := true
          allowed := true
          withImages := true }
  | discarded {number : Nat} {content : δ} {kind : MailRequestKind}
      (asked : view.asked number = some kind) (images : kind.opens = false)
      (other : ∀ messageId, kind = .images messageId →
        view.selected ≠ some messageId) :
      PaneMove view (.arrived number content) (view.settled number .succeeded)
  | failed {number : Nat} {error : Text} {kind : MailRequestKind}
      (asked : view.asked number = some kind) :
      PaneMove view (.failed number error) (view.settled number .failed)

section Moves

variable {pane next : ReadingPane α φ π δ} {event : PaneEvent δ}

theorem openMessage_move (messageId : Text) :
    PaneMove pane.view (.openMessage messageId : PaneEvent δ)
      (pane.followed (pane.screen.openMessage messageId)
        (.openMessage messageId)).view := by
  unfold ReadingPane.followed MailScreen.openMessage MailScreen.selectedId
  by_cases hsame : pane.screen.panes.selectedMessage.map MessageDetail.id =
      some messageId
  · dsimp only
    rw [if_pos hsame, if_pos hsame]
    exact .again hsame
  · dsimp only
    rw [if_neg hsame, if_neg hsame]
    exact .opens (pane.screen.imagePolicy = ImagePolicy.allow) hsame

theorem loadExternalImages_move :
    PaneMove pane.view
      (.loadExternalImagesForSelectedMessage : PaneEvent δ)
      (pane.followed pane.screen.loadExternalImagesForSelectedMessage
        .loadExternalImagesForSelectedMessage).view := by
  unfold ReadingPane.followed
    MailScreen.loadExternalImagesForSelectedMessage
  dsimp only
  split
  · rename_i selected hselected _
    have hsame : pane.view.selected = some selected.id :=
      congrArg (Option.map MessageDetail.id) hselected
    split
    · exact .allows hsame
    · exact .asks hsame
  · exact .stays

theorem arrived_move {number : Nat} {content : δ}
    (hstep : paneStep pane (.arrived number content) = some next) :
    PaneMove pane.view (.arrived number content) next.view := by
  obtain ⟨after, hanswered, rfl⟩ := Option.map_eq_some_iff.mp hstep
  obtain ⟨request, hfound, hsettle⟩ := Option.bind_eq_some_iff.mp hanswered
  obtain ⟨panes, hpanes, rfl⟩ := Option.map_eq_some_iff.mp hsettle
  have hasked : pane.view.asked number = some request.kind :=
    congrArg (Option.map MailRequest.kind) hfound
  have hnumber : request.number = number := by
    simpa using List.find?_some hfound
  subst hnumber
  dsimp only [ReadingPane.followed]
  rw [show pane.screen.asked request.number = some request.kind from hasked]
    at hpanes ⊢
  cases hkind : request.kind with
  | message messageId included =>
      rw [hkind] at hpanes hasked
      cases hpanes
      exact @PaneMove.opened δ pane.view _ content messageId included hasked
  | images messageId =>
      rw [hkind] at hpanes hasked
      cases hpanes
      unfold imagesLoaded imagesAfter
      by_cases hsame : pane.screen.panes.selectedMessage.map MessageDetail.id =
          some messageId
      · dsimp only
        rw [if_pos hsame, MailScreen.selectedId, decide_eq_true hsame]
        exact @PaneMove.completed δ pane.view _ content messageId hasked hsame
      · dsimp only
        rw [if_neg hsame, MailScreen.selectedId, decide_eq_false hsame]
        refine @PaneMove.discarded δ pane.view _ content _ hasked rfl ?_
        rintro _ ⟨⟩
        exact hsame
  | accounts =>
      rw [hkind] at hpanes
      cases hpanes
  | folders accountId =>
      rw [hkind] at hpanes
      cases hpanes

theorem failed_move {number : Nat} {error : Text}
    (hstep : paneStep pane (.failed number error) = some next) :
    PaneMove pane.view (.failed number error : PaneEvent δ) next.view := by
  obtain ⟨after, hanswered, rfl⟩ := Option.map_eq_some_iff.mp hstep
  obtain ⟨request, hfound, hsettle⟩ := Option.bind_eq_some_iff.mp hanswered
  obtain ⟨panes, hpanes, rfl⟩ := Option.map_eq_some_iff.mp hsettle
  have hnumber : request.number = number := by
    simpa using List.find?_some hfound
  subst hnumber
  have hfailed := @PaneMove.failed δ pane.view _ error request.kind
    (congrArg (Option.map MailRequest.kind) hfound)
  cases hkind : request.kind with
  | message | images | accounts | folders =>
      rw [hkind] at hpanes
      cases hpanes
      exact hfailed

theorem paneStep_move (hstep : paneStep pane event = some next) :
    PaneMove pane.view event next.view := by
  cases event with
  | openMessage messageId =>
      cases hstep
      exact openMessage_move messageId
  | loadExternalImagesForSelectedMessage =>
      cases hstep
      exact loadExternalImages_move
  | setImagePolicy policy =>
      cases hstep
      exact .sets policy
  | arrived number content => exact arrived_move hstep
  | failed number error => exact failed_move hstep

end Moves

/-! ### Numbers -/

/-- Each request has a number of its own, and the one of the latest call, if
it is under way, asks for the message the call names. -/
structure PaneView.Numbered (view : PaneView) : Prop where
  issued : ∀ request ∈ view.requests, request.number < view.nextRequest
  distinct : ∀ request ∈ view.requests, ∀ other ∈ view.requests,
    request.number = other.number → request = other
  calling : ∀ call, view.latest = some call →
    ∀ number, call.outcome = .underWay number →
      number < view.nextRequest ∧
        ∀ request ∈ view.requests, request.number = number →
          request.kind.opens = true ∧ request.kind.messageId = call.messageId

section Numbers

variable {view next : PaneView} {event : PaneEvent δ} {number : Nat}
  {outcome : OpeningOutcome} {call : OpeningCall}

theorem PaneView.mem_of_asked {kind : MailRequestKind}
    (hasked : view.asked number = some kind) :
    ∃ request ∈ view.requests, request.number = number ∧ request.kind = kind := by
  obtain ⟨request, hfound, hkind⟩ := Option.map_eq_some_iff.mp hasked
  exact ⟨request, List.mem_of_find?_eq_some hfound,
    by simpa using List.find?_some hfound, hkind⟩

theorem PaneView.mem_remaining {request : MailRequest} :
    request ∈ view.remaining number ↔
      request ∈ view.requests ∧ request.number ≠ number := by
  simp [remaining]

/-- A settled call was the same call before, under way or not. -/
theorem settled_latest (hcall : (view.settled number outcome).latest = some call) :
    ∃ before, view.latest = some before ∧ before.messageId = call.messageId ∧
      (before.outcome = .underWay number ∧ call.outcome = outcome ∨
        before.outcome = call.outcome ∧ before.outcome ≠ .underWay number) := by
  obtain ⟨before, hbefore, rfl⟩ := Option.map_eq_some_iff.mp hcall
  refine ⟨before, hbefore, ?_⟩
  unfold settleCall
  by_cases hunder : before.outcome = .underWay number
  · rw [if_pos hunder]
    exact ⟨rfl, .inl ⟨hunder, rfl⟩⟩
  · rw [if_neg hunder]
    exact ⟨rfl, .inr ⟨rfl, hunder⟩⟩

theorem PaneView.Numbered.sent (hnumbered : view.Numbered)
    (kind : MailRequestKind) : (view.sent kind).Numbered := by
  obtain ⟨hissued, hdistinct, hcalling⟩ := hnumbered
  refine ⟨?_, ?_, ?_⟩
  · intro request hmem
    rcases List.mem_cons.mp hmem with rfl | hmem
    · exact Nat.lt_succ_self _
    · exact Nat.lt_succ_of_lt (hissued request hmem)
  · intro request hmem other hother hsame
    rcases List.mem_cons.mp hmem with rfl | hmem
    · rcases List.mem_cons.mp hother with rfl | hother
      · rfl
      · exact absurd hsame.symm (Nat.ne_of_lt (hissued other hother))
    · rcases List.mem_cons.mp hother with rfl | hother
      · exact absurd hsame (Nat.ne_of_lt (hissued request hmem))
      · exact hdistinct request hmem other hother hsame
  · intro call hcall number hunder
    obtain ⟨hbound, hrequests⟩ := hcalling call hcall number hunder
    refine ⟨Nat.lt_succ_of_lt hbound, ?_⟩
    intro request hmem hnumber
    rcases List.mem_cons.mp hmem with rfl | hmem
    · exact absurd hnumber (Nat.ne_of_gt hbound)
    · exact hrequests request hmem hnumber

theorem PaneView.Numbered.settled (hnumbered : view.Numbered)
    (hover : ∀ other, outcome ≠ .underWay other) :
    (view.settled number outcome).Numbered := by
  obtain ⟨hissued, hdistinct, hcalling⟩ := hnumbered
  refine ⟨?_, ?_, ?_⟩
  · exact fun request hmem => hissued request (mem_remaining.mp hmem).1
  · exact fun request hmem other hother =>
      hdistinct request (mem_remaining.mp hmem).1 other
        (mem_remaining.mp hother).1
  · intro call hcall other hunder
    obtain ⟨before, hbefore, hsame, ⟨-, hout⟩ | ⟨hout, -⟩⟩ :=
      settled_latest hcall
    · rw [hout] at hunder
      exact absurd hunder (hover other)
    · obtain ⟨hbound, hrequests⟩ :=
        hcalling before hbefore other (hout.trans hunder)
      refine ⟨hbound, fun request hmem hnumber => ?_⟩
      rw [← hsame]
      exact hrequests request (mem_remaining.mp hmem).1 hnumber

theorem PaneView.Numbered.preserved (hnumbered : view.Numbered)
    (hmove : PaneMove view event next) : next.Numbered := by
  cases hmove with
  | again =>
      refine ⟨hnumbered.issued, hnumbered.distinct, ?_⟩
      intro call hcall number hunder
      cases hcall
      cases hunder
  | @opens messageId included =>
      obtain ⟨hissued, hdistinct, -⟩ :=
        hnumbered.sent (.message messageId included)
      refine ⟨hissued, hdistinct, ?_⟩
      intro call hcall number hunder
      cases hcall
      cases hunder
      refine ⟨Nat.lt_succ_self _, fun request hmem hnumber => ?_⟩
      rcases List.mem_cons.mp hmem with rfl | hmem
      · exact ⟨rfl, rfl⟩
      · exact absurd hnumber (Nat.ne_of_lt (hnumbered.issued request hmem))
  | stays => exact ⟨hnumbered.issued, hnumbered.distinct, hnumbered.calling⟩
  | allows => exact ⟨hnumbered.issued, hnumbered.distinct, hnumbered.calling⟩
  | @asks messageId =>
      obtain ⟨hissued, hdistinct, hcalling⟩ :=
        hnumbered.sent (.images messageId)
      exact ⟨hissued, hdistinct, hcalling⟩
  | sets => exact hnumbered
  | @opened number =>
      obtain ⟨hissued, hdistinct, hcalling⟩ :=
        @PaneView.Numbered.settled view number .succeeded hnumbered nofun
      exact ⟨hissued, hdistinct, hcalling⟩
  | @completed number =>
      obtain ⟨hissued, hdistinct, hcalling⟩ :=
        @PaneView.Numbered.settled view number .succeeded hnumbered nofun
      exact ⟨hissued, hdistinct, hcalling⟩
  | discarded => exact hnumbered.settled nofun
  | failed => exact hnumbered.settled nofun

end Numbers

/-! ### Runs without a harmful order -/

/-- What holds of the pane, also while requests are under way. -/
structure PaneView.InOrder (view : PaneView) : Prop where
  shown : ∀ call, view.latest = some call → call.Shown →
    view.selected = some call.messageId
  flagged : view.included = true → view.withImages = true
  overdue : view.withImages = true → view.included = false →
    ∃ request ∈ view.requests, request.kind.opens = true
  allowed : view.allowed = true →
    ∃ messageId ∈ view.consented, view.selected = some messageId

section Order

variable {pane next : ReadingPane α φ π δ} {event : PaneEvent δ}
  {view : PaneView} {number : Nat} {call : OpeningCall}

/-- A call shown after a success was shown before, or is the one that
succeeded. -/
theorem shown_of_succeeded
    (hcall : (view.settled number .succeeded).latest = some call)
    (hshown : call.Shown) :
    ∃ before, view.latest = some before ∧ before.messageId = call.messageId ∧
      (before.Shown ∨ before.outcome = .underWay number) := by
  obtain ⟨before, hbefore, hsame, ⟨hunder, -⟩ | ⟨hout, -⟩⟩ :=
    settled_latest hcall
  · exact ⟨before, hbefore, hsame, .inr hunder⟩
  · refine ⟨before, hbefore, hsame, .inl ?_⟩
    unfold OpeningCall.Shown at hshown ⊢
    rwa [hout]

theorem shown_of_failed
    (hcall : (view.settled number .failed).latest = some call)
    (hshown : call.Shown) :
    ∃ before, view.latest = some before ∧ before.messageId = call.messageId ∧
      before.Shown := by
  obtain ⟨before, hbefore, hsame, ⟨-, hout⟩ | ⟨hout, -⟩⟩ := settled_latest hcall
  · unfold OpeningCall.Shown at hshown
    rw [hout] at hshown
    rcases hshown with hfailed | hfailed <;> cases hfailed
  · refine ⟨before, hbefore, hsame, ?_⟩
    unfold OpeningCall.Shown at hshown ⊢
    rwa [hout]

/-- A request that opens nothing leaves the openings under way. -/
theorem opening_remains (hnumbered : view.Numbered) {kind : MailRequestKind}
    (hasked : view.asked number = some kind) (himages : kind.opens = false)
    (hopening : ∃ request ∈ view.requests, request.kind.opens = true) :
    ∃ request ∈ view.remaining number, request.kind.opens = true := by
  obtain ⟨request, hmem, hopens⟩ := hopening
  obtain ⟨other, hother, hnumber, rfl⟩ := PaneView.mem_of_asked hasked
  refine ⟨request, PaneView.mem_remaining.mpr ⟨hmem, ?_⟩, hopens⟩
  intro hsame
  rw [hnumbered.distinct request hmem other hother (hsame.trans hnumber.symm),
    himages] at hopens
  cases hopens

theorem PaneView.InOrder.preserved (hnumbered : pane.view.Numbered)
    (horder : pane.view.InOrder) (horderly : Orderly pane event)
    (hmove : PaneMove pane.view event next.view) : next.view.InOrder := by
  revert hmove
  generalize next.view = after
  intro hmove
  have hconsent : pane.view.allowed = true →
      ∃ messageId ∈ pane.view.selected.toList ++ pane.view.consented,
        pane.view.selected = some messageId := by
    intro hallowed
    obtain ⟨messageId, hmem, hselected⟩ := horder.allowed hallowed
    exact ⟨messageId, List.mem_append_right _ hmem, hselected⟩
  cases hmove with
  | @again messageId hsame =>
      refine ⟨?_, horder.flagged, horder.overdue, horder.allowed⟩
      intro call hcall _
      cases hcall
      exact hsame
  | opens included =>
      refine ⟨?_, nofun, fun _ _ => ?_, nofun⟩
      · intro call hcall hshown
        cases hcall
        rcases hshown with hunder | hunder <;> cases hunder
      · exact ⟨_, List.mem_cons_self, rfl⟩
  | stays =>
      exact ⟨horder.shown, horder.flagged, horder.overdue, hconsent⟩
  | @allows messageId hsame =>
      refine ⟨horder.shown, horder.flagged, horder.overdue, fun _ => ?_⟩
      refine ⟨messageId, ?_, hsame⟩
      dsimp only
      rw [hsame]
      exact List.mem_cons_self
  | asks =>
      refine ⟨horder.shown, horder.flagged, ?_, hconsent⟩
      intro hwith hflag
      obtain ⟨request, hmem, hopens⟩ := horder.overdue hwith hflag
      exact ⟨request, List.mem_cons_of_mem _ hmem, hopens⟩
  | sets => exact horder
  | @opened number content messageId included hasked =>
      obtain ⟨hlatest, hpermitted⟩ :
          (∀ call ∈ pane.latest, call.Shown → call.messageId = messageId) ∧
            (pane.screen.panes.externalImagesAllowed = true →
              messageId ∈ pane.consented) := by
        unfold Orderly at horderly
        dsimp only at horderly
        rwa [show pane.screen.asked number = _ from hasked] at horderly
      refine ⟨?_, id, fun hwith hflag => ?_, fun hallowed => ?_⟩
      · intro call hcall hshown
        obtain ⟨before, hbefore, hsame, hwas⟩ := shown_of_succeeded hcall hshown
        rw [← hsame]
        refine congrArg some ?_
        rcases hwas with hshown | hunder
        · exact (hlatest before hbefore hshown).symm
        · -- the latest call's own answer, found by its number
          obtain ⟨request, hmem, hnumber, hkind⟩ :=
            PaneView.mem_of_asked hasked
          have hasks := ((hnumbered.calling before hbefore number hunder).2
            request hmem hnumber).2
          rw [hkind] at hasks
          exact hasks
      · dsimp only at hwith hflag
        rw [hwith] at hflag
        cases hflag
      · exact ⟨messageId, hpermitted hallowed, rfl⟩
  | @completed number content messageId hasked hselected =>
      have hpermitted : messageId ∈ pane.consented := by
        unfold Orderly at horderly
        dsimp only at horderly
        rw [show pane.screen.asked number = _ from hasked] at horderly
        exact horderly hselected
      refine ⟨?_, fun _ => rfl, nofun, fun _ => ⟨messageId, hpermitted, rfl⟩⟩
      intro call hcall hshown
      obtain ⟨before, hbefore, hsame, hwas⟩ := shown_of_succeeded hcall hshown
      rcases hwas with hshown | hunder
      · rw [← hsame, ← horder.shown before hbefore hshown]
        exact hselected.symm
      · obtain ⟨request, hmem, hnumber, hkind⟩ := PaneView.mem_of_asked hasked
        have hopens := ((hnumbered.calling before hbefore number hunder).2
          request hmem hnumber).1
        rw [hkind] at hopens
        cases hopens
  | @discarded number content kind hasked himages hother =>
      refine ⟨?_, horder.flagged, fun hwith hflag =>
        opening_remains hnumbered hasked himages (horder.overdue hwith hflag),
        horder.allowed⟩
      intro call hcall hshown
      obtain ⟨before, hbefore, hsame, hwas⟩ := shown_of_succeeded hcall hshown
      rcases hwas with hshown | hunder
      · rw [← hsame]
        exact horder.shown before hbefore hshown
      · obtain ⟨request, hmem, hnumber, rfl⟩ := PaneView.mem_of_asked hasked
        have hopens := ((hnumbered.calling before hbefore number hunder).2
          request hmem hnumber).1
        rw [himages] at hopens
        cases hopens
  | @failed number error kind hasked =>
      refine ⟨?_, horder.flagged, fun hwith hflag => ?_, horder.allowed⟩
      · intro call hcall hshown
        obtain ⟨before, hbefore, hsame, hwas⟩ := shown_of_failed hcall hshown
        rw [← hsame]
        exact horder.shown before hbefore hwas
      · cases hkind : kind with
        | message messageId included =>
            unfold Orderly at horderly
            dsimp only at horderly
            rw [show pane.screen.asked number = _ from hasked, hkind]
              at horderly
            exact horderly hwith hflag
        | images messageId =>
            rw [hkind] at hasked
            exact opening_remains hnumbered hasked rfl
              (horder.overdue hwith hflag)
        | accounts =>
            rw [hkind] at hasked
            exact opening_remains hnumbered hasked rfl
              (horder.overdue hwith hflag)
        | folders accountId =>
            rw [hkind] at hasked
            exact opening_remains hnumbered hasked rfl
              (horder.overdue hwith hflag)

end Order

/-- In every run without a harmful order, the pane is truthful whenever no
message is being fetched. -/
theorem pane_truthful {pageSize : Nat} {imagePolicy : ImagePolicy}
    {pane : ReadingPane α φ π δ}
    (hreach : GuardedReach paneStep Orderly (.start pageSize imagePolicy) pane)
    (hrest : pane.screen.requests = []) : PaneTruthful pane := by
  have hinv : pane.view.Numbered ∧ pane.view.InOrder := by
    refine @GuardedReach.invariant _ _ _ _
      (fun pane => pane.view.Numbered ∧ pane.view.InOrder) _ _ hreach ?_ ?_
    · exact ⟨⟨nofun, nofun, nofun⟩, nofun, nofun, nofun, nofun⟩
    · rintro before event after ⟨hnumbered, horder⟩ horderly hstep
      have hmove := paneStep_move hstep
      exact ⟨hnumbered.preserved hmove,
        horder.preserved hnumbered horderly hmove⟩
  obtain ⟨-, horder⟩ := hinv
  refine ⟨horder.shown, ?_, horder.allowed⟩
  cases hwith : pane.withImages with
  | true =>
      by_contra hflag
      obtain ⟨request, hmem, -⟩ :=
        horder.overdue hwith (eq_false_of_ne_true hflag)
      rw [show pane.view.requests = [] from hrest] at hmem
      cases hmem
  | false =>
      by_contra hflag
      have hcontrary := horder.flagged (eq_true_of_ne_false hflag)
      rw [show pane.view.withImages = false from hwith] at hcontrary
      cases hcontrary

/-- A message is opened and its images are asked for; another one is opened
and shown, and the images that come after it are dropped. -/
def imagesOvertaken : List (PaneEvent Unit) :=
  [.openMessage (text "a"), .arrived 0 (),
    .loadExternalImagesForSelectedMessage, .openMessage (text "b"),
    .setImagePolicy .allow, .arrived 2 (), .arrived 1 ()]

def overtaken : ReadingPane Unit Unit Unit Unit :=
  (replayGuarded paneStep Orderly (.start 50 .ask) imagesOvertaken).getD
    (.start 50 .ask)

theorem pane_truthful_overtaken :
    overtaken.screen.selectedId = some (text "b") ∧ PaneTruthful overtaken :=
  ⟨by decide +kernel,
    @pane_truthful Unit Unit Unit Unit 50 .ask overtaken
      (GuardedReach.of_replay imagesOvertaken (by decide +kernel))
      (by decide +kernel)⟩

/-- Two messages are opened, and the answer to the first comes last. -/
theorem late_answer_replaces_message :
    ¬ ∀ (imagePolicy : ImagePolicy) (pane : ReadingPane Unit Unit Unit Unit),
      Reach paneStep (.start 50 imagePolicy) pane →
      pane.screen.requests = [] → PaneTruthful pane := by
  intro hclaim
  have htruthful := hclaim .ask _ (GuardedReach.of_replay
    [.openMessage (text "a"), .openMessage (text "b"), .arrived 1 (),
      .arrived 0 ()] rfl) rfl
  exact absurd (htruthful.selected _ rfl (.inl rfl)) (by decide)

/-! ### A harmful order does harm -/

section Harm

variable {pane next : ReadingPane α φ π δ} {event : PaneEvent δ}

/-- What is left of the pane when every request under way has failed. -/
structure FailedThrough (pane later : ReadingPane α φ π δ) : Prop where
  rest : later.screen.requests = []
  selected : later.screen.selectedId = pane.screen.selectedId
  included : later.screen.panes.externalImagesIncluded =
    pane.screen.panes.externalImagesIncluded
  allowed : later.screen.panes.externalImagesAllowed =
    pane.screen.panes.externalImagesAllowed
  withImages : later.withImages = pane.withImages
  consented : later.consented = pane.consented
  latest : ∀ call, pane.latest = some call → call.Shown →
    later.latest = some call

theorem settleCall_of_shown {number : Nat} {outcome : OpeningOutcome}
    {call : OpeningCall} (hshown : call.Shown) :
    settleCall number outcome call = call := by
  unfold settleCall
  rw [if_neg]
  intro hunder
  unfold OpeningCall.Shown at hshown
  rw [hunder] at hshown
  rcases hshown with hshown | hshown <;> cases hshown

/-- A request under way can fail, and the pane is left as it is. -/
theorem exists_failed {request : MailRequest}
    (hmem : request ∈ pane.screen.requests) :
    ∃ next, paneStep pane (.failed request.number []) = some next ∧
      next.view = pane.view.settled request.number .failed := by
  cases hfound : pane.screen.requests.find? fun other =>
      other.number = request.number with
  | none =>
      have hnone := List.find?_eq_none.mp hfound request hmem
      simp at hnone
  | some found =>
      have hnumber : found.number = request.number := by
        simpa using List.find?_some hfound
      unfold paneStep PaneEvent.onScreen screenStep MailScreen.settle
      dsimp only
      rw [hfound, ← hnumber]
      cases hkind : found.kind with
      | message | images | accounts | folders =>
          dsimp only [Option.bind_some]
          rw [hkind]
          exact ⟨_, rfl, rfl⟩

theorem FailedThrough.of_failed {number : Nat} {later : ReadingPane α φ π δ}
    (hview : next.view = pane.view.settled number .failed)
    (hfailed : FailedThrough next later) : FailedThrough pane later where
  rest := hfailed.rest
  selected := hfailed.selected.trans (congrArg PaneView.selected hview)
  included := hfailed.included.trans (congrArg PaneView.included hview)
  allowed := hfailed.allowed.trans (congrArg PaneView.allowed hview)
  withImages := hfailed.withImages.trans (congrArg PaneView.withImages hview)
  consented := hfailed.consented.trans (congrArg PaneView.consented hview)
  latest := by
    intro call hcall hshown
    apply hfailed.latest call _ hshown
    have hsettled : next.latest =
        pane.latest.map (settleCall number .failed) :=
      congrArg PaneView.latest hview
    rw [hsettled, hcall, Option.map_some, settleCall_of_shown hshown]

/-- The requests under way can all fail. -/
theorem exists_failedThrough {start : ReadingPane α φ π δ}
    (hreach : Reach paneStep start pane) :
    ∃ later, Reach paneStep start later ∧ FailedThrough pane later := by
  generalize hlength : pane.screen.requests.length = length
  induction length using Nat.strong_induction_on generalizing pane with
  | h length ih =>
      cases hrequests : pane.screen.requests with
      | nil =>
          exact ⟨pane, hreach, hrequests, rfl, rfl, rfl, rfl, rfl,
            fun _ hcall _ => hcall⟩
      | cons request rest =>
          have hmem : request ∈ pane.screen.requests := by
            rw [hrequests]
            exact List.mem_cons_self
          obtain ⟨next, hstep, hview⟩ := exists_failed hmem
          have hless : next.screen.requests.length < length := by
            rw [← hlength, show next.screen.requests =
              pane.view.remaining request.number from
              congrArg PaneView.requests hview]
            exact List.length_filter_lt_length_iff_exists.mpr
              ⟨request, hmem, by simp⟩
          obtain ⟨later, hlater, hfailed⟩ :=
            ih _ hless (hreach.tail trivial hstep) rfl
          exact ⟨later, hlater, hfailed.of_failed hview⟩

/-- From a step out of order on, the pane can be left saying something
untrue. -/
theorem disorder_misleads (hdisorder : ¬ Orderly pane event)
    (hstep : paneStep pane event = some next) :
    ∃ later, Reach paneStep next later ∧ later.screen.requests = [] ∧
      ¬ PaneTruthful later := by
  obtain ⟨later, hlater, hfailed⟩ := exists_failedThrough (@GuardedReach.refl _ _
    paneStep (fun _ _ => True) next)
  refine ⟨later, hlater, hfailed.rest, fun htruthful => hdisorder ?_⟩
  have hmove := paneStep_move hstep
  have hselected : later.screen.selectedId = next.view.selected :=
    hfailed.selected
  have hallowed : next.view.allowed = true → ∀ messageId,
      next.view.selected = some messageId →
      messageId ∈ next.view.consented := by
    intro hallowed messageId hsame
    obtain ⟨consented, hmem, hshown⟩ :=
      htruthful.allowed (hfailed.allowed.trans hallowed)
    rw [hselected, hsame] at hshown
    rw [hfailed.consented] at hmem
    cases hshown
    exact hmem
  have hincluded : next.view.included = next.view.withImages :=
    hfailed.included.symm.trans (htruthful.included.trans hfailed.withImages)
  have hlatest : ∀ call, next.view.latest = some call → call.Shown →
      next.view.selected = some call.messageId := by
    intro call hcall hshown
    rw [← hselected]
    exact htruthful.selected call (hfailed.latest call hcall hshown) hshown
  clear hfailed htruthful hselected hlater hstep
  revert hmove hallowed hincluded hlatest
  generalize next.view = after
  intro hmove hallowed hincluded hlatest
  cases hmove with
  | again | opens | stays | allows | asks | sets => exact trivial
  | @opened number content messageId included hasked =>
      unfold Orderly
      dsimp only
      rw [show pane.screen.asked number = _ from hasked]
      refine ⟨?_, fun hwas => hallowed hwas messageId rfl⟩
      intro call hcall hshown
      have hkept : pane.latest.map (settleCall number .succeeded) =
          some call := by
        rw [show pane.latest = some call from hcall, Option.map_some,
          settleCall_of_shown hshown]
      exact (Option.some.inj (hlatest call hkept hshown)).symm
  | @completed number content messageId hasked hsame =>
      unfold Orderly
      dsimp only
      rw [show pane.screen.asked number = _ from hasked]
      exact fun _ => hallowed rfl messageId rfl
  | @discarded number content kind hasked himages hother =>
      unfold Orderly
      dsimp only
      rw [show pane.screen.asked number = _ from hasked]
      cases kind with
      | message => cases himages
      | images messageId =>
          exact fun hsame => absurd hsame (hother messageId rfl)
      | accounts => exact trivial
      | folders => exact trivial
  | @failed number error kind hasked =>
      unfold Orderly
      dsimp only
      rw [show pane.screen.asked number = _ from hasked]
      cases kind with
      | message messageId included =>
          intro hwith hflag
          have hcontrary : pane.view.included = pane.view.withImages :=
            hincluded
          rw [show pane.view.included = _ from hflag,
            show pane.view.withImages = _ from hwith] at hcontrary
          cases hcontrary
      | images => exact trivial
      | accounts => exact trivial
      | folders => exact trivial

end Harm

end Localmail
