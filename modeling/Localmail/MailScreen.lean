/-
The whole `MailStore` of the desktop client: besides the message list it holds
the accounts and folders of the tree and the opened message, and `reset` clears
all of it.  A request that is under way then is not called off.
-/
import Localmail.MailList

namespace Localmail

universe u

/-! ### The store -/

inductive ImagePolicy where
  | block
  | ask
  | allow
deriving Repr, DecidableEq

inductive BodyMode where
  | html
  | plain
  | raw
deriving Repr, DecidableEq

/-- An opened message; `content` is what the store only carries along. -/
structure MessageDetail (δ : Type u) where
  id : Text
  content : δ
deriving Repr, DecidableEq

/-- The fields of `MailStore` beside those of the list.  `folders` is the map
from an account to its folders, in the order the keys were set. -/
structure MailPanes (α φ δ : Type u) where
  accounts : List α
  folders : List (Text × List φ)
  selectedMessage : Option (MessageDetail δ)
  loadingDetail : Bool
  bodyMode : BodyMode
  externalImagesAllowed : Bool
  externalImagesIncluded : Bool
  loadingExternalImages : Bool
deriving Repr, DecidableEq

def MailPanes.initial {α φ δ : Type u} : MailPanes α φ δ where
  accounts := []
  folders := []
  selectedMessage := none
  loadingDetail := false
  bodyMode := .html
  externalImagesAllowed := false
  externalImagesIncluded := false
  loadingExternalImages := false

inductive MailRequestKind where
  | accounts
  | folders (accountId : Text)
  | message (messageId : Text) (includeExternalImages : Bool)
  | images (messageId : Text)
deriving Repr, DecidableEq

/-- A request beside those of the list that has no answer yet. -/
structure MailRequest where
  number : Nat
  kind : MailRequestKind
deriving Repr, DecidableEq

/-- The store with the requests under way; the list numbers them all. -/
structure MailScreen (α φ π δ : Type u) where
  list : MailClient π
  panes : MailPanes α φ δ
  imagePolicy : ImagePolicy
  requests : List MailRequest
deriving Repr, DecidableEq

def MailScreen.start {α φ π δ : Type u} (pageSize : Nat)
    (imagePolicy : ImagePolicy) : MailScreen α φ π δ where
  list := .start pageSize
  panes := .initial
  imagePolicy := imagePolicy
  requests := []

namespace MailScreen

variable {α φ π δ : Type u} (screen : MailScreen α φ π δ)

def setError (error : Option Text) : MailScreen α φ π δ :=
  { screen with list := { screen.list with
      store := { screen.list.store with errorMessage := error } } }

def send (kind : MailRequestKind) : MailScreen α φ π δ :=
  { screen with
    list := { screen.list with nextRequest := screen.list.nextRequest + 1 }
    requests := ⟨screen.list.nextRequest, kind⟩ :: screen.requests }

/-- `reset`, which forgets the list and the panes but no request. -/
def reset : MailScreen α φ π δ :=
  { screen with
    list := { screen.list with store := .initial, latest := none, merged := [] }
    panes := .initial }

def loadAccounts : MailScreen α φ π δ :=
  (screen.setError none).send .accounts

def hasFolders (accountId : Text) : Bool :=
  screen.panes.folders.any fun entry => entry.1 = accountId

def loadFoldersFor (accountId : Text) : MailScreen α φ π δ :=
  if screen.hasFolders accountId then screen
  else screen.send (.folders accountId)

def openMessage (messageId : Text) : MailScreen α φ π δ :=
  if screen.panes.selectedMessage.map MessageDetail.id = some messageId then
    screen
  else
    ({ screen.setError none with panes := { screen.panes with
        loadingDetail := true
        externalImagesAllowed := false
        externalImagesIncluded := false } }).send
      (.message messageId (screen.imagePolicy = ImagePolicy.allow))

def loadExternalImagesForSelectedMessage : MailScreen α φ π δ :=
  match screen.panes.selectedMessage, screen.panes.loadingExternalImages with
  | some selected, false =>
      if screen.panes.externalImagesIncluded then
        { screen with panes := { screen.panes with
            externalImagesAllowed := true } }
      else
        ({ screen.setError none with panes := { screen.panes with
            loadingExternalImages := true } }).send (.images selected.id)
  | _, _ => screen

/-- The requests still under way once `number` is settled. -/
def remaining (number : Nat) : List MailRequest :=
  screen.requests.filter fun other => other.number ≠ number

end MailScreen

/-! ### The answers -/

section Answers

variable {α φ π δ : Type u}

/-- `Map.set`: a key that is there keeps its place. -/
def setFolders (folders : List (Text × List φ)) (accountId : Text)
    (list : List φ) : List (Text × List φ) :=
  if folders.any fun entry => entry.1 = accountId then
    folders.map fun entry =>
      if entry.1 = accountId then (accountId, list) else entry
  else folders ++ [(accountId, list)]

/-- The message came; `included` says whether with its external images. -/
def messageOpened (panes : MailPanes α φ δ) (included : Bool)
    (detail : MessageDetail δ) : MailPanes α φ δ :=
  { panes with
    selectedMessage := some detail
    externalImagesIncluded := included
    loadingDetail := false }

/-- The message came again with its images, and is shown if it is still the
selected one. -/
def imagesLoaded (panes : MailPanes α φ δ) (messageId : Text)
    (detail : MessageDetail δ) : MailPanes α φ δ :=
  if panes.selectedMessage.map MessageDetail.id = some messageId then
    { panes with
      selectedMessage := some detail
      externalImagesIncluded := true
      externalImagesAllowed := true
      loadingExternalImages := false }
  else { panes with loadingExternalImages := false }

/-- What the server returns to a request. -/
inductive MailAnswer (α φ δ : Type u) where
  | accounts (list : List α)
  | folders (list : List φ)
  | detail (message : MessageDetail δ)
  | failed (error : Text)
deriving Repr, DecidableEq

/-- The panes after a failed request. -/
def requestFailed (panes : MailPanes α φ δ) :
    MailRequestKind → MailPanes α φ δ
  | .accounts | .folders _ => panes
  | .message _ _ => { panes with loadingDetail := false }
  | .images _ => { panes with loadingExternalImages := false }

/-- The panes after an answer of the request's own type. -/
def requestAnswered (panes : MailPanes α φ δ) :
    MailRequestKind → MailAnswer α φ δ → Option (MailPanes α φ δ)
  | .accounts, .accounts list => some { panes with accounts := list }
  | .folders accountId, .folders list =>
      some { panes with folders := setFolders panes.folders accountId list }
  | .message _ included, .detail message =>
      some (messageOpened panes included message)
  | .images messageId, .detail message =>
      some (imagesLoaded panes messageId message)
  | kind, .failed _ => some (requestFailed panes kind)
  | _, _ => none

/-- The error text an answer leaves. -/
def MailAnswer.error : MailAnswer α φ δ → Option Text
  | .failed error => some error
  | _ => none

def MailScreen.settle (screen : MailScreen α φ π δ) (request : MailRequest)
    (answer : MailAnswer α φ δ) : Option (MailScreen α φ π δ) :=
  (requestAnswered screen.panes request.kind answer).map fun panes =>
    { screen.setError (answer.error <|> screen.list.store.errorMessage) with
      panes := panes
      requests := screen.remaining request.number }

end Answers

/-! ### The steps -/

/-- A call of the store or the setting it reads, or an answer to one of its
requests. -/
inductive ScreenEvent (α φ π δ : Type u) where
  | list (event : MailEvent π)
  | loadAccounts
  | loadFoldersFor (accountId : Text)
  | openMessage (messageId : Text)
  | loadExternalImagesForSelectedMessage
  | setBodyMode (mode : BodyMode)
  | setExternalImagesAllowed (allowed : Bool)
  | setImagePolicy (policy : ImagePolicy)
  | reset
  | answered (number : Nat) (answer : MailAnswer α φ δ)

variable {α φ π δ : Type u}

def screenStep (screen : MailScreen α φ π δ) :
    ScreenEvent α φ π δ → Option (MailScreen α φ π δ)
  | .list event =>
      (mailStep screen.list event).map fun list => { screen with list := list }
  | .loadAccounts => some screen.loadAccounts
  | .loadFoldersFor accountId => some (screen.loadFoldersFor accountId)
  | .openMessage messageId => some (screen.openMessage messageId)
  | .loadExternalImagesForSelectedMessage =>
      some screen.loadExternalImagesForSelectedMessage
  | .setBodyMode mode =>
      some { screen with panes := { screen.panes with bodyMode := mode } }
  | .setExternalImagesAllowed allowed =>
      some { screen with
        panes := { screen.panes with externalImagesAllowed := allowed } }
  | .setImagePolicy policy => some { screen with imagePolicy := policy }
  | .reset => some screen.reset
  | .answered number answer =>
      (screen.requests.find? fun request => request.number = number).bind
        fun request => screen.settle request answer

/-- The request an event of the list answers. -/
def MailEvent.answers : MailEvent π → Option Nat
  | .listAnswered number _ _ => some number
  | .listFailed number _ => some number
  | .pollAnswered number _ _ => some number
  | .pollFailed number _ => some number
  | _ => none

def ScreenEvent.answers : ScreenEvent α φ π δ → Option Nat
  | .list event => event.answers
  | .answered number _ => some number
  | _ => none

end Localmail
