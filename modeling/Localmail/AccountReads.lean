/-
The routes by which a caller reads accounts, folders, messages and attachments,
statement by statement: what is asked for is judged first, then the grants are
read, and every later statement is restricted by them.  A blob and its text are
shared by accounts; a message in a granted account opens them.
-/
import Localmail.BlobResponse
import Localmail.ExtractQueue
import Localmail.HeaderBlock
import Localmail.IntText
import Localmail.MailParser
import Localmail.SnapshotReads
import Localmail.TextPaging

namespace Localmail

namespace ReadApi

open Download (BlobAnswer BlobRequest ServedBlob notModified serveBlob)
open Extract (hex)

/-! ### The tables -/

/-- A `jsonb` value with its text, where that is not read off the value. -/
inductive Jsonb where
  | null
  | bool (value : Bool)
  | number (zero : Bool) (shown : Text)
  | text (value : Text)
  | array (items : List Jsonb) (shown : Text)
  | object (entries : List (Text × Jsonb)) (shown : Text)

structure AccountRow where
  id : Nat
  name : Text
  emailAddress : Text
deriving Repr, DecidableEq

structure MailboxRow where
  id : Nat
  accountId : Nat
  name : Text
  flags : Option (List Text)
  uidnext : Option Nat
  lastSyncAt : Option Int
deriving Repr, DecidableEq

structure LabelRow where
  messageId : Nat
  mailboxId : Nat
deriving Repr, DecidableEq

structure StoredMessage where
  id : Nat
  accountId : Nat
  subject : Option Text
  fromAddr : Option Text
  fromName : Option Text
  toAddrs : Option (List Text)
  ccAddrs : Option (List Text)
  bccAddrs : Option (List Text)
  bodyText : Option Text
  bodyHtml : Option Text
  attachments : Jsonb
  dateSent : Option Int
  rawBytes : Bytes

structure BlobRow where
  mimeType : Option Text
  sizeBytes : Nat
  path : Text
deriving Repr, DecidableEq

/-- The tables, and the files of the blob tree. -/
structure ReadDb where
  grants : List (Nat × Nat)
  accounts : List AccountRow
  mailboxes : List MailboxRow
  labels : List LabelRow
  messages : List StoredMessage
  blobs : Bytes → Option BlobRow
  texts : Bytes → Option Text
  files : Text → Option Bytes

inductive ReadError where
  | badRequest (error : ApiError)
  | headerMode (value : Text)
  | textWindow (problem : WindowProblem)
  | shaLength (length : Nat)
  | shaDigits (value : Text)
  | negativeIndex (index : Int)
  | notFound (detail : Text)
  | unhandled
deriving Repr, DecidableEq

/-- What is taken from outside: the sanitizer, the header parser of the email
package, the collation of the database, and the time. -/
structure ReadRules where
  sanitizeHtml : Text → List (Text × Jsonb) → Bool → Text
  parseHeaderBlock : Bytes → List HeaderEntry
  nameLe : Text → Text → Bool
  now : Int

abbrev Read (α : Type) := Reads ReadDb ReadError α

/-! ### `jsonb` and Python values -/

namespace Jsonb

def truthy : Jsonb → Bool
  | .null => false
  | .bool value => value
  | .number zero _ => !zero
  | .text value => value ≠ []
  | .array items _ => !items.isEmpty
  | .object entries _ => !entries.isEmpty

def asText? : Jsonb → Option Text
  | .text value => some value
  | _ => none

/-- `value ->> key` of an object's value, and of nothing else. -/
def shown? : Jsonb → Option Text
  | .null => none
  | .bool value => some (Localmail.text (if value then "true" else "false"))
  | .number _ shown | .array _ shown | .object _ shown => some shown
  | .text value => some value

/-- `entry.get(key)`; the value of a missing key and of a null are one. -/
def get? (key : Text) : Jsonb → Option Jsonb
  | .object entries _ => entries.lookup key
  | _ => none

/-- `value -> index`.  A scalar is stored as the one item of an array. -/
def item? (index : Nat) : Jsonb → Option Jsonb
  | .array items _ => items[index]?
  | .object _ _ => none
  | scalar => if index = 0 then some scalar else none

/-- `attachments @> [{"sha256": …}]`. -/
def carries (sha256 : Text) : Jsonb → Bool
  | .array items _ => items.any fun item =>
      (item.get? (Localmail.text "sha256")).bind asText? = some sha256
  | _ => false

/-- `for a in (attachments or [])`, where each `a` has a `get`. -/
def entries? (value : Jsonb) : Option (List Jsonb) :=
  if value.truthy then
    match value with
    | .array items _ =>
        if items.all fun item => match item with
          | .object _ _ => true
          | _ => false
        then some items else none
    | _ => none
  else some []

end Jsonb

/-- `int(digit, 16)` of one digit. -/
def hexValue : CodePoint → Option Nat
  | .surrogate _ => none
  | .scalar char =>
      let code := char.toNat
      if 48 ≤ code ∧ code ≤ 57 then some (code - 48)
      else if 97 ≤ code ∧ code ≤ 102 then some (code - 87)
      else if 65 ≤ code ∧ code ≤ 70 then some (code - 55)
      else none

/-- `bytes.fromhex`, which skips white space between two bytes. -/
def bytesFromHex : Text → Option Bytes
  | [] => some []
  | [char] => if char.isAsciiSpace then some [] else none
  | char :: low :: rest =>
      if char.isAsciiSpace then bytesFromHex (low :: rest)
      else
        (hexValue char).bind fun high => (hexValue low).bind fun low =>
          (bytesFromHex rest).map (UInt8.ofNat (16 * high + low) :: ·)

def parseSha256Hex (value : Text) : Except ReadError Bytes :=
  if value.length = 64 then
    match bytesFromHex value with
    | some sha256 => .ok sha256
    | none => .error (.shaDigits value)
  else .error (.shaLength value.length)

/-! ### What is not found -/

def messageMissing (messageId : Nat) : ReadError :=
  .notFound (text "message " ++ decimal messageId ++ text " not found")

def attachmentAbsent (messageId : Nat) (index : Int) : ReadError :=
  .notFound (text "attachment " ++ intText index ++ text " of message " ++
    decimal messageId ++ text " not found")

def blobMissing (sha256 : Text) : ReadError :=
  .notFound (text "attachment " ++ sha256 ++ text " not found")

def fileMissing (sha256 : Text) : ReadError :=
  .notFound (text "attachment " ++ sha256 ++ text " file missing")

def textMissing (sha256 : Text) : ReadError :=
  .notFound (text "no extracted text for attachment " ++ sha256)

/-! ### `api/acl.py` -/

def allowedAccountIds (db : ReadDb) (userId : Nat) : List Nat :=
  ((db.grants.filter fun grant => grant.1 = userId).map Prod.snd).mergeSort

/-! ### `api/accounts.py` -/

structure AccountSummary where
  id : Text
  name : Text
  address : Text
  lastSyncAt : Option Int
  messageCount : Nat
  canSync : Bool
  isArchiveOnly : Bool
  isShared : Bool
deriving Repr, DecidableEq

structure FolderSummary where
  id : Text
  name : Text
  fullPath : Text
  flags : Option Text
  lastUid : Option Nat
  messageCount : Nat
deriving Repr, DecidableEq

def maxTime (times : List (Option Int)) : Option Int :=
  (times.filterMap id).max?

def isStale (now lastSyncAt : Int) : Bool :=
  30 * 86400 * 1000000 < now - lastSyncAt

def accountSummary (rules : ReadRules) (db : ReadDb) (shared : Bool)
    (account : AccountRow) : AccountSummary :=
  let lastSyncAt := maxTime ((db.mailboxes.filter fun mailbox =>
    mailbox.accountId = account.id).map MailboxRow.lastSyncAt)
  let archiveOnly := lastSyncAt.all (isStale rules.now)
  { id := decimal account.id
    name := account.name
    address := account.emailAddress
    lastSyncAt := lastSyncAt
    messageCount := db.messages.countP fun message =>
      message.accountId = account.id
    canSync := !archiveOnly
    isArchiveOnly := archiveOnly
    isShared := shared }

def listAccounts (rules : ReadRules) (allowed : List Nat) :
    Read (List AccountSummary) :=
  if allowed = [] then pure []
  else Reads.statement fun db =>
    (((db.accounts.filter fun account => account.id ∈ allowed).mergeSort
      fun left right => rules.nameLe left.name right.name).map
        (accountSummary rules db (1 < allowed.length)))

def folderSummary (db : ReadDb) (mailbox : MailboxRow) : FolderSummary where
  id := decimal mailbox.id
  name := mailbox.name
  fullPath := mailbox.name
  flags := mailbox.flags.bind fun flags =>
    if flags = [] then none else some (joinSpaces flags)
  lastUid := mailbox.uidnext
  messageCount := db.labels.countP fun label => label.mailboxId = mailbox.id

def listFolders (rules : ReadRules) (allowed : List Nat) (accountId : Nat) :
    Read (List FolderSummary) :=
  if accountId ∉ allowed then pure []
  else Reads.statement fun db =>
    ((db.mailboxes.filter fun mailbox => mailbox.accountId = accountId).mergeSort
      fun left right => rules.nameLe left.name right.name).map (folderSummary db)

/-! ### `api/messages.py` -/

structure AttachmentDetail where
  filename : Option Jsonb
  sha256 : Option Jsonb
  contentType : Option Text
  size : Option Nat

inductive HeadersWire where
  | grouped (entries : List (Text × List Text))
  | occurrences (entries : List HeaderEntry)
deriving Repr, DecidableEq

structure MessageDetail where
  id : Text
  subject : Option Text
  sender : Option Text × Option Text
  recipients : List Text
  cc : List Text
  bcc : List Text
  date : Option Int
  bodyText : Option Text
  bodyHtml : Option Text
  attachments : List AttachmentDetail
  account : Text × Text × Text
  folders : List (Text × Text)
  headers : Option HeadersWire

def headerModes : List Text := [text "compact", text "full", text "list"]

/-- The rows of a message the caller may read. -/
def grantedMessage (allowed : List Nat) (messageId : Nat) (db : ReadDb) :
    Option StoredMessage :=
  db.messages.find? fun message =>
    message.id = messageId ∧ message.accountId ∈ allowed

def grantedDetail (allowed : List Nat) (messageId : Nat) (db : ReadDb) :
    Option (StoredMessage × AccountRow) :=
  (grantedMessage allowed messageId db).bind fun message =>
    (db.accounts.find? fun account => account.id = message.accountId).map
      fun account => (message, account)

def foldersOf (rules : ReadRules) (messageId : Nat) (db : ReadDb) :
    List MailboxRow :=
  ((db.labels.filter fun label => label.messageId = messageId).filterMap
    fun label => db.mailboxes.find? fun mailbox =>
      mailbox.id = label.mailboxId).mergeSort
    fun left right => rules.nameLe left.name right.name

def isAngle (char : CodePoint) : Bool := char ∈ text "<>"

/-- `cid.strip("<>")`. -/
def stripAngles (value : Text) : Text :=
  ((value.dropWhile isAngle).reverse.dropWhile isAngle).reverse

/-- A value that Python finds true. -/
def Jsonb.given? (key : String) (entry : Jsonb) : Option Jsonb :=
  (entry.get? (Localmail.text key)).filter Jsonb.truthy

/-- The `cid:` references; an id that is no text has no `strip`. -/
def buildCidMap : List Jsonb → Option (List (Text × Jsonb))
  | [] => some []
  | entry :: rest =>
      match entry.given? "content_id", entry.given? "sha256" with
      | some cid, some sha256 =>
          cid.asText?.bind fun cid => (buildCidMap rest).map fun map =>
            (stripAngles cid, sha256) :: map
      | _, _ => buildCidMap rest

/-- What `bytes.fromhex` makes of the entries' digests: one that is malformed is
passed over, and one that is no text raises. -/
def attachmentShas (entries : List Jsonb) : Option (List Bytes) :=
  ((entries.filterMap (Jsonb.given? "sha256")).mapM Jsonb.asText?).map
    fun shas => shas.filterMap bytesFromHex

def loadAttachmentMeta (shas : List Bytes) : Read (List (Text × BlobRow)) :=
  if shas = [] then pure []
  else Reads.statement fun db => shas.filterMap fun sha256 =>
    (db.blobs sha256).map fun row => (hex sha256, row)

/-- An entry as it is shown; a digest that cannot be hashed raises. -/
def attachmentEntry (rows : List (Text × BlobRow)) (entry : Jsonb) :
    Option AttachmentDetail :=
  let sha256 := entry.get? (text "sha256")
  match sha256 with
  | some (.array _ _) | some (.object _ _) => none
  | _ =>
      let row := (sha256.bind Jsonb.asText?).bind fun sha256 =>
        rows.lookup sha256
      some ⟨entry.get? (text "filename"), sha256, row.bind BlobRow.mimeType,
        row.map BlobRow.sizeBytes⟩

def getMessageRaw (allowed : List Nat) (messageId : Nat) : Read Bytes := do
  Reads.refuseWhen (allowed = []) (messageMissing messageId)
  let row ← Reads.statement (grantedMessage allowed messageId)
  Reads.orFail (row.map StoredMessage.rawBytes) (messageMissing messageId)

def headerEntries (rules : ReadRules) (allowed : List Nat) (messageId : Nat)
    (prefixed : Bytes) : Read (List HeaderEntry) :=
  match headerBlock prefixed (prefixIsTruncated prefixed) with
  | some block => pure (rules.parseHeaderBlock block)
  | none => do
      let raw ← getMessageRaw allowed messageId
      pure (rules.parseHeaderBlock (headerBlockOfWhole raw))

def wantedHeaders (rules : ReadRules) (allowed : List Nat) (messageId : Nat)
    (mode : Text) (message : StoredMessage) : Read (Option HeadersWire) :=
  if mode = text "compact" then pure none
  else do
    let entries ← headerEntries rules allowed messageId
      (message.rawBytes.take prefixReadBytes)
    pure (some (if mode = text "list" then .occurrences entries
      else .grouped (groupEntries entries)))

def getMessage (rules : ReadRules) (allowed : List Nat) (messageId : Nat)
    (mode : Text) (externalImages : Bool) : Read MessageDetail := do
  Reads.refuseWhen (mode ∉ headerModes) (.headerMode mode)
  Reads.refuseWhen (allowed = []) (messageMissing messageId)
  let row ← Reads.statement (grantedDetail allowed messageId)
  let (message, account) ← Reads.orFail row (messageMissing messageId)
  let folders ← Reads.statement (foldersOf rules messageId)
  let entries ← Reads.orFail message.attachments.entries? .unhandled
  let cids ← Reads.orFail (buildCidMap entries) .unhandled
  let shas ← Reads.orFail (attachmentShas entries) .unhandled
  let rows ← loadAttachmentMeta shas
  let attachments ← Reads.orFail (entries.mapM (attachmentEntry rows)) .unhandled
  let headers ← wantedHeaders rules allowed messageId mode message
  pure
    { id := decimal message.id
      subject := message.subject
      sender := (message.fromAddr, message.fromName)
      recipients := message.toAddrs.getD []
      cc := message.ccAddrs.getD []
      bcc := message.bccAddrs.getD []
      date := message.dateSent
      bodyText := message.bodyText
      bodyHtml := (message.bodyHtml.filter (· ≠ [])).map fun html =>
        rules.sanitizeHtml html cids externalImages
      attachments := attachments
      account := (decimal account.id, account.name, account.emailAddress)
      folders := folders.map fun folder => (decimal folder.id, folder.name)
      headers := headers }

/-! ### `api/attachments.py` -/

structure MessageAttachment where
  sha256 : Text
  filename : Option Text
deriving Repr, DecidableEq

def maxJsonbIndex : Int := 2 ^ 31 - 1

/-- The digest of an entry, in lower case. -/
def entryAttachment (entry : Jsonb) : Option MessageAttachment :=
  ((entry.get? (text "sha256")).bind Jsonb.asText?).bind fun stored =>
    (parseSha256Hex stored).toOption.map fun sha256 =>
      ⟨hex sha256, (entry.get? (text "filename")).bind Jsonb.asText?⟩

def storedEntry (allowed : List Nat) (messageId index : Nat) (db : ReadDb) :
    Option Jsonb :=
  (grantedMessage allowed messageId db).bind fun message =>
    message.attachments.item? index

def resolveMessageAttachment (allowed : List Nat) (messageId : Nat)
    (index : Int) : Read MessageAttachment := do
  Reads.refuseWhen (index < 0) (.negativeIndex index)
  Reads.refuseWhen (maxJsonbIndex < index ∨ allowed = [])
    (attachmentAbsent messageId index)
  let entry ← Reads.statement (storedEntry allowed messageId index.toNat)
  Reads.orFail (entry.bind entryAttachment) (attachmentAbsent messageId index)

def carriedBy (allowed : List Nat) (sha256 : Text) (message : StoredMessage) :
    Bool :=
  message.accountId ∈ allowed ∧ message.attachments.carries sha256

def callerCanReadBlob (allowed : List Nat) (sha256 : Text) : Read Bool :=
  if allowed = [] then pure false
  else Reads.statement fun db => db.messages.any (carriedBy allowed sha256)

def lookupBlobRow (allowed : List Nat) (sha256 : Text) : Read BlobRow := do
  let digest ← Reads.ofExcept (parseSha256Hex sha256)
  let readable ← callerCanReadBlob allowed sha256
  Reads.refuseWhen (!readable) (blobMissing sha256)
  let row ← Reads.statement fun db => db.blobs digest
  Reads.orFail row (blobMissing sha256)

/-- The name the earliest granted message has for the blob. -/
def carriedName (allowed : List Nat) (sha256 : Text) (db : ReadDb) :
    Option Text :=
  ((db.messages.filter (carriedBy allowed sha256)).mergeSort
    fun left right => left.id ≤ right.id).head?.bind fun message =>
    match message.attachments with
    | .array items _ =>
        (items.find? fun item =>
          (item.get? (text "sha256")).bind Jsonb.shown? = some sha256).bind
          fun item => (item.get? (text "filename")).bind Jsonb.shown?
    | _ => none

def getAttachmentFilename (allowed : List Nat) (sha256 : Text) :
    Read (Option Text) := do
  let _ ← Reads.ofExcept (parseSha256Hex sha256)
  if allowed = [] then pure none
  else Reads.statement (carriedName allowed sha256)

def openBlobFileAt (path sha256 : Text) : Read Bytes := do
  let file ← Reads.statement fun db => db.files path
  Reads.orFail file (fileMissing sha256)

def pageResult (sha256 : Text) :
    Except TextPageFailure TextPage → Except ReadError TextPage
  | .ok page => .ok page
  | .error .notFound => .error (textMissing sha256)
  | .error (.integerOutOfRange _) | .error (.problem _) => .error .unhandled

def getAttachmentTextPage (allowed : List Nat) (sha256 : Text)
    (window : TextWindow) : Read TextPage := do
  let digest ← Reads.ofExcept (parseSha256Hex sha256)
  let readable ← callerCanReadBlob allowed sha256
  Reads.refuseWhen (!readable) (textMissing sha256)
  let extracted ← Reads.statement fun db => db.texts digest
  Reads.ofExcept (pageResult sha256 (attachmentTextPage true extracted window))

/-! ### The routes -/

def idFromPath (value : Text) (field : String) : Except ReadError Nat :=
  (parseIntId value (text field)).mapError .badRequest

/-- `text_window_from_query`. -/
def textWindowFromQuery (offset limit : Option Text) :
    Except ReadError TextWindow := do
  let first ← (offset.mapM fun value => idFromPath value "offset")
  let most ← (limit.mapM fun value => idFromPath value "limit")
  (TextWindow.build (first.getD 0 : Nat) (most.map Int.ofNat)).mapError
    .textWindow

/-- An answer about a blob, with the file its body is read from. -/
structure BlobReply where
  size : Nat
  answer : BlobAnswer size
  file : Option Bytes
deriving DecidableEq

inductive ReadAnswer where
  | accounts (rows : List AccountSummary)
  | folders (rows : List FolderSummary)
  | detail (message : MessageDetail)
  | raw (content : Bytes)
  | blob (reply : BlobReply)
  | page (page : TextPage)

inductive ReadRequest where
  | accounts
  | folders (accountId : Text)
  | detail (messageId headers : Text) (externalImages : Bool)
  | raw (messageId : Text)
  | blob (sha256 : Text) (request : BlobRequest)
  | blobText (sha256 : Text) (offset limit : Option Text)
  | attachment (messageId index : Text) (request : BlobRequest)
  | attachmentText (messageId index : Text) (offset limit : Option Text)

/-- From the probe on, for a blob with its name still to be found. -/
def replyWithBlob (allowed : List Nat) (request : BlobRequest) (sha256 : Text)
    (name : Read (Option Text)) : Read BlobReply := do
  let row ← lookupBlobRow allowed sha256
  let probe : ServedBlob := ⟨sha256, row.mimeType, row.sizeBytes, none⟩
  match notModified request probe with
  | some cached => pure ⟨_, cached, none⟩
  | none => do
      let filename ← name
      let file ← openBlobFileAt row.path sha256
      let blob : ServedBlob := ⟨sha256, row.mimeType, row.sizeBytes, filename⟩
      let answer ← Reads.orFail (serveBlob request blob) .unhandled
      pure ⟨_, answer, some file⟩

/-- What a route does with the grants of its caller, when the request is well
formed. -/
def readUnder (rules : ReadRules) :
    ReadRequest → Except ReadError (List Nat → Read ReadAnswer)
  | .accounts => .ok fun allowed =>
      ReadAnswer.accounts <$> listAccounts rules allowed
  | .folders accountId => do
      let accountId ← idFromPath accountId "account_id"
      .ok fun allowed => ReadAnswer.folders <$> listFolders rules allowed accountId
  | .detail messageId headers externalImages => do
      let messageId ← idFromPath messageId "message_id"
      .ok fun allowed => ReadAnswer.detail <$>
        getMessage rules allowed messageId headers externalImages
  | .raw messageId => do
      let messageId ← idFromPath messageId "message_id"
      .ok fun allowed => ReadAnswer.raw <$> getMessageRaw allowed messageId
  | .blob sha256 request =>
      .ok fun allowed => ReadAnswer.blob <$> replyWithBlob allowed request sha256
        (getAttachmentFilename allowed sha256)
  | .blobText sha256 offset limit => do
      let window ← textWindowFromQuery offset limit
      .ok fun allowed => ReadAnswer.page <$>
        getAttachmentTextPage allowed sha256 window
  | .attachment messageId index request => do
      let messageId ← idFromPath messageId "message_id"
      let index ← idFromPath index "index"
      .ok fun allowed => do
        let entry ← resolveMessageAttachment allowed messageId index
        ReadAnswer.blob <$> replyWithBlob allowed request entry.sha256
          (pure entry.filename)
  | .attachmentText messageId index offset limit => do
      let messageId ← idFromPath messageId "message_id"
      let index ← idFromPath index "index"
      let window ← textWindowFromQuery offset limit
      .ok fun allowed => do
        let entry ← resolveMessageAttachment allowed messageId index
        ReadAnswer.page <$> getAttachmentTextPage allowed entry.sha256 window

/-- One request of a user. -/
def serveRead (rules : ReadRules) (userId : Nat) (request : ReadRequest) :
    Read ReadAnswer := do
  let route ← Reads.ofExcept (readUnder rules request)
  let allowed ← Reads.statement fun db => allowedAccountIds db userId
  route allowed

end ReadApi

end Localmail
