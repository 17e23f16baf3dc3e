/-
`parser.parse_message` over whatever the email package answers, and the texts
`sync.process_one_message` binds for what it returns.  A text is a list of code
points, so that a lone surrogate is a text the package can answer with.
-/
import Localmail.SyncStore
import Localmail.TextChunks

namespace Localmail

/-! ### `pgtext.py` -/

def stripNuls (value : Text) : Text :=
  value.filter fun ch => ch ≠ .scalar '\x00'

def CodePoint.replaceSurrogate : CodePoint → CodePoint
  | .surrogate _ => .scalar '\uFFFD'
  | .scalar char => .scalar char

def replaceSurrogates (value : Text) : Text :=
  value.map CodePoint.replaceSurrogate

/-! ### What the standard library answers -/

/-- How an exception of the email package is caught: as one of
`(LookupError, UnicodeDecodeError)`, or only by a bare handler. -/
inductive MailError where
  | undecodable
  | other
deriving Repr, DecidableEq

/-- `part.get_content()`. -/
inductive PartContent where
  | text (value : Text)
  | bytes (payload : Bytes)
deriving Repr, DecidableEq

/-- A datetime; one without an offset counts as UTC. -/
structure ParsedDate where
  instant : Micros
  aware : Bool
deriving Repr, DecidableEq

/-- The functions of the standard library that the parser calls on a message.
Header values and addresses are arbitrary texts; decoding UTF-8 with
replacement gives scalar values. -/
structure EmailPackage where
  Message : Type
  Part : Type
  messageFromBytes : Bytes → Except MailError Message
  get : Message → String → Except MailError (Option Text)
  getAll : Message → String → Except MailError (List Text)
  getaddresses : List Text → Except MailError (List (Text × Text))
  rawItems : Message → List (Text × Text)
  headerFetchParse : Text → Text → Except MailError Text
  getBody : Message → String → Except MailError (Option Part)
  iterAttachments : Message → Except MailError (List Part)
  getContent : Part → Except MailError PartContent
  getPayload : Part → Except MailError (Option Bytes)
  getContentType : Part → Except MailError Text
  getFilename : Part → Except MailError (Option Text)
  getContentId : Part → Except MailError (Option Text)
  decodeReplace : Bytes → List Char
  parsedateToDatetime : Text → Option ParsedDate
  sha256 : Bytes → Bytes

/-- `str.split()`. -/
def splitWords (value : Text) : List Text :=
  (value.splitOnP CodePoint.isSpace).filter fun word => word ≠ []

/-- The text starts with `<` and ends with `>`. -/
def isAngled (value : Text) : Bool :=
  (text "<").isPrefixOf value && (text ">").isSuffixOf value

/-- `value[1:-1]`. -/
def withoutEnds (value : Text) : Text :=
  value.tail.dropLast

/-! ### `header_block.py` -/

structure HeaderEntry where
  name : Text
  value : Text
deriving Repr, DecidableEq

/-- One code point under `encode("utf-8", "surrogateescape")`. -/
def CodePoint.encodeEscaped : CodePoint → Option Bytes
  | .scalar char => some (String.utf8EncodeChar char)
  | .surrogate offset =>
      if 0x480 ≤ offset.val ∧ offset.val ≤ 0x4FF then
        some [UInt8.ofNat (offset.val - 0x400)]
      else none

def encodeEscaped (value : Text) : Option Bytes :=
  (value.mapM CodePoint.encodeEscaped).map List.flatten

/-- The value under `key` grown by `value`, at the end when the key is new. -/
def setdefaultAppend (out : List (Text × List Text)) (key value : Text) :
    List (Text × List Text) :=
  if out.any fun entry => entry.1 = key then
    out.map fun entry =>
      if entry.1 = key then (entry.1, entry.2 ++ [value]) else entry
  else out ++ [(key, [value])]

def groupEntries (entries : List HeaderEntry) : List (Text × List Text) :=
  entries.foldl (fun out entry => setdefaultAppend out entry.name entry.value) []

/-! ### `parser.py` -/

structure Attachment where
  filename : Text
  mimeType : Text
  payload : Bytes
  contentId : Option Text
deriving Repr, DecidableEq

/-- `parser.ParsedMessage`, with every field. -/
structure ParsedMail where
  messageId : Option Text
  rawSha256 : Bytes
  inReplyTo : Option Text
  refs : List Text
  subject : Option Text
  fromAddr : Option Text
  fromName : Option Text
  toAddrs : List Text
  ccAddrs : List Text
  bccAddrs : List Text
  dateSent : Option ParsedDate
  headers : List (Text × List Text)
  bodyText : Option Text
  bodyHtml : Option Text
  rawBytes : Bytes
  sizeBytes : Nat
  attachments : List Attachment
deriving Repr, DecidableEq

/-- A blank Message-Id, or an empty pair of angle brackets, is none. -/
def normalizeMessageId : Option Text → Option Text
  | none => none
  | some value =>
      let stripped := strip value
      if stripped = [] then none
      else if isAngled stripped ∧ strip (withoutEnds stripped) = [] then none
      else some stripped

/-- `strip_nuls(value) or None`. -/
def cleaned (value : Option Text) : Option Text :=
  given (value.map stripNuls)

def shownName (attachment : Attachment) : Text :=
  (cleaned (some attachment.filename)).getD (text "attachment")

/-- A message of attachments only gets a subject to surface on. -/
def subjectOr (attachments : List Attachment) (subject : Option Text) :
    Option Text :=
  if attachments ≠ [] ∧ cleaned subject = none then
    some (text "\x7battachments only\x7d")
  else cleaned subject

/-- Likewise a text body naming them. -/
def bodyOr (attachments : List Attachment) (body : Option Text) : Option Text :=
  if attachments ≠ [] ∧ cleaned body = none then
    some (text "\x7battachments: " ++ join ", " (attachments.map shownName) ++
      text "\x7d")
  else cleaned body

namespace EmailPackage

variable (pkg : EmailPackage)

def decodeRaw (rawValue : Text) : Text :=
  match encodeEscaped rawValue with
  | some bytes => (pkg.decodeReplace bytes).map .scalar
  | none => rawValue

/-- An occurrence the parser chokes on falls back to its raw text. -/
def headerValue (item : Text × Text) : Text :=
  match pkg.headerFetchParse item.1 item.2 with
  | .ok value => value
  | .error _ => decodeRaw pkg item.2

def entriesFromMessage (msg : pkg.Message) : List HeaderEntry :=
  (pkg.rawItems msg).map fun item =>
    ⟨item.1, stripNuls (replaceSurrogates (headerValue pkg item))⟩

def addressList (msg : pkg.Message) (header : String) :
    Except MailError (List Text) := do
  let raw ← pkg.getAll msg header
  if raw = [] then .ok []
  else
    let pairs ← pkg.getaddresses raw
    .ok ((pairs.map Prod.snd).filter fun addr => addr ≠ [])

/-- The address and the name of the first `From`. -/
def fromPair (msg : pkg.Message) :
    Except MailError (Option Text × Option Text) := do
  let raw ← pkg.getAll msg "From"
  if raw = [] then .ok (none, none)
  else
    match ← pkg.getaddresses raw with
    | [] => .ok (none, none)
    | (name, addr) :: _ => .ok (given (some addr), given (some name))

def refsList (msg : pkg.Message) : Except MailError (List Text) := do
  match given (← pkg.get msg "References") with
  | none => .ok []
  | some raw => .ok (splitWords raw)

/-- A header the package cannot parse reads as absent. -/
def headerText (msg : pkg.Message) (name : String) : Option Text :=
  match pkg.get msg name with
  | .error _ => none
  | .ok value => given value

def dateSent (msg : pkg.Message) : Option ParsedDate :=
  ((headerText pkg msg "Date").bind pkg.parsedateToDatetime).map fun date =>
    { date with aware := true }

def headersDict (msg : pkg.Message) : List (Text × List Text) :=
  groupEntries (entriesFromMessage pkg msg)

def decodedPayload (part : pkg.Part) : Except MailError Bytes := do
  let payload ← pkg.getPayload part
  .ok (payload.getD [])

/-- `payload.decode("utf-8", errors="replace")`. -/
def decodeBytes (payload : Bytes) : Text :=
  (pkg.decodeReplace payload).map .scalar

def decodePartText (part : pkg.Part) : Except MailError Text :=
  match pkg.getContent part with
  | .error .undecodable => do
      let payload ← decodedPayload pkg part
      .ok (decodeBytes pkg payload)
  | .error .other => .error .other
  | .ok (.bytes payload) => .ok (decodeBytes pkg payload)
  | .ok (.text value) => .ok value

def plainBody (msg : pkg.Message) : Except MailError (Option Text) := do
  match ← pkg.getBody msg "plain" with
  | none => .ok none
  | some part =>
      let value ← decodePartText pkg part
      .ok (some value)

def htmlBody (msg : pkg.Message) : Except MailError (Option Text) := do
  match ← pkg.getBody msg "html" with
  | none => .ok none
  | some part =>
      let contentType ← pkg.getContentType part
      if contentType = text "text/html" then
        let value ← decodePartText pkg part
        .ok (some value)
      else .ok none

def contentId (part : pkg.Part) : Except MailError (Option Text) := do
  match given (← pkg.getContentId part) with
  | none => .ok none
  | some raw =>
      let cid := strip raw
      let inner := if isAngled cid then withoutEnds cid else cid
      .ok (given (some (stripNuls inner)))

def readAttachment (part : pkg.Part) : Except MailError Attachment := do
  let filename ← pkg.getFilename part
  let payload ← decodedPayload pkg part
  let mimeType ← pkg.getContentType part
  let cid ← contentId pkg part
  .ok ⟨(given filename).getD (text "attachment"), mimeType, payload, cid⟩

def attachmentsOf (msg : pkg.Message) : Except MailError (List Attachment) := do
  let parts ← pkg.iterAttachments msg
  parts.mapM (readAttachment pkg)

def parseMessage (raw : Bytes) : Except MailError ParsedMail := do
  let msg ← pkg.messageFromBytes raw
  let sender ← fromPair pkg msg
  let body ← plainBody pkg msg
  let html ← htmlBody pkg msg
  let messageId := normalizeMessageId (headerText pkg msg "Message-Id")
  let inReplyTo ← pkg.get msg "In-Reply-To"
  let subject ← pkg.get msg "Subject"
  let attachments ← attachmentsOf pkg msg
  let refs ← refsList pkg msg
  let toAddrs ← addressList pkg msg "To"
  let ccAddrs ← addressList pkg msg "Cc"
  let bccAddrs ← addressList pkg msg "Bcc"
  .ok {
    messageId := messageId.map stripNuls
    rawSha256 := pkg.sha256 raw
    inReplyTo := (given inReplyTo).map stripNuls
    refs := refs.map stripNuls
    subject := subjectOr attachments subject
    fromAddr := sender.1.map stripNuls
    fromName := sender.2.map stripNuls
    toAddrs := toAddrs.map stripNuls
    ccAddrs := ccAddrs.map stripNuls
    bccAddrs := bccAddrs.map stripNuls
    dateSent := dateSent pkg msg
    headers := (headersDict pkg msg).map fun entry =>
      (entry.1, entry.2.map stripNuls)
    bodyText := bodyOr attachments body
    bodyHtml := cleaned html
    rawBytes := raw
    sizeBytes := raw.length
    attachments := attachments }

end EmailPackage

/-! ### `attachments.py` and the statements of `sync.py` -/

/-- A path separator or a control character. -/
def CodePoint.isUnsafe : CodePoint → Bool
  | .surrogate _ => false
  | .scalar char =>
      char = '/' || char = '\\' || char.toNat ≤ 0x1F || char.toNat = 0x7F

def CodePoint.isDotOrUnderscore (ch : CodePoint) : Bool :=
  ch = .scalar '.' || ch = .scalar '_'

def sanitizeFilename (name : Text) : Text :=
  if name = [] ∨ strip name = [] then text "attachment"
  else
    let safe := (name.map fun ch =>
      if ch.isUnsafe then .scalar '_' else ch).dropWhile
        CodePoint.isDotOrUnderscore
    if safe = [] then text "attachment" else safe

/-- The texts bound for one attachment: the blob row's mime type and the
message's entry for it. -/
def Attachment.boundTexts (attachment : Attachment) : List Text :=
  attachment.mimeType :: sanitizeFilename attachment.filename ::
    (given attachment.contentId).toList

/-- The texts of the row `upsert_message` inserts. -/
def ParsedMail.rowTexts (parsed : ParsedMail) : List Text :=
  parsed.messageId.toList ++ parsed.inReplyTo.toList ++ parsed.refs ++
    parsed.subject.toList ++ parsed.fromAddr.toList ++
    parsed.fromName.toList ++ parsed.toAddrs ++ parsed.ccAddrs ++
    parsed.bccAddrs ++
    parsed.headers.flatMap (fun entry => entry.1 :: entry.2) ++
    parsed.bodyText.toList ++ parsed.bodyHtml.toList

/-- How `upsert_message` ends: the row was there, it was inserted, or another
writer inserted it in between. -/
inductive Upserted where
  | existing
  | inserted
  | raced
deriving Repr, DecidableEq

/-- The texts of the message that `process_one_message` binds. -/
def ParsedMail.boundTexts (parsed : ParsedMail) : Upserted → List Text
  | .existing => parsed.messageId.toList
  | .inserted =>
      parsed.messageId.toList ++ parsed.rowTexts ++
        parsed.attachments.flatMap Attachment.boundTexts
  | .raced =>
      parsed.messageId.toList ++ parsed.rowTexts ++ parsed.messageId.toList

end Localmail
