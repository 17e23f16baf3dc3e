/-
The three signed tokens: the admin session cookie, the state of the admin OAuth
flow and the state of the consent page.  Each is a JSON object in base64, a dot
and the base64 of a MAC over the first part.
-/
import Localmail.Base64
import Localmail.IntText
import Localmail.KeyedRows
import Localmail.SearchRequest
import Mathlib.Data.Rat.Defs

namespace Localmail

/-! ### JSON -/

inductive JsonFloat where
  | nan
  | infinite (negative : Bool)
  | finite (value : Rat)
deriving Repr, DecidableEq

/-- What `json.loads` returns; an object has one entry for each key. -/
inductive Json where
  | null
  | bool (value : Bool)
  | int (value : Int)
  | float (value : JsonFloat)
  | text (value : Text)
  | list (items : List Json)
  | object (entries : List (Text × Json))

/-- What a payload's fields hold before they are encoded. -/
inductive FieldValue where
  | null
  | bool (value : Bool)
  | int (value : Int)
  | text (value : Text)
  | texts (items : List Text)
deriving Repr, DecidableEq

def FieldValue.toJson : FieldValue → Json
  | .null => .null
  | .bool value => .bool value
  | .int value => .int value
  | .text value => .text value
  | .texts items => .list (items.map .text)

/-- A high and a low surrogate, which JSON escapes read back as one
character. -/
def surrogatePair : CodePoint → CodePoint → Option CodePoint
  | .surrogate high, .surrogate low =>
      if high.val < 1024 ∧ 1024 ≤ low.val then
        some (.scalar (Char.ofNat
          (0x10000 + high.val * 1024 + (low.val - 1024))))
      else none
  | _, _ => none

def joinPairs : Text → Text
  | first :: second :: rest =>
      match surrogatePair first second with
      | some char => char :: joinPairs rest
      | none => first :: joinPairs (second :: rest)
  | rest => rest

/-- The value read back from its JSON. -/
def FieldValue.joined : FieldValue → FieldValue
  | .text value => .text (joinPairs value)
  | .texts items => .texts (items.map joinPairs)
  | value => value

/-- `str` takes the number. -/
def FieldValue.Printable : FieldValue → Prop
  | .int value => (decimal value.natAbs).length ≤ intMaxStrDigits
  | _ => True

/-- `json.dumps` with sorted keys, as UTF-8, of an object; `none` is the
`ValueError` of a number with too many digits.  And `json.loads` of bytes. -/
structure JsonRules where
  dumps : List (Text × FieldValue) → Option (List UInt8)
  loads : List UInt8 → Option Json

/-- An object with distinct ASCII keys is written and read back, in any order of
its keys, up to the surrogate pairs in its texts. -/
structure JsonRules.Inverse (json : JsonRules) : Prop where
  inverse : ∀ fields : List (Text × FieldValue), (fields.map Prod.fst).Nodup →
    (∀ field ∈ fields, field.1.all CodePoint.isAscii = true) →
    (∀ field ∈ fields, field.2.Printable) →
      ∃ data entries, json.dumps fields = some data ∧ data ≠ [] ∧
        json.loads data = some (.object entries) ∧
        entries.Perm
          (fields.map fun field => (field.1, field.2.joined.toJson))
  long : ∀ fields : List (Text × FieldValue),
    ¬(∀ field ∈ fields, field.2.Printable) → json.dumps fields = none

def fieldOf (entries : List (Text × Json)) (name : String) : Option Json :=
  (entries.find? fun entry => entry.1 = text name).map Prod.snd

/-! ### Signing -/

/-- How a decoder fails: with an error it declares, or with another. -/
inductive Raised (ε : Type) where
  | declared (error : ε)
  | other
deriving Repr, DecidableEq

variable (json : JsonRules) (mac : List UInt8 → List UInt8 → List UInt8)

/-- `_sign`; `none` is the `UnicodeEncodeError`. -/
def sign (key : List UInt8) (body : Text) : Option Text :=
  (encodeAscii body).map fun data => base64Encode (mac key data)

/-! ### Admin session tokens -/

structure SessionPayload where
  userId : Int
  issuedAt : Int
  exp : Int
deriving Repr, DecidableEq

inductive SessionTokenError where
  | malformedToken
  | signatureMismatch
  | malformedPayload
  | unsupportedVersion
  | expired
deriving Repr, DecidableEq

def currentVersion : Int := 1

def SessionPayload.fields (payload : SessionPayload) :
    List (Text × FieldValue) :=
  [(text "v", .int currentVersion), (text "user_id", .int payload.userId),
    (text "issued_at", .int payload.issuedAt), (text "exp", .int payload.exp)]

/-- `encode_session_token`; `none` is a `ValueError`. -/
def encodeSessionToken (key : List UInt8) (payload : SessionPayload) :
    Option Text := do
  if key.length < 16 then none
  else
    let raw ← json.dumps payload.fields
    let body := base64Encode raw
    let sig ← sign mac key body
    some (body ++ text "." ++ sig)

/-- `value == 1`. -/
def Json.isVersion : Json → Bool
  | .int value => value = currentVersion
  | .bool value => value
  | .float (.finite value) => value = currentVersion
  | _ => false

/-- `int(value)`. -/
def Json.toInt : Json → Except (Raised SessionTokenError) Int
  | .int value => .ok value
  | .bool value => .ok (if value then 1 else 0)
  | .float (.finite value) => .ok (value.num.tdiv value.den)
  | .float (.infinite _) => .error .other
  | .text value =>
      match intOfText value with
      | some number => .ok number
      | none => .error (.declared .malformedPayload)
  | _ => .error (.declared .malformedPayload)

/-- `int(d[name])`. -/
def intField (entries : List (Text × Json)) (name : String) :
    Except (Raised SessionTokenError) Int :=
  match fieldOf entries name with
  | some value => value.toInt
  | none => .error (.declared .malformedPayload)

/-- The payload of an object that is signed. -/
def sessionPayload (now : Int) (entries : List (Text × Json)) :
    Except (Raised SessionTokenError) SessionPayload :=
  if (fieldOf entries "v").any Json.isVersion then do
    let userId ← intField entries "user_id"
    let issuedAt ← intField entries "issued_at"
    let exp ← intField entries "exp"
    if exp ≤ now then .error (.declared .expired)
    else .ok ⟨userId, issuedAt, exp⟩
  else .error (.declared .unsupportedVersion)

/-- The payload of a body that is signed. -/
def signedSession (now : Int) (body : Text) :
    Except (Raised SessionTokenError) SessionPayload :=
  match (base64Decode body).bind json.loads with
  | some (.object entries) => sessionPayload now entries
  | _ => .error (.declared .malformedPayload)

/-- The payload of a token that is split.  Neither the body's encoding nor the
comparison of the signatures is guarded, and both take ASCII alone. -/
def splitSession (key : List UInt8) (now : Int) (body sig : Text) :
    Except (Raised SessionTokenError) SessionPayload :=
  if body = [] ∨ sig = [] then .error (.declared .malformedToken)
  else
    match sign mac key body with
    | none => .error .other
    | some expected =>
        if sig.all CodePoint.isAscii then
          if expected ≠ sig then .error (.declared .signatureMismatch)
          else signedSession json now body
        else .error .other

/-- `decode_session_token`. -/
def decodeSessionToken (key : List UInt8) (now : Int) (token : Text) :
    Except (Raised SessionTokenError) SessionPayload :=
  match token.splitOn (.scalar '.') with
  | [body, sig] => splitSession json mac key now body sig
  | _ => .error (.declared .malformedToken)

/-! ### OAuth and consent states -/

inductive StateError where
  | missingSeparator
  | malformedSignature
  | signatureMismatch
  | malformedPayload
  | expired
deriving Repr, DecidableEq

/-- A frozen dataclass, whose fields hold values of any type: its fields, the
instance its constructor makes of keyword arguments, and its expiry. -/
structure StateCodec (π : Type → Type) where
  asdict : π FieldValue → List (Text × FieldValue)
  construct : List (Text × Json) → Option (π Json)
  exp : ∀ {α : Type}, π α → α

/-- `value < now`; `none` is the `TypeError`. -/
def Json.before (now : Int) : Json → Option Bool
  | .int value => some (value < now)
  | .bool value => some ((if value then 1 else 0) < now)
  | .float .nan => some false
  | .float (.infinite negative) => some negative
  | .float (.finite value) => some (value < now)
  | _ => none

section State

variable {π : Type → Type} (codec : StateCodec π)

/-- `encode_state` and `encode_consent_state`. -/
def encodeState (key : List UInt8) (payload : π FieldValue) : Option Text := do
  let raw ← json.dumps (codec.asdict payload)
  let body := base64Encode raw
  let sig ← sign mac key body
  some (body ++ text "." ++ sig)

/-- The payload of a body that is signed. -/
def statePayload (body : Text) : Option (π Json) :=
  match (base64Decode body).bind json.loads with
  | some (.object entries) => codec.construct entries
  | _ => none

/-- `token.split(".", 1)` of a token with a dot. -/
def splitFirstDot (token : Text) : Option (Text × Text) :=
  if .scalar '.' ∈ token then
    some (token.takeWhile (· ≠ .scalar '.'),
      (token.dropWhile (· ≠ .scalar '.')).tail)
  else none

/-- The payload of a token that is split.  The body's encoding and the comparison
with the time are not guarded. -/
def splitState (key : List UInt8) (now : Int) (body sig : Text) :
    Except (Raised StateError) (π Json) :=
  match encodeAscii body with
  | none => .error .other
  | some data =>
      match base64Decode sig with
      | none => .error (.declared .malformedSignature)
      | some actual =>
          if mac key data ≠ actual then .error (.declared .signatureMismatch)
          else
            match statePayload json codec body with
            | none => .error (.declared .malformedPayload)
            | some payload =>
                match (codec.exp payload).before now with
                | none => .error .other
                | some true => .error (.declared .expired)
                | some false => .ok payload

/-- `decode_state` and `decode_consent_state`. -/
def decodeState (key : List UInt8) (now : Int) (token : Text) :
    Except (Raised StateError) (π Json) :=
  match splitFirstDot token with
  | none => .error (.declared .missingSeparator)
  | some (body, sig) => splitState json mac codec key now body sig

end State

structure StatePayload (α : Type) where
  userId : α
  accountId : α
  nonce : α
  exp : α
deriving Repr, DecidableEq

instance : Functor StatePayload where
  map f payload :=
    ⟨f payload.userId, f payload.accountId, f payload.nonce, f payload.exp⟩

def stateNames : List Text :=
  [text "user_id", text "account_id", text "nonce", text "exp"]

/-- The dataclass of `oauth_state`. -/
def stateCodec : StateCodec StatePayload where
  asdict payload :=
    [(text "user_id", payload.userId), (text "account_id", payload.accountId),
      (text "nonce", payload.nonce), (text "exp", payload.exp)]
  construct entries := do
    if entries.all fun entry => entry.1 ∈ stateNames then
      some ⟨← fieldOf entries "user_id", ← fieldOf entries "account_id",
        ← fieldOf entries "nonce", ← fieldOf entries "exp"⟩
    else none
  exp payload := payload.exp

structure ConsentPayload (α : Type) where
  clientId : α
  redirectUri : α
  redirectUriProvidedExplicitly : α
  codeChallenge : α
  scopes : α
  state : α
  exp : α
  resource : α
deriving Repr, DecidableEq

instance : Functor ConsentPayload where
  map f payload :=
    ⟨f payload.clientId, f payload.redirectUri,
      f payload.redirectUriProvidedExplicitly, f payload.codeChallenge,
      f payload.scopes, f payload.state, f payload.exp, f payload.resource⟩

def consentNames : List Text :=
  [text "client_id", text "redirect_uri",
    text "redirect_uri_provided_explicitly", text "code_challenge",
    text "scopes", text "state", text "exp", text "resource"]

/-- The dataclass of `consent_state`; `resource` may be missing. -/
def consentCodec : StateCodec ConsentPayload where
  asdict payload :=
    [(text "client_id", payload.clientId),
      (text "redirect_uri", payload.redirectUri),
      (text "redirect_uri_provided_explicitly",
        payload.redirectUriProvidedExplicitly),
      (text "code_challenge", payload.codeChallenge),
      (text "scopes", payload.scopes), (text "state", payload.state),
      (text "exp", payload.exp), (text "resource", payload.resource)]
  construct entries := do
    if entries.all fun entry => entry.1 ∈ consentNames then
      some ⟨← fieldOf entries "client_id", ← fieldOf entries "redirect_uri",
        ← fieldOf entries "redirect_uri_provided_explicitly",
        ← fieldOf entries "code_challenge", ← fieldOf entries "scopes",
        ← fieldOf entries "state", ← fieldOf entries "exp",
        (fieldOf entries "resource").getD .null⟩
    else none
  exp payload := payload.exp

/-! ### What the codecs promise -/

/-- Every failure is one that the decoder declares. -/
def FailsClosed {ε α : Type} (result : Except (Raised ε) α) : Prop :=
  ∀ error, result = .error error → ∃ reason, error = .declared reason

def SessionRoundTrips (key : List UInt8) (now : Int) (payload : SessionPayload) :
    Prop :=
  ∃ token, encodeSessionToken json mac key payload = some token ∧
    decodeSessionToken json mac key now token = .ok payload

/-- `str` takes every number of the payload. -/
def SessionPayload.Printable (payload : SessionPayload) : Prop :=
  ∀ value ∈ [payload.userId, payload.issuedAt, payload.exp],
    (FieldValue.int value).Printable

/-- The part after the dot is the signature of the part before it. -/
def SessionSigned (key : List UInt8) (token : Text) : Prop :=
  ∃ body sig, token = body ++ text "." ++ sig ∧ sign mac key body = some sig

def Json.isInfinite : Json → Bool
  | .float (.infinite _) => true
  | _ => false

/-- No infinity is met by reading the fields as integers one after another. -/
def IntsFinite (entries : List (Text × Json)) : List String → Prop
  | [] => True
  | name :: names =>
      (fieldOf entries name).any Json.isInfinite = false ∧
        ((∃ value, intField entries name = .ok value) →
          IntsFinite entries names)

/-- Both parts of a token are ASCII, and an object that is signed has no infinite
number for an integer. -/
def SessionReadable (key : List UInt8) (token : Text) : Prop :=
  ∀ body sig, token.splitOn (.scalar '.') = [body, sig] → body ≠ [] →
    sig ≠ [] →
      body.all CodePoint.isAscii = true ∧ sig.all CodePoint.isAscii = true ∧
        ∀ entries, sign mac key body = some sig →
          (base64Decode body).bind json.loads = some (.object entries) →
          (fieldOf entries "v").any Json.isVersion = true →
            IntsFinite entries ["user_id", "issued_at", "exp"]

/-- No high surrogate is directly before a low one. -/
def Unpaired (value : Text) : Prop :=
  value.IsChain fun first second => surrogatePair first second = none

def FieldValue.Unpaired : FieldValue → Prop
  | .text value => Localmail.Unpaired value
  | .texts items => ∀ item ∈ items, Localmail.Unpaired item
  | _ => True

section StatePromises

variable {π : Type → Type} [Functor π] (codec : StateCodec π)

def StateRoundTrips (key : List UInt8) (now : Int) (payload : π FieldValue) :
    Prop :=
  ∃ token, encodeState json mac codec key payload = some token ∧
    decodeState json mac codec key now token =
      .ok (FieldValue.toJson <$> payload)

/-- The part after the first dot is base64 of the MAC of the part before it. -/
def StateSigned (key : List UInt8) (token : Text) : Prop :=
  ∃ body sig data, token = body ++ text "." ++ sig ∧
    encodeAscii body = some data ∧ base64Decode sig = some (mac key data)

def Json.isNumber : Json → Bool
  | .int _ | .bool _ | .float _ => true
  | _ => false

/-- The part before the first dot is ASCII, and the expiry of a payload that is
signed is a number. -/
def StateReadable (key : List UInt8) (token : Text) : Prop :=
  ∀ body sig, splitFirstDot token = some (body, sig) →
    body.all CodePoint.isAscii = true ∧
      ∀ data payload, encodeAscii body = some data →
        base64Decode sig = some (mac key data) →
        statePayload json codec body = some payload →
          (codec.exp payload).isNumber = true

end StatePromises

end Localmail
