/-
What the signed tokens' encoders write is read back while it has not expired, as
long as `str` takes its numbers and JSON keeps its texts.
-/
import Localmail.TokenLaws
import Mathlib.Tactic.DeriveCountable
import Mathlib.Data.Countable.Basic
import Mathlib.Logic.Equiv.List

namespace Localmail

theorem encodeAscii_base64 (raw : List UInt8) :
    ∃ data, encodeAscii (base64Encode raw) = some data := by
  rw [← Option.isSome_iff_exists, encodeAscii_isSome_iff]
  exact base64Encode_ascii raw

theorem dot_notMem_base64 (raw : List UInt8) :
    .scalar '.' ∉ base64Encode raw := by
  intro hdot
  have hoff : .scalar '.' ∉ base64Alphabet := by decide
  exact hoff (mem_base64Encode raw hdot)

theorem sign_base64 (mac : List UInt8 → List UInt8 → List UInt8)
    {raw data : List UInt8}
    (hdata : encodeAscii (base64Encode raw) = some data) (key : List UInt8) :
    sign mac key (base64Encode raw) = some (base64Encode (mac key data)) := by
  rw [sign, hdata]
  rfl

/-! ### The entries written, in any order -/

section Entries

variable {fields : List (Text × FieldValue)} {encode : FieldValue → Json}
  {entries : List (Text × Json)}
  (hentries : entries.Perm
    (fields.map fun field => (field.1, encode field.2)))

include hentries

theorem keys_perm : (entries.map Prod.fst).Perm (fields.map Prod.fst) := by
  have hkeys := hentries.map Prod.fst
  rw [List.map_map] at hkeys
  exact hkeys

theorem fieldOf_perm (hnodup : (fields.map Prod.fst).Nodup) {name : String}
    {value : FieldValue} (hmem : (text name, value) ∈ fields) :
    fieldOf entries name = some (encode value) := by
  apply fieldOf_eq_some ((keys_perm hentries).nodup_iff.mpr hnodup)
  rw [hentries.mem_iff]
  exact List.mem_map.mpr ⟨_, hmem, rfl⟩

theorem all_keys_perm {names : List Text} (hnames : fields.map Prod.fst = names) :
    (entries.all fun entry => entry.1 ∈ names) = true := by
  rw [List.all_eq_true]
  intro entry hentry
  rw [decide_eq_true_eq, ← hnames, ← (keys_perm hentries).mem_iff]
  exact List.mem_map_of_mem hentry

end Entries

/-! ### Sessions -/

section Session

variable {json : JsonRules} {mac : List UInt8 → List UInt8 → List UInt8}

theorem sessionFields_printable_iff (payload : SessionPayload) :
    (∀ field ∈ payload.fields, field.2.Printable) ↔ payload.Printable := by
  have hversion : (FieldValue.int currentVersion).Printable := by
    have hdigits : (decimal 1).length ≤ intMaxStrDigits := by decide
    exact hdigits
  simp [SessionPayload.fields, SessionPayload.Printable, hversion]

theorem sessionFields_keys (payload : SessionPayload) :
    (payload.fields.map Prod.fst).Nodup ∧
      ∀ field ∈ payload.fields, field.1.all CodePoint.isAscii = true := by
  constructor
  · have hkeys : payload.fields.map Prod.fst =
        [text "v", text "user_id", text "issued_at", text "exp"] := rfl
    rw [hkeys]
    decide
  · simp only [SessionPayload.fields, List.forall_mem_cons]
    decide

/-- The payload of the entries written, in any order. -/
theorem sessionPayload_of_fields {now : Int} {payload : SessionPayload}
    {entries : List (Text × Json)} (hlive : now < payload.exp)
    (hentries : entries.Perm
      (payload.fields.map fun field => (field.1, field.2.joined.toJson))) :
    sessionPayload now entries = .ok payload := by
  have hfield : ∀ name value,
      (text name, .int value) ∈ payload.fields →
        fieldOf entries name = some (.int value) := by
    intro name value hmem
    exact @fieldOf_perm _ (fun value => value.joined.toJson) _ hentries
      (sessionFields_keys payload).1 _ _ hmem
  have hversion := hfield "v" currentVersion (by simp [SessionPayload.fields])
  have huser := hfield "user_id" payload.userId
    (by simp [SessionPayload.fields])
  have hissued := hfield "issued_at" payload.issuedAt
    (by simp [SessionPayload.fields])
  have hexp := hfield "exp" payload.exp (by simp [SessionPayload.fields])
  have hread : (fieldOf entries "v").any Json.isVersion = true := by
    rw [hversion]
    rfl
  rw [sessionPayload, if_pos hread]
  simp only [intField, huser, hissued, hexp, Json.toInt]
  exact if_neg (not_le.mpr hlive)

theorem sessionRoundTrips_iff (hjson : json.Inverse)
    (hmac : ∀ key data, (mac key data).length = 32) {key : List UInt8}
    {now : Int} {payload : SessionPayload} (hlive : now < payload.exp) :
    SessionRoundTrips json mac key now payload ↔
      16 ≤ key.length ∧ payload.Printable := by
  rw [← sessionFields_printable_iff]
  constructor
  · rintro ⟨token, hencode, -⟩
    rw [encodeSessionToken] at hencode
    split at hencode
    · cases hencode
    · rename_i hkey
      refine ⟨not_lt.mp hkey, ?_⟩
      by_contra hlong
      rw [hjson.long _ hlong] at hencode
      cases hencode
  · rintro ⟨hkey, hprintable⟩
    obtain ⟨hnodup, hascii⟩ := sessionFields_keys payload
    obtain ⟨raw, entries, hdumps, hraw, hloads, hentries⟩ :=
      hjson.inverse _ hnodup hascii hprintable
    obtain ⟨data, hdata⟩ := encodeAscii_base64 raw
    have hsign := sign_base64 mac hdata key
    have hbody : base64Encode raw ≠ [] := mt base64Encode_eq_nil_iff.mp hraw
    have hsig : base64Encode (mac key data) ≠ [] := by
      intro hempty
      have hlength := hmac key data
      rw [base64Encode_eq_nil_iff.mp hempty] at hlength
      cases hlength
    refine ⟨base64Encode raw ++ text "." ++ base64Encode (mac key data), ?_, ?_⟩
    · rw [encodeSessionToken, if_neg (not_lt.mpr hkey), hdumps]
      simp [hsign]
    · have hsplit : (base64Encode raw ++ text "." ++
          base64Encode (mac key data)).splitOn (.scalar '.') =
            [base64Encode raw, base64Encode (mac key data)] := by
        have hdot : text "." = [.scalar '.'] := rfl
        rw [hdot, List.append_assoc, List.singleton_append,
          List.splitOn_append_cons_self,
          List.splitOn_eq_singleton (dot_notMem_base64 raw),
          List.splitOn_eq_singleton (dot_notMem_base64 _)]
        rfl
      rw [decodeSessionToken, hsplit]
      simp only [splitSession, hbody, hsig, hsign, or_self, if_false,
        base64Encode_ascii, if_true, ne_eq, not_true_eq_false, signedSession,
        base64Decode_encode, Option.bind_some, hloads]
      exact sessionPayload_of_fields hlive hentries

end Session

/-! ### States -/

/-- A dataclass is made of the fields it has, in any order, and has one value for
each of them. -/
structure StateCodec.Lawful {π : Type → Type} [Functor π]
    (codec : StateCodec π) : Prop where
  nodup : ∀ payload, ((codec.asdict payload).map Prod.fst).Nodup
  ascii : ∀ payload, ∀ field ∈ codec.asdict payload,
    field.1.all CodePoint.isAscii = true
  construct : ∀ payload (encode : FieldValue → Json) entries,
    entries.Perm ((codec.asdict payload).map fun field =>
      (field.1, encode field.2)) →
      codec.construct entries = some (encode <$> payload)
  exp_map : ∀ payload (encode : FieldValue → Json),
    codec.exp (encode <$> payload) = encode (codec.exp payload)
  map_eq_iff : ∀ payload (first second : FieldValue → Json),
    first <$> payload = second <$> payload ↔
      ∀ field ∈ codec.asdict payload, first field.2 = second field.2

section State

variable {json : JsonRules} {mac : List UInt8 → List UInt8 → List UInt8}
  {π : Type → Type} [Functor π] {codec : StateCodec π}

omit [Functor π] in
theorem decodeState_signed (key : List UInt8) {raw data : List UInt8} {now : Int}
    {entries : List (Text × Json)} {payload : π Json}
    (hdata : encodeAscii (base64Encode raw) = some data)
    (hloads : json.loads raw = some (.object entries))
    (hconstruct : codec.construct entries = some payload)
    (hlive : (codec.exp payload).before now = some false) :
    decodeState json mac codec key now
      (base64Encode raw ++ text "." ++ base64Encode (mac key data)) =
        .ok payload := by
  rw [decodeState, splitFirstDot_append (dot_notMem_base64 raw)]
  simp only [splitState, hdata, base64Decode_encode, ne_eq, not_true_eq_false,
    if_false, statePayload, Option.bind_some, hloads, hconstruct, hlive]

theorem stateRoundTrips_iff (hjson : json.Inverse) (hcodec : codec.Lawful)
    {key : List UInt8} {now exp : Int} {payload : π FieldValue}
    (hexp : codec.exp payload = .int exp) (hlive : now ≤ exp) :
    StateRoundTrips json mac codec key now payload ↔
      ∀ field ∈ codec.asdict payload,
        field.2.Printable ∧ field.2.Unpaired := by
  by_cases hprintable : ∀ field ∈ codec.asdict payload, field.2.Printable
  · obtain ⟨raw, entries, hdumps, -, hloads, hentries⟩ :=
      hjson.inverse _ (hcodec.nodup payload) (hcodec.ascii payload) hprintable
    obtain ⟨data, hdata⟩ := encodeAscii_base64 raw
    have hencode : encodeState json mac codec key payload =
        some (base64Encode raw ++ text "." ++
          base64Encode (mac key data)) := by
      rw [encodeState, hdumps]
      simp [sign_base64 mac hdata key]
    have hread : codec.construct entries =
        some ((fun value : FieldValue => value.joined.toJson) <$> payload) :=
      hcodec.construct payload (fun value => value.joined.toJson) entries
        hentries
    have hbefore : (codec.exp ((fun value : FieldValue =>
        value.joined.toJson) <$> payload)).before now =
          some false := by
      rw [hcodec.exp_map, hexp]
      exact congrArg some (decide_eq_false (not_lt.mpr hlive))
    have hdecode : decodeState json mac codec key now (base64Encode raw ++
        text "." ++ base64Encode (mac key data)) = _ :=
      decodeState_signed key hdata hloads hread hbefore
    have hsame : StateRoundTrips json mac codec key now payload ↔
        (fun value : FieldValue => value.joined.toJson) <$> payload =
          FieldValue.toJson <$> payload := by
      constructor
      · rintro ⟨token, htoken, hok⟩
        rw [hencode] at htoken
        rw [← Option.some.inj htoken, hdecode] at hok
        exact Except.ok.inj hok
      · intro hsame
        exact ⟨_, hencode, hdecode.trans (congrArg Except.ok hsame)⟩
    rw [hsame, hcodec.map_eq_iff]
    simp only [joined_eq_iff]
    constructor
    · exact fun hunpaired field hfield =>
        ⟨hprintable field hfield, hunpaired field hfield⟩
    · exact fun hboth field hfield => (hboth field hfield).2
  · refine iff_of_false ?_
      fun hboth => hprintable fun field hfield => (hboth field hfield).1
    rintro ⟨token, htoken, -⟩
    rw [encodeState, hjson.long _ hprintable] at htoken
    cases htoken

end State

theorem stateCodec_keys (payload : StatePayload FieldValue) :
    (stateCodec.asdict payload).map Prod.fst = stateNames := rfl

theorem stateCodec_nodup (payload : StatePayload FieldValue) :
    ((stateCodec.asdict payload).map Prod.fst).Nodup := by
  rw [stateCodec_keys]
  decide

theorem stateCodec_lawful : stateCodec.Lawful where
  nodup := stateCodec_nodup
  ascii payload := by
    simp only [stateCodec, List.forall_mem_cons]
    decide
  construct payload encode entries hentries := by
    have hknown := all_keys_perm hentries (stateCodec_keys payload)
    have hfield : ∀ name value, (text name, value) ∈ stateCodec.asdict payload →
        fieldOf entries name = some (encode value) :=
      fun name value => fieldOf_perm hentries (stateCodec_nodup payload)
    have huser := hfield "user_id" payload.userId (by simp [stateCodec])
    have haccount := hfield "account_id" payload.accountId
      (by simp [stateCodec])
    have hnonce := hfield "nonce" payload.nonce (by simp [stateCodec])
    have hexp := hfield "exp" payload.exp (by simp [stateCodec])
    simp only [stateCodec]
    rw [if_pos hknown]
    simp only [huser, haccount, hnonce, hexp]
    rfl
  exp_map payload encode := rfl
  map_eq_iff payload first second := by
    simp [stateCodec, Functor.map]

theorem consentCodec_keys (payload : ConsentPayload FieldValue) :
    (consentCodec.asdict payload).map Prod.fst = consentNames := rfl

theorem consentCodec_nodup (payload : ConsentPayload FieldValue) :
    ((consentCodec.asdict payload).map Prod.fst).Nodup := by
  rw [consentCodec_keys]
  decide

theorem consentCodec_lawful : consentCodec.Lawful where
  nodup := consentCodec_nodup
  ascii payload := by
    simp only [consentCodec, List.forall_mem_cons]
    decide
  construct payload encode entries hentries := by
    have hknown := all_keys_perm hentries (consentCodec_keys payload)
    have hfield : ∀ name value,
        (text name, value) ∈ consentCodec.asdict payload →
          fieldOf entries name = some (encode value) :=
      fun name value => fieldOf_perm hentries (consentCodec_nodup payload)
    have hclient := hfield "client_id" payload.clientId (by simp [consentCodec])
    have huri := hfield "redirect_uri" payload.redirectUri
      (by simp [consentCodec])
    have hexplicit := hfield "redirect_uri_provided_explicitly"
      payload.redirectUriProvidedExplicitly (by simp [consentCodec])
    have hchallenge := hfield "code_challenge" payload.codeChallenge
      (by simp [consentCodec])
    have hscopes := hfield "scopes" payload.scopes (by simp [consentCodec])
    have hstate := hfield "state" payload.state (by simp [consentCodec])
    have hexp := hfield "exp" payload.exp (by simp [consentCodec])
    have hresource := hfield "resource" payload.resource
      (by simp [consentCodec])
    simp only [consentCodec]
    rw [if_pos hknown]
    simp only [hclient, huri, hexplicit, hchallenge, hscopes, hstate, hexp,
      hresource]
    rfl
  exp_map payload encode := rfl
  map_eq_iff payload first second := by
    simp [consentCodec, Functor.map]

/-! ### The three codecs -/

section Codecs

variable (json : JsonRules) (mac : List UInt8 → List UInt8 → List UInt8)

/-- The session tokens: which are read back, which are taken and which fail with
a declared error. -/
structure SessionLaws : Prop where
  roundTrips : ∀ key now payload, now < payload.exp →
    (SessionRoundTrips json mac key now payload ↔
      16 ≤ key.length ∧ payload.Printable)
  sound : ∀ key now token payload,
    decodeSessionToken json mac key now token = .ok payload →
      SessionSigned mac key token ∧ now < payload.exp
  closed : ∀ key now token,
    FailsClosed (decodeSessionToken json mac key now token) ↔
      SessionReadable json mac key token

/-- The same of the states of a dataclass. -/
structure StateLaws {π : Type → Type} [Functor π] (codec : StateCodec π) :
    Prop where
  roundTrips : ∀ key now payload exp, codec.exp payload = .int exp → now ≤ exp →
    (StateRoundTrips json mac codec key now payload ↔
      ∀ field ∈ codec.asdict payload, field.2.Printable ∧ field.2.Unpaired)
  sound : ∀ key now token payload,
    decodeState json mac codec key now token = .ok payload →
      StateSigned mac key token ∧
        (codec.exp payload).before now = some false
  closed : ∀ key now token,
    FailsClosed (decodeState json mac codec key now token) ↔
      StateReadable json mac codec key token

variable {json mac}

theorem StateCodec.Lawful.laws {π : Type → Type} [Functor π]
    {codec : StateCodec π} (hcodec : codec.Lawful) (hjson : json.Inverse) :
    StateLaws json mac codec where
  roundTrips _ _ _ _ hexp hlive := stateRoundTrips_iff hjson hcodec hexp hlive
  sound _ _ _ _ hok := decodeState_sound hok
  closed key now token := decodeState_failsClosed_iff json mac codec key now token

/-- What is written is read back just when `str` takes its numbers and JSON keeps
its texts; what is taken is signed and live; and another string fails with a
declared error just when what is not guarded does not raise. -/
theorem signed_tokens_iff (hjson : json.Inverse)
    (hmac : ∀ key data, (mac key data).length = 32) :
    SessionLaws json mac ∧ StateLaws json mac stateCodec ∧
      StateLaws json mac consentCodec := by
  refine ⟨⟨?_, ?_, ?_⟩, stateCodec_lawful.laws hjson,
    consentCodec_lawful.laws hjson⟩
  · exact fun key now payload hlive => sessionRoundTrips_iff hjson hmac hlive
  · exact fun key now token payload hok => decodeSessionToken_sound hok
  · exact decodeSessionToken_failsClosed_iff json mac

end Codecs

namespace TokenWitness

instance countableChar : Countable Char := by
  apply Function.Injective.countable (f := Char.toNat)
  exact fun first second hsame => Char.toNat_inj.mp hsame

deriving instance Countable for CodePoint
deriving instance Countable for FieldValue

def payload : SessionPayload := ⟨1, 0, 9⟩

/-- The JSON of the payload. -/
def payloadJson : List UInt8 :=
  ("\x7b\"exp\":9,\"issued_at\":0,\"user_id\":1,\"v\":1\x7d".toList).map
    fun char => UInt8.ofNat char.toNat

/-- The HMAC of the payload's token under a key of sixteen zeros. -/
def payloadMac : List UInt8 → List UInt8 → List UInt8 := fun _ _ =>
  [235, 139, 113, 106, 80, 28, 208, 197, 2, 40, 248, 113, 254, 215, 40, 207,
    40, 74, 50, 222, 87, 94, 220, 120, 68, 35, 175, 178, 93, 208, 200, 126]

noncomputable def code : List (Text × FieldValue) → Nat :=
  (Countable.exists_injective_nat _).choose

theorem code_injective : Function.Injective code :=
  (Countable.exists_injective_nat _).choose_spec

def readBack (fields : List (Text × FieldValue)) : Json :=
  .object (fields.map fun field => (field.1, field.2.joined.toJson)).reverse

open Classical in
/-- As the standard library for the payload; any other object as a run of
blanks. -/
noncomputable def dumps (fields : List (Text × FieldValue)) :
    Option (List UInt8) :=
  if ∀ field ∈ fields, field.2.Printable then
    if fields = payload.fields then some payloadJson
    else some (List.replicate (code fields + 1) 32)
  else none

open Classical in
noncomputable def loads (data : List UInt8) : Option Json :=
  if data = payloadJson then some (readBack payload.fields)
  else if hcode : ∃ fields, data = List.replicate (code fields + 1) 32 then
    some (readBack hcode.choose)
  else none

noncomputable def jsonRules : JsonRules := ⟨dumps, loads⟩

theorem loads_payload : loads payloadJson = some (readBack payload.fields) := by
  rw [loads, if_pos rfl]

theorem loads_code (fields : List (Text × FieldValue)) :
    loads (List.replicate (code fields + 1) 32) = some (readBack fields) := by
  have hblank : List.replicate (code fields + 1) 32 ≠ payloadJson := by
    intro hsame
    have hbyte : (123 : UInt8) ∈ List.replicate (code fields + 1) 32 := by
      rw [hsame]
      decide
    cases List.eq_of_mem_replicate hbyte
  have hcode : ∃ other : List (Text × FieldValue),
      List.replicate (code fields + 1) (32 : UInt8) =
        List.replicate (code other + 1) 32 := ⟨fields, rfl⟩
  have hchoose : hcode.choose = fields := by
    have hlength := congrArg List.length hcode.choose_spec
    rw [List.length_replicate, List.length_replicate] at hlength
    exact (code_injective (Nat.succ.inj hlength)).symm
  rw [loads, if_neg hblank, dif_pos hcode, hchoose]

theorem jsonRules_inverse : jsonRules.Inverse where
  inverse := by
    intro fields hnodup hascii hprintable
    have hread : ((fields.map fun field =>
        (field.1, field.2.joined.toJson)).reverse).Perm _ := List.reverse_perm _
    by_cases hpayload : fields = payload.fields
    · refine ⟨payloadJson, _, ?_, by decide, ?_, hread⟩
      · exact (if_pos hprintable).trans (if_pos hpayload)
      · rw [hpayload]
        exact loads_payload
    · refine ⟨List.replicate (code fields + 1) 32, _, ?_, ?_, ?_, hread⟩
      · exact (if_pos hprintable).trans (if_neg hpayload)
      · exact List.cons_ne_nil _ _
      · exact loads_code fields
  long := by
    intro fields hlong
    exact if_neg hlong

end TokenWitness

open TokenWitness in
/-- An accented letter before the dot is met by no declared error. -/
theorem accented_token_raises :
    ¬FailsClosed (decodeSessionToken jsonRules payloadMac
        (List.replicate 16 0) 5 (text "é.x")) ∧
      ¬FailsClosed (decodeState jsonRules payloadMac stateCodec
        (List.replicate 16 0) 5 (text "é.x")) ∧
      ¬FailsClosed (decodeState jsonRules payloadMac consentCodec
        (List.replicate 16 0) 5 (text "é.x")) := by
  refine ⟨?_, ?_, ?_⟩
  · exact not_failsClosed_other
  · exact not_failsClosed_other
  · exact not_failsClosed_other

open TokenWitness in
theorem signed_tokens_iff_payload :
    SessionRoundTrips jsonRules payloadMac (List.replicate 16 0) 5 payload := by
  have hlaws := (signed_tokens_iff jsonRules_inverse
    (fun key data => (rfl : (payloadMac key data).length = 32))).1
  refine (hlaws.roundTrips _ _ _ (by decide)).mpr ⟨by decide, ?_⟩
  simp only [SessionPayload.Printable, List.forall_mem_cons]
  refine ⟨?_, ?_, ?_, nofun⟩
  · exact (by decide : (decimal 1).length ≤ intMaxStrDigits)
  · exact (by decide : (decimal 0).length ≤ intMaxStrDigits)
  · exact (by decide : (decimal 9).length ≤ intMaxStrDigits)

end Localmail
