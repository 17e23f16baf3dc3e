/-
The cursors of `/v1/search` and `/v1/messages`: what is minted is read back as
the same cursor and as no other kind, and what a client may send is answered or
refused, as long as the numbers in it have no more digits than `int` takes.
-/
import Localmail.Base64
import Localmail.Calendar
import Localmail.FilterTokens
import Localmail.IntText
import Localmail.StripText

namespace Localmail

/-! ### Encoding -/

/-- The seconds of the calendar before 1 January 1970. -/
def unixEpoch : Int := 62135596800

/-- A datetime with an offset from UTC, both in microseconds; its local time is
one of the calendar. -/
structure AwareDatetime where
  instant : Int
  offset : Int
  inCalendar : InCalendar ((instant + offset) / 1000000 + unixEpoch)
  offsetRange : -86400000000 < offset ∧ offset < 86400000000
deriving Repr, DecidableEq

/-- `datetime.isoformat` and `datetime.fromisoformat`. -/
structure IsoRules where
  isoformat : AwareDatetime → Text
  fromIsoformat : Text → Option Int

/-- `fromisoformat` reads what `isoformat` writes, which is ASCII and has no
bar. -/
structure IsoRules.Inverse (rules : IsoRules) : Prop where
  inverse : ∀ ts, rules.fromIsoformat (rules.isoformat ts) = some ts.instant
  ascii : ∀ ts, (rules.isoformat ts).all CodePoint.isAscii = true
  noBar : ∀ ts, .scalar '|' ∉ rules.isoformat ts

def IsoRules.cursorRules (rules : IsoRules) : CursorRules where
  urlsafeB64Decode := fun raw => (base64Decode raw).bind decodeAscii
  fromIsoformat := rules.fromIsoformat

/-- `f"{value}"`; `none` is the `ValueError` of too many digits. -/
def formatInt (value : Nat) : Option Text :=
  if (decimal value).length ≤ intMaxStrDigits then some (decimal value)
  else none

def encodeBrowseCursor (rules : IsoRules) (ts : Option AwareDatetime)
    (id : Nat) : Option Text := do
  let shown ← formatInt id
  let payload ← encodeAscii
    (match ts with
    | none => text "n|" ++ shown
    | some ts => text "d|" ++ rules.isoformat ts ++ text "|" ++ shown)
  some (base64Encode payload)

/-- A `KeysetCursor` with the datetime it carries. -/
structure KeysetPosition where
  ts : Option AwareDatetime
  id : Nat
  order : SortOrder
  walk : WalkKind
deriving Repr, DecidableEq

def KeysetPosition.cursor (position : KeysetPosition) : KeysetCursor where
  ts := position.ts.map AwareDatetime.instant
  id := position.id
  order := position.order
  walk := position.walk

def encodeKeysetCursor (rules : IsoRules) (position : KeysetPosition) :
    Option Text := do
  let payload ← encodeBrowseCursor rules position.ts position.id
  let entry ← keysetPrefixes.find? fun entry =>
    entry.2.1 = position.order ∧ entry.2.2 = position.walk
  some (entry.1 ++ payload)

def encodeSearchCursor (cursor : SearchCursor) : Option Text :=
  (formatInt cursor.page).map fun page => cursor.token ++ text ":" ++ page

/-! ### What the codecs promise -/

def hexDigits : Text := text "0123456789abcdefABCDEF"

def HexToken (token : Text) : Prop :=
  token ≠ [] ∧ ∀ char ∈ token, char ∈ hexDigits

def KeysetRoundTrips (rules : IsoRules) (position : KeysetPosition) : Prop :=
  ∃ raw, encodeKeysetCursor rules position = some raw ∧
    decodeKeysetCursor rules.cursorRules raw = some (.ok position.cursor)

def PoolRoundTrips (cursor : SearchCursor) : Prop :=
  ∃ raw, encodeSearchCursor cursor = some raw ∧
    decodeSearchCursor raw = .ok cursor

/-- A result, or a refusal of the request. -/
def Handled {α : Type} (result : Except ApiError α) : Prop :=
  ∀ error, result = .error error →
    ∃ refusal, error = .validationFailed refusal

/-- The digits that `int` reads of a browse cursor. -/
def idDigits (rules : CursorRules) (raw : Text) : Option Text :=
  if raw = [] then none
  else
    (rules.urlsafeB64Decode raw).bind fun body =>
      match body.splitOn (.scalar '|') with
      | [kind, id] =>
          if kind = text "n" ∧ IsDigits id then some id else none
      | [kind, stamp, id] =>
          if kind = text "d" ∧ (rules.fromIsoformat stamp).isSome ∧
              IsDigits id then some id
          else none
      | _ => none

/-- The digits that `int` reads of a pool cursor. -/
def pageDigits (raw : Text) : Option Text :=
  (rpartitionColon raw).bind fun parts =>
    if parts.1 ≠ [] ∧ IsDigits parts.2 then some parts.2 else none

/-- The digits that `int` reads of a search cursor. -/
def cursorDigits (rules : CursorRules) (raw : Text) : Option Text :=
  match keysetPrefixes.find? fun entry => entry.1.isPrefixOf raw with
  | some entry => idDigits rules (raw.drop entry.1.length)
  | none => pageDigits raw

/-- `int` takes them. -/
def DigitsFit (digits : Option Text) : Prop :=
  ∀ value ∈ digits, value.length ≤ intMaxStrDigits

/-! ### What a client may send -/

section Handled

variable {α β : Type}

theorem handled_ok (value : α) : Handled (.ok value) := nofun

theorem handled_refuse (refusal : Refusal) :
    Handled (refuse refusal : Except ApiError α) := by
  intro error herror
  exact ⟨refusal, (Except.error.inj herror).symm⟩

theorem handled_refuseIf (refusal : Option Refusal) :
    Handled (refuseIf refusal) := by
  cases refusal with
  | none => exact handled_ok ()
  | some refusal => exact handled_refuse refusal

theorem handled_error_iff (error : ApiError) :
    Handled (.error error : Except ApiError α) ↔
      ∃ refusal, error = .validationFailed refusal := by
  constructor
  · exact fun hhandled => hhandled error rfl
  · intro hrefusal other hother
    rw [← Except.error.inj hother]
    exact hrefusal

/-- What comes after a step that is handled decides nothing. -/
theorem handled_bind_iff {step : Except ApiError α}
    {next : α → Except ApiError β} (hnext : ∀ value, Handled (next value)) :
    Handled (step >>= next) ↔ Handled step := by
  cases step with
  | ok value => exact iff_of_true (hnext value) (handled_ok value)
  | error error =>
      rw [handled_error_iff]
      exact handled_error_iff error

theorem Handled.bind {step : Except ApiError α}
    {next : α → Except ApiError β} (hstep : Handled step)
    (hnext : ∀ value, Handled (next value)) : Handled (step >>= next) :=
  (handled_bind_iff hnext).mpr hstep

end Handled

theorem digitsFit_none : DigitsFit none := nofun

theorem digitsFit_some {digits : Text} :
    DigitsFit (some digits) ↔ digits.length ≤ intMaxStrDigits := by
  simp [DigitsFit]

theorem not_digits_iff {digits : Text} :
    (digits = [] ∨ ¬digits.all CodePoint.isAsciiDigit) ↔ ¬IsDigits digits := by
  rw [IsDigits, not_and_or, List.all_eq_true, not_ne_iff]

/-- `int` raises something else just for too many digits. -/
theorem intOrRaise_handled_iff (raw digits : Text) :
    Handled (intOrRaise raw digits) ↔
      DigitsFit (if IsDigits digits then some digits else none) := by
  rw [intOrRaise]
  by_cases hdigits : IsDigits digits
  · rw [if_neg (mt not_digits_iff.mp (not_not_intro hdigits)), if_pos hdigits,
      digitsFit_some]
    by_cases hlength : digits.length ≤ intMaxStrDigits
    · rw [parseDigits_of_isDigits hdigits hlength]
      exact iff_of_true (handled_ok _) hlength
    · rw [parseDigits_eq_none_of_long (Nat.lt_of_not_le hlength)]
      refine iff_of_false ?_ hlength
      intro hhandled
      obtain ⟨refusal, herror⟩ := hhandled _ rfl
      cases herror
  · rw [if_pos (not_digits_iff.mpr hdigits), if_neg hdigits]
    exact iff_of_true (handled_refuse _) digitsFit_none

theorem decodeBrowseCursor_handled_iff (rules : CursorRules) (raw : Text) :
    Handled (decodeBrowseCursor rules raw) ↔
      DigitsFit (idDigits rules raw) := by
  have hrefused : ∀ refusal, Handled (refuse refusal : Except ApiError Position) ↔
      DigitsFit none := fun refusal =>
    iff_of_true (handled_refuse refusal) digitsFit_none
  rw [decodeBrowseCursor, idDigits]
  by_cases hraw : raw = []
  · rw [if_pos hraw, if_pos hraw]
    exact hrefused _
  · rw [if_neg hraw, if_neg hraw]
    cases rules.urlsafeB64Decode raw with
    | none => exact hrefused _
    | some body =>
        simp only [Option.bind_some]
        generalize body.splitOn (.scalar '|') = parts
        rcases parts with _ | ⟨kind, _ | ⟨second, _ | ⟨third, _ | ⟨_, _⟩⟩⟩⟩
        · exact hrefused _
        · exact hrefused _
        · by_cases hkind : kind = text "n"
          · simp only [hkind, ↓reduceIte, true_and]
            rw [handled_bind_iff fun _ => handled_ok _]
            exact intOrRaise_handled_iff raw second
          · simp only [hkind, ↓reduceIte, false_and]
            exact hrefused _
        · by_cases hkind : kind = text "d"
          · cases hstamp : rules.fromIsoformat second with
            | none =>
                simp only [hkind, hstamp, ↓reduceIte, Option.isSome_none,
                  Bool.false_eq_true, false_and, and_false]
                exact hrefused _
            | some ts =>
                simp only [hkind, hstamp, ↓reduceIte, Option.isSome_some,
                  true_and]
                rw [handled_bind_iff fun _ => handled_ok _]
                exact intOrRaise_handled_iff raw third
          · simp only [hkind, ↓reduceIte, false_and]
            exact hrefused _
        · exact hrefused _

theorem decodeSearchCursor_handled_iff (raw : Text) :
    Handled (decodeSearchCursor raw) ↔ DigitsFit (pageDigits raw) := by
  rw [decodeSearchCursor, pageDigits]
  cases rpartitionColon raw with
  | none => exact iff_of_true (handled_refuse _) digitsFit_none
  | some parts =>
      obtain ⟨token, digits⟩ := parts
      by_cases htoken : token = []
      · simp only [htoken, ↓reduceIte, Option.bind_some, ne_eq,
          not_true_eq_false, false_and]
        exact iff_of_true (handled_refuse _) digitsFit_none
      · simp only [htoken, ↓reduceIte, Option.bind_some, ne_eq,
          not_false_eq_true, true_and]
        rw [handled_bind_iff]
        · exact intOrRaise_handled_iff raw digits
        · intro page
          split
          · exact handled_refuse _
          · exact handled_ok _

theorem resolveCursorPlan_handled_iff (rules : CursorRules)
    (cursor : Option Text) (requestedSort : Option SortMode)
    (requestedOrder : Option SortOrder) (freeText : Text) :
    Handled (resolveCursorPlan rules cursor requestedSort requestedOrder
        freeText) ↔
      ∀ raw ∈ cursor, DigitsFit (cursorDigits rules raw) := by
  cases cursor with
  | none =>
      refine iff_of_true ?_ nofun
      exact (handled_refuseIf _).bind fun _ =>
        (handled_refuseIf _).bind fun _ => handled_ok _
  | some raw =>
      simp only [Option.mem_def, Option.some.injEq, forall_eq', resolveCursorPlan,
        decodeKeysetCursor, cursorDigits]
      cases keysetPrefixes.find? fun entry => entry.1.isPrefixOf raw with
      | none =>
          simp only [Option.map_none]
          rw [handled_bind_iff]
          · exact decodeSearchCursor_handled_iff raw
          · intro pool
            exact (handled_refuseIf _).bind fun _ => handled_ok _
      | some entry =>
          simp only [Option.map_some]
          rw [handled_bind_iff, handled_bind_iff fun _ => handled_ok _]
          · exact decodeBrowseCursor_handled_iff rules _
          · intro keyset
            exact (handled_refuseIf _).bind fun _ =>
              (handled_refuseIf _).bind fun _ =>
                (handled_refuseIf _).bind fun _ => handled_ok _

/-! ### Reading back what was minted -/

theorem decimal_noChar {char : CodePoint} (hchar : char.isAsciiDigit = false)
    (value : Nat) : char ∉ decimal value := by
  intro hmem
  rw [isAsciiDigit_of_mem_decimal char hmem] at hchar
  cases hchar

theorem decimal_ascii (value : Nat) :
    (decimal value).all CodePoint.isAscii = true :=
  List.all_eq_true.mpr fun char hchar =>
    isAscii_of_isAsciiDigit (isAsciiDigit_of_mem_decimal char hchar)

theorem intOrRaise_decimal {value : Nat}
    (hlength : (decimal value).length ≤ intMaxStrDigits) (raw : Text) :
    intOrRaise raw (decimal value) = .ok value := by
  have hdigits : IsDigits (decimal value) :=
    ⟨decimal_ne_nil value, isAsciiDigit_of_mem_decimal⟩
  rw [intOrRaise, if_neg (mt not_digits_iff.mp (not_not_intro hdigits)),
    parseDigits_decimal hlength]

section Browse

variable {rules : IsoRules} (hrules : rules.Inverse)

include hrules

/-- A position is read back from its base64. -/
theorem decodeBrowseCursor_encode (ts : Option AwareDatetime) {id : Nat}
    (hlength : (decimal id).length ≤ intMaxStrDigits) :
    ∃ data, encodeBrowseCursor rules ts id = some (base64Encode data) ∧
      decodeBrowseCursor rules.cursorRules (base64Encode data) =
        .ok ⟨ts.map AwareDatetime.instant, id⟩ := by
  have hshown : formatInt id = some (decimal id) := if_pos hlength
  have hbar : CodePoint.scalar '|' ∉ decimal id := decimal_noChar rfl id
  let payload := match ts with
    | none => text "n|" ++ decimal id
    | some ts => text "d|" ++ rules.isoformat ts ++ text "|" ++ decimal id
  have hascii : payload.all CodePoint.isAscii = true := by
    cases ts with
    | none => simp only [payload, List.all_append, decimal_ascii]; rfl
    | some ts =>
        simp only [payload, List.all_append, decimal_ascii, hrules.ascii]
        rfl
  obtain ⟨data, hencode, hdecode⟩ := decodeAscii_encodeAscii hascii
  refine ⟨data, ?_, ?_⟩
  · simp only [encodeBrowseCursor, hshown, Option.bind_eq_bind,
      Option.bind_some]
    exact Option.bind_eq_some_iff.mpr ⟨data, hencode, rfl⟩
  · have hne : base64Encode data ≠ [] := by
      rw [Ne, base64Encode_eq_nil_iff]
      rintro rfl
      have hnil : payload = [] := (Option.some.inj hdecode).symm
      cases ts <;> simp [payload, text] at hnil
    have hbody : rules.cursorRules.urlsafeB64Decode (base64Encode data) =
        some payload := by
      simp [IsoRules.cursorRules, base64Decode_encode, hdecode]
    rw [decodeBrowseCursor, if_neg hne, hbody]
    cases ts with
    | none =>
        have hsplit : payload.splitOn (.scalar '|') = [text "n", decimal id] := by
          have hpayload : payload = text "n" ++ .scalar '|' :: decimal id := rfl
          rw [hpayload, List.splitOn_append_cons_self,
            List.splitOn_eq_singleton hbar]
          rfl
        simp only [hsplit, ↓reduceIte, intOrRaise_decimal hlength]
        rfl
    | some ts =>
        have hsplit : payload.splitOn (.scalar '|') =
            [text "d", rules.isoformat ts, decimal id] := by
          have hpayload : payload = text "d" ++ .scalar '|' ::
              (rules.isoformat ts ++ .scalar '|' :: decimal id) := by
            simp [payload, text]
          rw [hpayload, List.splitOn_append_cons_self,
            List.splitOn_append_cons_self, List.splitOn_eq_singleton hbar,
            List.splitOn_eq_singleton (hrules.noBar ts)]
          rfl
        have hstamp : rules.cursorRules.fromIsoformat (rules.isoformat ts) =
            some ts.instant := hrules.inverse ts
        simp only [hsplit, ↓reduceIte, hstamp, intOrRaise_decimal hlength]
        rfl

end Browse

theorem encodeBrowseCursor_long (rules : IsoRules) (ts : Option AwareDatetime)
    {id : Nat} (hlength : ¬(decimal id).length ≤ intMaxStrDigits) :
    encodeBrowseCursor rules ts id = none := by
  simp [encodeBrowseCursor, formatInt, hlength]

/-- The prefix of an order and a walk, and that no other is read in its
place. -/
theorem keysetPrefix_spec (order : SortOrder) (walk : WalkKind) :
    ∃ front, keysetPrefixes.find? (fun entry =>
        entry.2.1 = order ∧ entry.2.2 = walk) = some (front, order, walk) ∧
      .scalar ':' ∉ front ∧
      ∀ payload, keysetPrefixes.find? (fun entry =>
        entry.1.isPrefixOf (front ++ payload)) = some (front, order, walk) := by
  match order, walk with
  | .asc, .text => exact ⟨text "KAT|", by decide, by decide, fun _ => rfl⟩
  | .asc, .archive => exact ⟨text "KA|", by decide, by decide, fun _ => rfl⟩
  | .desc, .text => exact ⟨text "KT|", by decide, by decide, fun _ => rfl⟩
  | .desc, .archive => exact ⟨text "K|", by decide, by decide, fun _ => rfl⟩

theorem encodeKeysetCursor_eq (rules : IsoRules) (position : KeysetPosition) :
    ∃ front, .scalar ':' ∉ front ∧
      encodeKeysetCursor rules position =
        (encodeBrowseCursor rules position.ts position.id).map (front ++ ·) ∧
      ∀ payload, decodeKeysetCursor rules.cursorRules (front ++ payload) =
        some (do
          let decoded ← decodeBrowseCursor rules.cursorRules payload
          .ok ⟨decoded.ts, decoded.id, position.order, position.walk⟩) := by
  obtain ⟨front, hmint, hcolon, hread⟩ :=
    keysetPrefix_spec position.order position.walk
  refine ⟨front, hcolon, ?_, ?_⟩
  · rw [encodeKeysetCursor]
    cases encodeBrowseCursor rules position.ts position.id with
    | none => rfl
    | some payload =>
        simp only [Option.bind_eq_bind, Option.bind_some, hmint, Option.map_some]
  · intro payload
    rw [decodeKeysetCursor, hread]
    simp

theorem rpartitionColon_append (left : Text) {right : Text}
    (hright : .scalar ':' ∉ right) :
    rpartitionColon (left ++ .scalar ':' :: right) = some (left, right) := by
  have hkeeps := decide_ne_of_notMem fun hmem =>
    hright (List.mem_reverse.mp hmem)
  have hreverse : (left ++ .scalar ':' :: right).reverse =
      right.reverse ++ .scalar ':' :: left.reverse := by simp
  rw [rpartitionColon, if_pos (by simp), hreverse,
    takeWhile_of_stop hkeeps (by decide),
    List.dropWhile_append_of_pos hkeeps, List.reverse_reverse]
  simp

theorem text_colon_append (left right : Text) :
    left ++ text ":" ++ right = left ++ .scalar ':' :: right := by
  simp [text]

theorem decodeSearchCursor_encode {cursor : SearchCursor}
    (htoken : cursor.token ≠ []) (hpage : 1 ≤ cursor.page)
    (hlength : (decimal cursor.page).length ≤ intMaxStrDigits) :
    decodeSearchCursor (cursor.token ++ text ":" ++ decimal cursor.page) =
      .ok cursor := by
  rw [text_colon_append, decodeSearchCursor,
    rpartitionColon_append _ (decimal_noChar rfl _)]
  simp only [htoken, ↓reduceIte, intOrRaise_decimal hlength]
  have hlt : ¬cursor.page < 1 := by omega
  simp only [bind, Except.bind, hlt, ↓reduceIte]

/-- A token of hexadecimal digits begins no keyset cursor. -/
theorem decodeKeysetCursor_hexToken (rules : CursorRules) {token : Text}
    (htoken : HexToken token) (rest : Text) :
    decodeKeysetCursor rules (token ++ rest) = none := by
  obtain ⟨hne, hhex⟩ := htoken
  cases token with
  | nil => exact absurd rfl hne
  | cons first token =>
      have hfirst : first ≠ .scalar 'K' := by
        rintro rfl
        exact absurd (hhex _ List.mem_cons_self) (by decide)
      simp [decodeKeysetCursor, keysetPrefixes, text, Ne.symm hfirst]

/-- The number of a pool cursor is the one `int` reads. -/
theorem cursorDigits_hexToken (rules : CursorRules) {token digits : Text}
    (htoken : HexToken token) (hdigits : IsDigits digits) :
    cursorDigits rules (token ++ text ":" ++ digits) = some digits := by
  have hcolon : CodePoint.scalar ':' ∉ digits := fun hmem =>
    absurd (hdigits.2 _ hmem) (by decide)
  have hpool := decodeKeysetCursor_hexToken rules htoken (text ":" ++ digits)
  rw [decodeKeysetCursor, Option.map_eq_none_iff, ← List.append_assoc] at hpool
  rw [cursorDigits, hpool, pageDigits, text_colon_append,
    rpartitionColon_append _ hcolon]
  exact if_pos ⟨htoken.1, hdigits⟩

theorem keysetRoundTrips_iff {rules : IsoRules} (hrules : rules.Inverse)
    (position : KeysetPosition) :
    KeysetRoundTrips rules position ↔
      (decimal position.id).length ≤ intMaxStrDigits := by
  obtain ⟨front, -, hencode, hdecode⟩ := encodeKeysetCursor_eq rules position
  constructor
  · rintro ⟨raw, hraw, -⟩
    by_contra hlength
    rw [hencode, encodeBrowseCursor_long rules position.ts hlength] at hraw
    cases hraw
  · intro hlength
    obtain ⟨data, hmint, hread⟩ :=
      decodeBrowseCursor_encode hrules position.ts hlength
    refine ⟨front ++ base64Encode data, by rw [hencode, hmint]; rfl, ?_⟩
    rw [hdecode, hread]
    rfl

theorem poolRoundTrips_iff {cursor : SearchCursor}
    (htoken : HexToken cursor.token) (hpage : 1 ≤ cursor.page) :
    PoolRoundTrips cursor ↔
      (decimal cursor.page).length ≤ intMaxStrDigits := by
  constructor
  · rintro ⟨raw, hraw, -⟩
    by_contra hlength
    simp [encodeSearchCursor, formatInt, hlength] at hraw
  · intro hlength
    refine ⟨cursor.token ++ text ":" ++ decimal cursor.page, ?_,
      decodeSearchCursor_encode htoken.1 hpage hlength⟩
    simp [encodeSearchCursor, formatInt, hlength]

/-- A minted keyset cursor has no colon. -/
theorem decodeSearchCursor_keyset {rules : IsoRules}
    {position : KeysetPosition} {raw : Text}
    (hraw : encodeKeysetCursor rules position = some raw) :
    (decodeKeysetCursor rules.cursorRules raw).isSome ∧
      ∃ refusal, decodeSearchCursor raw = refuse refusal := by
  obtain ⟨front, hcolon, hencode, hdecode⟩ :=
    encodeKeysetCursor_eq rules position
  rw [hencode, Option.map_eq_some_iff] at hraw
  obtain ⟨payload, hpayload, rfl⟩ := hraw
  refine ⟨by rw [hdecode]; rfl, .cursorMalformed (front ++ payload), ?_⟩
  have hbase : .scalar ':' ∉ payload := by
    simp only [encodeBrowseCursor, Option.bind_eq_bind,
      Option.bind_eq_some_iff, Option.some.injEq] at hpayload
    obtain ⟨-, -, data, -, rfl⟩ := hpayload
    intro hmem
    exact absurd (mem_base64Encode data hmem) (by decide)
  rw [decodeSearchCursor, rpartitionColon, if_neg]
  rw [List.mem_append]
  exact not_or.mpr ⟨hcolon, hbase⟩

/-- The codecs are lossless and total as long as a number has no more digits
than `int` and `str` take, and a cursor of one kind is never read as another. -/
theorem cursor_codecs_iff (rules : IsoRules) (hrules : rules.Inverse) :
    (∀ position, KeysetRoundTrips rules position ↔
      (decimal position.id).length ≤ intMaxStrDigits) ∧
    (∀ cursor : SearchCursor, HexToken cursor.token → 1 ≤ cursor.page →
      (PoolRoundTrips cursor ↔
        (decimal cursor.page).length ≤ intMaxStrDigits)) ∧
    (∀ (cursor : SearchCursor) raw, HexToken cursor.token →
      encodeSearchCursor cursor = some raw →
        decodeKeysetCursor rules.cursorRules raw = none) ∧
    (∀ position raw, encodeKeysetCursor rules position = some raw →
      (decodeKeysetCursor rules.cursorRules raw).isSome ∧
        ∃ refusal, decodeSearchCursor raw = refuse refusal) ∧
    (∀ raw, Handled (decodeBrowseCursor rules.cursorRules raw) ↔
      DigitsFit (idDigits rules.cursorRules raw)) ∧
    ∀ cursor requestedSort requestedOrder freeText,
      Handled (resolveCursorPlan rules.cursorRules cursor requestedSort
          requestedOrder freeText) ↔
        ∀ raw ∈ cursor, DigitsFit (cursorDigits rules.cursorRules raw) := by
  refine ⟨keysetRoundTrips_iff hrules, fun _ => poolRoundTrips_iff, ?_,
    fun _ _ => decodeSearchCursor_keyset,
    decodeBrowseCursor_handled_iff _, resolveCursorPlan_handled_iff _⟩
  intro cursor raw htoken hraw
  rw [encodeSearchCursor, Option.map_eq_some_iff] at hraw
  obtain ⟨page, -, rfl⟩ := hraw
  rw [List.append_assoc]
  exact decodeKeysetCursor_hexToken _ htoken _

namespace CursorWitness

/-- Noon of a day in 2026, in UTC. -/
def noon : AwareDatetime :=
  ⟨1785067200000000, 0, by decide, by decide⟩

def noonText : Text := text "2026-07-26T12:00:00+00:00"

/-- As the standard library for `noon`; any other time as a run of marks. -/
def isoRules : IsoRules where
  isoformat := fun ts =>
    if ts = noon then noonText
    else
      match ts.instant with
      | .ofNat count => List.replicate count (.scalar 'T')
      | .negSucc count => .scalar '-' :: List.replicate count (.scalar 'T')
  fromIsoformat := fun value =>
    if value = noonText then some noon.instant
    else
      match value with
      | .scalar '-' :: marks => some (.negSucc marks.length)
      | marks => some (.ofNat marks.length)

theorem isoRules_inverse : isoRules.Inverse where
  inverse := by
    intro ts
    by_cases hnoon : ts = noon
    · subst hnoon
      decide
    · simp only [isoRules, hnoon, ↓reduceIte]
      obtain ⟨instant, offset, -, -⟩ := ts
      cases instant with
      | ofNat count =>
          cases count with
          | zero => rfl
          | succ count => simp [List.replicate_succ, noonText, text]
      | negSucc count => simp [noonText, text]
  ascii := by
    intro ts
    rw [List.all_eq_true]
    intro char hchar
    simp only [isoRules] at hchar
    split at hchar
    · revert char
      decide
    · split at hchar
      · rw [List.eq_of_mem_replicate hchar]
        rfl
      · obtain rfl | hmark := List.mem_cons.mp hchar
        · rfl
        · rw [List.eq_of_mem_replicate hmark]
          rfl
  noBar := by
    intro ts hchar
    simp only [isoRules] at hchar
    split at hchar
    · revert hchar
      decide
    · split at hchar
      · cases List.eq_of_mem_replicate hchar
      · obtain hsame | hmark := List.mem_cons.mp hchar
        · cases hsame
        · cases List.eq_of_mem_replicate hmark

end CursorWitness

open CursorWitness in
/-- A page number of 4301 digits is neither answered nor refused. -/
theorem long_page_raises :
    ¬Handled (resolveCursorPlan isoRules.cursorRules
      (some (text "a" ++ text ":" ++ List.replicate 4301 (.scalar '1'))) none
      none (text "rent")) := by
  have hlength : (List.replicate 4301 (CodePoint.scalar '1')).length = 4301 :=
    List.length_replicate
  generalize hone : List.replicate 4301 (CodePoint.scalar '1') = digits
    at hlength
  have hdigits : IsDigits digits := by
    refine ⟨List.ne_nil_of_length_eq_add_one hlength, ?_⟩
    intro char hchar
    rw [← hone] at hchar
    rw [List.eq_of_mem_replicate hchar]
    rfl
  rw [resolveCursorPlan_handled_iff]
  intro hfit
  have hbound := hfit _ rfl digits
    (cursorDigits_hexToken _ ⟨by decide, by decide⟩ hdigits)
  rw [hlength] at hbound
  exact absurd hbound (by decide)

open CursorWitness in
theorem cursor_codecs_iff_noon :
    KeysetRoundTrips isoRules ⟨some noon, 7, .asc, .text⟩ ∧
      PoolRoundTrips ⟨text "0f3a", 2⟩ ∧
      decodeKeysetCursor isoRules.cursorRules (text "0f3a:2") = none := by
  obtain ⟨hkeyset, hpool, hdisjoint, -⟩ :=
    cursor_codecs_iff isoRules isoRules_inverse
  have htoken : HexToken (text "0f3a") := ⟨by decide, by decide⟩
  refine ⟨(hkeyset _).mpr (by decide), (hpool _ htoken (by decide)).mpr
    (by decide), hdisjoint ⟨text "0f3a", 2⟩ _ htoken (by decide)⟩

end Localmail
