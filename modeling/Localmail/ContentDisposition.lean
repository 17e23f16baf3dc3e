/-
The `Content-Disposition` of a download: the name in a quoted string, with
whatever could end or escape the string replaced, and the name again as
percent-encoded UTF-8.  A client that reads both gets the replacement from the
one and the name from the other, whatever the name is.
-/
import Localmail.AsciiText
import Localmail.MailTexts
import Localmail.StripText

namespace Localmail

namespace Download

/-! ### The header -/

def percent : CodePoint := .scalar '%'

def doubleQuote : CodePoint := .scalar '"'

def backslash : CodePoint := .scalar '\\'

def byteChar (byte : UInt8) : CodePoint :=
  .scalar (Char.ofNat byte.toNat)

def upperHexDigit (nibble : Nat) : CodePoint :=
  (text "0123456789ABCDEF").getD nibble (.scalar '0')

/-- The bytes that `urllib.parse.quote` never quotes. -/
def isAlwaysSafe (byte : UInt8) : Bool :=
  byteChar byte ∈ text ("ABCDEFGHIJKLMNOPQRSTUVWXYZabcdefghijklmnopqrstuvwxyz" ++
    "0123456789_.-~")

def quoteByte (byte : UInt8) : Text :=
  if isAlwaysSafe byte then [byteChar byte]
  else [percent, upperHexDigit (byte.toNat / 16),
    upperHexDigit (byte.toNat % 16)]

def quoteBytes (bytes : Bytes) : Text := bytes.flatMap quoteByte

/-- One code point under `encode("utf-8")`. -/
def CodePoint.encodeStrict : CodePoint → Option Bytes
  | .scalar char => some (String.utf8EncodeChar char)
  | .surrogate _ => none

/-- `encode("utf-8")`, which a lone surrogate fails. -/
def encodeUtf8 (value : Text) : Option Bytes :=
  (value.mapM CodePoint.encodeStrict).map List.flatten

/-- `quote(name, safe="")`. -/
def quote (name : Text) : Option Text :=
  (encodeUtf8 name).map quoteBytes

def quotedStringUnsafe : Text := text "\"\\\r\n;,"

def isPrintableAscii : CodePoint → Bool
  | .scalar char => 32 ≤ char.toNat && char.toNat ≤ 126
  | .surrogate _ => false

def asciiFallbackChar (char : CodePoint) : CodePoint :=
  if isPrintableAscii char = false ∨ char ∈ quotedStringUnsafe then .scalar '_'
  else char

def asciiFallbackName (name : Text) : Text :=
  let sanitised := strip (name.map asciiFallbackChar)
  if sanitised = [] then text "attachment" else sanitised

def contentDisposition (name : Text) : Option Text :=
  (quote name).map fun encoded =>
    text "attachment; filename=\"" ++ asciiFallbackName name ++
      text "\"; filename*=UTF-8''" ++ encoded

/-! ### What a client reads in it -/

/-- The text behind a beginning. -/
def after? (beginning value : Text) : Option Text :=
  if beginning.isPrefixOf value then some (value.drop beginning.length)
  else none

/-- A quoted string from behind its first quote, and what follows it.  A
backslash takes the next character as it is. -/
def readQuoted : Text → Option (Text × Text)
  | [] => none
  | char :: rest =>
      if char = doubleQuote then some ([], rest)
      else if char = backslash then
        match rest with
        | [] => none
        | escaped :: more =>
            (readQuoted more).map fun read => (escaped :: read.1, read.2)
      else (readQuoted rest).map fun read => (char :: read.1, read.2)

def upperHexValue (char : CodePoint) : Option Nat :=
  (text "0123456789ABCDEF").idxOf? char

/-- A byte that stands for itself. -/
def plainByte : CodePoint → Option UInt8
  | .scalar char =>
      if char.toNat < 128 then some (UInt8.ofNat char.toNat) else none
  | .surrogate _ => none

def unquoteBytes : Text → Option Bytes
  | [] => some []
  | char :: rest =>
      if char = percent then
        match rest with
        | high :: low :: more =>
            (upperHexValue high).bind fun high =>
              (upperHexValue low).bind fun low =>
                (unquoteBytes more).map (UInt8.ofNat (16 * high + low) :: ·)
        | _ => none
      else
        (plainByte char).bind fun byte => (unquoteBytes rest).map (byte :: ·)

def decodeUtf8 (bytes : Bytes) : Option Text :=
  bytes.toByteArray.utf8Decode?.map fun chars => chars.toList.map .scalar

/-- Both forms of the name. -/
def readDisposition (value : Text) : Option (Text × Text) := do
  let quoted ← after? (text "attachment; filename=\"") value
  let (legacy, rest) ← readQuoted quoted
  let encoded ← after? (text "; filename*=UTF-8''") rest
  let name ← (unquoteBytes encoded).bind decodeUtf8
  return (legacy, name)

/-! ### Percent encoding -/

/-- What is true of every byte by its number. -/
theorem byte_cases {holds : UInt8 → Prop}
    (hall : ∀ number : Fin 256, holds (UInt8.ofNat number)) (byte : UInt8) :
    holds byte := by
  have hbyte := hall ⟨byte.toNat, byte.toNat_lt⟩
  rwa [UInt8.ofNat_toNat] at hbyte

theorem plainByte_of_safe (byte : UInt8) : isAlwaysSafe byte = true →
    plainByte (byteChar byte) = some byte ∧ byteChar byte ≠ percent := by
  refine @byte_cases (fun byte => isAlwaysSafe byte = true →
    plainByte (byteChar byte) = some byte ∧ byteChar byte ≠ percent) ?_ byte
  decide +kernel

theorem upperHexValue_digits (byte : UInt8) :
    upperHexValue (upperHexDigit (byte.toNat / 16)) = some (byte.toNat / 16) ∧
      upperHexValue (upperHexDigit (byte.toNat % 16)) =
        some (byte.toNat % 16) := by
  refine @byte_cases (fun byte =>
    upperHexValue (upperHexDigit (byte.toNat / 16)) = some (byte.toNat / 16) ∧
      upperHexValue (upperHexDigit (byte.toNat % 16)) =
        some (byte.toNat % 16)) ?_ byte
  decide +kernel

theorem isPrintableAscii_of_mem_quoteByte (byte : UInt8) :
    ∀ char ∈ quoteByte byte, isPrintableAscii char = true := by
  refine @byte_cases (fun byte =>
    ∀ char ∈ quoteByte byte, isPrintableAscii char = true) ?_ byte
  decide +kernel

theorem unquoteBytes_quoteByte (byte : UInt8) (rest : Text) :
    unquoteBytes (quoteByte byte ++ rest) =
      (unquoteBytes rest).map (byte :: ·) := by
  unfold quoteByte
  split
  · rename_i hsafe
    obtain ⟨hplain, hpercent⟩ := plainByte_of_safe byte hsafe
    rw [List.cons_append, List.nil_append, unquoteBytes.eq_def]
    simp only [if_neg hpercent, hplain, Option.bind_some]
  · obtain ⟨hhigh, hlow⟩ := upperHexValue_digits byte
    have hbyte : UInt8.ofNat (16 * (byte.toNat / 16) + byte.toNat % 16) =
        byte := by
      rw [Nat.div_add_mod, UInt8.ofNat_toNat]
    simp only [List.cons_append, List.nil_append, unquoteBytes, ↓reduceIte,
      hhigh, hlow, Option.bind_some, hbyte]

theorem unquoteBytes_quoteBytes (bytes : Bytes) :
    unquoteBytes (quoteBytes bytes) = some bytes := by
  induction bytes with
  | nil => rfl
  | cons byte rest ih =>
      rw [quoteBytes, List.flatMap_cons, ← quoteBytes, unquoteBytes_quoteByte, ih]
      rfl

/-! ### UTF-8 -/

/-- A text without lone surrogates, by its characters. -/
theorem encodable_iff_chars {value : Text} :
    Encodable value ↔ ∃ chars : List Char, value = chars.map .scalar := by
  constructor
  · intro hvalue
    induction value with
    | nil => exact ⟨[], rfl⟩
    | cons char rest ih =>
        obtain ⟨chars, rfl⟩ := ih fun offset hmem =>
          hvalue offset (List.mem_cons_of_mem char hmem)
        cases char with
        | surrogate offset => exact absurd List.mem_cons_self (hvalue offset)
        | scalar char => exact ⟨char :: chars, rfl⟩
  · rintro ⟨chars, rfl⟩ offset hmem
    obtain ⟨char, -, hchar⟩ := List.mem_map.mp hmem
    cases hchar

theorem encodeUtf8_chars (chars : List Char) :
    encodeUtf8 (chars.map .scalar) =
      some (chars.flatMap String.utf8EncodeChar) := by
  have hall : (chars.map CodePoint.scalar).mapM CodePoint.encodeStrict =
      some (chars.map String.utf8EncodeChar) := by
    induction chars with
    | nil => rfl
    | cons char rest ih =>
        rw [List.map_cons, List.mapM_cons, ih]
        rfl
  rw [encodeUtf8, hall]
  rfl

theorem decodeUtf8_chars (chars : List Char) :
    decodeUtf8 (chars.flatMap String.utf8EncodeChar) =
      some (chars.map .scalar) := by
  have hdecode : (chars.flatMap String.utf8EncodeChar).toByteArray.utf8Decode? =
      some chars.toArray :=
    List.utf8Decode?_utf8Encode
  rw [decodeUtf8, hdecode]
  rfl

theorem encodeUtf8_surrogate {value : Text} {offset : Fin 2048}
    (hmem : CodePoint.surrogate offset ∈ value) : encodeUtf8 value = none := by
  have hnone : value.mapM CodePoint.encodeStrict = none := by
    induction value with
    | nil => cases hmem
    | cons char rest ih =>
        rw [List.mapM_cons]
        rcases List.mem_cons.mp hmem with rfl | hmem
        · rfl
        · rw [ih hmem]
          cases char <;> rfl
  rw [encodeUtf8, hnone]
  rfl

theorem encodeUtf8_isSome_iff (value : Text) :
    (encodeUtf8 value).isSome = true ↔ Encodable value := by
  constructor
  · intro hsome offset hmem
    rw [encodeUtf8_surrogate hmem] at hsome
    cases hsome
  · intro hvalue
    obtain ⟨chars, rfl⟩ := encodable_iff_chars.mp hvalue
    rw [encodeUtf8_chars]
    rfl

/-! ### The name in the quoted string -/

theorem printable_fallbackChar (char : CodePoint) :
    isPrintableAscii (asciiFallbackChar char) = true ∧
      asciiFallbackChar char ∉ quotedStringUnsafe := by
  unfold asciiFallbackChar
  split
  · exact ⟨by decide, by decide⟩
  · rename_i hplain
    rw [not_or, Bool.not_eq_false] at hplain
    exact hplain

theorem printable_fallbackName (name : Text) :
    ∀ char ∈ asciiFallbackName name,
      isPrintableAscii char = true ∧ char ∉ quotedStringUnsafe := by
  unfold asciiFallbackName
  dsimp only
  split
  · decide
  · intro char hmem
    have hinside : char ∈ name.map asciiFallbackChar := by
      rw [strip] at hmem
      exact (List.dropWhile_sublist _).mem (List.mem_reverse.mp
        ((List.dropWhile_sublist _).mem (List.mem_reverse.mp hmem)))
    obtain ⟨original, -, rfl⟩ := List.mem_map.mp hinside
    exact printable_fallbackChar original

/-- A quoted string without quotes and backslashes ends where it is closed. -/
theorem readQuoted_append {inside : Text} (rest : Text)
    (hinside : ∀ char ∈ inside, char ∉ quotedStringUnsafe) :
    readQuoted (inside ++ doubleQuote :: rest) = some (inside, rest) := by
  induction inside with
  | nil =>
      rw [List.nil_append, readQuoted.eq_def]
      rfl
  | cons char more ih =>
      have hchar := hinside char List.mem_cons_self
      have hquote : char ≠ doubleQuote := by
        rintro rfl
        exact hchar (by decide)
      have hescape : char ≠ backslash := by
        rintro rfl
        exact hchar (by decide)
      rw [List.cons_append, readQuoted.eq_def]
      simp only [if_neg hquote, if_neg hescape,
        ih fun other hother => hinside other (List.mem_cons_of_mem char hother),
        Option.map_some]

theorem after?_append (beginning rest : Text) :
    after? beginning (beginning ++ rest) = some rest := by
  rw [after?, if_pos (List.isPrefixOf_iff_prefix.mpr
    (List.prefix_append beginning rest)), List.drop_left]

/-- The header can be made of every name UTF-8 has bytes for and of no other.
It is printable ASCII, and its quoted string ends where it was meant to: a
client reads the name with what is unsafe replaced in one form, and the name
itself in the other. -/
theorem contentDisposition_round_trip (name : Text) :
    ((contentDisposition name).isSome = true ↔ Encodable name) ∧
      ∀ value ∈ contentDisposition name,
        (∀ char ∈ value, isPrintableAscii char = true) ∧
        readDisposition value = some (asciiFallbackName name, name) := by
  refine ⟨?_, ?_⟩
  · rw [contentDisposition, quote, Option.isSome_map, Option.isSome_map,
      encodeUtf8_isSome_iff]
  · intro value hvalue
    obtain ⟨encoded, hquote, rfl⟩ := Option.map_eq_some_iff.mp hvalue
    obtain ⟨bytes, hbytes, rfl⟩ := Option.map_eq_some_iff.mp hquote
    have hencodable := (encodeUtf8_isSome_iff name).mp (by rw [hbytes]; rfl)
    obtain ⟨chars, rfl⟩ := encodable_iff_chars.mp hencodable
    obtain rfl := Option.some.inj ((encodeUtf8_chars chars).symm.trans hbytes)
    have hfallback := printable_fallbackName (chars.map .scalar)
    have hfront : ∀ char ∈ text "attachment; filename=\"",
        isPrintableAscii char = true := by decide
    have hmiddle : ∀ char ∈ text "\"; filename*=UTF-8''",
        isPrintableAscii char = true := by decide
    refine ⟨?_, ?_⟩
    · intro char hmem
      rcases List.mem_append.mp hmem with hmem | hmem
      · rcases List.mem_append.mp hmem with hmem | hmem
        · rcases List.mem_append.mp hmem with hmem | hmem
          · exact hfront char hmem
          · exact (hfallback char hmem).1
        · exact hmiddle char hmem
      · obtain ⟨byte, -, hbyte⟩ := List.mem_flatMap.mp hmem
        exact isPrintableAscii_of_mem_quoteByte byte char hbyte
    · have hquoted : readQuoted (asciiFallbackName (chars.map .scalar) ++
          (text "\"; filename*=UTF-8''" ++
            quoteBytes (chars.flatMap String.utf8EncodeChar))) =
          some (asciiFallbackName (chars.map .scalar),
            text "; filename*=UTF-8''" ++
              quoteBytes (chars.flatMap String.utf8EncodeChar)) :=
        readQuoted_append _ fun char hmem => (hfallback char hmem).2
      rw [readDisposition, List.append_assoc, List.append_assoc, after?_append]
      simp only [Option.bind_eq_bind, Option.bind_some, hquoted, after?_append,
        unquoteBytes_quoteBytes, decodeUtf8_chars]
      rfl

end Download

end Localmail
