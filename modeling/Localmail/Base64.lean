/-
The URL-safe base64 of a byte string without padding, and the decoder that
reads it back: it skips what is no base64 character and stops at a padding that
completes a group.
-/
import Localmail.AsciiText

namespace Localmail

def base64Alphabet : Text :=
  text "ABCDEFGHIJKLMNOPQRSTUVWXYZabcdefghijklmnopqrstuvwxyz0123456789-_"

/-- The character of six bits. -/
def base64Char (value : Nat) : CodePoint :=
  base64Alphabet.getD value (.scalar 'A')

/-- `urlsafe_b64encode(data).rstrip(b"=")`. -/
def base64Encode : List UInt8 → Text
  | [] => []
  | [first] =>
      [base64Char (first.toNat / 4), base64Char (first.toNat % 4 * 16)]
  | [first, second] =>
      [base64Char (first.toNat / 4),
        base64Char (first.toNat % 4 * 16 + second.toNat / 16),
        base64Char (second.toNat % 16 * 4)]
  | first :: second :: third :: rest =>
      base64Char (first.toNat / 4) ::
        base64Char (first.toNat % 4 * 16 + second.toNat / 16) ::
        base64Char (second.toNat % 16 * 4 + third.toNat / 64) ::
        base64Char (third.toNat % 64) :: base64Encode rest

/-- The six bits of a character.  `+` and `/` are read as well. -/
def sextet (char : CodePoint) : Option Nat :=
  if char = .scalar '+' then some 62
  else if char = .scalar '/' then some 63
  else base64Alphabet.idxOf? char

/-- `binascii.a2b_base64`, not strict.  Of the group of four being read
`position` characters came before, `left` holds their bits not yet written, and
`pads` the `=` since the last character. -/
def base64DecodeFrom (position left pads : Nat) : Text → Option (List UInt8)
  | [] => if position = 0 then some [] else none
  | char :: rest =>
      if char = .scalar '=' then
        if 2 ≤ position then
          if 4 ≤ position + (pads + 1) then some []
          else base64DecodeFrom position left (pads + 1) rest
        else base64DecodeFrom position left pads rest
      else
        match sextet char with
        | none => base64DecodeFrom position left pads rest
        | some value =>
            match position with
            | 0 => base64DecodeFrom 1 value 0 rest
            | 1 =>
                (base64DecodeFrom 2 (value % 16) 0 rest).map
                  (UInt8.ofNat (left * 4 + value / 16) :: ·)
            | 2 =>
                (base64DecodeFrom 3 (value % 4) 0 rest).map
                  (UInt8.ofNat (left * 16 + value / 4) :: ·)
            | _ =>
                (base64DecodeFrom 0 0 0 rest).map
                  (UInt8.ofNat (left * 64 + value) :: ·)

/-- `"=" * (-len(raw) % 4)`. -/
def base64Padding (raw : Text) : Text :=
  List.replicate ((4 - raw.length % 4) % 4) (.scalar '=')

/-- `urlsafe_b64decode` of a text with its padding restored; `none` is the
`ValueError` of a text outside ASCII or of a group that is not complete. -/
def base64Decode (raw : Text) : Option (List UInt8) :=
  if raw.all CodePoint.isAscii then
    base64DecodeFrom 0 0 0 (raw ++ base64Padding raw)
  else none

/-! ### Reading back what was written -/

theorem base64Char_facts {value : Nat} (hvalue : value < 64) :
    sextet (base64Char value) = some value ∧
      base64Char value ≠ .scalar '=' ∧ base64Char value ∈ base64Alphabet := by
  have hall : ∀ value : Fin 64, sextet (base64Char value) = some value.val ∧
      base64Char value ≠ .scalar '=' ∧ base64Char value ∈ base64Alphabet := by
    decide +kernel
  exact hall ⟨value, hvalue⟩

/-! One character of a group. -/

section Character

variable {value : Nat} (hvalue : value < 64) (left pads : Nat) (rest : Text)

include hvalue

theorem base64DecodeFrom_first :
    base64DecodeFrom 0 left pads (base64Char value :: rest) =
      base64DecodeFrom 1 value 0 rest := by
  obtain ⟨hsextet, hpad, -⟩ := base64Char_facts hvalue
  rw [base64DecodeFrom, if_neg hpad, hsextet]
  rfl

theorem base64DecodeFrom_second :
    base64DecodeFrom 1 left pads (base64Char value :: rest) =
      (base64DecodeFrom 2 (value % 16) 0 rest).map
        (UInt8.ofNat (left * 4 + value / 16) :: ·) := by
  obtain ⟨hsextet, hpad, -⟩ := base64Char_facts hvalue
  rw [base64DecodeFrom, if_neg hpad, hsextet]
  rfl

theorem base64DecodeFrom_third :
    base64DecodeFrom 2 left pads (base64Char value :: rest) =
      (base64DecodeFrom 3 (value % 4) 0 rest).map
        (UInt8.ofNat (left * 16 + value / 4) :: ·) := by
  obtain ⟨hsextet, hpad, -⟩ := base64Char_facts hvalue
  rw [base64DecodeFrom, if_neg hpad, hsextet]
  rfl

theorem base64DecodeFrom_fourth :
    base64DecodeFrom 3 left pads (base64Char value :: rest) =
      (base64DecodeFrom 0 0 0 rest).map
        (UInt8.ofNat (left * 64 + value) :: ·) := by
  obtain ⟨hsextet, hpad, -⟩ := base64Char_facts hvalue
  rw [base64DecodeFrom, if_neg hpad, hsextet]
  rfl

end Character

theorem ofNat_eq_of_toNat (byte : UInt8) {value : Nat}
    (hvalue : value = byte.toNat) : UInt8.ofNat value = byte := by
  rw [hvalue, UInt8.ofNat_toNat]

/-- The two bytes that the first three characters of a group hold. -/
theorem base64DecodeFrom_pair (first second : UInt8) (low : Nat)
    (hlow : low < 4) (rest : Text) :
    base64DecodeFrom 0 0 0
        (base64Char (first.toNat / 4) ::
          base64Char (first.toNat % 4 * 16 + second.toNat / 16) ::
          base64Char (second.toNat % 16 * 4 + low) :: rest) =
      (base64DecodeFrom 3 low 0 rest).map (first :: second :: ·) := by
  have hfirst := first.toNat_lt
  have hsecond := second.toNat_lt
  have hleft : (second.toNat % 16 * 4 + low) % 4 = low := by omega
  rw [base64DecodeFrom_first (by omega), base64DecodeFrom_second (by omega),
    base64DecodeFrom_third (by omega), hleft,
    ofNat_eq_of_toNat first (by omega), ofNat_eq_of_toNat second (by omega),
    Option.map_map]
  rfl

/-- What is written is read back. -/
theorem base64DecodeFrom_encode (data : List UInt8) :
    base64DecodeFrom 0 0 0 (base64Encode data ++
      base64Padding (base64Encode data)) = some data := by
  induction data using base64Encode.induct with
  | case1 => rfl
  | case2 first =>
      have hfirst := first.toNat_lt
      have hpadding : base64Padding (base64Encode [first]) =
          [.scalar '=', .scalar '='] := rfl
      rw [hpadding, base64Encode, List.cons_append, List.cons_append,
        base64DecodeFrom_first (by omega), base64DecodeFrom_second (by omega),
        ofNat_eq_of_toNat first (by omega)]
      rfl
  | case3 first second =>
      have hpadding : base64Padding (base64Encode [first, second]) =
          [.scalar '='] := rfl
      have hpair := base64DecodeFrom_pair first second 0 (by decide)
        [.scalar '=']
      rw [hpadding, base64Encode, List.cons_append, List.cons_append,
        List.cons_append, ← Nat.add_zero (second.toNat % 16 * 4)]
      exact hpair
  | case4 first second third rest ih =>
      have hthird := third.toNat_lt
      have hpadding : base64Padding (base64Encode (first :: second :: third ::
          rest)) = base64Padding (base64Encode rest) := by
        simp only [base64Padding, base64Encode, List.length_cons]
        congr 1
        omega
      rw [hpadding, base64Encode]
      simp only [List.cons_append]
      rw [base64DecodeFrom_pair first second _ (by omega),
        base64DecodeFrom_fourth (by omega), ih,
        ofNat_eq_of_toNat third (by omega)]
      rfl

theorem base64Char_mem (value : Nat) : base64Char value ∈ base64Alphabet := by
  rw [base64Char, List.getD_eq_getElem?_getD]
  cases hchar : base64Alphabet[value]? with
  | none => decide
  | some char => exact List.mem_of_getElem? hchar

theorem mem_base64Encode {char : CodePoint} (data : List UInt8)
    (hchar : char ∈ base64Encode data) : char ∈ base64Alphabet := by
  induction data using base64Encode.induct with
  | case1 => cases hchar
  | case2 first =>
      simp only [base64Encode, List.mem_cons, List.not_mem_nil,
        or_false] at hchar
      rcases hchar with rfl | rfl <;> apply base64Char_mem
  | case3 first second =>
      simp only [base64Encode, List.mem_cons, List.not_mem_nil,
        or_false] at hchar
      rcases hchar with rfl | rfl | rfl <;> apply base64Char_mem
  | case4 first second third rest ih =>
      simp only [base64Encode, List.mem_cons] at hchar
      rcases hchar with rfl | rfl | rfl | rfl | hrest
      · apply base64Char_mem
      · apply base64Char_mem
      · apply base64Char_mem
      · apply base64Char_mem
      · exact ih hrest

theorem base64Encode_ascii (data : List UInt8) :
    (base64Encode data).all CodePoint.isAscii = true := by
  have hascii : ∀ char ∈ base64Alphabet, char.isAscii = true := by decide
  rw [List.all_eq_true]
  intro char hchar
  exact hascii char (mem_base64Encode data hchar)

theorem base64Decode_encode (data : List UInt8) :
    base64Decode (base64Encode data) = some data := by
  rw [base64Decode, if_pos (base64Encode_ascii data)]
  exact base64DecodeFrom_encode data

theorem base64Encode_eq_nil_iff {data : List UInt8} :
    base64Encode data = [] ↔ data = [] := by
  cases data using base64Encode.induct with
  | case1 => simp [base64Encode]
  | case2 first => simp [base64Encode]
  | case3 first second => simp [base64Encode]
  | case4 first second third rest ih => simp [base64Encode]

end Localmail
