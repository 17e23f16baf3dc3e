/-
ASCII: its letters by their number, the lower case of a text that folds them
alone, and the bytes of a text.
-/
import Localmail.QueryParse

namespace Localmail

theorem isUpper_iff (char : Char) :
    char.isUpper = true ↔ 65 ≤ char.toNat ∧ char.toNat ≤ 90 := by
  delta Char.isUpper
  simp [UInt32.le_iff_toNat_le, ← Char.toNat_val]

theorem isLower_iff (char : Char) :
    char.isLower = true ↔ 97 ≤ char.toNat ∧ char.toNat ≤ 122 := by
  delta Char.isLower
  simp [UInt32.le_iff_toNat_le, ← Char.toNat_val]

theorem isAlpha_iff (char : Char) :
    char.isAlpha = true ↔ 65 ≤ char.toNat ∧ char.toNat ≤ 90 ∨
      97 ≤ char.toNat ∧ char.toNat ≤ 122 := by
  delta Char.isAlpha
  rw [Bool.or_eq_true, isUpper_iff, isLower_iff]

theorem isAlphanum_iff (char : Char) :
    char.isAlphanum = true ↔ 65 ≤ char.toNat ∧ char.toNat ≤ 90 ∨
      97 ≤ char.toNat ∧ char.toNat ≤ 122 ∨
      48 ≤ char.toNat ∧ char.toNat ≤ 57 := by
  rw [Char.isAlphanum, Bool.or_eq_true, isAlpha_iff, or_assoc,
    Char.isDigit_iff_toNat]
  rfl

theorem toNat_toLower (char : Char) :
    char.toLower.toNat =
      if 65 ≤ char.toNat ∧ char.toNat ≤ 90 then char.toNat + 32
      else char.toNat := by
  have hupper : char.val ≥ 'A'.val ∧ char.val ≤ 'Z'.val ↔
      65 ≤ char.toNat ∧ char.toNat ≤ 90 := by
    simp [UInt32.le_iff_toNat_le, ← Char.toNat_val]
  unfold Char.toLower
  split
  · rename_i hletter
    rw [hupper] at hletter
    rw [if_pos hletter]
    have hbound : char.val.toNat ≤ 90 := hletter.2
    have hshift : ('a'.val - 'A'.val).toNat = 32 := rfl
    simp only [← Char.toNat_val, UInt32.toNat_add, hshift]
    omega
  · rename_i hletter
    rw [hupper] at hletter
    rw [if_neg hletter]

theorem isAlpha_toLower (char : Char) : char.toLower.isAlpha = char.isAlpha := by
  rw [Bool.eq_iff_iff, isAlpha_iff, isAlpha_iff, toNat_toLower]
  split <;> omega

theorem isAlphanum_toLower (char : Char) :
    char.toLower.isAlphanum = char.isAlphanum := by
  rw [Bool.eq_iff_iff, isAlphanum_iff, isAlphanum_iff, toNat_toLower]
  split <;> omega

/-- Only the letters have two cases. -/
theorem toLower_eq_iff (wanted : Char) (hwanted : wanted.isAlpha = false)
    (char : Char) : char.toLower = wanted ↔ char = wanted := by
  have hnumber := isAlpha_iff wanted
  rw [hwanted] at hnumber
  rw [← Char.toNat_inj, ← Char.toNat_inj, toNat_toLower]
  split <;> grind

theorem lowerAscii_eq_iff (wanted : Char) (hwanted : wanted.isAlpha = false)
    (char : CodePoint) :
    char.lowerAscii = .scalar wanted ↔ char = .scalar wanted := by
  cases char with
  | surrogate offset => exact iff_of_false nofun nofun
  | scalar char =>
      rw [CodePoint.lowerAscii, CodePoint.scalar.injEq, CodePoint.scalar.injEq]
      exact toLower_eq_iff wanted hwanted char

theorem lowerAscii_lowerAscii (char : CodePoint) :
    char.lowerAscii.lowerAscii = char.lowerAscii := by
  cases char with
  | surrogate offset => rfl
  | scalar char =>
      rw [CodePoint.lowerAscii, CodePoint.lowerAscii, CodePoint.scalar.injEq,
        ← Char.toNat_inj, toNat_toLower, toNat_toLower]
      grind

theorem lowerAscii_of_not_letter {char : Char} (hletter : char.isAlpha = false) :
    (CodePoint.scalar char).lowerAscii = .scalar char := by
  have hnumber := isAlpha_iff char
  rw [hletter] at hnumber
  rw [CodePoint.lowerAscii, CodePoint.scalar.injEq, ← Char.toNat_inj,
    toNat_toLower]
  grind

/-! ### Bytes -/

def CodePoint.isAscii : CodePoint → Bool
  | .surrogate _ => false
  | .scalar char => char.toNat < 128

theorem isAscii_of_isAsciiDigit {char : CodePoint}
    (hdigit : char.isAsciiDigit = true) : char.isAscii = true := by
  obtain ⟨digit, rfl, -, hhigh⟩ := scalar_of_isAsciiDigit hdigit
  exact decide_eq_true (by omega)

/-- `str.encode("ascii")`. -/
def encodeAscii (value : Text) : Option (List UInt8) :=
  value.mapM fun char =>
    match char with
    | .scalar char =>
        if char.toNat < 128 then some (UInt8.ofNat char.toNat) else none
    | .surrogate _ => none

/-- `bytes.decode("ascii")`. -/
def decodeAscii (data : List UInt8) : Option Text :=
  data.mapM fun byte =>
    if byte.toNat < 128 then some (.scalar (Char.ofNat byte.toNat)) else none

theorem decodeAscii_encodeAscii {value : Text}
    (hascii : value.all CodePoint.isAscii = true) :
    ∃ data, encodeAscii value = some data ∧ decodeAscii data = some value := by
  induction value with
  | nil => exact ⟨[], rfl, rfl⟩
  | cons char rest ih =>
      rw [List.all_cons, Bool.and_eq_true] at hascii
      obtain ⟨data, hencode, hdecode⟩ := ih hascii.2
      cases char with
      | surrogate offset => cases hascii.1
      | scalar char =>
          have hchar : char.toNat < 128 := of_decide_eq_true hascii.1
          have hbyte : (UInt8.ofNat char.toNat).toNat = char.toNat := by
            rw [UInt8.toNat_ofNat']
            omega
          refine ⟨UInt8.ofNat char.toNat :: data, ?_, ?_⟩
          · rw [encodeAscii] at hencode ⊢
            simp [List.mapM_cons, hchar, hencode]
          · rw [decodeAscii] at hdecode ⊢
            simp [List.mapM_cons, hchar, hbyte, hdecode]

theorem encodeAscii_isSome_iff (value : Text) :
    (encodeAscii value).isSome ↔ value.all CodePoint.isAscii = true := by
  constructor
  · intro hencode
    induction value with
    | nil => rfl
    | cons char rest ih =>
        obtain ⟨data, hdata⟩ := Option.isSome_iff_exists.mp hencode
        rw [encodeAscii, List.mapM_cons] at hdata
        obtain ⟨byte, hbyte, hrest⟩ := Option.bind_eq_some_iff.mp hdata
        obtain ⟨others, hothers, -⟩ := Option.bind_eq_some_iff.mp hrest
        rw [List.all_cons, Bool.and_eq_true]
        refine ⟨?_, ih (Option.isSome_iff_exists.mpr ⟨others, hothers⟩)⟩
        cases char with
        | surrogate offset => cases hbyte
        | scalar char =>
            apply decide_eq_true
            by_contra hchar
            dsimp only at hbyte
            rw [if_neg hchar] at hbyte
            cases hbyte
  · intro hascii
    obtain ⟨data, hdata, -⟩ := decodeAscii_encodeAscii hascii
    rw [hdata]
    rfl

end Localmail
