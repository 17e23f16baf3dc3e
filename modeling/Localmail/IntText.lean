/-
`int` of a text, which also takes a sign, underscores between digits and the
decimal digits of every script.
-/
import Localmail.StripText

namespace Localmail

/-- The code point of zero in every script that has decimal digits; the others
follow it. -/
def decimalZeros : List Nat :=
  [0x30, 0x660, 0x6F0, 0x7C0, 0x966, 0x9E6, 0xA66, 0xAE6, 0xB66, 0xBE6, 0xC66,
    0xCE6, 0xD66, 0xDE6, 0xE50, 0xED0, 0xF20, 0x1040, 0x1090, 0x17E0, 0x1810,
    0x1946, 0x19D0, 0x1A80, 0x1A90, 0x1B50, 0x1BB0, 0x1C40, 0x1C50, 0xA620,
    0xA8D0, 0xA900, 0xA9D0, 0xA9F0, 0xAA50, 0xABF0, 0xFF10, 0x104A0, 0x10D30,
    0x11066, 0x110F0, 0x11136, 0x111D0, 0x112F0, 0x11450, 0x114D0, 0x11650,
    0x116C0, 0x11730, 0x118E0, 0x11950, 0x11C50, 0x11D50, 0x11DA0, 0x11F50,
    0x16A60, 0x16AC0, 0x16B50, 0x1D7CE, 0x1D7D8, 0x1D7E2, 0x1D7EC, 0x1D7F6,
    0x1E140, 0x1E2F0, 0x1E4F0, 0x1E950, 0x1FBF0]

def digitChar (digit : Nat) : CodePoint :=
  .scalar (Char.ofNat ('0'.toNat + digit))

/-- The decimal digit that a code point stands for. -/
def CodePoint.decimalDigit : CodePoint → Option Nat
  | .surrogate _ => none
  | .scalar char =>
      (decimalZeros.find? fun first =>
        first ≤ char.toNat && char.toNat < first + 10).map (char.toNat - ·)

/-- What `int` makes of a character before it reads the number: an ASCII
character as it is, else a space, an ASCII digit or what no number has. -/
def CodePoint.toAsciiDecimal : CodePoint → CodePoint
  | .surrogate _ => .scalar '?'
  | .scalar char =>
      if char.toNat < 127 then .scalar char
      else if (CodePoint.scalar char).isSpace then .scalar ' '
      else ((CodePoint.scalar char).decimalDigit.map digitChar).getD (.scalar '?')

/-- The ASCII whitespace that `int` skips around a number. -/
def CodePoint.isAsciiSpace (char : CodePoint) : Bool :=
  char ∈ text " \t\n\x0b\x0c\r"

/-- The digits of a number, which a single underscore may separate. -/
def ungroup : Bool → Text → Option Text
  | afterDigit, [] => if afterDigit then some [] else none
  | afterDigit, char :: rest =>
      if char.isAsciiDigit then (ungroup true rest).map (char :: ·)
      else if afterDigit ∧ char = .scalar '_' then ungroup false rest
      else none

def digitGroups (value : Text) : Option Nat :=
  (ungroup false value).bind parseDigits

/-- `int(value)`; none is a `ValueError`. -/
def intOfText (value : Text) : Option Int :=
  let ascii := value.map CodePoint.toAsciiDecimal
  let body := ((ascii.dropWhile CodePoint.isAsciiSpace).reverse.dropWhile
    CodePoint.isAsciiSpace).reverse
  match body with
  | .scalar '+' :: digits => (digitGroups digits).map Int.ofNat
  | .scalar '-' :: digits => (digitGroups digits).map fun n => -(n : Int)
  | digits => (digitGroups digits).map Int.ofNat

/-- A non-empty run of ASCII digits. -/
def IsDigits (value : Text) : Prop :=
  value ≠ [] ∧ ∀ char ∈ value, char.isAsciiDigit = true

def digitsValue (value : Text) : Nat :=
  value.foldl (fun total digit => 10 * total + digitValue digit) 0

instance decideIsDigits (value : Text) : Decidable (IsDigits value) :=
  inferInstanceAs (Decidable (_ ∧ _))

/-! ### Reading digits -/

theorem parseDigits_of_isDigits {value : Text} (hvalue : IsDigits value)
    (hlength : value.length ≤ intMaxStrDigits) :
    parseDigits value = some (digitsValue value) := by
  rw [parseDigits, if_pos ⟨hvalue.1, List.all_eq_true.mpr hvalue.2, hlength⟩]
  rfl

theorem parseDigits_eq_none_of_long {value : Text}
    (hlong : intMaxStrDigits < value.length) : parseDigits value = none := by
  rw [parseDigits, if_neg]
  omega

theorem ne_of_isAsciiDigit {char other : CodePoint}
    (hdigit : char.isAsciiDigit = true) (hother : other.isAsciiDigit = false) :
    char ≠ other := by
  rintro rfl
  rw [hdigit] at hother
  cases hother

theorem toAsciiDecimal_of_isAsciiDigit {char : CodePoint}
    (hdigit : char.isAsciiDigit = true) : char.toAsciiDecimal = char := by
  obtain ⟨digit, rfl, -, hhigh⟩ := scalar_of_isAsciiDigit hdigit
  rw [CodePoint.toAsciiDecimal, if_pos (by omega)]

theorem isAsciiSpace_of_isAsciiDigit {char : CodePoint}
    (hdigit : char.isAsciiDigit = true) : char.isAsciiSpace = false := by
  have hspaces : ∀ other ∈ text " \t\n\x0b\x0c\r",
      other.isAsciiDigit = false := by
    decide
  rw [CodePoint.isAsciiSpace, decide_eq_false_iff_not]
  intro hmem
  exact ne_of_isAsciiDigit hdigit (hspaces char hmem) rfl

theorem ungroup_of_isDigits {value : Text} (afterDigit : Bool)
    (hvalue : ∀ char ∈ value, char.isAsciiDigit = true)
    (hsome : afterDigit = true ∨ value ≠ []) :
    ungroup afterDigit value = some value := by
  induction value generalizing afterDigit with
  | nil =>
      obtain rfl : afterDigit = true := by simpa using hsome
      rfl
  | cons char rest ih =>
      have hrest := ih true (fun other hother =>
        hvalue other (List.mem_cons_of_mem _ hother)) (.inl rfl)
      rw [ungroup, if_pos (hvalue char List.mem_cons_self), hrest]
      rfl

theorem digitGroups_of_isDigits {value : Text} (hvalue : IsDigits value) :
    digitGroups value = parseDigits value := by
  rw [digitGroups, ungroup_of_isDigits false hvalue.2 (.inr hvalue.1)]
  rfl

theorem dropWhile_of_all_false {α : Type*} {drops : α → Bool} {values : List α}
    (hkept : ∀ value ∈ values, drops value = false) :
    values.dropWhile drops = values := by
  cases values with
  | nil => rfl
  | cons head tail =>
      rw [List.dropWhile_cons_of_neg]
      rw [hkept head List.mem_cons_self]
      exact Bool.false_ne_true

/-- `int` reads a run of ASCII digits up to its limit. -/
theorem intOfText_of_isDigits {value : Text} (hvalue : IsDigits value) :
    intOfText value = (parseDigits value).map Int.ofNat := by
  have hmap : value.map CodePoint.toAsciiDecimal = value := by
    conv_rhs => rw [← List.map_id value]
    apply List.map_congr_left
    intro char hchar
    exact toAsciiDecimal_of_isAsciiDigit (hvalue.2 char hchar)
  have hspace : ∀ char ∈ value, char.isAsciiSpace = false :=
    fun char hchar => isAsciiSpace_of_isAsciiDigit (hvalue.2 char hchar)
  have hbody : ((value.dropWhile CodePoint.isAsciiSpace).reverse.dropWhile
      CodePoint.isAsciiSpace).reverse = value := by
    rw [dropWhile_of_all_false hspace, dropWhile_of_all_false,
      List.reverse_reverse]
    intro char hchar
    exact hspace char (List.mem_reverse.mp hchar)
  simp only [intOfText, hmap, hbody]
  split
  · exact absurd rfl (@ne_of_isAsciiDigit _ (.scalar '+')
      (hvalue.2 _ List.mem_cons_self) rfl)
  · exact absurd rfl (@ne_of_isAsciiDigit _ (.scalar '-')
      (hvalue.2 _ List.mem_cons_self) rfl)
  · rw [digitGroups_of_isDigits hvalue]

end Localmail
