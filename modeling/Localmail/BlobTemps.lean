/-
Names in the blob tree: where a blob is kept, the private name its payload is
staged under, and how the sweep tells such a name from every other.  The
recogniser is a regular expression that ends in `$`, which a final line feed
satisfies too.
-/
import Localmail.ExtractQueue
import Localmail.FilterTokens
import Localmail.IntText

namespace Localmail

namespace Blobs

open AttachmentKind (dot)
open Extract (hex hexDigit)

abbrev DiskPath := List Text

instance lawfulBEqDiskPath : LawfulBEq DiskPath := inferInstance

/-- `blob_path`. -/
def blobPath (root : DiskPath) (sha256Hex : Text) : DiskPath :=
  root ++ [text "blobs", sha256Hex.take 2, (sha256Hex.drop 2).take 2, sha256Hex]

/-- `Path.with_name`. -/
def withName (path : DiskPath) (name : Text) : DiskPath :=
  path.dropLast ++ [name]

def tempSuffix : Text := text ".tmp"

def tempName (blobName : Text) (pid : Nat) (token : Text) : Text :=
  blobName ++ dot :: decimal pid ++ dot :: token ++ tempSuffix

def newTempPath (blobPath : DiskPath) (pid : Nat) (token : Text) : DiskPath :=
  withName blobPath (tempName (blobPath.getLastD []) pid token)

/-- `[0-9a-f]`. -/
def isLowerHex (char : CodePoint) : Bool :=
  char ∈ text "0123456789abcdef"

/-- Exactly that many of `[0-9a-f]`. -/
def IsHexOf (length : Nat) (value : Text) : Prop :=
  value.length = length ∧ ∀ char ∈ value, isLowerHex char = true

instance decideIsHexOf (length : Nat) (value : Text) :
    Decidable (IsHexOf length value) :=
  inferInstanceAs (Decidable (_ ∧ _))

/-- What follows the digest in `_TEMP_NAME_RE`. -/
def matchesTempTail (rest : Text) : Bool :=
  let pid := (rest.drop 1).takeWhile CodePoint.isAsciiDigit
  let tail := (rest.drop 1).dropWhile CodePoint.isAsciiDigit
  rest.head? = some dot && pid ≠ [] && tail.head? = some dot &&
    IsHexOf 32 ((tail.drop 1).take 32) &&
    (tail.drop 33 = tempSuffix || tail.drop 33 = tempSuffix ++ text "\n")

def isWriterTemp (name : Text) : Bool :=
  IsHexOf 64 (name.take 64) && matchesTempTail (name.drop 64)

/-- A name with the shape of the recogniser, the line feed apart. -/
def WriterTempShape (name : Text) : Prop :=
  ∃ blob pid token, IsHexOf 64 blob ∧ IsDigits pid ∧ IsHexOf 32 token ∧
    name = blob ++ dot :: pid ++ dot :: token ++ tempSuffix

/-! ### Digests as names -/

theorem isLowerHex_hexDigit {nibble : Nat} (hnibble : nibble < 16) :
    isLowerHex (hexDigit nibble) = true := by
  have hall : ∀ digit : Fin 16, isLowerHex (hexDigit digit) = true := by
    decide
  exact hall ⟨nibble, hnibble⟩

theorem isLowerHex_of_mem_hex {bytes : Bytes} {char : CodePoint}
    (hchar : char ∈ hex bytes) : isLowerHex char = true := by
  obtain ⟨byte, -, hmem⟩ := List.mem_flatMap.mp hchar
  have hbyte := byte.toNat_lt
  rcases List.mem_pair.mp hmem with rfl | rfl
  · exact isLowerHex_hexDigit (by omega)
  · exact isLowerHex_hexDigit (Nat.mod_lt _ (by decide))

theorem length_hex (bytes : Bytes) : (hex bytes).length = 2 * bytes.length := by
  induction bytes with
  | nil => rfl
  | cons byte rest ih =>
      rw [hex, List.flatMap_cons, List.length_append, ← hex, ih]
      simp only [List.length_cons, List.length_nil]
      omega

theorem isHexOf_hex {digest : Bytes} (hlength : digest.length = 32) :
    IsHexOf 64 (hex digest) :=
  ⟨by rw [length_hex, hlength], fun _ => isLowerHex_of_mem_hex⟩

theorem hexDigit_injective {left right : Nat} (hleft : left < 16)
    (hright : right < 16) (hsame : hexDigit left = hexDigit right) :
    left = right := by
  have hall : ∀ first second : Fin 16,
      hexDigit first = hexDigit second → first = second := by
    decide
  exact congrArg Fin.val (hall ⟨left, hleft⟩ ⟨right, hright⟩ hsame)

/-- Two digests have one name only if they are one. -/
theorem hex_injective : Function.Injective hex := by
  intro left
  induction left with
  | nil =>
      intro right hsame
      cases right with
      | nil => rfl
      | cons => cases hsame
  | cons byte rest ih =>
      intro right hsame
      cases right with
      | nil => cases hsame
      | cons other more =>
          simp only [hex, List.flatMap_cons, List.cons_append,
            List.nil_append, List.cons.injEq] at hsame
          obtain ⟨hhigh, hlow, hrest⟩ := hsame
          have hbyte := byte.toNat_lt
          have hother := other.toNat_lt
          have hhigh := hexDigit_injective (by omega) (by omega) hhigh
          have hlow := hexDigit_injective (Nat.mod_lt _ (by decide))
            (Nat.mod_lt _ (by decide)) hlow
          have hvalue : byte.toNat = other.toNat := by omega
          rw [UInt8.toNat_inj.mp hvalue, ih hrest]

theorem dot_not_lowerHex : isLowerHex dot = false := by decide

theorem dot_not_mem_hex (bytes : Bytes) : dot ∉ hex bytes := by
  intro hmem
  have hdot := isLowerHex_of_mem_hex hmem
  rw [dot_not_lowerHex] at hdot
  cases hdot

/-! ### Paths -/

theorem getLastD_blobPath (root : DiskPath) (sha256Hex : Text) :
    (blobPath root sha256Hex).getLastD [] = sha256Hex := by
  simp [blobPath]

theorem getLastD_withName (path : DiskPath) (name : Text) :
    (withName path name).getLastD [] = name := by
  simp [withName]

theorem blobPath_injective (root : DiskPath) :
    Function.Injective (blobPath root) := by
  intro left right hsame
  rw [← getLastD_blobPath root left, hsame, getLastD_blobPath]

theorem dot_mem_tempName (blobName : Text) (pid : Nat) (token : Text) :
    dot ∈ tempName blobName pid token := by
  simp [tempName]

theorem getLastD_newTempPath (root : DiskPath) (sha256Hex : Text) (pid : Nat)
    (token : Text) :
    (newTempPath (blobPath root sha256Hex) pid token).getLastD [] =
      tempName sha256Hex pid token := by
  rw [newTempPath, getLastD_withName, getLastD_blobPath]

/-! ### The recogniser -/

/-- What the expression has read of a name it takes. -/
theorem shape_of_isWriterTemp {name : Text} (hname : isWriterTemp name = true) :
    ∃ front ending, WriterTempShape front ∧ name = front ++ ending ∧
      (ending = [] ∨ ending = text "\n") := by
  simp only [isWriterTemp, matchesTempTail, Bool.and_eq_true,
    decide_eq_true_eq, Bool.or_eq_true] at hname
  obtain ⟨hblob, ⟨⟨⟨hdot, hpid⟩, hsecond⟩, htoken⟩, hend⟩ := hname
  generalize hrest : name.drop 64 = rest at hdot hpid hsecond htoken hend
  generalize htail : (rest.drop 1).dropWhile CodePoint.isAsciiDigit = tail
    at hsecond htoken hend
  have hfirst : rest = dot :: rest.drop 1 := by
    cases rest with
    | nil => cases hdot
    | cons head more => rw [Option.some.inj hdot]; rfl
  have hnext : tail = dot :: tail.drop 1 := by
    cases tail with
    | nil => cases hsecond
    | cons head more => rw [Option.some.inj hsecond]; rfl
  have hsplit : tail.drop 1 = (tail.drop 1).take 32 ++ tail.drop 33 := by
    conv_lhs => rw [← List.take_append_drop 32 (tail.drop 1)]
    rw [List.drop_drop]
  have hdigits := List.takeWhile_append_dropWhile
    (p := CodePoint.isAsciiDigit) (l := rest.drop 1)
  rw [htail, hnext, hsplit] at hdigits
  have hwhole : name = name.take 64 ++ dot ::
      (rest.drop 1).takeWhile CodePoint.isAsciiDigit ++ dot ::
        (tail.drop 1).take 32 ++ tail.drop 33 := by
    conv_lhs => rw [← List.take_append_drop 64 name, hrest, hfirst, ← hdigits]
    simp
  have hshape : WriterTempShape (name.take 64 ++ dot ::
      (rest.drop 1).takeWhile CodePoint.isAsciiDigit ++ dot ::
        (tail.drop 1).take 32 ++ tempSuffix) :=
    ⟨_, _, _, hblob, ⟨hpid, fun _ => List.mem_takeWhile_imp⟩, htoken, rfl⟩
  rcases hend with hend | hend
  · exact ⟨_, [], hshape, by rw [hend] at hwhole; simpa using hwhole, Or.inl rfl⟩
  · exact ⟨_, _, hshape, by rw [hend] at hwhole; simpa using hwhole, Or.inr rfl⟩

theorem isWriterTemp_of_shape {front ending : Text}
    (hfront : WriterTempShape front) (hending : ending = [] ∨ ending = text "\n") :
    isWriterTemp (front ++ ending) = true := by
  obtain ⟨blob, pid, token, hblob, hpid, htoken, rfl⟩ := hfront
  have hstop : dot.isAsciiDigit = false := by decide
  generalize hrest : dot :: (token ++ (tempSuffix ++ ending)) = rest
  have htake : (pid ++ rest).takeWhile CodePoint.isAsciiDigit = pid := by
    rw [← hrest]
    exact takeWhile_of_stop hpid.2 hstop
  have hdrop : (pid ++ rest).dropWhile CodePoint.isAsciiDigit = rest := by
    rw [← hrest, dropWhile_append_cons hstop,
      List.dropWhile_eq_nil_iff.mpr hpid.2, List.nil_append]
  have hsplit : blob ++ dot :: pid ++ dot :: token ++ tempSuffix ++ ending =
      blob ++ dot :: (pid ++ rest) := by
    simp [← hrest]
  have htoken' : (rest.drop 1).take 32 = token := by
    rw [← hrest]
    exact List.take_left' htoken.1
  have hlast : rest.drop 33 = tempSuffix ++ ending := by
    rw [← hrest]
    exact List.drop_left' htoken.1
  have hdot : rest.head? = some dot := hrest ▸ rfl
  rw [hsplit, isWriterTemp, List.take_left' hblob.1, List.drop_left' hblob.1,
    matchesTempTail]
  simp only [List.drop_succ_cons, List.drop_zero, htake, hdrop, hdot, htoken',
    hlast, List.head?_cons]
  rcases hending with rfl | rfl
  · simp [hblob, hpid.1, htoken]
  · simp [hblob, hpid.1, htoken]

/-- The expression takes the shape, and the shape with a line feed after it. -/
theorem isWriterTemp_iff (name : Text) :
    isWriterTemp name = true ↔
      ∃ front ending, WriterTempShape front ∧ name = front ++ ending ∧
        (ending = [] ∨ ending = text "\n") := by
  constructor
  · exact shape_of_isWriterTemp
  · rintro ⟨front, ending, hfront, rfl, hending⟩
    exact isWriterTemp_of_shape hfront hending

/-- The minter's names are the recogniser's. -/
theorem isWriterTemp_tempName {digest : Bytes} (hlength : digest.length = 32)
    (pid : Nat) {token : Text} (htoken : IsHexOf 32 token) :
    isWriterTemp (tempName (hex digest) pid token) = true := by
  refine (isWriterTemp_iff _).mpr ⟨_, [], ⟨hex digest, decimal pid, token,
    isHexOf_hex hlength, ⟨decimal_ne_nil pid, isAsciiDigit_of_mem_decimal⟩,
    htoken, rfl⟩, ?_, Or.inl rfl⟩
  rw [List.append_nil, tempName]

/-- A blob's own name is never one of them. -/
theorem isWriterTemp_hex (digest : Bytes) : isWriterTemp (hex digest) = false := by
  apply eq_false_of_ne_true
  intro htemp
  obtain ⟨_, ending, ⟨blob, pid, token, -, -, -, rfl⟩, hname, -⟩ :=
    shape_of_isWriterTemp htemp
  exact dot_not_mem_hex digest (by simp [hname])

end Blobs

end Localmail
