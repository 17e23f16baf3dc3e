/-
What an attachment is, from its declared type and its names: the gate of the
extraction worker, and the regular expression with which the report mirrors its
extension half.
-/
import Localmail.MailParser
import Localmail.Snippet

namespace Localmail

namespace AttachmentKind

abbrev dot : CodePoint := .scalar '.'

/-! ### `extension_of` -/

/-- `PurePath(path).name` on a POSIX system. -/
def pathName (path : Text) : Text :=
  ((path.splitOn (.scalar '/')).filter fun part =>
    part ≠ [] ∧ part ≠ [dot]).getLastD []

/-- `PurePath.suffix` of a name: from the last dot, unless it is in front or at
the end. -/
def nameSuffix (name : Text) : Text :=
  let tail := (name.reverse.takeWhile (· ≠ dot)).reverse
  match name.reverse.dropWhile (· ≠ dot) with
  | [] | [_] => []
  | _ :: _ :: _ => if tail = [] then [] else dot :: tail

section Gate

variable (lowering : Lowering)

def extensionOf (filename : Option Text) : Text :=
  match filename with
  | none | some [] => []
  | some name => lowering.lower (nameSuffix (pathName name))

/-- `is_allowlisted`. -/
def isAllowlisted (mimeType : Option Text) (filenames : List Text)
    (mimeAllowlist extensionAllowlist : List Text) : Bool :=
  lowering.lower (mimeType.getD []) ∈ mimeAllowlist.map lowering.lower ||
    filenames.any fun name =>
      extensionOf lowering (some name) ∈ extensionAllowlist.map lowering.lower

def preferredFilename (filenames : List Text)
    (extensionAllowlist : List Text) : Option Text :=
  (filenames.find? fun name =>
    extensionOf lowering (some name) ∈
      extensionAllowlist.map lowering.lower).or filenames.head?

def isPdf (mimeType filename : Option Text) : Bool :=
  lowering.lower (mimeType.getD []) = text "application/pdf" ||
    extensionOf lowering filename = text ".pdf"

end Gate

/-! ### The regular expression -/

/-- `(\.[^.]+)$` at the front of a text. -/
def dotTail : Text → Option Text
  | char :: tail =>
      if char = dot ∧ tail ≠ [] ∧ dot ∉ tail then some (char :: tail) else none
  | [] => none

/-- `substring(name FROM '.(\.[^.]+)$')`: at the first place that matches. -/
def substringExtension : Text → Option Text
  | [] => none
  | _ :: rest => (dotTail rest).or (substringExtension rest)

/-- A name with an extension, cut before it. -/
def Extends (name extension : Text) : Prop :=
  ∃ front tail, front ≠ [] ∧ tail ≠ [] ∧ dot ∉ tail ∧
    extension = dot :: tail ∧ name = front ++ extension

theorem dotTail_eq_some_iff {rest extension : Text} :
    dotTail rest = some extension ↔
      rest = extension ∧ ∃ tail, tail ≠ [] ∧ dot ∉ tail ∧
        extension = dot :: tail := by
  cases rest with
  | nil =>
      constructor
      · intro hnone
        cases hnone
      · rintro ⟨rfl, tail, -, -, hcons⟩
        cases hcons
  | cons char tail =>
      simp only [dotTail, Option.ite_none_right_eq_some, Option.some.injEq]
      constructor
      · rintro ⟨⟨rfl, hnonempty, hdot⟩, rfl⟩
        exact ⟨rfl, tail, hnonempty, hdot, rfl⟩
      · rintro ⟨rfl, other, hnonempty, hdot, hcons⟩
        cases hcons
        exact ⟨⟨rfl, hnonempty, hdot⟩, rfl⟩

theorem substringExtension_eq_some_iff {name extension : Text} :
    substringExtension name = some extension ↔ Extends name extension := by
  induction name with
  | nil =>
      constructor
      · intro hnone
        cases hnone
      · rintro ⟨front, tail, hfront, -, -, -, hname⟩
        exact absurd (List.append_eq_nil_iff.mp hname.symm).1 hfront
  | cons char rest ih =>
      rw [substringExtension, Option.or_eq_some_iff, dotTail_eq_some_iff, ih]
      constructor
      · rintro (⟨rfl, tail, hnonempty, hdot, hcons⟩ |
          ⟨-, front, tail, hfront, hrest⟩)
        · exact ⟨[char], tail, by simp, hnonempty, hdot, hcons, rfl⟩
        · obtain ⟨hnonempty, hdot, hcons, rfl⟩ := hrest
          exact ⟨char :: front, tail, by simp, hnonempty, hdot, hcons, rfl⟩
      · rintro ⟨front, tail, hfront, hnonempty, hdot, hcons, hname⟩
        cases front with
        | nil => exact absurd rfl hfront
        | cons first front =>
            rw [List.cons_append, List.cons.injEq] at hname
            cases front with
            | nil => exact .inl ⟨hname.2, tail, hnonempty, hdot, hcons⟩
            | cons second front =>
                refine .inr ⟨?_, second :: front, tail, by simp, hnonempty, hdot,
                  hcons, hname.2⟩
                rw [Option.eq_none_iff_forall_not_mem]
                intro found hfound
                obtain ⟨hrest, later, -, hlater, hfoundCons⟩ :=
                  dotTail_eq_some_iff.mp hfound
                rw [hname.2, hfoundCons, List.cons_append, List.cons.injEq]
                  at hrest
                apply hlater
                rw [← hrest.2, hcons]
                simp

/-! ### They agree -/

theorem nameSuffix_append {front tail : Text} (hdot : dot ∉ tail) :
    nameSuffix (front ++ dot :: tail) =
      if front = [] ∨ tail = [] then [] else dot :: tail := by
  have hkept : ∀ char ∈ tail.reverse, decide (char ≠ dot) = true := by
    intro char hchar
    rw [decide_eq_true_eq]
    rintro rfl
    exact hdot (List.mem_reverse.mp hchar)
  have hreverse : (front ++ dot :: tail).reverse =
      tail.reverse ++ dot :: front.reverse := by
    simp
  have htake : (front ++ dot :: tail).reverse.takeWhile (· ≠ dot) =
      tail.reverse := by
    rw [hreverse, List.takeWhile_append_of_pos hkept]
    simp
  have hdrop : (front ++ dot :: tail).reverse.dropWhile (· ≠ dot) =
      dot :: front.reverse := by
    rw [hreverse, List.dropWhile_append_of_pos hkept]
    simp
  simp only [nameSuffix, htake, hdrop, List.reverse_reverse]
  cases hfront : front.reverse with
  | nil => simp [List.reverse_eq_nil_iff.mp hfront]
  | cons last others =>
      have hnonempty : front ≠ [] := by
        rintro rfl
        cases hfront
      simp [hnonempty]

theorem nameSuffix_of_no_dot {name : Text} (hdot : dot ∉ name) :
    nameSuffix name = [] := by
  have hdrop : name.reverse.dropWhile (· ≠ dot) = [] := by
    rw [List.dropWhile_eq_nil_iff]
    intro char hchar
    rw [decide_eq_true_eq]
    rintro rfl
    exact hdot (List.mem_reverse.mp hchar)
  simp only [nameSuffix, hdrop]

theorem Extends.nameSuffix_eq {name extension : Text}
    (hextends : Extends name extension) : nameSuffix name = extension := by
  obtain ⟨front, tail, hfront, htail, hdot, rfl, rfl⟩ := hextends
  rw [nameSuffix_append hdot, if_neg (not_or.mpr ⟨hfront, htail⟩)]

theorem extends_nameSuffix {name : Text} (hsuffix : nameSuffix name ≠ []) :
    Extends name (nameSuffix name) := by
  have hdot : dot ∈ name := by
    by_contra hdot
    exact hsuffix (nameSuffix_of_no_dot hdot)
  obtain ⟨tail, front, hname, htail⟩ :=
    List.eq_append_cons_of_mem (List.mem_reverse.mpr hdot)
  have hname : name = front.reverse ++ dot :: tail.reverse := by
    rw [← List.reverse_reverse name, hname]
    simp
  have htail : dot ∉ tail.reverse := fun hmem => htail (List.mem_reverse.mp hmem)
  rw [hname, nameSuffix_append htail] at hsuffix ⊢
  split at hsuffix
  · exact absurd rfl hsuffix
  · rename_i hparts
    rw [if_neg hparts]
    rw [not_or] at hparts
    exact ⟨front.reverse, tail.reverse, hparts.1, hparts.2, htail, rfl, rfl⟩

/-- The expression finds the suffix, where there is one. -/
theorem substringExtension_eq (name : Text) :
    substringExtension name =
      if nameSuffix name = [] then none else some (nameSuffix name) := by
  apply Option.ext
  intro extension
  rw [substringExtension_eq_some_iff, Option.ite_none_left_eq_some,
    Option.some.injEq]
  constructor
  · intro hextends
    obtain ⟨front, tail, -, -, -, hcons, -⟩ := id hextends
    rw [hextends.nameSuffix_eq, hcons]
    exact ⟨List.cons_ne_nil _ _, rfl⟩
  · rintro ⟨hsuffix, rfl⟩
    exact extends_nameSuffix hsuffix

theorem pathName_of_plain {name : Text} (hempty : name ≠ [])
    (hdots : name ≠ [dot]) (hslash : CodePoint.scalar '/' ∉ name) :
    pathName name = name := by
  simp [pathName, List.splitOn_eq_singleton hslash, hempty, hdots]

theorem sanitizeFilename_ne_nil (name : Text) : sanitizeFilename name ≠ [] := by
  unfold sanitizeFilename
  split
  · decide
  · dsimp only
    split
    · decide
    · assumption

theorem sanitizeFilename_ne_dot (name : Text) :
    sanitizeFilename name ≠ [dot] := by
  unfold sanitizeFilename
  split
  · decide
  · dsimp only
    split
    · decide
    · intro hdot
      have hhead := List.head?_dropWhile_not CodePoint.isDotOrUnderscore
        (name.map fun ch => if ch.isUnsafe then .scalar '_' else ch)
      rw [hdot] at hhead
      cases hhead

theorem slash_not_mem_sanitizeFilename (name : Text) :
    CodePoint.scalar '/' ∉ sanitizeFilename name := by
  have hsafe : CodePoint.scalar '/' ∉ (name.map fun ch =>
      if ch.isUnsafe then CodePoint.scalar '_' else ch) := by
    rw [List.mem_map]
    rintro ⟨ch, -, hshown⟩
    split at hshown
    · cases hshown
    · rename_i hplain
      exact hplain (hshown ▸ rfl)
  unfold sanitizeFilename
  split
  · decide
  · dsimp only
    split
    · decide
    · exact fun hmem => hsafe ((List.dropWhile_sublist _).mem hmem)

/-- A name that is stored is its own last part. -/
theorem pathName_sanitizeFilename (name : Text) :
    pathName (sanitizeFilename name) = sanitizeFilename name :=
  pathName_of_plain (sanitizeFilename_ne_nil name)
    (sanitizeFilename_ne_dot name) (slash_not_mem_sanitizeFilename name)

end AttachmentKind

end Localmail
