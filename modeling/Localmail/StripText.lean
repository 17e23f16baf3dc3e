/-
`str.strip` and its halves: which characters they keep, and what they leave of
a text around a character that is no space.
-/
import Localmail.QueryParse
import Mathlib.Data.List.TakeWhile

namespace Localmail

def lstrip (value : Text) : Text :=
  value.dropWhile CodePoint.isSpace

def rstrip (value : Text) : Text :=
  (value.reverse.dropWhile CodePoint.isSpace).reverse

theorem strip_eq (value : Text) : strip value = rstrip (lstrip value) := rfl

/-- Nothing on a list is an item it does not have. -/
theorem decide_ne_of_notMem {α : Type*} [DecidableEq α] {stop : α}
    {list : List α} (hstop : stop ∉ list) :
    ∀ item ∈ list, decide (item ≠ stop) = true := by
  intro item hitem
  exact decide_eq_true fun hsame => hstop (hsame ▸ hitem)

/-- Taking from the left stops at the first item that is not taken. -/
theorem takeWhile_of_stop {α : Type*} {keeps : α → Bool} {left right : List α}
    {stop : α} (hleft : ∀ item ∈ left, keeps item = true)
    (hstop : keeps stop = false) :
    (left ++ stop :: right).takeWhile keeps = left := by
  rw [List.takeWhile_append_of_pos hleft,
    List.takeWhile_cons_of_neg (by simp [hstop]), List.append_nil]

section Drop

variable {α : Type*} {drops : α → Bool} {stop : α} (hstop : drops stop = false)

include hstop

/-- Dropping from the left goes no further than a kept item. -/
theorem dropWhile_append_cons (left right : List α) :
    (left ++ stop :: right).dropWhile drops =
      left.dropWhile drops ++ stop :: right := by
  induction left with
  | nil =>
      rw [List.nil_append, List.dropWhile_cons_of_neg]
      · rfl
      · rw [hstop]
        exact Bool.false_ne_true
  | cons head tail ih =>
      simp only [List.cons_append]
      by_cases hdrops : drops head = true
      · rw [List.dropWhile_cons_of_pos hdrops,
          List.dropWhile_cons_of_pos hdrops]
        exact ih
      · rw [List.dropWhile_cons_of_neg hdrops,
          List.dropWhile_cons_of_neg hdrops]
        rfl

/-- Dropping from the right goes no further than a kept item. -/
theorem dropWhile_reverse_append_cons (left right : List α) :
    ((left ++ stop :: right).reverse.dropWhile drops).reverse =
      left ++ stop :: (right.reverse.dropWhile drops).reverse := by
  rw [List.reverse_append, List.reverse_cons, List.append_assoc,
    List.singleton_append, dropWhile_append_cons hstop]
  simp

theorem mem_dropWhile_iff {list : List α} :
    stop ∈ list.dropWhile drops ↔ stop ∈ list := by
  constructor
  · exact fun h => (List.dropWhile_sublist _).mem h
  · intro h
    rw [← List.takeWhile_append_dropWhile (p := drops) (l := list)] at h
    rcases List.mem_append.mp h with hdropped | hkept
    · have := List.mem_takeWhile_imp hdropped
      rw [hstop] at this
      cases this
    · exact hkept

end Drop

section Solid

variable {char : CodePoint} (hsolid : char.isSpace = false)

include hsolid

theorem mem_strip_iff {text : Text} : char ∈ strip text ↔ char ∈ text := by
  rw [strip, List.mem_reverse, mem_dropWhile_iff hsolid,
    List.mem_reverse, mem_dropWhile_iff hsolid]

theorem lstrip_append_cons (left right : Text) :
    lstrip (left ++ char :: right) = lstrip left ++ char :: right :=
  dropWhile_append_cons hsolid left right

theorem rstrip_append_cons (left right : Text) :
    rstrip (left ++ char :: right) = left ++ char :: rstrip right :=
  dropWhile_reverse_append_cons hsolid left right

theorem strip_append_cons (left right : Text) :
    strip (left ++ char :: right) = lstrip left ++ char :: rstrip right := by
  rw [strip_eq, lstrip_append_cons hsolid, rstrip_append_cons hsolid]

end Solid

theorem strip_eq_nil_iff {text : Text} :
    strip text = [] ↔ ∀ char ∈ text, char.isSpace = true := by
  constructor
  · intro hnil char hchar
    by_contra hsolid
    simp only [Bool.not_eq_true] at hsolid
    have hmem := (mem_strip_iff hsolid).mpr hchar
    rw [hnil] at hmem
    cases hmem
  · intro hspaces
    simp only [strip, List.reverse_eq_nil_iff, List.dropWhile_eq_nil_iff,
      List.mem_reverse]
    intro char hchar
    exact hspaces char ((List.dropWhile_sublist _).mem hchar)

theorem strip_of_plain {value : Text}
    (hplain : ∀ ch ∈ value, ch.isSpace = false) : strip value = value := by
  have hdrop {given : Text} (hgiven : ∀ ch ∈ given, ch.isSpace = false) :
      given.dropWhile CodePoint.isSpace = given := by
    cases given with
    | nil => rfl
    | cons ch rest =>
        rw [List.dropWhile_cons_of_neg]
        simp [hgiven ch List.mem_cons_self]
  unfold strip
  rw [hdrop hplain, hdrop, List.reverse_reverse]
  intro ch hch
  exact hplain ch (List.mem_reverse.mp hch)

/-! ### Stripping twice -/

theorem dropWhile_dropWhile {α : Type*} (drops : α → Bool) (values : List α) :
    (values.dropWhile drops).dropWhile drops = values.dropWhile drops := by
  induction values with
  | nil => rfl
  | cons head tail ih =>
      by_cases hdrops : drops head = true
      · rw [List.dropWhile_cons_of_pos hdrops]
        exact ih
      · rw [List.dropWhile_cons_of_neg hdrops,
          List.dropWhile_cons_of_neg hdrops]

theorem strip_lstrip (value : Text) : strip (lstrip value) = strip value := by
  rw [strip_eq, lstrip, lstrip, dropWhile_dropWhile]
  rfl

/-- Stripping from the right leaves what stripping from the left decides. -/
theorem lstrip_rstrip (value : Text) :
    lstrip (rstrip value) = rstrip (lstrip value) := by
  by_cases hspaces : ∀ char ∈ value, char.isSpace = true
  · have hleft : lstrip value = [] :=
      List.dropWhile_eq_nil_iff.mpr hspaces
    have hright : rstrip value = [] := by
      rw [rstrip, List.reverse_eq_nil_iff]
      apply List.dropWhile_eq_nil_iff.mpr
      intro char hchar
      exact hspaces char (List.mem_reverse.mp hchar)
    rw [hleft, hright]
    rfl
  · push Not at hspaces
    obtain ⟨char, hchar, hspace⟩ := hspaces
    have hsolid : char.isSpace = false := Bool.eq_false_iff.mpr hspace
    obtain ⟨left, right, rfl⟩ := List.append_of_mem hchar
    rw [rstrip_append_cons hsolid, lstrip_append_cons hsolid,
      lstrip_append_cons hsolid, rstrip_append_cons hsolid]

theorem strip_rstrip (value : Text) : strip (rstrip value) = strip value := by
  rw [strip_eq, lstrip_rstrip, rstrip, rstrip, List.reverse_reverse,
    dropWhile_dropWhile]
  rfl

/-! ### The end of a text -/

theorem rstrip_beginning (value : Text) : rstrip value <+: value := by
  rw [rstrip, ← List.reverse_suffix, List.reverse_reverse]
  exact List.dropWhile_suffix _

theorem rstrip_of_solid_end {value : Text}
    (hsolid : ∀ char ∈ value.getLast?, char.isSpace = false) :
    rstrip value = value := by
  rw [rstrip, List.reverse_eq_iff]
  cases hreverse : value.reverse with
  | nil => rfl
  | cons char rest =>
      have hlast : value.getLast? = some char := by
        rw [← List.head?_reverse, hreverse]
        rfl
      rw [List.dropWhile_cons_of_neg]
      rw [hsolid char hlast]
      exact Bool.false_ne_true

theorem rstrip_length_lt {value : Text} {char : CodePoint}
    (hlast : value.getLast? = some char) (hspace : char.isSpace = true) :
    (rstrip value).length < value.length := by
  rw [← List.head?_reverse] at hlast
  rw [rstrip, List.length_reverse, ← @List.length_reverse _ value]
  cases hreverse : value.reverse with
  | nil =>
      rw [hreverse] at hlast
      cases hlast
  | cons first rest =>
      rw [hreverse] at hlast
      obtain rfl : first = char := Option.some.inj hlast
      rw [List.dropWhile_cons_of_pos hspace, List.length_cons]
      exact Nat.lt_succ_of_le (List.dropWhile_sublist _).length_le

end Localmail
