/-
The `Range` header of a download: what the parser reads in it, the grammar its
contract states, and which headers the two read alike.
-/
import Localmail.IntText

namespace Localmail

/-- A slice of a resource of `size` bytes, both ends included. -/
structure ByteRange (size : Nat) where
  start : Nat
  stop : Nat
  ordered : start ≤ stop
  inside : stop < size
deriving Repr, DecidableEq

/-- Why no byte of the resource is in the range. -/
inductive UnsatisfiableRange where
  | emptyResource
  | suffixLength (suffix : Int)
  | startPastEnd (start : Int) (size : Nat)
deriving Repr, DecidableEq

/-- What ends the reading of a range. -/
inductive RangeFailure where
  | valueError
  | unsatisfiable (problem : UnsatisfiableRange)
deriving Repr, DecidableEq

def rangeInt (value : Text) : Except RangeFailure Int :=
  match intOfText value with
  | some number => .ok number
  | none => .error .valueError

section Ranges

variable (size : Nat) (hsize : 0 < size)

/-- `-N`: the last `N` bytes. -/
def suffixRange (stop : Text) : Except RangeFailure (ByteRange size) := do
  let suffix ← rangeInt stop
  if hsuffix : suffix ≤ 0 then
    .error (.unsatisfiable (.suffixLength suffix))
  else
    .ok ⟨size - suffix.toNat, size - 1, by omega, by omega⟩

/-- `N-`: from `N` to the end. -/
def openEndedRange (start : Text) : Except RangeFailure (ByteRange size) := do
  let first ← rangeInt start
  if first < 0 then .error .valueError
  else if hstart : (size : Int) ≤ first then
    .error (.unsatisfiable (.startPastEnd first size))
  else .ok ⟨first.toNat, size - 1, by omega, by omega⟩

/-- `N-M`. -/
def closedRange (start stop : Text) :
    Except RangeFailure (ByteRange size) := do
  let first ← rangeInt start
  let last ← rangeInt stop
  if hbad : first < 0 ∨ last < 0 ∨ last < first then .error .valueError
  else if hstart : (size : Int) ≤ first then
    .error (.unsatisfiable (.startPastEnd first size))
  else
    .ok ⟨first.toNat, min last.toNat (size - 1), by omega, by omega⟩

end Ranges

def rangePrefix : Text := text "bytes="

/-- `str.split` at the first `-`. -/
def splitDash (spec : Text) : Text × Text :=
  (spec.takeWhile (· ≠ .scalar '-'),
    (spec.dropWhile (· ≠ .scalar '-')).tail)

/-- The two sides of the dash of a single range. -/
def rangeSides (header : Text) : Option (Text × Text) :=
  if rangePrefix.isPrefixOf header then
    let spec := strip (header.drop rangePrefix.length)
    if spec = [] ∨ .scalar ',' ∈ spec ∨ .scalar '-' ∉ spec then none
    else
      let (start, stop) := splitDash spec
      if strip start = [] ∧ strip stop = [] then none
      else some (strip start, strip stop)
  else none

/-- What is made of a range: an invalid number is no range at all. -/
def settleRange {size : Nat} :
    Except RangeFailure (ByteRange size) →
      Except UnsatisfiableRange (Option (ByteRange size))
  | .ok range => .ok (some range)
  | .error .valueError => .ok none
  | .error (.unsatisfiable problem) => .error problem

/-- `parse_byte_range`. -/
def parseByteRange (header : Option Text) (size : Nat) :
    Except UnsatisfiableRange (Option (ByteRange size)) :=
  match header.bind rangeSides with
  | none => .ok none
  | some (start, stop) =>
      if hsize : size = 0 then .error .emptyResource
      else
        let hsize := Nat.pos_of_ne_zero hsize
        settleRange <|
          if start = [] then suffixRange size hsize stop
          else if stop = [] then openEndedRange size hsize start
          else closedRange size hsize start stop

/-! ### The documented grammar -/

inductive RangeSpec where
  | suffix (length : Nat)
  | openEnded (first : Nat)
  | closed (first last : Nat)
deriving Repr, DecidableEq

/-- A single range of ASCII digit strings, with blanks around them. -/
inductive Documented : Text → RangeSpec → Prop where
  | suffix {start stop : Text} :
      strip start = [] → IsDigits (strip stop) →
      Documented (rangePrefix ++ (start ++ .scalar '-' :: stop))
        (.suffix (digitsValue (strip stop)))
  | openEnded {start stop : Text} :
      IsDigits (strip start) → strip stop = [] →
      Documented (rangePrefix ++ (start ++ .scalar '-' :: stop))
        (.openEnded (digitsValue (strip start)))
  | closed {start stop : Text} :
      IsDigits (strip start) → IsDigits (strip stop) →
      digitsValue (strip start) ≤ digitsValue (strip stop) →
      Documented (rangePrefix ++ (start ++ .scalar '-' :: stop))
        (.closed (digitsValue (strip start)) (digitsValue (strip stop)))

/-- The bytes a range names, whether the resource has them or not. -/
def RangeSpec.Names (size : Nat) : RangeSpec → Nat → Prop
  | .suffix length, position => size ≤ position + length
  | .openEnded first, position => first ≤ position
  | .closed first last, position => first ≤ position ∧ position ≤ last

/-- The slice is what the range names of the resource. -/
def RangeSpec.Cuts {size : Nat} (spec : RangeSpec) (range : ByteRange size) :
    Prop :=
  ∀ position, range.start ≤ position ∧ position ≤ range.stop ↔
    spec.Names size position ∧ position < size

def RangeSpec.Overlaps (size : Nat) (spec : RangeSpec) : Prop :=
  ∃ position < size, spec.Names size position

/-- The parser keeps its contract on a header and a size. -/
structure KeepsContract (header : Option Text) (size : Nat) : Prop where
  served : ∀ range, parseByteRange header size = .ok (some range) ↔
    ∃ given ∈ header, ∃ spec, Documented given spec ∧ spec.Cuts range
  refused : (∃ problem, parseByteRange header size = .error problem) ↔
    ∃ given ∈ header, ∃ spec, Documented given spec ∧ ¬spec.Overlaps size
  ignored : parseByteRange header size = .ok none ↔
    ∀ given ∈ header, ∀ spec, ¬Documented given spec

/-! ### The sides of the dash -/

/-- The range that two sides spell. -/
def sidesSpec (start stop : Text) : Option RangeSpec :=
  if start = [] then
    if IsDigits stop then some (.suffix (digitsValue stop)) else none
  else if stop = [] then
    if IsDigits start then some (.openEnded (digitsValue start)) else none
  else if IsDigits start ∧ IsDigits stop ∧
      digitsValue start ≤ digitsValue stop then
    some (.closed (digitsValue start) (digitsValue stop))
  else none

theorem splitDash_of_fresh {start : Text} (stop : Text)
    (hfresh : .scalar '-' ∉ start) :
    splitDash (start ++ .scalar '-' :: stop) = (start, stop) := by
  have hkept : ∀ char ∈ start, decide (char ≠ .scalar '-') = true := by
    intro char hchar
    exact decide_eq_true (fun hsame => hfresh (hsame ▸ hchar))
  unfold splitDash
  rw [List.takeWhile_append_of_pos hkept, List.dropWhile_append_of_pos hkept]
  simp

theorem not_mem_of_isDigits {value : Text} {char : CodePoint}
    (hvalue : value = [] ∨ IsDigits value)
    (hchar : char.isAsciiDigit = false) : char ∉ value := by
  intro hmem
  rcases hvalue with rfl | hdigits
  · cases hmem
  · rw [hdigits.2 char hmem] at hchar
    cases hchar

/-- What stands left and right of the dash, where neither side holds a comma
or, on the left, another dash. -/
theorem rangeSides_of_split {start stop : Text}
    (hdash : .scalar '-' ∉ start) (hstart : .scalar ',' ∉ start)
    (hstop : .scalar ',' ∉ stop)
    (hsome : ¬(strip start = [] ∧ strip stop = [])) :
    rangeSides (rangePrefix ++ (start ++ .scalar '-' :: stop)) =
      some (strip start, strip stop) := by
  have hstarts : rangePrefix.isPrefixOf
      (rangePrefix ++ (start ++ .scalar '-' :: stop)) = true :=
    List.isPrefixOf_iff_prefix.mpr (List.prefix_append _ _)
  have hleft : .scalar '-' ∉ lstrip start := by
    rwa [lstrip, mem_dropWhile_iff rfl]
  have hcomma : .scalar ',' ∉ lstrip start ++ .scalar '-' :: rstrip stop := by
    have hright : .scalar ',' ∉ rstrip stop := by
      rwa [rstrip, List.mem_reverse, mem_dropWhile_iff rfl, List.mem_reverse]
    have hother : .scalar ',' ∉ lstrip start := by
      rwa [lstrip, mem_dropWhile_iff rfl]
    simp [hright, hother]
  unfold rangeSides
  rw [if_pos hstarts, List.drop_left, strip_append_cons rfl]
  simp only [splitDash_of_fresh _ hleft, strip_lstrip, strip_rstrip]
  rw [if_neg (by simp [hcomma]), if_neg hsome]

/-- A header with sides is spelled by them, with blanks around. -/
theorem split_of_rangeSides {header start stop : Text}
    (hsides : rangeSides header = some (start, stop)) :
    ¬(start = [] ∧ stop = []) ∧ ∃ left right,
      header = rangePrefix ++ (left ++ .scalar '-' :: right) ∧
        strip left = start ∧ strip right = stop := by
  unfold rangeSides at hsides
  split at hsides
  · rename_i hstarts
    obtain ⟨rest, rfl⟩ := List.isPrefixOf_iff_prefix.mp hstarts
    rw [List.drop_left] at hsides
    simp only at hsides
    split at hsides
    · cases hsides
    · rename_i hspec
      split at hsides
      · cases hsides
      · rename_i hsome
        obtain ⟨rfl, rfl⟩ := Prod.mk.inj (Option.some.inj hsides)
        refine ⟨hsome, ?_⟩
        have hmem : .scalar '-' ∈ rest := by
          have hdash : .scalar '-' ∈ strip rest := by
            by_contra hnone
            exact hspec (.inr (.inr hnone))
          exact (mem_strip_iff rfl).mp hdash
        obtain ⟨left, right, rfl, hfresh⟩ := List.eq_append_cons_of_mem hmem
        have hleft : .scalar '-' ∉ lstrip left := by
          rwa [lstrip, mem_dropWhile_iff rfl]
        rw [strip_append_cons rfl, splitDash_of_fresh _ hleft]
        exact ⟨left, right, rfl, (strip_lstrip left).symm,
          (strip_rstrip right).symm⟩
  · cases hsides

/-- The grammar is about the two sides of the dash. -/
theorem documented_iff {header : Text} {spec : RangeSpec} :
    Documented header spec ↔
      ∃ start stop, rangeSides header = some (start, stop) ∧
        sidesSpec start stop = some spec := by
  constructor
  · intro hdocumented
    have hsides {start stop : Text}
        (hstart : strip start = [] ∨ IsDigits (strip start))
        (hstop : strip stop = [] ∨ IsDigits (strip stop))
        (hsome : ¬(strip start = [] ∧ strip stop = [])) :
        rangeSides (rangePrefix ++ (start ++ .scalar '-' :: stop)) =
          some (strip start, strip stop) := by
      apply rangeSides_of_split _ _ _ hsome
      · rw [← mem_strip_iff rfl]
        exact not_mem_of_isDigits hstart rfl
      · rw [← mem_strip_iff rfl]
        exact not_mem_of_isDigits hstart rfl
      · rw [← mem_strip_iff rfl]
        exact not_mem_of_isDigits hstop rfl
    cases hdocumented with
    | suffix hstart hstop =>
        refine ⟨_, _, hsides (.inl hstart) (.inr hstop) ?_, ?_⟩
        · exact fun hnone => hstop.1 hnone.2
        · rw [sidesSpec, if_pos hstart, if_pos hstop]
    | openEnded hstart hstop =>
        refine ⟨_, _, hsides (.inr hstart) (.inl hstop) ?_, ?_⟩
        · exact fun hnone => hstart.1 hnone.1
        · rw [sidesSpec, if_neg hstart.1, if_pos hstop, if_pos hstart]
    | closed hstart hstop hle =>
        refine ⟨_, _, hsides (.inr hstart) (.inr hstop) ?_, ?_⟩
        · exact fun hnone => hstart.1 hnone.1
        · rw [sidesSpec, if_neg hstart.1, if_neg hstop.1,
            if_pos ⟨hstart, hstop, hle⟩]
  · rintro ⟨start, stop, hsides, hspec⟩
    obtain ⟨hsome, left, right, rfl, rfl, rfl⟩ := split_of_rangeSides hsides
    unfold sidesSpec at hspec
    split at hspec
    · rename_i hstart
      obtain ⟨hstop, hspec⟩ := Option.ite_none_right_eq_some.mp hspec
      obtain rfl := Option.some.inj hspec
      exact .suffix hstart hstop
    · split at hspec
      · rename_i hstop
        obtain ⟨hstart, hspec⟩ := Option.ite_none_right_eq_some.mp hspec
        obtain rfl := Option.some.inj hspec
        exact .openEnded hstart hstop
      · obtain ⟨⟨hstart, hstop, hle⟩, hspec⟩ :=
          Option.ite_none_right_eq_some.mp hspec
        obtain rfl := Option.some.inj hspec
        exact .closed hstart hstop hle

/-! ### What the contract answers -/

/-- The bytes of the resource that a range names. -/
def RangeSpec.slice (size : Nat) : RangeSpec → Option (ByteRange size)
  | .suffix length =>
      if hoverlap : 0 < length ∧ 0 < size then
        some ⟨size - length, size - 1, by omega, by omega⟩
      else none
  | .openEnded first =>
      if hoverlap : first < size then
        some ⟨first, size - 1, by omega, by omega⟩
      else none
  | .closed first last =>
      if hoverlap : first ≤ last ∧ first < size then
        some ⟨first, min last (size - 1), by omega, by omega⟩
      else none

theorem slice_cuts {size : Nat} {spec : RangeSpec} {range : ByteRange size}
    (hslice : spec.slice size = some range) : spec.Cuts range := by
  intro position
  cases spec with
  | suffix length =>
      obtain ⟨hoverlap, hrange⟩ := Option.dite_none_right_eq_some.mp hslice
      obtain rfl := Option.some.inj hrange
      simp only [RangeSpec.Names]
      constructor <;> omega
  | openEnded first =>
      obtain ⟨hoverlap, hrange⟩ := Option.dite_none_right_eq_some.mp hslice
      obtain rfl := Option.some.inj hrange
      simp only [RangeSpec.Names]
      constructor <;> omega
  | closed first last =>
      obtain ⟨hoverlap, hrange⟩ := Option.dite_none_right_eq_some.mp hslice
      obtain rfl := Option.some.inj hrange
      simp only [RangeSpec.Names]
      constructor <;> omega

theorem slice_eq_none {size : Nat} {spec : RangeSpec}
    (hslice : spec.slice size = none) : ¬spec.Overlaps size := by
  rintro ⟨position, hposition, hnames⟩
  cases spec with
  | suffix length =>
      simp only [RangeSpec.slice, dite_eq_right_iff, reduceCtorEq,
        imp_false] at hslice
      simp only [RangeSpec.Names] at hnames
      omega
  | openEnded first =>
      simp only [RangeSpec.slice, dite_eq_right_iff, reduceCtorEq,
        imp_false] at hslice
      simp only [RangeSpec.Names] at hnames
      omega
  | closed first last =>
      simp only [RangeSpec.slice, dite_eq_right_iff, reduceCtorEq,
        imp_false] at hslice
      simp only [RangeSpec.Names] at hnames
      omega

theorem Cuts.overlaps {size : Nat} {spec : RangeSpec} {range : ByteRange size}
    (hcuts : spec.Cuts range) : spec.Overlaps size := by
  have hstart := (hcuts range.start).mp ⟨Nat.le_refl _, range.ordered⟩
  exact ⟨range.start, hstart.2, hstart.1⟩

/-- A range cuts one slice only. -/
theorem Cuts.unique {size : Nat} {spec : RangeSpec}
    {range other : ByteRange size} (hcuts : spec.Cuts range)
    (hother : spec.Cuts other) : range = other := by
  have hsame (position : Nat) :
      range.start ≤ position ∧ position ≤ range.stop ↔
        other.start ≤ position ∧ position ≤ other.stop :=
    (hcuts position).trans (hother position).symm
  obtain ⟨start, stop, hordered, hinside⟩ := range
  obtain ⟨first, last, horder, hin⟩ := other
  simp only at hsame
  have hstart := hsame start
  have hstop := hsame stop
  have hfirst := hsame first
  have hlast := hsame last
  obtain rfl : start = first := by omega
  obtain rfl : stop = last := by omega
  rfl

theorem slice_eq_some_iff {size : Nat} {spec : RangeSpec}
    {range : ByteRange size} :
    spec.slice size = some range ↔ spec.Cuts range := by
  constructor
  · exact slice_cuts
  · intro hcuts
    cases hslice : spec.slice size with
    | none => exact absurd (Cuts.overlaps hcuts) (slice_eq_none hslice)
    | some other => rw [Cuts.unique (slice_cuts hslice) hcuts]

theorem slice_eq_none_iff {size : Nat} {spec : RangeSpec} :
    spec.slice size = none ↔ ¬spec.Overlaps size := by
  constructor
  · exact slice_eq_none
  · intro hno
    cases hslice : spec.slice size with
    | none => rfl
    | some range => exact absurd (Cuts.overlaps (slice_cuts hslice)) hno

/-- The range a header spells by the grammar. -/
def documentedSpec (header : Option Text) : Option RangeSpec :=
  (header.bind rangeSides).bind fun (start, stop) => sidesSpec start stop

theorem documentedSpec_eq_some_iff {header : Option Text} {spec : RangeSpec} :
    documentedSpec header = some spec ↔
      ∃ given ∈ header, Documented given spec := by
  simp only [documentedSpec, Option.bind_eq_some_iff, Prod.exists,
    documented_iff, Option.mem_def]
  constructor
  · rintro ⟨start, stop, ⟨given, hgiven, hsides⟩, hspec⟩
    exact ⟨given, hgiven, start, stop, hsides, hspec⟩
  · rintro ⟨given, hgiven, start, stop, hsides, hspec⟩
    exact ⟨start, stop, ⟨given, hgiven, hsides⟩, hspec⟩

/-- The answer of the contract; an error is a range that overlaps nothing. -/
def specAnswer (size : Nat) :
    Option RangeSpec → Except Unit (Option (ByteRange size))
  | none => .ok none
  | some spec =>
      match spec.slice size with
      | some range => .ok (some range)
      | none => .error ()

def documentedAnswer (header : Option Text) (size : Nat) :
    Except Unit (Option (ByteRange size)) :=
  specAnswer size (documentedSpec header)

/-- The contract is kept where the parser answers as it says. -/
theorem keepsContract_iff {header : Option Text} {size : Nat} :
    KeepsContract header size ↔
      (parseByteRange header size).mapError (fun _ => ()) =
        documentedAnswer header size := by
  have hspec (spec : RangeSpec) := @documentedSpec_eq_some_iff header spec
  constructor
  · intro hkeeps
    unfold documentedAnswer specAnswer
    cases hdoc : documentedSpec header with
    | none =>
        have hnone : parseByteRange header size = .ok none := by
          apply hkeeps.ignored.mpr
          intro given hgiven spec hdocumented
          rw [(hspec spec).mpr ⟨given, hgiven, hdocumented⟩] at hdoc
          cases hdoc
        rw [hnone]
        rfl
    | some spec =>
        obtain ⟨given, hgiven, hdocumented⟩ := (hspec spec).mp hdoc
        cases hslice : spec.slice size with
        | some range =>
            rw [(hkeeps.served range).mpr
              ⟨given, hgiven, spec, hdocumented, slice_cuts hslice⟩]
            simp [Except.mapError, hslice]
        | none =>
            obtain ⟨problem, hproblem⟩ := hkeeps.refused.mpr
              ⟨given, hgiven, spec, hdocumented, slice_eq_none hslice⟩
            rw [hproblem]
            simp [Except.mapError, hslice]
  · intro hanswer
    have hok (range : Option (ByteRange size)) :
        parseByteRange header size = .ok range ↔
          documentedAnswer header size = .ok range := by
      rw [← hanswer]
      cases parseByteRange header size <;> simp [Except.mapError]
    have herror : (∃ problem, parseByteRange header size = .error problem) ↔
        documentedAnswer header size = .error () := by
      rw [← hanswer]
      cases parseByteRange header size <;> simp [Except.mapError]
    have hexists (holds : RangeSpec → Prop) :
        (∃ given ∈ header, ∃ spec, Documented given spec ∧ holds spec) ↔
          ∃ spec, documentedSpec header = some spec ∧ holds spec := by
      simp only [hspec]
      constructor
      · rintro ⟨given, hgiven, spec, hdocumented, hholds⟩
        exact ⟨spec, ⟨given, hgiven, hdocumented⟩, hholds⟩
      · rintro ⟨spec, ⟨given, hgiven, hdocumented⟩, hholds⟩
        exact ⟨given, hgiven, spec, hdocumented, hholds⟩
    unfold documentedAnswer specAnswer at hok herror
    constructor
    · intro range
      rw [hok, hexists]
      cases documentedSpec header with
      | none => simp
      | some spec =>
          simp only [Option.some.injEq, exists_eq_left', ← slice_eq_some_iff]
          cases spec.slice size <;> simp
    · rw [herror, hexists]
      cases documentedSpec header with
      | none => simp
      | some spec =>
          simp only [Option.some.injEq, exists_eq_left', ← slice_eq_none_iff]
          cases spec.slice size <;> simp
    · rw [hok]
      cases hdoc : documentedSpec header with
      | none =>
          simp only [true_iff]
          intro given hgiven spec hdocumented
          rw [(hspec spec).mpr ⟨given, hgiven, hdocumented⟩] at hdoc
          cases hdoc
      | some spec =>
          obtain ⟨given, hgiven, hdocumented⟩ := (hspec spec).mp hdoc
          have hspells : ¬∀ given ∈ header, ∀ spec, ¬Documented given spec :=
            fun hnone => hnone given hgiven spec hdocumented
          simp only [hspells, iff_false]
          cases spec.slice size <;> simp

/-! ### Which numbers are read alike -/

/-- For an empty resource the header is well formed; else `int` reads numbers
beside the dash, and two of them in order, just where the grammar has them. -/
def SidesAlike (header : Text) (size : Nat) (start stop : Text) : Prop :=
  if size = 0 then ∃ spec, Documented header spec
  else if start = [] then (intOfText stop).isSome ↔ IsDigits stop
  else if stop = [] then
    (∃ first ∈ intOfText start, 0 ≤ first) ↔ IsDigits start
  else
    (∃ first ∈ intOfText start, ∃ last ∈ intOfText stop,
      0 ≤ first ∧ first ≤ last) ↔
      IsDigits start ∧ IsDigits stop ∧ digitsValue start ≤ digitsValue stop

def RangeReadAlike (header : Option Text) (size : Nat) : Prop :=
  ∀ given ∈ header, ∀ start stop, rangeSides given = some (start, stop) →
    SidesAlike given size start stop

section Alike

variable {size : Nat} (hsize : 0 < size) {start stop : Text}

/-- A digit string is read unless it is too long. -/
theorem intOfText_digits (hdigits : IsDigits start) :
    intOfText start =
      if start.length ≤ intMaxStrDigits then some (digitsValue start : Int)
      else none := by
  rw [intOfText_of_isDigits hdigits]
  split
  · rename_i hlength
    rw [parseDigits_of_isDigits hdigits hlength]
    rfl
  · rename_i hlength
    rw [parseDigits_eq_none_of_long (Nat.lt_of_not_le hlength)]
    rfl

theorem specAnswer_of_some {spec : RangeSpec} {range : ByteRange size}
    (hslice : spec.slice size = some range) :
    specAnswer size (some spec) = .ok (some range) := by
  simp only [specAnswer, hslice]

theorem specAnswer_of_none {spec : RangeSpec}
    (hslice : spec.slice size = none) :
    specAnswer size (some spec) = .error () := by
  simp only [specAnswer, hslice]

theorem specAnswer_ne_none (spec : RangeSpec) :
    specAnswer size (some spec) ≠ .ok none := by
  cases hslice : spec.slice size with
  | none => simp [specAnswer_of_none hslice]
  | some range => simp [specAnswer_of_some hslice]

/-- The parser's answer to a range that came out as `given`. -/
def settled (given : Except RangeFailure (ByteRange size)) :
    Except Unit (Option (ByteRange size)) :=
  (settleRange given).mapError fun _ => ()

theorem settled_suffix {suffix : Int} (hint : intOfText stop = some suffix) :
    settled (suffixRange size hsize stop) =
      specAnswer size (some (.suffix suffix.toNat)) := by
  by_cases hsuffix : suffix ≤ 0
  · have hslice : RangeSpec.slice size (.suffix suffix.toNat) = none :=
      dif_neg (by omega)
    rw [specAnswer_of_none hslice]
    simp [settled, settleRange, suffixRange, rangeInt, hint, bind, Except.bind,
      Except.mapError, hsuffix]
  · have hslice : RangeSpec.slice size (.suffix suffix.toNat) =
        some ⟨size - suffix.toNat, size - 1, by omega, by omega⟩ :=
      dif_pos (by omega)
    rw [specAnswer_of_some hslice]
    simp [settled, settleRange, suffixRange, rangeInt, hint, bind, Except.bind,
      Except.mapError, hsuffix]

theorem settled_openEnded {first : Int} (hint : intOfText start = some first)
    (hfirst : 0 ≤ first) :
    settled (openEndedRange size hsize start) =
      specAnswer size (some (.openEnded first.toNat)) := by
  have hnegative : ¬first < 0 := by omega
  by_cases hpast : (size : Int) ≤ first
  · have hslice : RangeSpec.slice size (.openEnded first.toNat) = none :=
      dif_neg (by omega)
    rw [specAnswer_of_none hslice]
    simp [settled, settleRange, openEndedRange, rangeInt, hint, bind,
      Except.bind, Except.mapError, hnegative, hpast]
  · have hslice : RangeSpec.slice size (.openEnded first.toNat) =
        some ⟨first.toNat, size - 1, by omega, by omega⟩ :=
      dif_pos (by omega)
    rw [specAnswer_of_some hslice]
    simp [settled, settleRange, openEndedRange, rangeInt, hint, bind,
      Except.bind, Except.mapError, hnegative, hpast]

theorem settled_closed {first last : Int} (hstart : intOfText start = some first)
    (hstop : intOfText stop = some last) (hfirst : 0 ≤ first)
    (hlast : first ≤ last) :
    settled (closedRange size hsize start stop) =
      specAnswer size (some (.closed first.toNat last.toNat)) := by
  have hgood : ¬(first < 0 ∨ last < 0 ∨ last < first) := by omega
  by_cases hpast : (size : Int) ≤ first
  · have hslice : RangeSpec.slice size (.closed first.toNat last.toNat) = none :=
      dif_neg (by omega)
    rw [specAnswer_of_none hslice]
    simp [settled, settleRange, closedRange, rangeInt, hstart, hstop, bind,
      Except.bind, Except.mapError, hgood, hpast]
  · have hslice : RangeSpec.slice size (.closed first.toNat last.toNat) =
        some ⟨first.toNat, min last.toNat (size - 1), by omega, by omega⟩ :=
      dif_pos (by omega)
    rw [specAnswer_of_some hslice]
    simp [settled, settleRange, closedRange, rangeInt, hstart, hstop, bind,
      Except.bind, Except.mapError, hgood, hpast]

/-- Where the parser answers as to a range just when it reads one, it answers
as documented if it reads one just where the grammar has one. -/
theorem answer_eq_iff {answer : Except Unit (Option (ByteRange size))}
    {spec : Option RangeSpec} {read spelled : Prop}
    (hread : read → ∃ given, answer = specAnswer size (some given) ∧
      (spelled → spec = some given))
    (hunread : ¬read → answer = .ok none) (hspelled : ¬spelled → spec = none)
    (hspec : spelled → spec ≠ none) :
    answer = specAnswer size spec ↔ (read ↔ spelled) := by
  by_cases hreads : read
  · obtain ⟨given, hanswer, hgiven⟩ := hread hreads
    by_cases hspells : spelled
    · rw [hanswer, hgiven hspells]
      exact iff_of_true rfl (iff_of_true hreads hspells)
    · rw [hanswer, hspelled hspells]
      exact iff_of_false (specAnswer_ne_none given)
        fun halike => hspells (halike.mp hreads)
  · rw [hunread hreads]
    by_cases hspells : spelled
    · obtain ⟨given, hgiven⟩ := Option.ne_none_iff_exists'.mp (hspec hspells)
      rw [hgiven]
      exact iff_of_false (specAnswer_ne_none given).symm
        fun halike => hreads (halike.mpr hspells)
    · rw [hspelled hspells]
      exact iff_of_true rfl (iff_of_false hreads hspells)

/-- A digit string that `int` reads is read as its value. -/
theorem value_of_intOfText {number : Int} (hint : intOfText start = some number)
    (hdigits : IsDigits start) : digitsValue start = number.toNat := by
  rw [intOfText_digits hdigits] at hint
  obtain ⟨-, hvalue⟩ := Option.ite_none_right_eq_some.mp hint
  rw [← Option.some.inj hvalue]
  rfl

theorem suffixRange_alike :
    settled (suffixRange size hsize stop) =
        specAnswer size
          (if IsDigits stop then some (.suffix (digitsValue stop)) else none) ↔
      ((intOfText stop).isSome ↔ IsDigits stop) := by
  apply answer_eq_iff
  · intro hread
    obtain ⟨suffix, hint⟩ := Option.isSome_iff_exists.mp hread
    refine ⟨_, settled_suffix hsize hint, ?_⟩
    intro hdigits
    rw [if_pos hdigits, value_of_intOfText hint hdigits]
  · intro hunread
    have hint : intOfText stop = none := by simpa using hunread
    simp [settled, settleRange, suffixRange, rangeInt, hint, bind, Except.bind,
      Except.mapError]
  · exact fun hdigits => if_neg hdigits
  · intro hdigits
    rw [if_pos hdigits]
    exact Option.some_ne_none _

theorem openEndedRange_alike :
    settled (openEndedRange size hsize start) =
        specAnswer size
          (if IsDigits start then some (.openEnded (digitsValue start))
          else none) ↔
      ((∃ first ∈ intOfText start, 0 ≤ first) ↔ IsDigits start) := by
  apply answer_eq_iff
  · rintro ⟨first, hint, hfirst⟩
    refine ⟨_, settled_openEnded hsize hint hfirst, ?_⟩
    intro hdigits
    rw [if_pos hdigits, value_of_intOfText hint hdigits]
  · intro hunread
    cases hint : intOfText start with
    | none =>
        simp [settled, settleRange, openEndedRange, rangeInt, hint, bind,
          Except.bind, Except.mapError]
    | some first =>
        have hnegative : first < 0 := by
          by_contra hfirst
          exact hunread ⟨first, hint, by omega⟩
        simp [settled, settleRange, openEndedRange, rangeInt, hint, bind,
          Except.bind, Except.mapError, hnegative]
  · exact fun hdigits => if_neg hdigits
  · intro hdigits
    rw [if_pos hdigits]
    exact Option.some_ne_none _

theorem closedRange_alike :
    settled (closedRange size hsize start stop) =
        specAnswer size
          (if IsDigits start ∧ IsDigits stop ∧
              digitsValue start ≤ digitsValue stop then
            some (.closed (digitsValue start) (digitsValue stop))
          else none) ↔
      ((∃ first ∈ intOfText start, ∃ last ∈ intOfText stop,
        0 ≤ first ∧ first ≤ last) ↔
        IsDigits start ∧ IsDigits stop ∧
          digitsValue start ≤ digitsValue stop) := by
  apply answer_eq_iff
  · rintro ⟨first, hstart, last, hstop, hfirst, hlast⟩
    refine ⟨_, settled_closed hsize hstart hstop hfirst hlast, ?_⟩
    intro hdigits
    rw [if_pos hdigits, value_of_intOfText hstart hdigits.1,
      value_of_intOfText hstop hdigits.2.1]
  · intro hunread
    cases hstart : intOfText start with
    | none =>
        simp [settled, settleRange, closedRange, rangeInt, hstart, bind,
          Except.bind, Except.mapError]
    | some first =>
        cases hstop : intOfText stop with
        | none =>
            simp [settled, settleRange, closedRange, rangeInt, hstart, hstop,
              bind, Except.bind, Except.mapError]
        | some last =>
            have hbad : first < 0 ∨ last < 0 ∨ last < first := by
              by_contra hgood
              exact hunread ⟨first, hstart, last, hstop, by omega, by omega⟩
            simp [settled, settleRange, closedRange, rangeInt, hstart, hstop,
              bind, Except.bind, Except.mapError, hbad]
  · exact fun hdigits => if_neg hdigits
  · intro hdigits
    rw [if_pos hdigits]
    exact Option.some_ne_none _

/-- For an empty resource every range is refused. -/
theorem emptyResource_alike (spec : Option RangeSpec) :
    (Except.error () : Except Unit (Option (ByteRange 0))) =
        specAnswer 0 spec ↔ spec ≠ none := by
  cases spec with
  | none => simp [specAnswer]
  | some given =>
      have hslice : given.slice 0 = none := by
        apply slice_eq_none_iff.mpr
        rintro ⟨_, hposition, -⟩
        exact Nat.not_lt_zero _ hposition
      simp [specAnswer_of_none hslice]

end Alike

theorem sidesAlike_iff {header start stop : Text} {size : Nat}
    (hsides : rangeSides header = some (start, stop)) :
    (parseByteRange (some header) size).mapError (fun _ => ()) =
        specAnswer size (sidesSpec start stop) ↔
      SidesAlike header size start stop := by
  unfold SidesAlike
  by_cases hsize : size = 0
  · subst hsize
    have hspells : (∃ spec, Documented header spec) ↔
        sidesSpec start stop ≠ none := by
      rw [Option.ne_none_iff_exists']
      apply exists_congr
      intro spec
      rw [documented_iff, hsides]
      simp
    have hanswer : parseByteRange (some header) 0 = .error .emptyResource := by
      simp [parseByteRange, hsides]
    rw [if_pos rfl, hspells, ← emptyResource_alike, hanswer]
    rfl
  · have hanswer : parseByteRange (some header) size = settleRange (
        if start = [] then suffixRange size (Nat.pos_of_ne_zero hsize) stop
        else if stop = [] then
          openEndedRange size (Nat.pos_of_ne_zero hsize) start
        else closedRange size (Nat.pos_of_ne_zero hsize) start stop) := by
      simp [parseByteRange, hsides, hsize]
    rw [if_neg hsize, hanswer, sidesSpec]
    by_cases hstart : start = []
    · simp only [if_pos hstart]
      exact suffixRange_alike _
    · by_cases hstop : stop = []
      · simp only [if_neg hstart, if_pos hstop]
        exact openEndedRange_alike _
      · simp only [if_neg hstart, if_neg hstop]
        exact closedRange_alike _

/-- The parser keeps its contract just where the numbers of a header are read
alike, and the header of an empty resource is well formed. -/
theorem range_contract_iff (header : Option Text) (size : Nat) :
    KeepsContract header size ↔ RangeReadAlike header size := by
  rw [keepsContract_iff, documentedAnswer]
  cases header with
  | none => exact iff_of_true rfl nofun
  | some given =>
      cases hsides : rangeSides given with
      | none =>
          refine iff_of_true ?_ ?_
          · simp [parseByteRange, documentedSpec, hsides, specAnswer,
              Except.mapError]
          · rintro _ ⟨⟩ start stop hsome
            rw [hsides] at hsome
            cases hsome
      | some sides =>
          obtain ⟨start, stop⟩ := sides
          have hspec : documentedSpec (some given) = sidesSpec start stop := by
            simp [documentedSpec, hsides]
          rw [hspec, sidesAlike_iff hsides]
          constructor
          · rintro halike _ ⟨⟩ first last hsame
            rw [hsides] at hsame
            obtain ⟨rfl, rfl⟩ := Prod.mk.inj (Option.some.inj hsame)
            exact halike
          · intro halike
            exact halike given rfl start stop hsides

/-- A sign is read as part of a number, and of an empty resource anything with
a dash is refused. -/
theorem range_reads_sign :
    parseByteRange (some (text "bytes=+0-1")) 4 =
        .ok (some ⟨0, 1, by decide, by decide⟩) ∧
      ¬KeepsContract (some (text "bytes=+0-1")) 4 ∧
      parseByteRange (some (text "bytes=a-b")) 0 = .error .emptyResource ∧
      ¬KeepsContract (some (text "bytes=a-b")) 0 := by
  have hsign : parseByteRange (some (text "bytes=+0-1")) 4 =
      .ok (some ⟨0, 1, by decide, by decide⟩) := by
    rfl
  have hempty : parseByteRange (some (text "bytes=a-b")) 0 =
      .error .emptyResource := by
    rfl
  refine ⟨hsign, ?_, hempty, ?_⟩
  · rw [keepsContract_iff]
    decide
  · rw [keepsContract_iff]
    decide

end Localmail
