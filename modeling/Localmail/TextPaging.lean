/-
Paging a stored text by characters: a validated window, the positions it asks
the database's `substring` for, and the page a client is served with the offset
to go on from.
-/
import Localmail.QueryParse
import Mathlib.Data.PNat.Basic

namespace Localmail

/-- No stored text has as many characters. -/
def maxTextChars : Nat := 2 ^ 30

/-! ### Windows -/

inductive WindowProblem where
  | negativeOffset (offset : Int)
  | limitBelowOne (limit : Int)
deriving Repr, DecidableEq

/-- Why an offset and a limit are no window. -/
def textWindowError (offset : Int) (limit : Option Int) :
    Option WindowProblem :=
  if offset < 0 then some (.negativeOffset offset)
  else limit.bind fun most =>
    if most < 1 then some (.limitBelowOne most) else none

/-- Without a limit a window reaches to the end. -/
structure TextWindow where
  offset : Nat
  limit : Option ℕ+
deriving DecidableEq

/-- A limit of the wire, if it is one. -/
def positiveLimit (limit : Int) : Option ℕ+ :=
  if hpositive : 0 < limit.toNat then some (limit.toNat.toPNat hpositive)
  else none

def TextWindow.build (offset : Int) (limit : Option Int) :
    Except WindowProblem TextWindow :=
  match textWindowError offset limit with
  | some problem => .error problem
  | none => .ok ⟨offset.toNat, limit.bind positiveLimit⟩

namespace TextWindow

variable (window : TextWindow)

def sqlFrom : Nat := min window.offset maxTextChars + 1

def sqlFor : Option Nat :=
  window.limit.map fun (limit : ℕ+) => min (limit : Nat) maxTextChars

/-- `text[offset : offset + limit]`. -/
def slice (value : Text) : Text :=
  match window.limit with
  | none => value.drop window.offset
  | some limit => (value.drop window.offset).take limit

end TextWindow

/-! ### Pages -/

/-- What a page says of a text of `total` characters. -/
structure TextPage where
  text : Text
  offset : Nat
  limit : Option ℕ+
  total : Nat
  nextOffset : Option Nat
  within : ∀ most ∈ limit, text.length ≤ most
  next_eq : nextOffset =
    if offset + text.length < total then some (offset + text.length) else none
  advances : ∀ onward ∈ nextOffset, offset < onward

inductive PageProblem where
  | overLimit (length : Nat) (limit : Option ℕ+)
  | nextDisagrees (next : Option Nat) (offset length total : Nat)
  | notAdvancing (next : Option Nat) (offset : Nat)
deriving DecidableEq

/-- `TextPage(…)`, which checks itself. -/
def TextPage.build (text : Text) (offset : Nat) (limit : Option ℕ+)
    (total : Nat) (next : Option Nat) : Except PageProblem TextPage :=
  if hwithin : ∀ most ∈ limit, text.length ≤ most then
    if hnext : next = if offset + text.length < total then
        some (offset + text.length) else none then
      if hadvances : ∀ onward ∈ next, offset < onward then
        .ok ⟨text, offset, limit, total, next, hwithin, hnext, hadvances⟩
      else .error (.notAdvancing next offset)
    else .error (.nextDisagrees next offset text.length total)
  else .error (.overLimit text.length limit)

def TextWindow.page (window : TextWindow) (text : Text) (total : Nat) :
    Except PageProblem TextPage :=
  let stop := window.offset + text.length
  TextPage.build text window.offset window.limit total
    (if stop < total then some stop else none)

/-! ### Reading a page -/

def int4Max : Nat := 2 ^ 31 - 1

/-- What ends the reading of a page. -/
inductive TextPageFailure where
  | notFound
  | integerOutOfRange (value : Nat)
  | problem (problem : PageProblem)
deriving DecidableEq

/-- `%s::int`. -/
def castInt4 (value : Nat) : Except TextPageFailure Nat :=
  if value ≤ int4Max then .ok value else .error (.integerOutOfRange value)

/-- `substring(value from start)` and `substring(value from start for length)`
for a positive `start`.  An end that is no `int4` is the end of the value. -/
def sqlSubstring (value : Text) (start : Nat) : Option Nat → Text
  | none => value.drop (start - 1)
  | some length =>
      if int4Max < start + length then value.drop (start - 1)
      else (value.drop (start - 1)).take length

/-- `get_attachment_text_page`, for a caller who can read the blob and the text
extracted from it. -/
def attachmentTextPage (readable : Bool) (extracted : Option Text)
    (window : TextWindow) : Except TextPageFailure TextPage :=
  if readable then do
    let start ← castInt4 window.sqlFrom
    let length ← window.sqlFor.mapM castInt4
    match extracted with
    | none => .error .notFound
    | some value =>
        match window.page (sqlSubstring value start length) value.length with
        | .ok page => .ok page
        | .error problem => .error (.problem problem)
  else .error .notFound

/-- Read page after page, the one at `index` with its own limit, for at most
`fuel` pages.  None is the reading that did not end. -/
def readPages (value : Text) (limits : Nat → Option ℕ+) :
    Nat → Nat → Nat → Except TextPageFailure (Option Text)
  | 0, _, _ => .ok none
  | fuel + 1, index, offset => do
      let page ← attachmentTextPage true (some value) ⟨offset, limits index⟩
      match page.nextOffset with
      | none => return some page.text
      | some next =>
          let rest ← readPages value limits fuel (index + 1) next
          return rest.map (page.text ++ ·)

/-! ### The page of a window -/

theorem positiveLimit_eq_some_iff {limit : Int} {most : ℕ+} :
    positiveLimit limit = some most ↔ limit = ((most : Nat) : Int) := by
  have hpositive := most.pos
  unfold positiveLimit
  split
  · rw [Option.some_inj]
    constructor
    · rintro rfl
      change limit = ((limit.toNat : Nat) : Int)
      omega
    · intro hlimit
      apply PNat.eq
      change limit.toNat = most
      omega
  · simp only [reduceCtorEq, false_iff]
    omega

theorem positiveLimit_eq_none_iff {limit : Int} :
    positiveLimit limit = none ↔ limit < 1 := by
  unfold positiveLimit
  split
  · simp only [reduceCtorEq, false_iff]
    omega
  · simp only [true_iff]
    omega

/-- A window is built of just the offsets and limits that are one. -/
theorem build_eq_ok_iff {offset : Int} {limit : Option Int}
    {window : TextWindow} :
    TextWindow.build offset limit = .ok window ↔
      offset = window.offset ∧
        limit = window.limit.map fun (most : ℕ+) => ((most : Nat) : Int) := by
  obtain ⟨start, size⟩ := window
  unfold TextWindow.build textWindowError
  by_cases hoffset : offset < 0
  · have hne : offset ≠ (start : Int) := by omega
    simp [hoffset, hne]
  · have hstart : offset.toNat = start ↔ offset = (start : Int) := by omega
    cases limit with
    | none => cases size <;> simp [hoffset, hstart]
    | some most =>
        by_cases hmost : most < 1
        · have hne (limit : ℕ+) : most ≠ ((limit : Nat) : Int) := by
            have hpositive := limit.pos
            omega
          cases size <;> simp [hoffset, hmost, hne]
        · cases size <;>
            simp [hoffset, hmost, hstart, positiveLimit_eq_some_iff,
              positiveLimit_eq_none_iff]

/-- The positions asked for cut the window's slice out of every text that can
be stored. -/
theorem sqlSubstring_window (window : TextWindow) {value : Text}
    (hstored : value.length < maxTextChars) :
    sqlSubstring value window.sqlFrom window.sqlFor = window.slice value := by
  have hdrop : value.drop (window.sqlFrom - 1) = value.drop window.offset := by
    rw [TextWindow.sqlFrom, Nat.add_sub_cancel]
    rcases Nat.le_total window.offset maxTextChars with hle | hpast
    · rw [Nat.min_eq_left hle]
    · rw [Nat.min_eq_right hpast, List.drop_of_length_le (by omega),
        List.drop_of_length_le (by omega)]
  have hlength : (value.drop window.offset).length < maxTextChars := by
    rw [List.length_drop]
    omega
  cases hlimit : window.limit with
  | none =>
      simp only [TextWindow.slice, TextWindow.sqlFor, hlimit, Option.map_none,
        sqlSubstring, hdrop]
  | some limit =>
      simp only [TextWindow.slice, TextWindow.sqlFor, hlimit, Option.map_some,
        sqlSubstring, hdrop]
      split
      · rename_i hpast
        have hall : (value.drop window.offset).length ≤ limit := by
          simp only [TextWindow.sqlFrom, int4Max, maxTextChars] at hpast hlength
          omega
        rw [List.take_of_length_le hall]
      · rcases Nat.le_total (limit : Nat) maxTextChars with hle | hpast
        · rw [Nat.min_eq_left hle]
        · rw [Nat.min_eq_right hpast, List.take_of_length_le (by omega),
            List.take_of_length_le (by omega)]

theorem slice_length_le (window : TextWindow) (value : Text) :
    ∀ most ∈ window.limit, (window.slice value).length ≤ most := by
  intro most hmost
  rw [TextWindow.slice, Option.mem_def.mp hmost]
  exact List.length_take_le _ _

/-- The slice stops before the end only if it is not empty. -/
theorem offset_lt_of_slice_short {window : TextWindow} {value : Text}
    (hshort : window.offset + (window.slice value).length < value.length) :
    window.offset < window.offset + (window.slice value).length := by
  unfold TextWindow.slice at hshort ⊢
  cases hlimit : window.limit with
  | none =>
      simp only [hlimit, List.length_drop] at hshort
      omega
  | some limit =>
      simp only [hlimit, List.length_take, List.length_drop] at hshort ⊢
      have hpositive := limit.pos
      omega

/-- The page of a window's slice checks itself successfully. -/
theorem page_slice (window : TextWindow) (value : Text) :
    ∃ page, window.page (window.slice value) value.length = .ok page ∧
      page.text = window.slice value ∧ page.offset = window.offset ∧
      page.limit = window.limit ∧ page.total = value.length := by
  have hwithin := slice_length_le window value
  have hadvances : ∀ onward ∈
      (if window.offset + (window.slice value).length < value.length then
        some (window.offset + (window.slice value).length) else none),
      window.offset < onward := by
    intro onward honward
    obtain ⟨hshort, hsame⟩ := Option.ite_none_right_eq_some.mp honward
    obtain rfl := Option.some.inj hsame
    exact offset_lt_of_slice_short hshort
  refine ⟨⟨window.slice value, window.offset, window.limit, value.length, _,
    hwithin, rfl, hadvances⟩, ?_, rfl, rfl, rfl, rfl⟩
  rw [TextWindow.page, TextPage.build, dif_pos hwithin, dif_pos rfl,
    dif_pos hadvances]

/-- Every window of a text that can be stored is answered with its slice. -/
theorem attachmentTextPage_slice (window : TextWindow) {value : Text}
    (hstored : value.length < maxTextChars) :
    ∃ page, attachmentTextPage true (some value) window = .ok page ∧
      page.text = window.slice value ∧ page.offset = window.offset ∧
      page.limit = window.limit ∧ page.total = value.length := by
  obtain ⟨page, hpage, hfields⟩ := page_slice window value
  have hstart : castInt4 window.sqlFrom = .ok window.sqlFrom := by
    rw [castInt4, if_pos]
    unfold TextWindow.sqlFrom int4Max maxTextChars
    omega
  have hlength : window.sqlFor.mapM castInt4 = .ok window.sqlFor := by
    unfold TextWindow.sqlFor
    cases window.limit with
    | none => rfl
    | some limit =>
        have hcast : castInt4 (min limit maxTextChars) =
            .ok (min limit maxTextChars) := by
          rw [castInt4, if_pos]
          unfold int4Max maxTextChars
          omega
        simp only [Option.map_some, Option.mapM_some, hcast]
        rfl
  refine ⟨page, ?_, hfields⟩
  unfold attachmentTextPage
  rw [if_pos rfl, hstart, hlength]
  simp only [Except.bind, bind, sqlSubstring_window window hstored, hpage]

/-! ### Reading page after page -/

/-- The next page starts where the slice ended. -/
theorem TextPage.rest_eq {page : TextPage} {window : TextWindow}
    {value : Text} (htext : page.text = window.slice value)
    (hoffset : page.offset = window.offset)
    (htotal : page.total = value.length) :
    (∀ next ∈ page.nextOffset, next ≤ value.length ∧
      page.text ++ value.drop next = value.drop window.offset) ∧
    (page.nextOffset = none → page.text = value.drop window.offset) := by
  have hslice : (page.text).length ≤ (value.drop window.offset).length ∧
      page.text = (value.drop window.offset).take page.text.length := by
    rw [htext, TextWindow.slice]
    cases window.limit with
    | none => simp [List.take_of_length_le]
    | some limit => simp [List.length_take]
  have hnext := page.next_eq
  rw [hoffset, htotal] at hnext
  constructor
  · intro next hmem
    rw [hnext] at hmem
    obtain ⟨hshort, hsame⟩ := Option.ite_none_right_eq_some.mp hmem
    obtain rfl := Option.some.inj hsame
    refine ⟨Nat.le_of_lt hshort, ?_⟩
    rw [← List.drop_drop]
    nth_rewrite 1 [hslice.2]
    exact List.take_append_drop _ _
  · intro hend
    have hall : ¬window.offset + page.text.length < value.length := by
      intro hshort
      rw [hend, if_pos hshort] at hnext
      cases hnext
    rw [hslice.2]
    apply List.take_of_length_le
    rw [List.length_drop]
    omega

/-- From any offset on the pages give the rest of the text. -/
theorem readPages_eq {value : Text} (hstored : value.length < maxTextChars)
    (limits : Nat → Option ℕ+) (fuel index offset : Nat)
    (hfuel : value.length - offset < fuel) :
    readPages value limits fuel index offset =
      .ok (some (value.drop offset)) := by
  induction fuel generalizing index offset with
  | zero => exact absurd hfuel (Nat.not_lt_zero _)
  | succ fuel ih =>
      obtain ⟨page, hpage, htext, hoffset, -, htotal⟩ :=
        attachmentTextPage_slice ⟨offset, limits index⟩ hstored
      obtain ⟨hrest, hend⟩ := TextPage.rest_eq htext hoffset htotal
      simp only [readPages, hpage, Except.bind, bind]
      cases hnext : page.nextOffset with
      | none => exact congrArg (Except.ok ∘ some) (hend hnext)
      | some next =>
          obtain ⟨hle, hsplit⟩ := hrest next hnext
          have hadvances := page.advances next hnext
          rw [hoffset] at hadvances
          simp only at hadvances hsplit
          simp only [ih (index + 1) next (by omega), Option.map_some, hsplit]
          rfl

/-- Whatever the limits, a text that can be stored is read to its end, and
every window of it is answered with its slice. -/
theorem paging_reconstructs_text (value : Text)
    (hstored : value.length < maxTextChars) :
    (∀ (limits : Nat → Option ℕ+) (fuel : Nat), value.length < fuel →
      readPages value limits fuel 0 0 = .ok (some value)) ∧
    ∀ window : TextWindow, ∃ page,
      attachmentTextPage true (some value) window = .ok page ∧
        page.text = window.slice value ∧
        (page.nextOffset = none ↔
          ∀ limit ∈ window.limit, value.length ≤ window.offset + limit) := by
  constructor
  · intro limits fuel hfuel
    exact readPages_eq hstored limits fuel 0 0 hfuel
  · intro window
    obtain ⟨page, hpage, htext, hoffset, -, htotal⟩ :=
      attachmentTextPage_slice window hstored
    refine ⟨page, hpage, htext, ?_⟩
    rw [page.next_eq, hoffset, htotal, htext, TextWindow.slice]
    cases window.limit with
    | none => simp; omega
    | some limit =>
        simp [List.length_take, List.length_drop]
        omega

/-- Three pages of one, two and one character. -/
theorem paging_reconstructs_text_mail :
    readPages (text "mail") (fun index => if index = 1 then some 2 else some 1)
        5 0 0 = .ok (some (text "mail")) ∧
      ∃ page, attachmentTextPage true (some (text "mail")) ⟨2 ^ 40, none⟩ =
          .ok page ∧ page.text = [] ∧ page.nextOffset = none := by
  obtain ⟨hread, hwindow⟩ := paging_reconstructs_text (text "mail") (by decide)
  obtain ⟨page, hpage, htext, hnext⟩ := hwindow ⟨2 ^ 40, none⟩
  exact ⟨hread _ 5 (by decide), page, hpage, htext, hnext.mpr nofun⟩

end Localmail
