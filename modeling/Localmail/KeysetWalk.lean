/-
Walking a changing table by keyset pagination.  Rows carry a position in a
strict total order; a page serves rows past a cursor and names the position of
its last row as the next cursor.  What each page guarantees on its own adds up
over the walk, whatever happens to the table between two pages.
-/
import Localmail.OrderLimit
import Mathlib.Data.Finset.Card
import Mathlib.Data.Finset.Filter
import Mathlib.Order.RelClasses

namespace Localmail

universe u v w

variable {α : Type u} {κ : Type v} {γ : Type w}

/-- One response: the rows served, and the cursor to continue from. -/
structure KeysetPage (α : Type u) (γ : Type w) where
  rows : List α
  next : Option γ
deriving Repr, DecidableEq

/-- The first `pageSize` of the rows fetched.  A further row, fetched as a
probe, is what says that the walk goes on. -/
def probePage (pageSize : Nat) (mint : α → γ) (fetched : List α) :
    KeysetPage α γ where
  rows := fetched.take pageSize
  next :=
    if pageSize < fetched.length then
      (fetched.take pageSize).getLast?.map mint
    else none

/-- Follow the next cursor for at most `fuel` pages.  The flag says that the
last page named none. -/
def walkFrom (fetch : Nat → Option γ → KeysetPage α γ) :
    Nat → Nat → Option γ → List α × Bool
  | 0, _, _ => ([], false)
  | fuel + 1, index, cursor =>
      let page := fetch index cursor
      match page.next with
      | none => (page.rows, true)
      | some next =>
          let rest := walkFrom fetch fuel (index + 1) (some next)
          (page.rows ++ rest.1, rest.2)

/-- Page `index` of the walk, unless it ended on an earlier one. -/
def walkPage {m : Type _ → Type _} [Monad m]
    (fetch : Option γ → m (KeysetPage α γ)) :
    Nat → m (Option (KeysetPage α γ))
  | 0 => some <$> fetch none
  | index + 1 => do
      match (← walkPage fetch index).bind KeysetPage.next with
      | none => pure none
      | some next => some <$> fetch (some next)

section Walk

variable (before : κ → κ → Prop) (pos : α → κ) (place : γ → κ)

/-- The position lies strictly after the cursor; without a cursor every
position does. -/
def PastCursor (cursor : Option γ) (position : κ) : Prop :=
  ∀ start ∈ cursor, before (place start) position

/-- The rows of a page come in order, past its cursor, and the next cursor is
the position of the last one. -/
structure PageInOrder (valid : γ → Prop) (cursor : Option γ)
    (page : KeysetPage α γ) : Prop where
  past : ∀ row ∈ page.rows, PastCursor before place cursor (pos row)
  sorted : page.rows.Pairwise fun row other => before (pos row) (pos other)
  next_last : ∀ next ∈ page.next, ∃ row ∈ page.rows, pos row = place next ∧
    ∀ other ∈ page.rows, other = row ∨ before (pos other) (pos row)
  next_valid : ∀ next ∈ page.next, valid next

/-- The page does not skip `position`: it serves it, or stops before it. -/
def PageCovers (cursor : Option γ) (page : KeysetPage α γ) (position : κ) :
    Prop :=
  PastCursor before place cursor position →
    (∃ row ∈ page.rows, pos row = position) ∨
      ∃ next ∈ page.next, before (place next) position

variable {before pos place} {valid : γ → Prop}
  {fetch : Nat → Option γ → KeysetPage α γ}

theorem PageInOrder.next_past {cursor : Option γ} {page : KeysetPage α γ}
    {next : γ} (hpage : PageInOrder before pos place valid cursor page)
    (hnext : next ∈ page.next) :
    PastCursor before place cursor (place next) := by
  obtain ⟨row, hrow, hpos, -⟩ := hpage.next_last next hnext
  exact hpos ▸ hpage.past row hrow

/-- A finished walk serves every position that none of its pages skips. -/
theorem walkFrom_covers
    (hpages : ∀ index cursor, (∀ start ∈ cursor, valid start) →
      PageInOrder before pos place valid cursor (fetch index cursor))
    {position : κ} (fuel index : Nat) (cursor : Option γ)
    (hvalid : ∀ start ∈ cursor, valid start)
    (hcovers : ∀ page, index ≤ page → page < index + fuel →
      ∀ cursor, (∀ start ∈ cursor, valid start) →
        PageCovers before pos place cursor (fetch page cursor) position)
    (hpast : PastCursor before place cursor position)
    (hfinished : (walkFrom fetch fuel index cursor).2 = true) :
    ∃ row ∈ (walkFrom fetch fuel index cursor).1, pos row = position := by
  induction fuel generalizing index cursor with
  | zero => simp [walkFrom] at hfinished
  | succ fuel ih =>
      have hhere := hcovers index (Nat.le_refl _) (by omega) cursor hvalid hpast
      simp only [walkFrom] at hfinished ⊢
      split
      · rename_i hnone
        simpa [hnone] using hhere
      · rename_i next hnext
        rcases hhere with ⟨row, hrow, hpos⟩ | ⟨_, hmem, hafter⟩
        · exact ⟨row, List.mem_append_left _ hrow, hpos⟩
        · obtain rfl : next = _ := Option.mem_unique hnext hmem
          simp only [hnext] at hfinished
          obtain ⟨row, hrow, hpos⟩ := ih (index + 1) (some next)
            (by
              rintro _ ⟨⟩
              exact (hpages index cursor hvalid).next_valid next hnext)
            (fun page hle hlt => hcovers page (by omega) (by omega))
            (by rintro _ ⟨⟩; exact hafter) hfinished
          exact ⟨row, List.mem_append_right _ hrow, hpos⟩

/-- What a walk serves is served by one of its pages. -/
theorem exists_page_of_mem_walkFrom (fuel index : Nat) (cursor : Option γ)
    {row : α} (hrow : row ∈ (walkFrom fetch fuel index cursor).1) :
    ∃ page cursor, index ≤ page ∧ page < index + fuel ∧
      row ∈ (fetch page cursor).rows := by
  induction fuel generalizing index cursor with
  | zero => simp [walkFrom] at hrow
  | succ fuel ih =>
      simp only [walkFrom] at hrow
      split at hrow
      · exact ⟨index, cursor, Nat.le_refl _, by omega, hrow⟩
      · rcases List.mem_append.mp hrow with hhere | hlater
        · exact ⟨index, cursor, Nat.le_refl _, by omega, hhere⟩
        · obtain ⟨page, at_, hle, hlt, hmem⟩ := ih (index + 1) _ hlater
          exact ⟨page, at_, by omega, by omega, hmem⟩

variable [IsStrictTotalOrder κ before]

/-- In a list of strictly increasing positions, rows that could only sit at
one position occur once. -/
theorem countP_le_one_of_strict {rows : List α} {chosen : α → Bool}
    (position : κ)
    (hsorted : rows.Pairwise fun row other => before (pos row) (pos other))
    (hchosen : ∀ row ∈ rows, chosen row = true → pos row = position) :
    rows.countP chosen ≤ 1 := by
  have hfiltered := hsorted.sublist (List.filter_sublist (p := chosen))
  rw [List.countP_eq_length_filter]
  match hrows : rows.filter chosen with
  | [] => simp
  | [_] => simp
  | first :: second :: rest =>
      have hat : ∀ row ∈ rows.filter chosen, pos row = position := by
        intro row hrow
        obtain ⟨hmem, hpick⟩ := List.mem_filter.mp hrow
        exact hchosen row hmem hpick
      rw [hrows] at hfiltered hat
      have hlt := (List.pairwise_cons.mp hfiltered).1 second List.mem_cons_self
      rw [hat first List.mem_cons_self,
        hat second (List.mem_cons_of_mem _ List.mem_cons_self)] at hlt
      exact absurd hlt (irrefl position)

/-- Every row of a walk lies past the cursor it starts from. -/
theorem walkFrom_past
    (hpages : ∀ index cursor, (∀ start ∈ cursor, valid start) →
      PageInOrder before pos place valid cursor (fetch index cursor))
    (fuel index : Nat) (cursor : Option γ)
    (hvalid : ∀ start ∈ cursor, valid start) :
    ∀ row ∈ (walkFrom fetch fuel index cursor).1,
      PastCursor before place cursor (pos row) := by
  induction fuel generalizing index cursor with
  | zero => simp [walkFrom]
  | succ fuel ih =>
      have hpage := hpages index cursor hvalid
      intro row hrow
      simp only [walkFrom] at hrow
      split at hrow
      · exact hpage.past row hrow
      · rename_i next hnext
        rcases List.mem_append.mp hrow with hhere | hlater
        · exact hpage.past row hhere
        · have hafter := ih (index + 1) (some next)
            (by rintro _ ⟨⟩; exact hpage.next_valid next hnext) row hlater
          intro start hstart
          exact trans_of before (hpage.next_past hnext start hstart)
            (hafter next rfl)

/-- A walk serves its rows in strictly increasing position. -/
theorem walkFrom_sorted
    (hpages : ∀ index cursor, (∀ start ∈ cursor, valid start) →
      PageInOrder before pos place valid cursor (fetch index cursor))
    (fuel index : Nat) (cursor : Option γ)
    (hvalid : ∀ start ∈ cursor, valid start) :
    (walkFrom fetch fuel index cursor).1.Pairwise
      fun row other => before (pos row) (pos other) := by
  induction fuel generalizing index cursor with
  | zero => simp [walkFrom]
  | succ fuel ih =>
      have hpage := hpages index cursor hvalid
      simp only [walkFrom]
      split
      · exact hpage.sorted
      · rename_i next hnext
        have hnextValid : ∀ start ∈ some next, valid start := by
          rintro _ ⟨⟩
          exact hpage.next_valid next hnext
        refine List.pairwise_append.mpr
          ⟨hpage.sorted, ih (index + 1) (some next) hnextValid, ?_⟩
        intro row hrow other hother
        obtain ⟨last, -, hlast, hlargest⟩ := hpage.next_last next hnext
        have hafter : before (place next) (pos other) :=
          walkFrom_past hpages fuel (index + 1) (some next) hnextValid other
            hother next rfl
        rcases hlargest row hrow with rfl | hlt
        · rw [hlast]
          exact hafter
        · rw [hlast] at hlt
          exact trans_of before hlt hafter

/-- Once no new position appears, a walk has only as many pages left as there
are positions past its cursor. -/
theorem walkFrom_finishes_of_shrinking
    (hpages : ∀ index cursor, (∀ start ∈ cursor, valid start) →
      PageInOrder before pos place valid cursor (fetch index cursor))
    {alive : Nat → Finset κ} {settled : Nat}
    (hshrink : ∀ index, settled ≤ index → alive (index + 1) ⊆ alive index)
    (hnext : ∀ index cursor, (∀ start ∈ cursor, valid start) →
      ∀ next ∈ (fetch index cursor).next, place next ∈ alive index)
    (index : Nat) (hsettled : settled ≤ index) (cursor : Option γ)
    (hvalid : ∀ start ∈ cursor, valid start) :
    ∃ fuel, (walkFrom fetch fuel index cursor).2 = true := by
  classical
  -- The measure is the number of live positions past the cursor.
  generalize hcount : ((alive index).filter
    (PastCursor before place cursor)).card = count
  induction count using Nat.strong_induction_on generalizing index cursor with
  | _ count ih =>
      have hpage := hpages index cursor hvalid
      cases hstop : (fetch index cursor).next with
      | none => exact ⟨1, by simp [walkFrom, hstop]⟩
      | some next =>
          have hpast := hpage.next_past hstop
          have hfewer : ((alive (index + 1)).filter
              (PastCursor before place (some next))).card < count := by
            rw [← hcount]
            apply Finset.card_lt_card
            rw [Finset.ssubset_iff_of_subset]
            · refine ⟨place next, ?_, ?_⟩
              · exact Finset.mem_filter.mpr
                  ⟨hnext index cursor hvalid next hstop, hpast⟩
              · intro hmem
                exact irrefl (place next)
                  ((Finset.mem_filter.mp hmem).2 next rfl)
            · intro position hmem
              obtain ⟨halive, hafter⟩ := Finset.mem_filter.mp hmem
              refine Finset.mem_filter.mpr
                ⟨hshrink index hsettled halive, fun start hstart => ?_⟩
              exact trans_of before (hpast start hstart) (hafter next rfl)
          obtain ⟨fuel, hfuel⟩ := ih _ hfewer (index + 1) (by omega) (some next)
            (by rintro _ ⟨⟩; exact hpage.next_valid next hstop) rfl
          exact ⟨fuel + 1, by simp [walkFrom, hstop, hfuel]⟩

/-- A walk ends if from some page on no new position appears. -/
theorem walkFrom_finishes
    (hpages : ∀ index cursor, (∀ start ∈ cursor, valid start) →
      PageInOrder before pos place valid cursor (fetch index cursor))
    (alive : Nat → Finset κ) (settled : Nat)
    (hshrink : ∀ index, settled ≤ index → alive (index + 1) ⊆ alive index)
    (hnext : ∀ index cursor, (∀ start ∈ cursor, valid start) →
      ∀ next ∈ (fetch index cursor).next, place next ∈ alive index)
    (index : Nat) (cursor : Option γ)
    (hvalid : ∀ start ∈ cursor, valid start) :
    ∃ fuel, (walkFrom fetch fuel index cursor).2 = true := by
  generalize hgap : settled - index = gap
  induction gap generalizing index cursor with
  | zero =>
      exact walkFrom_finishes_of_shrinking hpages hshrink hnext index
        (by omega) cursor hvalid
  | succ gap ih =>
      cases hstop : (fetch index cursor).next with
      | none => exact ⟨1, by simp [walkFrom, hstop]⟩
      | some next =>
          obtain ⟨fuel, hfuel⟩ := ih (index + 1) (some next)
            (by
              rintro _ ⟨⟩
              exact (hpages index cursor hvalid).next_valid next hstop)
            (by omega)
          exact ⟨fuel + 1, by simp [walkFrom, hstop, hfuel]⟩

end Walk

/-! ### One page with a probe row -/

section Probe

variable {before : κ → κ → Prop} {pos : α → κ} {place : γ → κ}
  {pageSize : Nat} {mint : α → γ} {fetched : List α}

/-- A page cut from rows in order is in order. -/
theorem probePage_inOrder {valid : γ → Prop} {cursor : Option γ}
    (hmint : ∀ row, place (mint row) = pos row)
    (hvalid : ∀ row, valid (mint row))
    (hpast : ∀ row ∈ fetched, PastCursor before place cursor (pos row))
    (hsorted : fetched.Pairwise fun row other => before (pos row) (pos other)) :
    PageInOrder before pos place valid cursor
      (probePage pageSize mint fetched) := by
  have hsortedTake := hsorted.sublist (List.take_sublist pageSize fetched)
  have hminted : ∀ next ∈ (probePage pageSize mint fetched).next,
      ∃ row, (fetched.take pageSize).getLast? = some row ∧
        mint row = next := by
    intro next hnext
    simp only [probePage] at hnext
    split at hnext
    · exact Option.map_eq_some_iff.mp hnext
    · cases hnext
  refine ⟨fun row hrow => hpast row (List.mem_of_mem_take hrow), hsortedTake,
    ?_, ?_⟩
  · intro next hnext
    obtain ⟨row, hlast, rfl⟩ := hminted next hnext
    refine ⟨row, List.mem_of_getLast? hlast, (hmint row).symm, ?_⟩
    intro other hother
    obtain ⟨init, hinit⟩ := List.getLast?_eq_some_iff.mp hlast
    simp only [probePage, hinit] at hother hsortedTake
    rcases List.mem_append.mp hother with hearlier | hlastMem
    · exact Or.inr ((List.pairwise_append.mp hsortedTake).2.2 other hearlier
        row (List.mem_singleton.mpr rfl))
    · exact Or.inl (List.mem_singleton.mp hlastMem)
  · intro next hnext
    obtain ⟨row, -, rfl⟩ := hminted next hnext
    exact hvalid row

/-- The probe decides rightly: what was fetched is served or lies past the
next cursor, and what was not fetched lies past a full fetch. -/
theorem probePage_covers (hsize : 0 < pageSize) {cursor : Option γ}
    (hmint : ∀ row, place (mint row) = pos row)
    (hsorted : fetched.Pairwise fun row other => before (pos row) (pos other))
    {position : κ}
    (hfetched : PastCursor before place cursor position →
      (∃ row ∈ fetched, pos row = position) ∨
        pageSize < fetched.length ∧
          ∀ row ∈ fetched, before (pos row) position) :
    PageCovers before pos place cursor (probePage pageSize mint fetched)
      position := by
  intro hpast
  by_cases hmore : pageSize < fetched.length
  · have hnonempty : fetched.take pageSize ≠ [] := by
      intro hnil
      have := congrArg List.length hnil
      simp only [List.length_take, List.length_nil] at this
      omega
    have hlast := List.getLast?_eq_some_getLast hnonempty
    have hmem := List.getLast_mem hnonempty
    generalize (fetched.take pageSize).getLast hnonempty = last at hlast hmem
    have hnext : mint last ∈ (probePage pageSize mint fetched).next := by
      simp [probePage, hmore, hlast]
    rcases hfetched hpast with ⟨row, hrow, rfl⟩ | ⟨-, hafter⟩
    · by_cases hbefore : before (pos last) (pos row)
      · exact Or.inr ⟨_, hnext, (hmint last).symm ▸ hbefore⟩
      · exact Or.inl ⟨row, mem_take_of_not_rel hsorted hmem hrow hbefore, rfl⟩
    · exact Or.inr ⟨_, hnext,
        (hmint last).symm ▸ hafter last (List.mem_of_mem_take hmem)⟩
  · have hall : (probePage pageSize mint fetched).rows = fetched :=
      List.take_of_length_le (Nat.not_lt.mp hmore)
    rw [hall]
    exact Or.inl ((hfetched hpast).resolve_right fun hfull => hmore hfull.1)

end Probe

/-! ### One statement -/

section Agree

universe w'

variable {β : Type u} {δ : Type w'} {view : α → κ} {look : β → κ}
  {same : γ → δ → Prop} {ε : Type}

/-- Two pages show the same rows and name cursors for the same place. -/
structure PagesAgree (view : α → κ) (look : β → κ) (same : γ → δ → Prop)
    (page : KeysetPage α γ) (other : KeysetPage β δ) : Prop where
  rows : page.rows.map view = other.rows.map look
  next : Option.Rel same page.next other.next

/-- Two walks whose pages agree at cursors for the same place agree page by
page, and the first of them never fails. -/
theorem walkPage_agree {fetch : Option γ → Except ε (KeysetPage α γ)}
    {reference : Option δ → KeysetPage β δ}
    (hfetch : ∀ cursor other, Option.Rel same cursor other →
      ∃ page, fetch cursor = .ok page ∧
        PagesAgree view look same page (reference other)) (index : Nat) :
    ∃ page, walkPage fetch index = .ok page ∧
      Option.Rel (PagesAgree view look same) page
        (walkPage (m := Id) reference index) := by
  induction index with
  | zero =>
      obtain ⟨page, hpage, hagree⟩ := hfetch none none .none
      exact ⟨some page, by simp [walkPage, hpage], .some hagree⟩
  | succ index ih =>
      obtain ⟨page, hpage, hrel⟩ := ih
      have hstep : walkPage fetch (index + 1) =
          match page.bind KeysetPage.next with
          | none => .ok none
          | some next => some <$> fetch (some next) := by
        simp only [walkPage, hpage]
        rfl
      have hother : walkPage (m := Id) reference (index + 1) =
          match Option.bind (walkPage (m := Id) reference index)
            KeysetPage.next with
          | none => none
          | some next => some (reference (some next)) := by
        simp only [walkPage]
        rfl
      generalize walkPage (m := Id) reference index = other at hrel hother
      rw [hstep, hother]
      cases hrel with
      | none => exact ⟨none, rfl, .none⟩
      | some hagree =>
          rename_i here there
          have hnext := hagree.next
          simp only [Option.bind_some]
          generalize here.next = next at hnext ⊢
          generalize there.next = further at hnext ⊢
          cases hnext with
          | none => exact ⟨none, rfl, .none⟩
          | some hsame =>
              obtain ⟨page, hpage, hagree⟩ := hfetch _ _ (.some hsame)
              exact ⟨some page, by simp [hpage], .some hagree⟩

end Agree

section Statement

variable (before : κ → κ → Prop) (pos : α → κ)

/-- `ORDER BY` position. -/
def NotAfter (row other : α) : Prop := ¬ before (pos other) (pos row)

instance [DecidableRel before] : DecidableRel (NotAfter before pos) :=
  fun row other => inferInstanceAs (Decidable (¬ before (pos other) (pos row)))

variable [IsStrictTotalOrder κ before]

instance : Std.Total (NotAfter before pos) where
  total row other := by
    by_contra hneither
    obtain ⟨hfirst, hsecond⟩ := not_or.mp hneither
    exact asymm (not_not.mp hfirst) (not_not.mp hsecond)

instance : IsTrans α (NotAfter before pos) where
  trans row other third hfirst hsecond hafter := by
    rcases trichotomous_of before (pos other) (pos row) with hlt | heq | hgt
    · exact hfirst hlt
    · exact hsecond (heq ▸ hafter)
    · exact hsecond (trans_of before hafter hgt)

variable {before pos} [DecidableRel before] {limit : Nat} {rows : List α}

/-- Rows with distinct positions come out in strictly increasing position. -/
theorem orderLimit_strict (hdistinct : (rows.map pos).Nodup) :
    (orderLimit (NotAfter before pos) limit rows).Pairwise
      fun row other => before (pos row) (pos other) := by
  have hsorted := List.pairwise_insertionSort (NotAfter before pos) rows
  have hperm := List.perm_insertionSort (NotAfter before pos) rows
  have hdistinct' : (rows.insertionSort (NotAfter before pos)).Pairwise
      fun row other => pos row ≠ pos other :=
    List.pairwise_map.mp ((hperm.map pos).nodup_iff.mpr hdistinct)
  refine ((hsorted.and hdistinct').imp ?_).sublist (List.take_sublist _ _)
  rintro row other ⟨hnot, hne⟩
  rcases trichotomous_of before (pos row) (pos other) with hlt | heq | hgt
  · exact hlt
  · exact absurd heq hne
  · exact absurd hgt hnot

/-- A row that a limited statement leaves out lies after a full page. -/
theorem mem_orderLimit_or_full (hdistinct : (rows.map pos).Nodup) {row : α}
    (hrow : row ∈ rows) :
    row ∈ orderLimit (NotAfter before pos) limit rows ∨
      limit ≤ (orderLimit (NotAfter before pos) limit rows).length ∧
        ∀ other ∈ orderLimit (NotAfter before pos) limit rows,
          before (pos other) (pos row) := by
  by_cases hmem : row ∈ orderLimit (NotAfter before pos) limit rows
  · exact Or.inl hmem
  refine Or.inr ⟨?_, ?_⟩
  · by_contra hshort
    have hall : orderLimit (NotAfter before pos) limit rows =
        rows.insertionSort (NotAfter before pos) := by
      apply List.take_of_length_le
      simp only [orderLimit, List.length_take] at hshort
      omega
    rw [hall] at hmem
    exact hmem ((List.perm_insertionSort _ rows).mem_iff.mpr hrow)
  · intro other hother
    by_contra hnot
    rcases trichotomous_of before (pos row) (pos other) with hlt | heq | hgt
    · exact hmem (mem_orderLimit_of_not_rel hother hrow (not_not_intro hlt))
    · have := List.inj_on_of_nodup_map hdistinct hrow
        (mem_of_mem_orderLimit hother) heq
      exact hmem (this ▸ hother)
    · exact hnot hgt

end Statement

end Localmail
