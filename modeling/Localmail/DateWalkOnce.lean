/-
The date-ordered walk serves every message exactly once.  The cursor predicate
of either direction places a statement strictly past the cursor, except that a
dated descending cursor leaves the undated tail to the top-up; the two
statements of such a page then cover the tail between them.
-/
import Localmail.DateWalk

namespace Localmail

universe u

/-! ### The date order -/

theorem dateBefore_desc_iff (left right : Position) :
    DateBefore .desc left right ↔ DateBefore .asc right left := by
  rcases left with ⟨_ | ts, id⟩ <;> rcases right with ⟨_ | time, other⟩ <;>
    simp only [DateBefore, eq_comm]

instance dateBefore_asc_strict :
    IsStrictTotalOrder Position (DateBefore .asc) where
  irrefl := by
    rintro ⟨_ | ts, id⟩ <;> simp [DateBefore]
  trans := by
    rintro ⟨_ | ts, id⟩ ⟨_ | time, other⟩ ⟨_ | moment, third⟩ <;>
      simp only [DateBefore] <;> intros <;> first | trivial | contradiction | omega
  trichotomous := by
    rintro ⟨_ | ts, id⟩ ⟨_ | time, other⟩ hleft hright <;>
      simp only [DateBefore, Position.mk.injEq, Option.some.injEq] at *
    · exact ⟨trivial, by omega⟩
    · exact absurd trivial hleft
    · exact absurd trivial hright
    · exact ⟨by omega, by omega⟩

instance dateBefore_strict (order : SortOrder) :
    IsStrictTotalOrder Position (DateBefore order) := by
  cases order with
  | asc => exact dateBefore_asc_strict
  | desc =>
      have hswap : DateBefore .desc = Function.swap (DateBefore .asc) := by
        funext left right
        exact propext (dateBefore_desc_iff left right)
      rw [hswap]
      infer_instance

/-! ### One page -/

section Page

variable {γ : Type u} {query : WalkQuery γ} {dated undated : Snapshot γ}

/-- The cursor predicate holds of the rows strictly past the cursor, the
undated tail behind a dated descending cursor apart. -/
theorem keysetClause_iff (cursor : KeysetCursor) (row : DatedRow γ) :
    keysetClause cursor row = some true ↔
      DateBefore cursor.order cursor.position row.position ∧
        (cursor.order = .desc → cursor.ts.isSome → row.dateExpr.isSome) := by
  rcases cursor with ⟨_ | ts, cid, _ | _, walk⟩ <;>
    simp only [keysetClause, rowLess, rowGreater, KeysetCursor.position,
      DatedRow.position] <;>
    generalize row.dateExpr = expr <;>
    cases expr <;>
    simp [DateBefore] <;>
    omega

theorem positions_nodup (snapshot : Snapshot γ) (keep : DatedRow γ → Bool) :
    ((snapshot.rows.filter keep).map DatedRow.position).Nodup := by
  have hids : (snapshot.rows.map DatedRow.position).Nodup := by
    apply List.Nodup.of_map Position.id
    simpa [List.map_map, Function.comp_def, DatedRow.position] using
      snapshot.unique
  exact hids.sublist (List.filter_sublist.map _)

theorem mem_fetchRows {order : SortOrder} {snapshot : Snapshot γ}
    {cursorSql : DatedRow γ → Option Bool} {limit : Nat} {row : DatedRow γ}
    (hrow : row ∈ fetchRows query order snapshot cursorSql limit) :
    row ∈ snapshot.rows ∧ query.matching row = true ∧
      cursorSql row = some true := by
  have hmem := List.mem_filter.mp (mem_of_mem_orderLimit hrow)
  simpa using hmem

/-- One statement skips nothing: a matching row its predicate admits is
fetched, or lies after a full fetch. -/
theorem fetchRows_mem_or_full {order : SortOrder} {snapshot : Snapshot γ}
    {cursorSql : DatedRow γ → Option Bool} {limit : Nat} {row : DatedRow γ}
    (hrow : row ∈ snapshot.rows) (hmatching : query.matching row = true)
    (hcursor : cursorSql row = some true) :
    row ∈ fetchRows query order snapshot cursorSql limit ∨
      limit ≤ (fetchRows query order snapshot cursorSql limit).length ∧
        ∀ other ∈ fetchRows query order snapshot cursorSql limit,
          DateBefore order other.position row.position :=
  mem_orderLimit_or_full (positions_nodup snapshot _)
    (List.mem_filter.mpr ⟨hrow, by simp [hmatching, hcursor]⟩)

theorem fetchRows_sorted (order : SortOrder) (snapshot : Snapshot γ)
    (cursorSql : DatedRow γ → Option Bool) (limit : Nat) :
    (fetchRows query order snapshot cursorSql limit).Pairwise
      fun row other => DateBefore order row.position other.position :=
  orderLimit_strict (positions_nodup snapshot _)

/-- The rows of a page are those of its first statement, or these followed by
the top-up. -/
theorem fetchPage_cases (query : WalkQuery γ) (keyset : Option KeysetCursor)
    (order : SortOrder) (dated undated : Snapshot γ) :
    (keyset = none ∧ fetchPage query keyset order dated undated =
      fetchRows query order dated (fun _ => some true) (query.pageSize + 1)) ∨
    ∃ cursor, keyset = some cursor ∧
      let rows := fetchRows query order dated (keysetClause cursor)
        (query.pageSize + 1)
      (fetchPage query keyset order dated undated = rows ∧
        (cursor.order = .desc → cursor.ts.isSome →
          query.pageSize + 1 ≤ rows.length)) ∨
      (cursor.order = .desc ∧ cursor.ts.isSome ∧
        rows.length < query.pageSize + 1 ∧
        fetchPage query keyset order dated undated =
          rows ++ fetchRows query order undated undatedTailOnly
            (query.pageSize + 1 - rows.length)) := by
  cases keyset with
  | none => exact Or.inl ⟨rfl, by simp [fetchPage, needsUndatedTopUp]⟩
  | some cursor =>
      refine Or.inr ⟨cursor, rfl, ?_⟩
      by_cases htop : needsUndatedTopUp (some cursor)
          (fetchRows query order dated (keysetClause cursor)
            (query.pageSize + 1)).length (query.pageSize + 1) = true
      · have hshape := htop
        simp only [needsUndatedTopUp, Bool.and_eq_true, decide_eq_true_eq]
          at hshape
        exact Or.inr ⟨hshape.1.1, hshape.1.2, hshape.2,
          by simp [fetchPage, htop]⟩
      · refine Or.inl ⟨by simp [fetchPage, htop], ?_⟩
        intro hdesc hdated
        by_contra hshort
        exact htop (by simp [needsUndatedTopUp, hdesc, hdated]; omega)

/-- Descending, whatever is undated comes after whatever is dated. -/
theorem dateBefore_undated {order : SortOrder} {left right : Position}
    {ts : Int} (hdesc : order = .desc) (hleft : left.ts = some ts)
    (hright : right.ts = none) : DateBefore order left right := by
  rcases left with ⟨_, id⟩
  rcases right with ⟨_, other⟩
  cases hleft
  cases hright
  cases hdesc
  trivial

/-- Behind a dated descending cursor the first statement serves dated rows
only. -/
theorem exists_date_of_mem_fetchRows {order : SortOrder} {cursor : KeysetCursor}
    (hdesc : cursor.order = .desc) (hdated : cursor.ts.isSome) {limit : Nat}
    {row : DatedRow γ}
    (hrow : row ∈ fetchRows query order dated (keysetClause cursor) limit) :
    ∃ date, row.dateExpr = some date :=
  Option.isSome_iff_exists.mp
    (((keysetClause_iff cursor row).mp (mem_fetchRows hrow).2.2).2 hdesc hdated)

theorem dateExpr_eq_none_of_mem_topUp {order : SortOrder} {limit : Nat}
    {row : DatedRow γ}
    (hrow : row ∈ fetchRows query order undated undatedTailOnly limit) :
    row.dateExpr = none := by
  simpa [undatedTailOnly] using (mem_fetchRows hrow).2.2

/-- Every fetched row lies strictly past the cursor. -/
theorem fetchPage_past {keyset : Option KeysetCursor} {order : SortOrder}
    (horder : ∀ cursor ∈ keyset, cursor.order = order) :
    ∀ row ∈ fetchPage query keyset order dated undated,
      PastCursor (DateBefore order) KeysetCursor.position keyset
        row.position := by
  intro row hrow start hstart
  rcases fetchPage_cases query keyset order dated undated with
    ⟨rfl, -⟩ | ⟨cursor, rfl, ⟨hpage, -⟩ | ⟨hdesc, hdated, -, hpage⟩⟩
  · cases hstart
  · cases hstart
    rw [hpage] at hrow
    have hclause := (mem_fetchRows hrow).2.2
    exact horder start rfl ▸ ((keysetClause_iff start row).mp hclause).1
  · cases hstart
    rw [hpage] at hrow
    rcases List.mem_append.mp hrow with hfirst | htail
    · have hclause := (mem_fetchRows hfirst).2.2
      exact horder start rfl ▸ ((keysetClause_iff start row).mp hclause).1
    · obtain ⟨ts, hts⟩ := Option.isSome_iff_exists.mp hdated
      have hnone := dateExpr_eq_none_of_mem_topUp htail
      exact dateBefore_undated (horder start rfl ▸ hdesc) hts hnone

theorem fetchPage_sorted {keyset : Option KeysetCursor} {order : SortOrder}
    (horder : ∀ cursor ∈ keyset, cursor.order = order) :
    (fetchPage query keyset order dated undated).Pairwise
      fun row other => DateBefore order row.position other.position := by
  rcases fetchPage_cases query keyset order dated undated with
    ⟨-, hpage⟩ | ⟨cursor, rfl, ⟨hpage, -⟩ | ⟨hdesc, hdated, -, hpage⟩⟩
  · rw [hpage]
    exact fetchRows_sorted _ _ _ _
  · rw [hpage]
    exact fetchRows_sorted _ _ _ _
  · rw [hpage]
    refine List.pairwise_append.mpr
      ⟨fetchRows_sorted _ _ _ _, fetchRows_sorted _ _ _ _, ?_⟩
    intro row hrow other hother
    obtain ⟨date, hdate⟩ := exists_date_of_mem_fetchRows hdesc hdated hrow
    exact dateBefore_undated (horder cursor rfl ▸ hdesc) hdate
      (dateExpr_eq_none_of_mem_topUp hother)

/-- A position that a matching row holds in both snapshots of a page is
fetched, or lies after a full fetch. -/
theorem fetchPage_mem_or_full {keyset : Option KeysetCursor}
    {order : SortOrder} (horder : ∀ cursor ∈ keyset, cursor.order = order)
    {first second : DatedRow γ} (hfirst : first ∈ dated.rows)
    (hfirstMatching : query.matching first = true)
    (hsecond : second ∈ undated.rows)
    (hsecondMatching : query.matching second = true)
    (hsame : second.position = first.position)
    (hpast : PastCursor (DateBefore order) KeysetCursor.position keyset
      first.position) :
    (∃ row ∈ fetchPage query keyset order dated undated,
      row.position = first.position) ∨
      query.pageSize < (fetchPage query keyset order dated undated).length ∧
        ∀ row ∈ fetchPage query keyset order dated undated,
          DateBefore order row.position first.position := by
  rcases fetchPage_cases query keyset order dated undated with
    ⟨rfl, hpage⟩ | ⟨cursor, rfl, hpages⟩
  · rw [hpage]
    exact (fetchRows_mem_or_full hfirst hfirstMatching rfl).imp_left
      fun hmem => ⟨first, hmem, rfl⟩
  have hcursorOrder := horder cursor rfl
  have hbefore := hpast cursor rfl
  by_cases hclause : keysetClause cursor first = some true
  · -- The first statement reaches the position.
    have hreached : first ∈ fetchRows query order dated (keysetClause cursor)
        (query.pageSize + 1) ∨ _ :=
      fetchRows_mem_or_full hfirst hfirstMatching hclause
    rcases hpages with ⟨hpage, -⟩ | ⟨-, -, hshort, hpage⟩
    · rw [hpage]
      exact hreached.imp_left fun hmem => ⟨first, hmem, rfl⟩
    · have hmem := hreached.resolve_right fun hfull =>
        Nat.not_le.mpr hshort hfull.1
      rw [hpage]
      exact Or.inl ⟨first, List.mem_append_left _ hmem, rfl⟩
  · -- Otherwise it lies in the undated tail of a descending walk.
    have htail : cursor.order = .desc ∧ cursor.ts.isSome ∧
        first.dateExpr = none := by
      rw [keysetClause_iff, hcursorOrder] at hclause
      by_contra hnot
      refine hclause ⟨hbefore, fun hdesc hdated => ?_⟩
      by_contra hnone
      exact hnot ⟨hcursorOrder.trans hdesc, hdated,
        Option.not_isSome_iff_eq_none.mp hnone⟩
    obtain ⟨hdesc, hdated, hundated⟩ := htail
    have hahead : ∀ row ∈ fetchRows query order dated (keysetClause cursor)
        (query.pageSize + 1), DateBefore order row.position first.position := by
      intro row hrow
      obtain ⟨date, hdate⟩ := exists_date_of_mem_fetchRows hdesc hdated hrow
      exact dateBefore_undated (hcursorOrder ▸ hdesc) hdate hundated
    rcases hpages with ⟨hpage, hfull⟩ | ⟨-, -, hshort, hpage⟩
    · rw [hpage]
      exact Or.inr ⟨hfull hdesc hdated, hahead⟩
    · have hsecondUndated : undatedTailOnly second = some true := by
        have hts : second.dateExpr = first.dateExpr := congrArg Position.ts hsame
        simp [undatedTailOnly, hts, hundated]
      rw [hpage]
      rcases fetchRows_mem_or_full hsecond hsecondMatching hsecondUndated with
        hmem | ⟨hfull, hafter⟩
      · exact Or.inl ⟨second, List.mem_append_right _ hmem, hsame⟩
      · refine Or.inr ⟨?_, ?_⟩
        · rw [List.length_append]
          omega
        · intro row hrow
          rcases List.mem_append.mp hrow with hrowFirst | hrowTail
          · exact hahead row hrowFirst
          · exact hsame ▸ hafter row hrowTail

end Page

/-! ### The whole walk -/

section Walk

variable {γ : Type u} (query : WalkQuery γ) (dated undated : Nat → Snapshot γ)

/-- Both snapshots of each of the first `fuel` pages hold the message with
these dates, and it matches. -/
def PresentThroughout (fuel id : Nat) (internalDate dateSent : Option Int) :
    Prop :=
  ∀ page < fuel, ∀ snapshot ∈ [dated page, undated page],
    ∃ row ∈ snapshot.rows, row.id = id ∧ row.internalDate = internalDate ∧
      row.dateSent = dateSent ∧ query.matching row = true

/-- Wherever the first `fuel` pages see the message, it has these dates. -/
def DatesNeverChange (fuel id : Nat) (internalDate dateSent : Option Int) :
    Prop :=
  ∀ page < fuel, ∀ snapshot ∈ [dated page, undated page],
    ∀ row ∈ snapshot.rows, row.id = id →
      row.internalDate = internalDate ∧ row.dateSent = dateSent

/-- Every row of `later` was in `earlier`, with the same dates. -/
def NoNewRows (earlier later : Snapshot γ) : Prop :=
  ∀ row ∈ later.rows, ∃ old ∈ earlier.rows, old.id = row.id ∧
    old.internalDate = row.internalDate ∧ old.dateSent = row.dateSent

/-- From some page on, no statement sees a row that the one before it did
not. -/
def InsertionsStop : Prop :=
  ∃ settled, ∀ page, settled ≤ page →
    NoNewRows (dated page) (undated page) ∧
      NoNewRows (undated page) (dated (page + 1))

/-- The cursor of a walk in `order`. -/
def RunsIn (order : SortOrder) (cursor : KeysetCursor) : Prop :=
  cursor.order = order

variable {query dated undated}

theorem effectiveOrder_eq {keyset : Option KeysetCursor}
    (hruns : ∀ cursor ∈ keyset, RunsIn query.order cursor) :
    effectiveOrder query keyset = query.order := by
  cases keyset with
  | none => rfl
  | some cursor => exact hruns cursor rfl

theorem dateKeysetSearch_inOrder (page : Nat) (keyset : Option KeysetCursor)
    (hruns : ∀ cursor ∈ keyset, RunsIn query.order cursor) :
    PageInOrder (DateBefore query.order) DatedRow.position
      KeysetCursor.position (RunsIn query.order) keyset
      (dateKeysetSearch query keyset (effectiveOrder query keyset)
        (dated page) (undated page)) := by
  rw [effectiveOrder_eq hruns]
  exact probePage_inOrder (fun _ => rfl) (fun _ => rfl)
    (fetchPage_past hruns) (fetchPage_sorted hruns)

/-- A served row matches, and is in one of the two snapshots. -/
theorem exists_snapshot_of_served {keyset : Option KeysetCursor}
    {order : SortOrder} {first second : Snapshot γ} {row : DatedRow γ}
    (hrow : row ∈ (dateKeysetSearch query keyset order first second).rows) :
    ∃ snapshot ∈ [first, second], row ∈ snapshot.rows ∧
      query.matching row = true := by
  have hfetched : row ∈ fetchPage query keyset order first second :=
    List.mem_of_mem_take hrow
  have hfrom : (∃ cursorSql limit,
        row ∈ fetchRows query order first cursorSql limit) ∨
      ∃ cursorSql limit, row ∈ fetchRows query order second cursorSql limit := by
    rcases fetchPage_cases query keyset order first second with
      ⟨-, hpage⟩ | ⟨cursor, -, ⟨hpage, -⟩ | ⟨-, -, -, hpage⟩⟩
    · exact Or.inl ⟨_, _, hpage ▸ hfetched⟩
    · exact Or.inl ⟨_, _, hpage ▸ hfetched⟩
    · rw [hpage] at hfetched
      rcases List.mem_append.mp hfetched with hfirst | hsecond
      · exact Or.inl ⟨_, _, hfirst⟩
      · exact Or.inr ⟨_, _, hsecond⟩
  rcases hfrom with ⟨_, _, hfirst⟩ | ⟨_, _, hsecond⟩
  · exact ⟨first, by simp, (mem_fetchRows hfirst).1, (mem_fetchRows hfirst).2.1⟩
  · exact ⟨second, by simp, (mem_fetchRows hsecond).1,
      (mem_fetchRows hsecond).2.1⟩

theorem position_eq {row : DatedRow γ} {id : Nat}
    {internalDate dateSent : Option Int} (hid : row.id = id)
    (hinternal : row.internalDate = internalDate)
    (hsent : row.dateSent = dateSent) :
    row.position = ⟨internalDate <|> dateSent, id⟩ := by
  subst hid hinternal hsent
  rfl

theorem dateWalk_sorted (fuel : Nat) :
    (dateWalk query dated undated fuel).1.Pairwise
      fun row other => DateBefore query.order row.position other.position :=
  walkFrom_sorted (fun page => dateKeysetSearch_inOrder page) fuel 0 none
    (by simp)

theorem dateWalk_at_most_once {fuel id : Nat}
    {internalDate dateSent : Option Int}
    (hdates : DatesNeverChange dated undated fuel id internalDate dateSent) :
    (dateWalk query dated undated fuel).1.countP (fun row => row.id = id) ≤
      1 := by
  refine countP_le_one_of_strict ⟨internalDate <|> dateSent, id⟩
    (dateWalk_sorted fuel) ?_
  intro row hrow hid
  have hrowId : row.id = id := by simpa using hid
  obtain ⟨page, cursor, -, hlt, hserved⟩ :=
    exists_page_of_mem_walkFrom fuel 0 none hrow
  obtain ⟨snapshot, hsnapshot, hmem, -⟩ := exists_snapshot_of_served hserved
  obtain ⟨hinternal, hsent⟩ :=
    hdates page (by omega) snapshot hsnapshot row hmem hrowId
  exact position_eq hrowId hinternal hsent

theorem PresentThroughout.datesNeverChange {fuel id : Nat}
    {internalDate dateSent : Option Int}
    (hpresent : PresentThroughout query dated undated fuel id internalDate
      dateSent) :
    DatesNeverChange dated undated fuel id internalDate dateSent := by
  intro page hpage snapshot hsnapshot row hrow hid
  obtain ⟨held, hheld, hheldId, hinternal, hsent, -⟩ :=
    hpresent page hpage snapshot hsnapshot
  obtain rfl := List.inj_on_of_nodup_map snapshot.unique hrow hheld
    (hid.trans hheldId.symm)
  exact ⟨hinternal, hsent⟩

theorem dateWalk_serves (hsize : 1 ≤ query.pageSize) {fuel id : Nat}
    {internalDate dateSent : Option Int}
    (hpresent : PresentThroughout query dated undated fuel id internalDate
      dateSent)
    (hfinished : (dateWalk query dated undated fuel).2 = true) :
    ∃ row ∈ (dateWalk query dated undated fuel).1, row.id = id := by
  have hserved : ∃ row ∈ (dateWalk query dated undated fuel).1,
      row.position = ⟨internalDate <|> dateSent, id⟩ := by
    refine walkFrom_covers (fun page => dateKeysetSearch_inOrder page) fuel 0
      none (by simp) ?_ (fun _ hnone => nomatch hnone) hfinished
    intro page _ hpage keyset hruns
    obtain ⟨first, hfirst, hid, hinternal, hsent, hmatching⟩ :=
      hpresent page (by omega) (dated page) (by simp)
    obtain ⟨second, hsecond, hid', hinternal', hsent', hmatching'⟩ :=
      hpresent page (by omega) (undated page) (by simp)
    have hposition := position_eq hid hinternal hsent
    have hposition' := position_eq hid' hinternal' hsent'
    rw [effectiveOrder_eq hruns, ← hposition]
    refine probePage_covers hsize ?_ (fetchPage_sorted hruns) ?_
    · exact fun _ => rfl
    · exact fetchPage_mem_or_full hruns hfirst hmatching hsecond hmatching'
        (hposition'.trans hposition.symm)
  obtain ⟨row, hrow, hposition⟩ := hserved
  exact ⟨row, hrow, congrArg Position.id hposition⟩

theorem dateWalk_finishes (hstop : InsertionsStop dated undated) :
    ∃ fuel, (dateWalk query dated undated fuel).2 = true := by
  obtain ⟨settled, hsettled⟩ := hstop
  let positions : Snapshot γ → Finset Position := fun snapshot =>
    (snapshot.rows.map DatedRow.position).toFinset
  have hsub : ∀ earlier later : Snapshot γ, NoNewRows earlier later →
      positions later ⊆ positions earlier := by
    intro earlier later hnone position hmem
    simp only [positions, List.mem_toFinset, List.mem_map] at hmem ⊢
    obtain ⟨row, hrow, rfl⟩ := hmem
    obtain ⟨old, hold, hid, hinternal, hsent⟩ := hnone row hrow
    exact ⟨old, hold, (position_eq hid hinternal hsent).trans
      (position_eq rfl rfl rfl).symm⟩
  refine walkFrom_finishes (fun page => dateKeysetSearch_inOrder page)
    (fun page => positions (dated page) ∪ positions (undated page)) settled
    ?_ ?_ 0 none (by simp)
  · intro page hpage
    obtain ⟨-, hnext⟩ := hsettled page hpage
    obtain ⟨hwithin, -⟩ := hsettled (page + 1) (by omega)
    have hdated := hsub _ _ hnext
    refine Finset.union_subset ?_ ?_
    · exact hdated.trans Finset.subset_union_right
    · exact ((hsub _ _ hwithin).trans hdated).trans Finset.subset_union_right
  · intro page keyset hruns next hnext
    obtain ⟨row, hrow, hposition, -⟩ :=
      (dateKeysetSearch_inOrder page keyset hruns).next_last next hnext
    obtain ⟨snapshot, hsnapshot, hmem, -⟩ := exists_snapshot_of_served hrow
    have hin : next.position ∈ positions snapshot := by
      rw [← hposition]
      exact List.mem_toFinset.mpr (List.mem_map_of_mem hmem)
    rcases List.mem_pair.mp hsnapshot with rfl | rfl
    · exact Finset.mem_union_left _ hin
    · exact Finset.mem_union_right _ hin

end Walk

/-- The date-ordered walk is exactly-once, whatever snapshots its statements
read: rows come in the order of `DATE_ORDER_BY_SQL`, no message whose dates
never change is served twice, one present with unchanged dates throughout is
served exactly once, and the walk ends once insertions stop. -/
theorem date_walk_exactly_once {γ : Type u} (query : WalkQuery γ)
    (hsize : 1 ≤ query.pageSize) (dated undated : Nat → Snapshot γ) :
    (∀ fuel, (dateWalk query dated undated fuel).1.Pairwise
      fun row other => DateBefore query.order row.position other.position) ∧
    (∀ fuel id internalDate dateSent,
      DatesNeverChange dated undated fuel id internalDate dateSent →
        (dateWalk query dated undated fuel).1.countP
          (fun row => row.id = id) ≤ 1) ∧
    (∀ fuel id internalDate dateSent,
      PresentThroughout query dated undated fuel id internalDate dateSent →
        (dateWalk query dated undated fuel).2 = true →
          (dateWalk query dated undated fuel).1.countP
            (fun row => row.id = id) = 1) ∧
    (InsertionsStop dated undated →
      ∃ fuel, (dateWalk query dated undated fuel).2 = true) := by
  refine ⟨dateWalk_sorted, fun _ _ _ _ => dateWalk_at_most_once, ?_,
    dateWalk_finishes⟩
  intro fuel id internalDate dateSent hpresent hfinished
  obtain ⟨row, hrow, hid⟩ := dateWalk_serves hsize hpresent hfinished
  have hatMost : (dateWalk query dated undated fuel).1.countP _ ≤ 1 :=
    dateWalk_at_most_once hpresent.datesNeverChange
  have hatLeast : 0 < (dateWalk query dated undated fuel).1.countP
      (fun row => row.id = id) :=
    List.countP_pos_iff.mpr ⟨row, hrow, by simpa using hid⟩
  omega

namespace DateWalkWitness

def row (id : Nat) (internalDate dateSent : Option Int) : DatedRow Unit :=
  ⟨id, internalDate, dateSent, ()⟩

/-- Two dated messages that tie, and two without a date. -/
def archive : Snapshot Unit :=
  ⟨[row 1 none none, row 2 (some 7) none, row 3 none (some 7),
    row 4 none none], by decide⟩

def query : WalkQuery Unit := ⟨1, .desc, .archive, fun _ => true⟩

end DateWalkWitness

open DateWalkWitness in
/-- A descending walk over a still archive, one message a page: the tied dates
by id, then the undated tail. -/
theorem date_walk_exactly_once_archive :
    (dateWalk query (fun _ => archive) (fun _ => archive) 4).1.map
        DatedRow.id = [3, 2, 4, 1] ∧
      (dateWalk query (fun _ => archive) (fun _ => archive) 4).1.countP
        (fun row => row.id = 4) = 1 := by
  refine ⟨by decide, ?_⟩
  refine (date_walk_exactly_once query (by decide) (fun _ => archive)
    (fun _ => archive)).2.2.1 4 4 none none ?_ (by decide)
  intro page _ snapshot hsnapshot
  refine ⟨row 4 none none, ?_, rfl, rfl, rfl, rfl⟩
  have hsame : snapshot = archive := by simpa using hsnapshot
  rw [hsame]
  decide

end Localmail
