/-
`list_messages`, the browse endpoint, and the descending walk of a blank search
are one walk.  The two compose their statements separately: the account filter
is an intersection on one side and a clamp on the other, browse joins the
account of every message, and each side has its own rule for the undated tail.
-/
import Localmail.SearchGrant

namespace Localmail

universe v

/-! ### The tables -/

structure AccountRow where
  id : Nat
  name : Text
deriving Repr, DecidableEq

structure FolderLabel where
  messageId : Nat
  mailboxId : Nat
deriving Repr, DecidableEq

/-- The tables both walks read; a message row's header is its account, which
the foreign key keeps in `accounts`. -/
structure BrowseTables where
  accounts : List AccountRow
  messages : Snapshot Nat
  labels : List FolderLabel
  unique : (accounts.map AccountRow.id).Nodup
  owned : ∀ row ∈ messages.rows, row.header ∈ accounts.map AccountRow.id

/-- `EXISTS (SELECT 1 FROM message_labels … mailbox_id = ANY(ids))`. -/
def BrowseTables.labelledAny (tables : BrowseTables) (ids : List Int)
    (messageId : Nat) : Bool :=
  tables.labels.any fun label =>
    label.messageId = messageId && (label.mailboxId : Int) ∈ ids

/-- `FROM messages m JOIN accounts a ON a.id = m.account_id`. -/
def BrowseTables.joined (tables : BrowseTables) : List (DatedRow AccountRow) :=
  tables.messages.rows.flatMap fun row =>
    (tables.accounts.filter fun account => account.id = row.header).map
      fun account => ⟨row.id, row.internalDate, row.dateSent, account⟩

/-! ### Browse -/

/-- One `AND` part of `build_where`, with its parameters. -/
inductive BrowseClause where
  | accountAny (ids : List Int)
  | folderAny (ids : List Int)
  | undated
  | idBelow (id : Nat)
  | rowBelow (ts : Int) (id : Nat)
deriving Repr, DecidableEq

def BrowseClause.holds (tables : BrowseTables) (row : DatedRow AccountRow) :
    BrowseClause → Option Bool
  | .accountAny ids => some ((row.header.id : Int) ∈ ids)
  | .folderAny ids => some (tables.labelledAny ids row.id)
  | .undated => some row.dateExpr.isNone
  | .idBelow id => some (row.id < id)
  | .rowBelow ts id => rowLess row.dateExpr row.id ts id

/-- The clauses every mode of `build_where` starts with. -/
def browseFilters (accountIds : List Int) (folderIds : Option (List Int)) :
    List BrowseClause :=
  .accountAny accountIds ::
    match folderIds with
    | none | some [] => []
    | some ids => [.folderAny ids]

/-- `build_where`, in its four modes. -/
def buildWhere (accountIds : List Int) (folderIds : Option (List Int))
    (cursor : Option Position) (nullTailOnly : Bool) :
    Except String (List BrowseClause) :=
  let clauses := browseFilters accountIds folderIds
  match nullTailOnly, cursor with
  | true, some _ =>
      .error "null_tail_only is only used by the top-up step; cursor must be None"
  | true, none => .ok (clauses ++ [.undated])
  | false, none => .ok clauses
  | false, some ⟨none, id⟩ => .ok (clauses ++ [.undated, .idBelow id])
  | false, some ⟨some ts, id⟩ => .ok (clauses ++ [.rowBelow ts id])

/-- `_fetch_rows`. -/
def browseRows (tables : BrowseTables) (accountIds : List Int)
    (folderIds : Option (List Int)) (cursor : Option Position) (limit : Nat)
    (nullTailOnly : Bool) : Except String (List (DatedRow AccountRow)) := do
  let clauses ← buildWhere accountIds folderIds cursor nullTailOnly
  .ok (orderLimit (NotAfter (DateBefore .desc) DatedRow.position) limit
    (tables.joined.filter fun row =>
      clauses.all fun clause => clause.holds tables row == some true))

/-- `_intersect_account_ids`. -/
def intersectAccountIds (allowed : List Int) (requested : Option (List Int)) :
    List Int :=
  match requested with
  | none | some [] => allowed
  | some ids => sortedSet (allowed.filter (· ∈ ids))

/-- A message on the wire; its subject and sender are only carried along. -/
structure BrowsedMessage where
  messageId : Nat
  date : Option Int
  account : AccountRow
deriving Repr, DecidableEq

/-- The rows of one response, the probe row included: the statement past the
cursor, and the undated tail when a dated cursor leaves the page short. -/
def browseFetch (tables : BrowseTables) (effective : List Int)
    (folderIds : Option (List Int)) (limit : Nat) (cursor : Option Position) :
    Except String (List (DatedRow AccountRow)) := do
  let fetchLimit := limit + 1
  let rows ← browseRows tables effective folderIds cursor fetchLimit false
  if (cursor.bind Position.ts).isSome ∧ rows.length < fetchLimit then
    let remaining := fetchLimit - rows.length
    let tail ← browseRows tables effective folderIds none remaining true
    .ok (rows ++ tail)
  else .ok rows

/-- `list_messages`, on a cursor already decoded. -/
def listMessages (tables : BrowseTables) (allowed : List Int)
    (accountIds folderIds : Option (List Int)) (limit : Nat)
    (cursor : Option Position) :
    Except String (KeysetPage BrowsedMessage Position) :=
  if allowed = [] then .ok ⟨[], none⟩
  else
    let effective := intersectAccountIds allowed accountIds
    if effective = [] then .ok ⟨[], none⟩
    else do
      let rows ← browseFetch tables effective folderIds limit cursor
      let page := probePage limit DatedRow.position rows
      .ok
        { rows := page.rows.map fun row => ⟨row.id, row.dateExpr, row.header⟩
          next := page.next }

/-! ### The search with the same filters -/

/-- A blank query that only filters by account and folder. -/
def blankQuery (accountIds folderIds : Option (List Int)) : ParsedQuery where
  freeText := []
  rewrittenText := none
  expansionTerms := []
  filters :=
    { SearchFilters.unset with accountIds := accountIds, folderIds := folderIds }

/-- Statements answered from the tables. -/
def Answers.over {σ : Type v} (answers : Answers σ) (tables : BrowseTables) :
    Answers σ :=
  { answers with
    holds := fun clause messageId =>
      match clause with
      | .folderIdAny ids => tables.labelledAny ids messageId
      | clause => answers.holds clause messageId
    dated := tables.messages
    undated := tables.messages }

section Search

variable {σ : Type v} (rules : TextRules) (answers : Answers σ)
  (tables : BrowseTables) (allowed : List Int)
  (accountIds folderIds : Option (List Int)) (limit : Nat)

/-- What `_date_keyset_search` walks for the blank query under the grant. -/
def blankWalkQuery : WalkQuery Nat :=
  walkQuery rules (answers.over tables)
    (clampAccountIdsToAcl (blankQuery accountIds folderIds) (some allowed))
    limit .desc

/-- One page of the blank descending search. -/
def blankSearch (keyset : Option KeysetCursor) :
    KeysetPage (DatedRow Nat) KeysetCursor :=
  dateKeysetSearch
    (blankWalkQuery rules answers tables allowed accountIds folderIds limit)
    keyset .desc tables.messages tables.messages

end Search

/-! ### The filters agree -/

/-- A joined row without the account's name. -/
def unjoined (row : DatedRow AccountRow) : DatedRow Nat :=
  ⟨row.id, row.internalDate, row.dateSent, row.header.id⟩

@[simp] theorem unjoined_id (row : DatedRow AccountRow) :
    (unjoined row).id = row.id := rfl

@[simp] theorem unjoined_dateExpr (row : DatedRow AccountRow) :
    (unjoined row).dateExpr = row.dateExpr := rfl

@[simp] theorem unjoined_position (row : DatedRow AccountRow) :
    (unjoined row).position = row.position := rfl

/-- The join neither drops nor repeats a message. -/
theorem BrowseTables.joined_unjoined (tables : BrowseTables) :
    tables.joined.map unjoined = tables.messages.rows := by
  have hone : ∀ row ∈ tables.messages.rows,
      ((tables.accounts.filter fun account => account.id = row.header).map
        fun account => (⟨row.id, row.internalDate, row.dateSent, account⟩ :
          DatedRow AccountRow)).map unjoined = [row] := by
    intro row hrow
    have hids : (tables.accounts.filter fun account =>
        account.id = row.header).map AccountRow.id = [row.header] := by
      change List.map AccountRow.id
        (List.filter ((fun id => decide (id = row.header)) ∘ AccountRow.id) _) = _
      rw [← List.filter_map, List.filter_eq,
        List.count_eq_one_of_mem tables.unique (tables.owned row hrow)]
      rfl
    rw [List.map_map]
    change List.map ((fun id => (⟨row.id, row.internalDate, row.dateSent, id⟩ :
      DatedRow Nat)) ∘ AccountRow.id) _ = _
    rw [← List.map_map, hids]
    rfl
  rw [BrowseTables.joined, List.map_flatMap,
    List.flatMap_congr hone, List.flatMap_singleton']

/-- The clamp and the intersection leave the same accounts; the sentinel is
none. -/
theorem mem_clampedIds_iff (requested : Option (List Int)) (allowed : List Int)
    (accountId : Nat) :
    (accountId : Int) ∈ clampedIds requested allowed ↔
      (accountId : Int) ∈ intersectAccountIds allowed requested := by
  have hsentinel : ∀ clamped : List Int,
      ((accountId : Int) ∈ if clamped = [] then [noAccountSentinel]
        else clamped) ↔ (accountId : Int) ∈ clamped := by
    intro clamped
    split
    · rename_i hempty
      simp [hempty, noAccountSentinel]
    · rfl
  unfold clampedIds intersectAccountIds
  dsimp only
  rw [hsentinel]
  rcases requested with _ | _ | ⟨first, rest⟩
  · exact mem_sortedSet
  · exact mem_sortedSet
  · simp only [mem_sortedSet, List.mem_filter, decide_eq_true_eq, and_comm]

section Agree

variable {σ : Type v} {rules : TextRules} {answers : Answers σ}
  {tables : BrowseTables} {allowed : List Int}
  {accountIds folderIds : Option (List Int)} {limit : Nat}

/-- The filters of the blank search are the account and folder clauses of
browse. -/
theorem blankWalkQuery_matching (row : DatedRow AccountRow) :
    (blankWalkQuery rules answers tables allowed accountIds folderIds
      limit).matching (unjoined row) =
    (browseFilters (intersectAccountIds allowed accountIds) folderIds).all
      fun clause => clause.holds tables row == some true := by
  have hids : listClause .accountAny (some (clampedIds accountIds allowed)) =
      [.accountAny (clampedIds accountIds allowed)] := by
    have hnonempty := clampedIds_nonempty accountIds allowed
    cases hclamped : clampedIds accountIds allowed with
    | nil => exact absurd hclamped hnonempty
    | cons _ _ => rfl
  have hwhere : messageWhere rules (clampAccountIdsToAcl
      (blankQuery accountIds folderIds) (some allowed)) =
        .accountAny (clampedIds accountIds allowed) ::
          listClause .folderIdAny folderIds := by
    have hexcluded : excludedText rules [] = [] := rfl
    have hnames : listClause .folderNameAny none = [] := rfl
    have hlanguages : listClause .languageAny none = [] := rfl
    have haccounts : listClause .accountAny none = [] := rfl
    simp [messageWhere, hexcluded, clampAccountIdsToAcl, filterSql, hids,
      blankQuery, SearchFilters.unset, hnames, hlanguages, haccounts,
      substrClause, scalarClause]
  have hholds : (blankWalkQuery rules answers tables allowed accountIds
      folderIds limit).matching (unjoined row) =
        whereHolds (answers.over tables).holds row.header.id row.id
          (.accountAny (clampedIds accountIds allowed) ::
            listClause .folderIdAny folderIds) := by
    have hfree : (clampAccountIdsToAcl (blankQuery accountIds folderIds)
        (some allowed)).freeText = [] := rfl
    have hwalk : walkForText [] = .archive := rfl
    simp only [blankWalkQuery, walkQuery, hfree, hwalk, hwhere, unjoined,
      decide_true, Bool.true_or, Bool.true_and]
  rw [hholds]
  rcases folderIds with _ | _ | ⟨first, rest⟩ <;>
    simp [whereHolds, listClause, mem_clampedIds_iff, Answers.over,
      browseFilters, BrowseClause.holds]

/-! ### One page -/

/-- The cursor predicate of a search page. -/
def keysetSql (keyset : Option KeysetCursor) : DatedRow Nat → Option Bool :=
  match keyset with
  | none => fun _ => some true
  | some cursor => keysetClause cursor

/-- A browse statement that adds the search statement's cursor predicate to
its filters fetches the same rows. -/
theorem browseRows_of_buildWhere {effective : List Int}
    (heffective : effective = intersectAccountIds allowed accountIds)
    {cursor : Option Position} {nullTailOnly : Bool} {extra : List BrowseClause}
    {cursorSql : DatedRow Nat → Option Bool}
    (hwhere : buildWhere effective folderIds cursor nullTailOnly =
      .ok (browseFilters effective folderIds ++ extra))
    (hextra : ∀ row : DatedRow AccountRow,
      (extra.all fun clause => clause.holds tables row == some true) =
        (cursorSql (unjoined row) == some true)) (count : Nat) :
    ∃ rows, browseRows tables effective folderIds cursor count nullTailOnly =
        .ok rows ∧
      rows.map unjoined = fetchRows
        (blankWalkQuery rules answers tables allowed accountIds folderIds limit)
        .desc tables.messages cursorSql count := by
  refine ⟨_, by rw [browseRows, hwhere]; rfl, ?_⟩
  have hfilter : (tables.joined.filter fun row =>
      (browseFilters effective folderIds ++ extra).all fun clause =>
        clause.holds tables row == some true).map unjoined =
      tables.messages.rows.filter fun row =>
        (blankWalkQuery rules answers tables allowed accountIds folderIds
          limit).matching row && cursorSql row == some true := by
    rw [← tables.joined_unjoined, List.filter_map]
    apply congrArg (List.map unjoined)
    apply List.filter_congr
    intro row _
    rw [Function.comp_apply, blankWalkQuery_matching, List.all_append, hextra,
      heffective]
  rw [fetchRows, orderLimit, orderLimit, ← hfilter, List.map_take]
  congr 1
  apply List.map_insertionSort
  intro row _ other _
  rfl

/-- The statement past the cursor, in whichever of the three modes. -/
theorem browseRows_keyset (rules : TextRules) (answers : Answers σ)
    (tables : BrowseTables) (allowed : List Int)
    (accountIds folderIds : Option (List Int)) (limit : Nat)
    (keyset : Option KeysetCursor)
    (horder : ∀ cursor ∈ keyset, cursor.order = .desc) (count : Nat) :
    ∃ rows, browseRows tables (intersectAccountIds allowed accountIds)
        folderIds (keyset.map KeysetCursor.position) count false = .ok rows ∧
      rows.map unjoined = fetchRows
        (blankWalkQuery rules answers tables allowed accountIds folderIds limit)
        .desc tables.messages (keysetSql keyset) count := by
  cases keyset with
  | none =>
      apply browseRows_of_buildWhere rfl (by rw [List.append_nil]; rfl)
      intro row
      rfl
  | some keyset =>
      obtain ⟨ts, id, order, walk⟩ := keyset
      obtain rfl : order = .desc := horder _ rfl
      cases ts with
      | none =>
          apply browseRows_of_buildWhere rfl rfl
          intro row
          rw [Bool.eq_iff_iff]
          simp only [List.all_cons, BrowseClause.holds, keysetSql, keysetClause,
            List.all_nil, Bool.and_eq_true, beq_iff_eq, Option.some.injEq,
            unjoined_id, unjoined_dateExpr, and_true]
          rfl
      | some ts =>
          apply browseRows_of_buildWhere rfl rfl
          intro row
          simp [BrowseClause.holds, keysetSql, keysetClause]

/-- The top-up statement. -/
theorem browseRows_undated (rules : TextRules) (answers : Answers σ)
    (tables : BrowseTables) (allowed : List Int)
    (accountIds folderIds : Option (List Int)) (limit count : Nat) :
    ∃ rows, browseRows tables (intersectAccountIds allowed accountIds)
        folderIds none count true = .ok rows ∧
      rows.map unjoined = fetchRows
        (blankWalkQuery rules answers tables allowed accountIds folderIds limit)
        .desc tables.messages undatedTailOnly count := by
  apply browseRows_of_buildWhere rfl rfl
  intro row
  simp [BrowseClause.holds, undatedTailOnly]

/-- Without an account to read, the search fetches nothing either. -/
theorem fetchRows_of_no_account
    (hnone : intersectAccountIds allowed accountIds = [])
    (cursorSql : DatedRow Nat → Option Bool) (count : Nat) :
    fetchRows
      (blankWalkQuery rules answers tables allowed accountIds folderIds limit)
      .desc tables.messages cursorSql count = [] := by
  apply List.eq_nil_iff_forall_not_mem.mpr
  intro row hrow
  obtain ⟨hmem, hmatching, -⟩ := mem_fetchRows hrow
  rw [← tables.joined_unjoined] at hmem
  obtain ⟨joined, -, rfl⟩ := List.mem_map.mp hmem
  rw [blankWalkQuery_matching, hnone] at hmatching
  simp [browseFilters, BrowseClause.holds] at hmatching

theorem blankSearch_of_no_account
    (hnone : intersectAccountIds allowed accountIds = [])
    (keyset : Option KeysetCursor) :
    blankSearch rules answers tables allowed accountIds folderIds limit keyset =
      ⟨[], none⟩ := by
  have hrows : fetchPage (blankWalkQuery rules answers tables allowed accountIds
      folderIds limit) keyset .desc tables.messages tables.messages = [] := by
    simp [fetchPage, fetchRows_of_no_account hnone]
  simp [blankSearch, dateKeysetSearch, hrows, probePage]

/-- The cursors of the two sides name one place, and the search's runs
downwards. -/
def SamePlace (cursor : Position) (keyset : KeysetCursor) : Prop :=
  cursor = keyset.position ∧ keyset.order = .desc

theorem samePlace_map {cursor : Option Position} {keyset : Option KeysetCursor}
    (hsame : Option.Rel SamePlace cursor keyset) :
    cursor = keyset.map KeysetCursor.position ∧
      ∀ start ∈ keyset, start.order = .desc := by
  cases hsame with
  | none => exact ⟨rfl, by simp⟩
  | some hplace =>
      refine ⟨congrArg some hplace.1, ?_⟩
      rintro _ ⟨⟩
      exact hplace.2

/-- The two sides top up a page on the same condition. -/
theorem needsUndatedTopUp_iff {keyset : Option KeysetCursor}
    (horder : ∀ start ∈ keyset, start.order = .desc) (fetched count : Nat) :
    needsUndatedTopUp keyset fetched count = true ↔
      ((keyset.map KeysetCursor.position).bind Position.ts).isSome ∧
        fetched < count := by
  cases keyset with
  | none => simp [needsUndatedTopUp]
  | some start =>
      simp [needsUndatedTopUp, horder start rfl, KeysetCursor.position]

/-- The statements of one response fetch what the search fetches for it. -/
theorem browseFetch_agree (rules : TextRules) (answers : Answers σ)
    (keyset : Option KeysetCursor)
    (horder : ∀ start ∈ keyset, start.order = .desc) :
    ∃ rows, browseFetch tables (intersectAccountIds allowed accountIds)
        folderIds limit (keyset.map KeysetCursor.position) = .ok rows ∧
      rows.map unjoined = fetchPage
        (blankWalkQuery rules answers tables allowed accountIds folderIds limit)
        keyset .desc tables.messages tables.messages := by
  obtain ⟨dated, hdated, hrows⟩ := browseRows_keyset rules answers tables
    allowed accountIds folderIds limit keyset horder (limit + 1)
  obtain ⟨tail, htail, hundated⟩ := browseRows_undated rules answers tables
    allowed accountIds folderIds limit (limit + 1 - dated.length)
  have hlength := congrArg List.length hrows
  rw [List.length_map] at hlength
  have hpage : fetchPage
      (blankWalkQuery rules answers tables allowed accountIds folderIds limit)
      keyset .desc tables.messages tables.messages =
        if needsUndatedTopUp keyset dated.length (limit + 1) then
          dated.map unjoined ++ tail.map unjoined
        else dated.map unjoined := by
    rw [hundated, hrows, hlength]
    rfl
  rw [hpage, browseFetch, hdated]
  by_cases htop : needsUndatedTopUp keyset dated.length (limit + 1) = true
  · refine ⟨dated ++ tail, ?_, ?_⟩
    · have hcond := (needsUndatedTopUp_iff horder _ _).mp htop
      change (if _ then _ else _) = _
      rw [if_pos hcond, htail]
      rfl
    · rw [if_pos htop, List.map_append]
  · refine ⟨dated, ?_, ?_⟩
    · have hcond := mt (needsUndatedTopUp_iff horder _ _).mpr htop
      change (if _ then _ else _) = _
      rw [if_neg hcond]
    · rw [if_neg htop]

/-- Pages cut from the same rows agree. -/
theorem probePage_agree {rows : List (DatedRow AccountRow)}
    {fetched : List (DatedRow Nat)} (hrows : rows.map unjoined = fetched)
    (walk : WalkKind) :
    PagesAgree BrowsedMessage.messageId DatedRow.id SamePlace
      { rows := (probePage limit DatedRow.position rows).rows.map
          fun row => ⟨row.id, row.dateExpr, row.header⟩
        next := (probePage limit DatedRow.position rows).next }
      (probePage limit (fun row : DatedRow Nat =>
        (⟨row.dateExpr, row.id, .desc, walk⟩ : KeysetCursor)) fetched) := by
  subst hrows
  refine ⟨?_, ?_⟩
  · simp [probePage, ← List.map_take, Function.comp_def]
  · simp only [probePage, List.length_map, ← List.map_take,
      List.getLast?_map, Option.map_map]
    split
    · cases (rows.take limit).getLast? with
      | none => exact .none
      | some row => exact .some ⟨rfl, rfl⟩
    · exact .none

/-- One page, at cursors for the same place. -/
theorem listMessages_agree (rules : TextRules) (answers : Answers σ)
    (cursor : Option Position) (keyset : Option KeysetCursor)
    (hsame : Option.Rel SamePlace cursor keyset) :
    ∃ page, listMessages tables allowed accountIds folderIds limit cursor =
        .ok page ∧
      PagesAgree BrowsedMessage.messageId DatedRow.id SamePlace page
        (blankSearch rules answers tables allowed accountIds folderIds limit
          keyset) := by
  obtain ⟨rfl, horder⟩ := samePlace_map hsame
  by_cases hnone : intersectAccountIds allowed accountIds = []
  · refine ⟨⟨[], none⟩, ?_, ?_⟩
    · simp [listMessages, hnone]
    · rw [blankSearch_of_no_account hnone]
      exact ⟨rfl, .none⟩
  have hallowed : allowed ≠ [] := by
    rintro rfl
    apply hnone
    rcases accountIds with _ | _ | ⟨first, rest⟩ <;> rfl
  obtain ⟨rows, hfetch, hrows⟩ := browseFetch_agree rules answers keyset horder
  refine ⟨_, ?_, probePage_agree hrows _⟩
  rw [listMessages, if_neg hallowed]
  dsimp only
  rw [if_neg hnone, hfetch]
  rfl

/-- Browse and the blank descending search, each followed from its first page
by its own next cursor, serve the same messages on every page and stop at the
same place. -/
theorem browse_walk_eq_blank_search (rules : TextRules) (answers : Answers σ)
    (tables : BrowseTables) (allowed : List Int)
    (accountIds folderIds : Option (List Int)) (limit index : Nat) :
    ∃ page, walkPage
        (listMessages tables allowed accountIds folderIds limit) index =
          .ok page ∧
      page.map (fun page =>
        (page.rows.map BrowsedMessage.messageId, page.next)) =
      (walkPage (m := Id) (blankSearch rules answers tables allowed accountIds
        folderIds limit) index).map fun page =>
          (page.rows.map DatedRow.id,
            page.next.map KeysetCursor.position) := by
  obtain ⟨page, hpage, hagree⟩ := walkPage_agree
    (listMessages_agree rules answers) index
  refine ⟨page, hpage, ?_⟩
  generalize walkPage (m := Id) (blankSearch rules answers tables allowed
    accountIds folderIds limit) index = other at hagree
  cases hagree with
  | none => rfl
  | some hpages =>
      rw [Option.map_some, Option.map_some, hpages.rows,
        (samePlace_map hpages.next).1]

end Agree

namespace BrowseWitness

/-- Two accounts, and four messages of which the last has no date. -/
def tables : BrowseTables where
  accounts := [⟨1, text "home"⟩, ⟨2, text "work"⟩]
  messages :=
    ⟨[⟨10, some 5, none, 1⟩, ⟨11, none, some 7, 2⟩, ⟨12, some 6, some 9, 2⟩,
      ⟨13, none, none, 1⟩], by decide⟩
  labels := [⟨10, 3⟩, ⟨11, 3⟩, ⟨12, 4⟩, ⟨13, 3⟩]
  unique := by decide
  owned := by decide

end BrowseWitness

open BrowseWitness in
/-- The undated message of the folder stands on the second page of both. -/
theorem browse_walk_eq_blank_search_two :
    ∃ page, (walkPage (listMessages tables [1, 2] none (some [3]) 2) 1 =
        .ok (some page) ∧
      (page.rows.map BrowsedMessage.messageId, page.next) = ([13], none)) ∧
      (walkPage (m := Id) (blankSearch SearchGrantWitness.rules
        SearchGrantWitness.answers tables [1, 2] none (some [3]) 2) 1).map
          (fun page => page.rows.map DatedRow.id) = some [13] := by
  obtain ⟨page, hpage, hsame⟩ :=
    browse_walk_eq_blank_search SearchGrantWitness.rules
      SearchGrantWitness.answers tables [1, 2] none (some [3]) 2 1
  obtain ⟨found, hfound, hids⟩ : ∃ found,
      walkPage (listMessages tables [1, 2] none (some [3]) 2) 1 =
        .ok (some found) ∧
      (found.rows.map BrowsedMessage.messageId, found.next) =
        ([13], none) := by
    refine ⟨_, rfl, ?_⟩
    decide
  obtain rfl : page = some found :=
    Except.ok.inj (hpage.symm.trans hfound)
  refine ⟨found, ⟨hfound, hids⟩, ?_⟩
  have hrows := congrArg (Option.map Prod.fst) hsame.symm
  rw [Option.map_map, Option.map_some, Option.map_some, hids] at hrows
  exact hrows

end Localmail
