/-
The gate of `run_search` and the guards of `Searcher.search`.  They parse two
compositions of one request, the caller's filters and the account-scoped ones;
both leave one free text, from which both decide alike.
-/
import Mathlib.Algebra.Ring.Int.Defs
import Localmail.FilterTokens
import Localmail.SearchGrant
import Localmail.StorableText

namespace Localmail

universe v

/-! ### The scoped filters -/

/-- The tokens that come after the account ids. -/
def scopeFreeTokens (rules : TextRules) (filters : FilterDict) :
    Except ApiError (List Text) := do
  let folderIds ← idTokens filters "folder_ids" "folder_id"
  let sender ← quotedTokens filters "from"
  let recipient ← quotedTokens filters "to"
  let subject ← quotedTokens filters "subject"
  let attachmentName ← quotedTokens filters "attachment_name"
  let after ← dateTokens rules filters "after" "after"
  let before ← dateTokens rules filters "before" "before"
  let dateFrom ← dateTokens rules filters "date_from" "after"
  let dateTo ← dateTokens rules filters "date_to" "before"
  let lang ← langTokens rules filters
  let has ← hasTokens filters
  .ok (folderIds ++ sender ++ recipient ++ subject ++
    attachmentName ++ after ++ before ++ dateFrom ++ dateTo ++ lang ++ has)

section Scope

variable {rules : TextRules} {filters others : FilterDict}
  {tokens : List Text}

theorem filterTokens_eq_ok :
    filterTokens rules filters = .ok tokens ↔
      ∃ accountIds rest,
        idTokens filters "account_ids" "account_id" = .ok accountIds ∧
          scopeFreeTokens rules filters = .ok rest ∧
          tokens = accountIds ++ rest := by
  have hok : ∀ tokens : List Text,
      (.ok tokens : Except ApiError (List Text)) = pure tokens := fun _ => rfl
  have hsplit : filterTokens rules filters = (do
      let accountIds ← idTokens filters "account_ids" "account_id"
      let rest ← scopeFreeTokens rules filters
      pure (accountIds ++ rest)) := by
    unfold filterTokens scopeFreeTokens
    simp only [hok, bind_assoc, pure_bind, List.append_assoc]
  rw [hsplit]
  simp only [exceptBind_eq_ok]
  constructor
  · rintro ⟨accountIds, haccounts, rest, hrest, htokens⟩
    exact ⟨accountIds, rest, haccounts, hrest, (Except.ok.inj htokens).symm⟩
  · rintro ⟨accountIds, rest, haccounts, hrest, rfl⟩
    exact ⟨accountIds, haccounts, rest, hrest, rfl⟩

/-- The dictionaries differ in their account ids at most. -/
def SameButAccounts (filters others : FilterDict) : Prop :=
  ∀ key : Text, key ≠ text "account_ids" →
    filters.lookup key = others.lookup key

theorem SameButAccounts.truthyFilter (hsame : SameButAccounts filters others)
    (key : String) (hkey : text key ≠ text "account_ids") :
    truthyFilter filters key = Localmail.truthyFilter others key := by
  unfold Localmail.truthyFilter
  rw [hsame (text key) hkey]

/-- So they agree on every filter that is read as true or not. -/
theorem SameButAccounts.truthyFilter_scopeFree
    (hsame : SameButAccounts filters others) :
    ∀ key ∈ ["folder_ids", "from", "to", "subject", "attachment_name", "after",
        "before", "date_from", "date_to"],
      Localmail.truthyFilter filters key =
        Localmail.truthyFilter others key := by
  have hother : ∀ key ∈ ["folder_ids", "from", "to", "subject",
      "attachment_name", "after", "before", "date_from", "date_to"],
      text key ≠ text "account_ids" := by decide
  exact fun key hkey => hsame.truthyFilter key (hother key hkey)

theorem SameButAccounts.scopeFreeTokens (hsame : SameButAccounts filters others) :
    scopeFreeTokens rules filters = Localmail.scopeFreeTokens rules others := by
  have hlang := hsame (text "lang") (by decide)
  have hhas := hsame (text "has_attachment") (by decide)
  unfold Localmail.scopeFreeTokens idTokens quotedTokens dateTokens langTokens
    hasTokens
  simp only [hsame.truthyFilter_scopeFree, List.mem_cons, true_or, or_true,
    hlang, hhas]

theorem SameButAccounts.scopeFreeParts (hsame : SameButAccounts filters others) :
    scopeFreeParts rules filters = Localmail.scopeFreeParts rules others := by
  have hlang := hsame (text "lang") (by decide)
  have hhas := hsame (text "has_attachment") (by decide)
  unfold Localmail.scopeFreeParts idParts textParts dateParts langParts hasParts
    statedIds statedText statedLanguages statedHas
  simp only [hsame.truthyFilter_scopeFree, List.mem_cons, true_or, or_true,
    hlang, hhas]

/-- The filters with the account ids replaced. -/
def scopedTo (ids : List Int) (filters : FilterDict) : FilterDict :=
  (text "account_ids",
      .list (ids.map fun id => .text (intText id)) []) ::
    filters.filter fun entry => entry.1 ≠ text "account_ids"

theorem scopedTo_same (ids : List Int) (filters : FilterDict) :
    SameButAccounts (scopedTo ids filters) filters := by
  intro key hkey
  unfold scopedTo
  rw [List.lookup_cons, beq_false_of_ne hkey]
  change (filters.filter _).lookup key = _
  induction filters with
  | nil => rfl
  | cons entry rest ih =>
      obtain ⟨name, value⟩ := entry
      by_cases hname : name = text "account_ids"
      · rw [List.filter_cons_of_neg (by simp [hname]), ih, List.lookup_cons,
          beq_false_of_ne (hname ▸ hkey)]
      · rw [List.filter_cons_of_pos (by simp [hname]), List.lookup_cons,
          List.lookup_cons]
        split
        · rfl
        · exact ih

/-- Numbers a database row can have. -/
def IsRowId (id : Int) : Prop :=
  0 ≤ id ∧ id < 2 ^ 63

theorem parseIntId_intText {id : Int} (hid : IsRowId id) (field : Text) :
    parseIntId (intText id) field = .ok id.toNat := by
  obtain ⟨value, rfl⟩ := Int.eq_ofNat_of_zero_le hid.1
  have hbound : value < 2 ^ 63 := by exact_mod_cast hid.2
  have hlength : (decimal value).length ≤ 19 := by
    rw [decimal, List.length_map, Nat.length_toDigits_le_iff (by decide)
      (by decide)]
    exact hbound.trans (by decide)
  change parseIntId (decimal value) field = _
  unfold parseIntId
  rw [parseDigits_decimal (hlength.trans (by decide))]
  rfl

theorem idTokens_scopedTo (filters : FilterDict) {ids : List Int}
    (hnonempty : ids ≠ [])
    (hids : ∀ id ∈ ids, IsRowId id) :
    ∃ accountIds, idTokens (scopedTo ids filters) "account_ids" "account_id" =
      .ok accountIds := by
  have hstated : truthyFilter (scopedTo ids filters) "account_ids" =
      some (.list (ids.map fun id => .text (intText id)) []) := by
    unfold truthyFilter scopedTo
    rw [List.lookup_cons, beq_self_eq_true]
    simp [JsonValue.truthy, hnonempty]
  have hread : (ids.map fun id => JsonValue.text (intText id)).mapM
      (fun item => parseIntId item.str (text "account_id")) =
        .ok (ids.map Int.toNat) := by
    clear hnonempty hstated
    induction ids with
    | nil => rfl
    | cons id rest ih =>
        have hrest := ih fun other hother => hids other (List.mem_cons_of_mem _ hother)
        rw [List.map_cons, List.mapM_cons, hrest]
        change (parseIntId (intText id) _ >>= _) = _
        rw [parseIntId_intText (hids id List.mem_cons_self)]
        rfl
  unfold idTokens idFilter
  rw [hstated]
  simp only [JsonValue.elements, hread]
  exact ⟨_, rfl⟩

/-- What a scope is made of. -/
theorem scopeFiltersByAcl_eq_ok {allowed : List Int} {within : FilterDict}
    (hscope : scopeFiltersByAcl filters allowed = .ok (some within)) :
    ∃ ids : List Int, ids ≠ [] ∧ (∀ id ∈ ids, id ∈ allowed) ∧
      within = scopedTo ids filters := by
  unfold scopeFiltersByAcl at hscope
  dsimp only at hscope
  split at hscope
  · cases hscope
  · rename_i hnonempty
    split at hscope
    · cases hscope
      refine ⟨allowed.insertionSort (· ≤ ·), ?_, ?_, rfl⟩
      · intro hempty
        have hlength := List.length_insertionSort (· ≤ ·) allowed
        rw [hempty] at hlength
        exact hnonempty (List.length_eq_zero_iff.mp hlength.symm)
      · intro id hid
        exact (List.mem_insertionSort _).mp hid
    · obtain ⟨ids, -, hkept⟩ := exceptBind_eq_ok.mp hscope
      split at hkept
      · cases hkept
      · rename_i hsome
        cases hkept
        refine ⟨_, hsome, ?_, rfl⟩
        intro id hid
        exact of_decide_eq_true (List.mem_filter.mp (mem_sortedSet.mp hid)).2

/-- Filters the gate composes can be scoped. -/
theorem scopeFiltersByAcl_total
    (htokens : filterTokens rules filters = .ok tokens) (allowed : List Int) :
    ∃ within, scopeFiltersByAcl filters allowed = .ok within := by
  obtain ⟨accountIds, -, haccounts, -, -⟩ := filterTokens_eq_ok.mp htokens
  unfold scopeFiltersByAcl
  unfold idTokens at haccounts
  split
  · exact ⟨_, rfl⟩
  · cases hvalue : truthyFilter filters "account_ids" with
    | none => exact ⟨_, rfl⟩
    | some value =>
        rw [hvalue] at haccounts
        obtain ⟨ids, hids, -⟩ := exceptBind_eq_ok.mp haccounts
        simp only [hids]
        exact ⟨_, rfl⟩

end Scope

/-! ### Two compositions, one free text -/

section Parse

variable {rules : TextRules} {filters within : FilterDict} {freeText : Text}

theorem buildQueryString_eq_ok {composed : Text} :
    buildQueryString rules freeText filters = .ok composed ↔
      filterKeyError filters = none ∧
        ∃ tokens, filterTokens rules filters = .ok tokens ∧
          composed = composedText tokens freeText := by
  unfold buildQueryString
  constructor
  · intro hbuilt
    obtain ⟨_, hkeys, hbuilt⟩ := exceptBind_eq_ok.mp hbuilt
    obtain ⟨tokens, htokens, hcomposed⟩ := exceptBind_eq_ok.mp hbuilt
    refine ⟨?_, tokens, htokens, (Except.ok.inj hcomposed).symm⟩
    cases hunknown : filterKeyError filters with
    | none => rfl
    | some refusal => simp [hunknown, refuseIf, refuse] at hkeys
  · rintro ⟨hkeys, tokens, htokens, rfl⟩
    rw [hkeys, htokens]
    rfl

theorem filterKeyError_scopedTo (ids : List Int)
    (hkeys : filterKeyError filters = none) :
    filterKeyError (scopedTo ids filters) = none := by
  unfold filterKeyError at hkeys ⊢
  dsimp only at hkeys ⊢
  split at hkeys
  · rename_i hknown
    rw [List.filter_eq_nil_iff] at hknown
    rw [if_pos]
    rw [List.filter_eq_nil_iff]
    intro key hkey
    rcases List.mem_cons.mp hkey with rfl | hold
    · have hmem : text "account_ids" ∈ supportedFilterKeys := by decide
      simpa using hmem
    · obtain ⟨entry, hentry, rfl⟩ := List.mem_map.mp hold
      exact hknown _ (List.mem_map_of_mem (List.mem_filter.mp hentry).1)
  · cases hkeys

/-- An id token holds neither a NUL nor a surrogate. -/
theorem idPart_storable {key : String} {op : Operator} :
    ∀ part ∈ idParts filters key op,
      rejectUnstorable part.token.stripped = .ok () := by
  intro part hpart
  obtain ⟨id, -, rfl⟩ := List.mem_map.mp hpart
  rw [rejectUnstorable_eq_ok]
  change Storable (op.name ++ text ":" ++ decimal id)
  rw [storable_append]
  refine ⟨by cases op <;> decide, ?_⟩
  intro ch hch
  have hdigit := isAsciiDigit_of_mem_decimal ch hch
  cases ch with
  | surrogate offset => cases hdigit
  | scalar char =>
      refine decide_eq_true ?_
      rintro rfl
      exact absurd hdigit (by decide)

/-- What the gate parses, the scoped composition parses too, and to the same
free text. -/
theorem scoped_parse {allowed : List Int} {query : Text} {parsed : ParsedQuery}
    (hids : ∀ id ∈ allowed, IsRowId id)
    (hbuilt : buildQueryString rules freeText filters = .ok query)
    (hparse : parseQuery rules query = .ok parsed)
    (hscope : scopeFiltersByAcl filters allowed = .ok (some within)) :
    ∃ composed narrowed,
      buildQueryString rules freeText within = .ok composed ∧
        parseQuery rules composed = .ok narrowed ∧
        narrowed.freeText = parsed.freeText := by
  obtain ⟨hkeys, tokens, htokens, rfl⟩ := buildQueryString_eq_ok.mp hbuilt
  obtain ⟨ids, hnonempty, hallowed, rfl⟩ := scopeFiltersByAcl_eq_ok hscope
  have hsame := scopedTo_same ids filters
  obtain ⟨_, rest, -, hrest, -⟩ := filterTokens_eq_ok.mp htokens
  obtain ⟨accountIds, haccounts⟩ := idTokens_scopedTo filters hnonempty
    fun id hid => hids id (hallowed id hid)
  have hwithin : filterTokens rules (scopedTo ids filters) =
      .ok (accountIds ++ rest) :=
    filterTokens_eq_ok.mpr ⟨accountIds, rest, haccounts,
      hsame.scopeFreeTokens.trans hrest, rfl⟩
  have hcaller := filterTokens_spells htokens
  have hscoped := filterTokens_spells hwithin
  have hparts : filterParts rules (scopedTo ids filters) =
      idParts (scopedTo ids filters) "account_ids" .accountIdOp ++
        scopeFreeParts rules filters := by
    rw [filterParts, hsame.scopeFreeParts]
  -- The caller's fold, split behind the account ids.
  obtain ⟨final, hfold, -⟩ := parseQuery_eq_ok.mp hparse
  rw [hcaller.tokenize, filterParts, List.map_append, List.append_assoc,
    List.foldlM_append] at hfold
  obtain ⟨middle, -, hbehind⟩ := exceptBind_eq_ok.mp hfold
  -- The scoped fold gets past its account ids with no `has:` read.
  have hreached := @foldlM_of_applyAll rules _ _ _
    (fun part hpart => hscoped.contained part
      (hparts ▸ List.mem_append_left _ hpart))
    idPart_storable
    (@applyAll_accountIds rules (scopedTo ids filters) Parsing.start)
  have hunder : Parsing.Under
      { Parsing.start with
        accountIds := Parsing.start.accountIds ++
          (statedIds (scopedTo ids filters) "account_ids").map Int.ofNat }
      middle := .inl rfl
  obtain ⟨last, hlast⟩ := hunder.foldlM hbehind
  have hnarrowed : parseQuery rules (composedText (accountIds ++ rest) freeText) =
      .ok last.finish := by
    refine parseQuery_eq_ok.mpr ⟨last, ?_, rfl⟩
    rw [hscoped.tokenize, hparts, List.map_append, List.append_assoc,
      List.foldlM_append, hreached]
    exact exceptBind_eq_ok.mpr ⟨_, rfl, hlast⟩
  refine ⟨_, last.finish, buildQueryString_eq_ok.mpr
    ⟨filterKeyError_scopedTo ids hkeys, _, hwithin, rfl⟩, hnarrowed, ?_⟩
  rw [parseQuery_freeText hnarrowed, parseQuery_freeText hparse,
    hscoped.freeTokens, hcaller.freeTokens]

end Parse

/-! ### Plans and guards -/

/-- What `run_search` passes on to `Searcher.search`. -/
structure SearchArguments where
  sort : Option SortMode
  order : Option SortOrder
  keyset : Option KeysetCursor
  smart : Bool

/-- The arguments of a fresh or a keyset plan; a pool plan searches nothing. -/
def CursorPlan.searchArguments (plan : CursorPlan) (args : SearchCall)
    (smartAvailable : Bool) : Option SearchArguments :=
  match plan with
  | .fresh _ _ => some ⟨args.sort, args.order, none, args.smart && smartAvailable⟩
  | .keyset cursor =>
      some ⟨some textlessSort, some cursor.order, some cursor, false⟩
  | .pool _ _ _ => none

/-- The sort a plan resolved, where it resolved one. -/
def CursorPlan.resolvedSort : CursorPlan → Option SortMode
  | .fresh sort _ => some sort
  | .keyset _ => some textlessSort
  | .pool _ _ _ => none

/-- A cursor string as `Searcher.search` takes it; `none` is no keyset
cursor. -/
def decodedCursor (cursors : CursorRules) (cursor : Option Text) :
    Option (Option KeysetCursor) :=
  match cursor with
  | none => some none
  | some raw =>
      match decodeKeysetCursor cursors raw with
      | some (.ok keyset) => some (some keyset)
      | _ => none

section Guards

variable {sort : Option SortMode} {order : Option SortOrder}
  {freeText : Text} {plan : CursorPlan} {cursor : KeysetCursor}

theorem refuseIf_eq_ok {refusal : Option Refusal} {done : Unit} :
    refuseIf refusal = .ok done ↔ refusal = none := by
  cases refusal with
  | none => simp [refuseIf]
  | some reason => simp [refuseIf, refuse]

theorem freshPlan_eq_ok :
    freshPlan sort order freeText = .ok plan ↔
      sortApplicabilityError sort freeText = none ∧
        sortOrderApplicabilityError (resolveSort sort freeText)
          (order.getD defaultSortOrder) false = none ∧
        plan = .fresh (resolveSort sort freeText)
          (order.getD defaultSortOrder) := by
  unfold freshPlan
  simp only [exceptBind_eq_ok, refuseIf_eq_ok, Except.ok.injEq]
  constructor
  · rintro ⟨-, hsort, -, horder, rfl⟩
    exact ⟨hsort, horder, rfl⟩
  · rintro ⟨hsort, horder, rfl⟩
    exact ⟨(), hsort, (), horder, rfl⟩

theorem keysetPlan_eq_ok :
    keysetPlan sort order freeText cursor = .ok plan ↔
      sortMismatch sort textlessSort = none ∧
        orderMismatch order cursor.order = none ∧
        keysetWalkError cursor.walk freeText = none ∧
        plan = .keyset cursor := by
  unfold keysetPlan
  simp only [exceptBind_eq_ok, refuseIf_eq_ok, Except.ok.injEq]
  constructor
  · rintro ⟨-, hsort, -, horder, -, hwalk, rfl⟩
    exact ⟨hsort, horder, hwalk, rfl⟩
  · rintro ⟨hsort, horder, hwalk, rfl⟩
    exact ⟨(), hsort, (), horder, (), hwalk, rfl⟩

theorem resolveSort_textless (freeText : Text) :
    resolveSort (some textlessSort) freeText = textlessSort := by
  unfold resolveSort
  split
  · rfl
  · rfl

/-- Relevance is resolved only where there is something to rank. -/
theorem isRankable_of_resolveSort
    (hrank : resolveSort sort freeText = .rank) : isRankable freeText = true := by
  unfold resolveSort at hrank
  split at hrank
  · assumption
  · cases hrank

/-- The guards are passed exactly if each of them is. -/
theorem searchRefusal_eq_none {parsed : ParsedQuery}
    {keyset : Option KeysetCursor} :
    searchRefusal parsed sort order keyset = none ↔
      (keyset.bind fun cursor =>
          keysetWalkError cursor.walk parsed.freeText) = none ∧
        sortApplicabilityError sort parsed.freeText = none ∧
        sortOrderApplicabilityError (resolveSort sort parsed.freeText)
          ((keyset.map KeysetCursor.order).getD
            (order.getD defaultSortOrder)) false = none ∧
        (resolveSort sort parsed.freeText = .date ∨ keyset = none) := by
  have hdate : (resolveSort sort parsed.freeText ≠ .date →
      ¬keyset.isSome = true) ↔
        (resolveSort sort parsed.freeText = .date ∨ keyset = none) := by
    rw [Option.not_isSome_iff_eq_none]
    exact ⟨fun himp => or_iff_not_imp_left.mpr himp, or_iff_not_imp_left.mp⟩
  unfold searchRefusal
  simp only [Option.orElse_eq_none, ite_eq_right_iff, reduceCtorEq, imp_false,
    not_and, hdate]

/-- The searcher's guards pass what a fresh plan passed. -/
theorem searchRefusal_fresh {parsed : ParsedQuery}
    (hplan : freshPlan sort order parsed.freeText = .ok plan) :
    searchRefusal parsed sort order none = none := by
  obtain ⟨hsort, horder, -⟩ := freshPlan_eq_ok.mp hplan
  exact searchRefusal_eq_none.mpr ⟨rfl, hsort, horder, .inr rfl⟩

/-- And what a keyset plan passed, under the plan's own axes. -/
theorem searchRefusal_keyset {parsed : ParsedQuery}
    (hplan : keysetPlan sort order parsed.freeText cursor = .ok plan) :
    searchRefusal parsed (some textlessSort) (some cursor.order) (some cursor) =
      none := by
  obtain ⟨-, -, hwalk, -⟩ := keysetPlan_eq_ok.mp hplan
  refine searchRefusal_eq_none.mpr ⟨hwalk, ?_, ?_, ?_⟩
  · simp [sortApplicabilityError]
  · rw [resolveSort_textless]
    simp [sortOrderApplicabilityError, textlessSort]
  · exact .inl (resolveSort_textless _)

/-- A fresh plan that is refused is refused by the guards. -/
theorem searchRefusal_of_freshPlan {parsed : ParsedQuery} {error : ApiError}
    (hplan : freshPlan sort order parsed.freeText = .error error) :
    searchRefusal parsed sort order none ≠ none := by
  intro hnone
  obtain ⟨-, hsort, horder, -⟩ := searchRefusal_eq_none.mp hnone
  rw [freshPlan_eq_ok.mpr ⟨hsort, horder, rfl⟩] at hplan
  cases hplan

/-- So is a keyset plan, by its direction or by the guards. -/
theorem searchRefusal_of_keysetPlan {parsed : ParsedQuery} {error : ApiError}
    (hplan : keysetPlan sort order parsed.freeText cursor = .error error)
    (horder : orderMismatch order cursor.order = none) :
    searchRefusal parsed sort order (some cursor) ≠ none := by
  intro hnone
  obtain ⟨hwalk, hsort, -, hdate⟩ := searchRefusal_eq_none.mp hnone
  have hresolved : resolveSort sort parsed.freeText = .date := by
    rcases hdate with hdate | hkeyset
    · exact hdate
    · cases hkeyset
  have hmismatch : sortMismatch sort textlessSort = none := by
    cases sort with
    | none => rfl
    | some stated =>
        cases stated with
        | date => rfl
        | rank =>
            -- A stated relevance is refused, or it is what is resolved.
            unfold sortApplicabilityError at hsort
            unfold resolveSort at hresolved
            split at hresolved
            · cases hresolved
            · rename_i hrankable
              simp [hrankable, textlessSort] at hsort
  rw [keysetPlan_eq_ok.mpr ⟨hmismatch, horder, hwalk, rfl⟩] at hplan
  cases hplan

/-- The arguments of a plan pass the guards and resolve to the plan's sort. -/
theorem guards_of_plan {cursors : CursorRules} {args : SearchCall}
    {arguments : SearchArguments} {available : Bool} {parsed : ParsedQuery}
    (hplan : resolveCursorPlan cursors args.cursor args.sort args.order
      parsed.freeText = .ok plan)
    (harguments : plan.searchArguments args available = some arguments) :
    (arguments.keyset.bind fun cursor =>
        orderMismatch arguments.order cursor.order) = none ∧
      searchRefusal parsed arguments.sort arguments.order arguments.keyset =
        none ∧
      plan.resolvedSort =
        some (resolveSort arguments.sort parsed.freeText) := by
  unfold resolveCursorPlan at hplan
  split at hplan
  · obtain ⟨-, -, rfl⟩ := freshPlan_eq_ok.mp hplan
    cases harguments
    exact ⟨rfl, searchRefusal_fresh hplan, rfl⟩
  · split at hplan
    · obtain ⟨keyset, -, hkeyset⟩ := exceptBind_eq_ok.mp hplan
      obtain ⟨-, -, -, rfl⟩ := keysetPlan_eq_ok.mp hkeyset
      cases harguments
      refine ⟨?_, searchRefusal_keyset hkeyset, ?_⟩
      · simp [orderMismatch]
      · exact congrArg some (resolveSort_textless _).symm
    · obtain ⟨pool, -, hpool⟩ := exceptBind_eq_ok.mp hplan
      obtain ⟨_, -, hrest⟩ := exceptBind_eq_ok.mp hpool
      cases hrest
      cases harguments

/-- What the resolver refuses of a readable cursor, the guards refuse. -/
theorem guards_of_refusal {cursors : CursorRules} {given : Option Text}
    {keyset : Option KeysetCursor} {error : ApiError} {parsed : ParsedQuery}
    (hcursor : decodedCursor cursors given = some keyset)
    (hplan : resolveCursorPlan cursors given sort order parsed.freeText =
      .error error) :
    (keyset.bind fun cursor => orderMismatch order cursor.order) ≠ none ∨
      searchRefusal parsed sort order keyset ≠ none := by
  cases given with
  | none =>
      cases hcursor
      exact .inr (searchRefusal_of_freshPlan hplan)
  | some raw =>
      unfold decodedCursor at hcursor
      dsimp only at hcursor
      split at hcursor
      · rename_i cursor hdecoded
        cases hcursor
        simp only [resolveCursorPlan, hdecoded] at hplan
        by_cases horder : orderMismatch order cursor.order = none
        · exact .inr (searchRefusal_of_keysetPlan hplan horder)
        · exact .inl horder
      · cases hcursor

end Guards

/-! ### The searcher -/

section Search

variable {σ : Type v} [LinearOrder σ] [Add σ] [Zero σ]
variable {rules : TextRules} {cursors : CursorRules} {accountOf : Nat → Nat}
  {config : SearchConfig σ} {answers : Answers σ} {query token : Text}
  {pageSize : Nat} {userId : Option Nat} {sort : Option SortMode}
  {order : Option SortOrder} {keyset : Option KeysetCursor} {smart : Bool}
  {allowed : Option (List Int)} {parsed : ParsedQuery}

omit [LinearOrder σ] [Add σ] [Zero σ] in
/-- Neither the rewrite nor the clamp touches the free text. -/
theorem retrievalQuery_freeText (answers : Answers σ) (parsed : ParsedQuery)
    (smart : Bool) (allowed : Option (List Int)) :
    (retrievalQuery config answers parsed smart allowed).freeText =
      parsed.freeText := by
  have hnames (accountNamed : Text → Option Nat) (query : ParsedQuery) :
      (resolveAccountNames accountNamed query).freeText = query.freeText := by
    unfold resolveAccountNames
    split
    · rfl
    · rfl
  have hclamp (query : ParsedQuery) :
      (clampAccountIdsToAcl query allowed).freeText = query.freeText := by
    cases allowed with
    | none => rfl
    | some granted => rfl
  unfold retrievalQuery
  dsimp only
  rw [hnames, hclamp]
  split
  · split
    · rfl
    · rfl
  · rfl

variable (accountOf config answers) in
/-- Past its guards the searcher answers, in the order it resolves. -/
theorem searcherSearch_answers
    (hdirection : (keyset.bind fun cursor =>
      orderMismatch order cursor.order) = none)
    (hparse : parseQuery rules query = .ok parsed)
    (hguards : searchRefusal parsed sort order keyset = none) :
    ∃ found pool, searcherSearch rules accountOf config answers query pageSize
        userId sort order keyset smart allowed token = .ok (found, pool) ∧
      found.sortApplied = resolveSort sort parsed.freeText ∧
      found.rankable = isRankable parsed.freeText := by
  unfold searcherSearch
  rw [hdirection, hparse]
  simp only [hguards, retrievalQuery_freeText]
  cases hsort : resolveSort sort parsed.freeText with
  | date =>
      refine ⟨_, _, rfl, rfl, ?_⟩
      change isRankable _ = _
      rw [retrievalQuery_freeText]
  | rank => exact ⟨_, _, rfl, rfl, rfl⟩

theorem searcherSearch_unparsed {error : QueryParseError}
    (hparse : parseQuery rules query = .error error) :
    ∃ refusal, searcherSearch rules accountOf config answers query pageSize
      userId sort order keyset smart allowed token = .error refusal := by
  unfold searcherSearch
  rw [hparse]
  split
  · exact ⟨_, rfl⟩
  · exact ⟨_, rfl⟩
  · rename_i hnone
    cases hnone

theorem searcherSearch_refuses (hparse : parseQuery rules query = .ok parsed)
    (hrefused : (keyset.bind fun cursor =>
        orderMismatch order cursor.order) ≠ none ∨
      searchRefusal parsed sort order keyset ≠ none) :
    ∃ refusal, searcherSearch rules accountOf config answers query pageSize
      userId sort order keyset smart allowed token = .error refusal := by
  unfold searcherSearch
  rw [hparse]
  cases hdirection : keyset.bind fun cursor =>
      orderMismatch order cursor.order with
  | some refusal => exact ⟨_, rfl⟩
  | none =>
      rcases hrefused with hdirected | hguards
      · exact absurd hdirection hdirected
      · obtain ⟨refusal, hrefusal⟩ := Option.ne_none_iff_exists'.mp hguards
        simp only [hrefusal]
        exact ⟨refusal, rfl⟩

end Search

section Decide

variable {σ : Type v} [LinearOrder σ] [Add σ] [Zero σ]

theorem searchGate_eq_ok {rules : TextRules} {cursors : CursorRules}
    {args : SearchCall} {freeText : Text} {plan : CursorPlan} :
    searchGate rules cursors args = .ok (freeText, plan) ↔
      ∃ query parsed,
        buildQueryString rules args.freeText args.filters = .ok query ∧
          parseQuery rules query = .ok parsed ∧
          resolveCursorPlan cursors args.cursor args.sort args.order
            parsed.freeText = .ok plan ∧
          parsed.freeText = freeText := by
  have hgate {query : Text} {parsed : ParsedQuery} :
      gateQuery rules query = .ok parsed ↔
        parseQuery rules query = .ok parsed := by
    unfold gateQuery
    cases parseQuery rules query with
    | error error => simp [refuse]
    | ok other => simp
  unfold searchGate
  simp only [exceptBind_eq_ok, hgate, Except.ok.injEq, Prod.mk.injEq]
  constructor
  · rintro ⟨query, hbuilt, parsed, hparse, _, hplan, hfree, rfl⟩
    exact ⟨query, parsed, hbuilt, hparse, hplan, hfree⟩
  · rintro ⟨query, parsed, hbuilt, hparse, hplan, hfree⟩
    exact ⟨query, hbuilt, parsed, hparse, plan, hplan, hfree, rfl⟩

/-- The gate and the searcher decide alike.  A fresh or keyset plan is served
under its own sort from the scoped composition; a refusal of the gate is one of
the searcher's. -/
theorem gate_and_searcher_decide_alike (rules : TextRules)
    (cursors : CursorRules) (accountOf : Nat → Nat) (config : SearchConfig σ)
    (args : SearchCall) (hids : ∀ id ∈ args.allowed, IsRowId id) :
    (∀ freeText plan arguments,
      searchGate rules cursors args = .ok (freeText, plan) →
      plan.searchArguments args config.smartAvailable = some arguments →
      ∃ scope, scopeFiltersByAcl args.filters args.allowed = .ok scope ∧
        ∀ within ∈ scope, ∃ composed,
          buildQueryString rules args.freeText within = .ok composed ∧
          ∀ (answers : Answers σ) (token : Text), ∃ found pool,
            searcherSearch rules accountOf config answers composed args.limit
                (some args.userId) arguments.sort arguments.order
                arguments.keyset arguments.smart (some args.allowed) token =
              .ok (found, pool) ∧
            plan.resolvedSort = some found.sortApplied ∧
            ¬(found.sortApplied = .rank ∧ found.rankable = false)) ∧
    (∀ query keyset error,
      buildQueryString rules args.freeText args.filters = .ok query →
      decodedCursor cursors args.cursor = some keyset →
      searchGate rules cursors args = .error error →
      ∀ (answers : Answers σ) (smart : Bool) (token : Text), ∃ refusal,
        searcherSearch rules accountOf config answers query args.limit
            (some args.userId) args.sort args.order keyset smart
            (some args.allowed) token = .error refusal) := by
  refine ⟨?_, ?_⟩
  · intro freeText plan arguments hgate harguments
    obtain ⟨query, parsed, hbuilt, hparse, hplan, -⟩ := searchGate_eq_ok.mp hgate
    obtain ⟨-, tokens, htokens, -⟩ := buildQueryString_eq_ok.mp hbuilt
    obtain ⟨scope, hscope⟩ := scopeFiltersByAcl_total htokens args.allowed
    refine ⟨scope, hscope, ?_⟩
    rintro within rfl
    obtain ⟨composed, narrowed, hcomposed, hnarrowed, hfree⟩ :=
      scoped_parse hids hbuilt hparse hscope
    refine ⟨composed, hcomposed, ?_⟩
    intro answers token
    rw [← hfree] at hplan
    obtain ⟨hdirection, hguards, hresolved⟩ := guards_of_plan hplan harguments
    obtain ⟨found, pool, hfound, hsort, hrankable⟩ :=
      searcherSearch_answers accountOf config answers hdirection hnarrowed
        hguards
    refine ⟨found, pool, hfound, hresolved.trans (congrArg some hsort.symm), ?_⟩
    rintro ⟨hrank, hunrankable⟩
    have hrankableText := isRankable_of_resolveSort (hsort.symm.trans hrank)
    rw [← hrankable, hunrankable] at hrankableText
    cases hrankableText
  · intro query keyset error hbuilt hcursor hgate answers smart token
    cases hparse : parseQuery rules query with
    | error unparsed => exact searcherSearch_unparsed hparse
    | ok parsed =>
        cases hplan : resolveCursorPlan cursors args.cursor args.sort args.order
            parsed.freeText with
        | ok plan =>
            have haccepted := searchGate_eq_ok.mpr
              ⟨query, parsed, hbuilt, hparse, hplan, rfl⟩
            rw [haccepted] at hgate
            cases hgate
        | error refused =>
            exact searcherSearch_refuses hparse
              (guards_of_refusal hcursor hplan)

end Decide

namespace GateWitness

def rules : TextRules := ⟨id, fun _ => true, fun _ => none⟩

def cursors : CursorRules := ⟨fun _ => none, fun _ => none⟩

def config : SearchConfig Nat where
  rrfK := 60
  reciprocal := fun n => 10000 - n
  candidatesPerArmMax := 8
  pageSizeDefault := 10
  pageSizeMax := 10
  candidatesPerArm := 4
  rerankPoolSize := 4
  rewriterMaxExpansionTerms := 0
  smartAvailable := false

def answers : Answers Nat where
  accountNamed := fun _ => none
  holds := fun _ _ => true
  matchesText := fun _ _ => true
  armRows := fun _ _ _ => [(10, none)]
  sortDates := fun _ => some 0
  dates := fun _ => some (some 0, none)
  rerank := none
  dated := ⟨[], List.nodup_nil⟩
  undated := ⟨[], List.nodup_nil⟩
  rewrite := fun _ => none

/-- A sender given as a filter, of which one account is granted. -/
def args (freeText : String) (sort : Option SortMode) : SearchCall where
  freeText := text freeText
  filters := [(text "from", .text (text "bob")),
    (text "account_ids", .list [.int 2, .int 3] [])]
  limit := 10
  allowed := [2]
  userId := 7
  sort := sort
  order := none
  cursor := none
  smart := true

theorem allowed_rowIds (freeText : String) (sort : Option SortMode) :
    ∀ id ∈ (args freeText sort).allowed, IsRowId id := by
  intro id hid
  obtain rfl := List.mem_singleton.mp hid
  exact ⟨by decide, by decide⟩

end GateWitness

open GateWitness in
set_option maxRecDepth 4000 in
/-- An invoice is searched for by relevance; without a word to rank, a stated
relevance is refused by both. -/
theorem gate_and_searcher_decide_alike_invoice :
    (∃ composed found pool,
      searcherSearch rules (fun _ => 2) config answers composed 10 (some 7) none
          none none false (some [2]) (text "f0") = .ok (found, pool) ∧
        found.sortApplied = .rank) ∧
      ∃ query refusal,
        buildQueryString rules [] (args "" (some .rank)).filters = .ok query ∧
          searcherSearch rules (fun _ => 2) config answers query 10 (some 7)
            (some .rank) none none true (some [2]) (text "f0") =
              .error refusal := by
  refine ⟨?_, ?_⟩
  · obtain ⟨scope, hscope, hserved⟩ :=
      (gate_and_searcher_decide_alike rules cursors (fun _ => 2) config
        (args "invoice" none) (allowed_rowIds _ _)).1 (text "invoice")
        (.fresh .rank .desc) ⟨none, none, none, false⟩ rfl rfl
    cases hscope
    obtain ⟨composed, -, hsearched⟩ := hserved _ rfl
    obtain ⟨found, pool, hfound, hsort, -⟩ := hsearched answers (text "f0")
    exact ⟨composed, found, pool, hfound, (Option.some.inj hsort).symm⟩
  · obtain ⟨refusal, hrefusal⟩ :=
      (gate_and_searcher_decide_alike rules cursors (fun _ => 2) config
        (args "" (some .rank)) (allowed_rowIds _ _)).2 _ none _ rfl rfl rfl
        answers true (text "f0")
    exact ⟨_, refusal, rfl, hrefusal⟩

end Localmail
