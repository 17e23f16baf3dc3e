/-
The filter dictionary of a request, what it states, and the tokens it is
composed into: every value is spelled as one contained token, and applying the
tokens sets exactly the filters stated.
-/
import Localmail.ComposedTokens
import Localmail.StripText

namespace Localmail

/-! ### What the dictionary states -/

/-- The ids of a list filter, in order; `none` where a value is no id. -/
def idsOf (value : JsonValue) : Option (List Nat) :=
  value.elements.bind fun items => items.mapM fun item => parseDigits item.str

def statedIds (filters : FilterDict) (key : String) : List Nat :=
  ((truthyFilter filters key).bind idsOf).getD []

/-- A value without its quotes, on one line. -/
def oneLine (value : Text) : Text :=
  (value.filter (· ≠ .scalar '"')).map fun ch =>
    if ch = .scalar '\n' ∨ ch = .scalar '\r' then .scalar ' ' else ch

def statedText (filters : FilterDict) (key : String) : Option Text :=
  (truthyFilter filters key).map fun value => oneLine value.str

def statedDate (rules : TextRules) (filters : FilterDict) (key : String) :
    Option Int :=
  (truthyFilter filters key).bind fun value => rules.strptime value.str

def languageCode (rules : TextRules) (value : JsonValue) : Text :=
  rules.lower (strip value.str)

def statedLanguages (rules : TextRules) (filters : FilterDict) : List Text :=
  match filters.lookup (text "lang") with
  | none | some .null => []
  | some (.list items _) => items.map (languageCode rules)
  | some value => [languageCode rules value]

def statedHas (filters : FilterDict) : Option Bool :=
  match filters.lookup (text "has_attachment") with
  | some (.bool wanted) => some wanted
  | _ => none

/-- The filters a dictionary states, and no others. -/
def statedFilters (rules : TextRules) (filters : FilterDict) : SearchFilters :=
  { SearchFilters.unset with
    accountIds := orNone ((statedIds filters "account_ids").map Int.ofNat)
    folderIds := orNone ((statedIds filters "folder_ids").map Int.ofNat)
    fromSubstr := statedText filters "from"
    toSubstr := statedText filters "to"
    subjectSubstr := statedText filters "subject"
    attachmentNameSubstr := statedText filters "attachment_name"
    after := statedDate rules filters "date_from" <|>
      statedDate rules filters "after"
    before := statedDate rules filters "date_to" <|>
      statedDate rules filters "before"
    languages := orNone (statedLanguages rules filters)
    hasAttachment := statedHas filters }

/-! ### The parts it is composed of -/

def idParts (filters : FilterDict) (key : String) (op : Operator) :
    List ComposedPart :=
  (statedIds filters key).map fun id => ⟨op, decimal id, false⟩

def textParts (filters : FilterDict) (key : String) (op : Operator) :
    List ComposedPart :=
  (statedText filters key).toList.map fun value => ⟨op, value, true⟩

def dateParts (filters : FilterDict) (key : String) (op : Operator) :
    List ComposedPart :=
  (truthyFilter filters key).toList.map fun value => ⟨op, value.str, false⟩

def langParts (rules : TextRules) (filters : FilterDict) :
    List ComposedPart :=
  (statedLanguages rules filters).map fun code => ⟨.langOp, code, false⟩

/-- The `has:` value of a wish. -/
def hasValue (wanted : Bool) : Text :=
  if wanted then text "attachment" else text "no-attachment"

def hasParts (filters : FilterDict) : List ComposedPart :=
  (statedHas filters).toList.map fun wanted => ⟨.hasOp, hasValue wanted, false⟩

/-- The parts that come after the account ids. -/
def scopeFreeParts (rules : TextRules) (filters : FilterDict) :
    List ComposedPart :=
  idParts filters "folder_ids" .folderIdOp ++
    textParts filters "from" .fromOp ++ textParts filters "to" .toOp ++
    textParts filters "subject" .subjectOp ++
    textParts filters "attachment_name" .attachmentNameOp ++
    dateParts filters "after" .afterOp ++ dateParts filters "before" .beforeOp ++
    dateParts filters "date_from" .afterOp ++
    dateParts filters "date_to" .beforeOp ++
    langParts rules filters ++ hasParts filters

def filterParts (rules : TextRules) (filters : FilterDict) :
    List ComposedPart :=
  idParts filters "account_ids" .accountIdOp ++ scopeFreeParts rules filters

/-! ### Ids -/

theorem plain_of_isAsciiDigit {ch : CodePoint}
    (hdigit : ch.isAsciiDigit = true) :
    ch ≠ .scalar '"' ∧ ch.isSpace = false := by
  obtain ⟨digit, rfl, hlow, hhigh⟩ := scalar_of_isAsciiDigit hdigit
  refine ⟨?_, ?_⟩
  · rintro ⟨⟩
    exact absurd hlow (by decide)
  · simp only [CodePoint.isSpace, Bool.or_eq_false_iff,
      Bool.and_eq_false_iff, decide_eq_false_iff_not]
    omega

theorem isAsciiDigit_of_mem_decimal {id : Nat} :
    ∀ ch ∈ decimal id, ch.isAsciiDigit = true := by
  intro ch hch
  obtain ⟨char, hchar, rfl⟩ := List.mem_map.mp hch
  have hdigit := Nat.isDigit_of_mem_toDigits (by decide) (by decide) hchar
  simpa [CodePoint.isAsciiDigit, Char.isDigit, UInt32.le_iff_toNat_le] using
    hdigit

theorem decimal_ne_nil (id : Nat) : decimal id ≠ [] := by
  simp [decimal]

theorem digitsValue_decimal (id : Nat) :
    (decimal id).foldl (fun total digit => 10 * total + digitValue digit) 0 =
      id := by
  unfold decimal
  rw [List.foldl_map]
  exact Nat.ofDigitChars_ten_toDigits

theorem parseDigits_decimal {id : Nat}
    (hlength : (decimal id).length ≤ intMaxStrDigits) :
    parseDigits (decimal id) = some id := by
  have hall : (decimal id).all CodePoint.isAsciiDigit = true :=
    List.all_eq_true.mpr isAsciiDigit_of_mem_decimal
  unfold parseDigits
  rw [if_pos ⟨decimal_ne_nil id, hall, hlength⟩, digitsValue_decimal]

/-- Digits spell a number below the power of ten of their length. -/
theorem digitsValue_lt (value : Text)
    (hdigits : ∀ ch ∈ value, ch.isAsciiDigit = true) (total : Nat) :
    value.foldl (fun total digit => 10 * total + digitValue digit) total <
      (total + 1) * 10 ^ value.length := by
  induction value generalizing total with
  | nil => simp
  | cons ch rest ih =>
      have hrest := ih
        (fun other hother => hdigits other (List.mem_cons_of_mem _ hother))
        (10 * total + digitValue ch)
      have hdigit : digitValue ch ≤ 9 := by
        obtain ⟨digit, rfl, -, hhigh⟩ :=
          scalar_of_isAsciiDigit (hdigits ch List.mem_cons_self)
        change digit.toNat - 48 ≤ 9
        omega
      rw [List.foldl_cons, List.length_cons]
      calc _ < (10 * total + digitValue ch + 1) * 10 ^ rest.length := hrest
        _ ≤ ((total + 1) * 10) * 10 ^ rest.length :=
          Nat.mul_le_mul_right _ (by omega)
        _ = (total + 1) * 10 ^ (rest.length + 1) := by
          rw [Nat.mul_assoc, Nat.pow_succ, Nat.mul_comm 10]

/-- A number is written in no more digits than it was read from. -/
theorem decimal_length_le_of_parseDigits {value : Text} {id : Nat}
    (hparse : parseDigits value = some id) :
    (decimal id).length ≤ value.length := by
  unfold parseDigits at hparse
  split at hparse
  · rename_i hvalue
    obtain ⟨hnonempty, hdigits, -⟩ := hvalue
    have hlt := digitsValue_lt value (List.all_eq_true.mp hdigits) 0
    rw [Option.some.inj hparse] at hlt
    have hpos : 0 < value.length := List.length_pos_iff.mpr hnonempty
    rw [decimal, List.length_map]
    exact (Nat.length_toDigits_le_iff (by decide) hpos).mpr (by simpa using hlt)
  · cases hparse

theorem decimal_length_of_parseDigits {value : Text} {id : Nat}
    (hparse : parseDigits value = some id) :
    (decimal id).length ≤ intMaxStrDigits := by
  apply (decimal_length_le_of_parseDigits hparse).trans
  unfold parseDigits at hparse
  split at hparse
  · rename_i hvalue
    exact hvalue.2.2
  · cases hparse

theorem idsOf_of_idFilter {value : JsonValue} {field : String}
    {ids : List Nat} (hids : idFilter value field = .ok ids) :
    idsOf value = some ids := by
  unfold idFilter at hids
  unfold idsOf
  cases hitems : value.elements with
  | none => simp [hitems] at hids
  | some items =>
      simp only [hitems] at hids
      simp only [Option.bind_some]
      clear hitems
      induction items generalizing ids with
      | nil =>
          cases hids
          rfl
      | cons item rest ih =>
          rw [List.mapM_cons] at hids ⊢
          obtain ⟨id, hid, hmore⟩ := exceptBind_eq_ok.mp hids
          obtain ⟨others, hothers, hlist⟩ := exceptBind_eq_ok.mp hmore
          cases hlist
          have hdigits : parseDigits item.str = some id := by
            unfold parseIntId at hid
            split at hid
            · cases hid
              assumption
            · cases hid
          rw [hdigits, ih hothers]
          rfl

theorem exists_of_mem_statedLanguages {rules : TextRules}
    {filters : FilterDict} {code : Text}
    (hcode : code ∈ statedLanguages rules filters) :
    ∃ value, code = languageCode rules value := by
  unfold statedLanguages at hcode
  split at hcode
  · cases hcode
  · cases hcode
  · obtain ⟨item, -, rfl⟩ := List.mem_map.mp hcode
    exact ⟨item, rfl⟩
  · exact ⟨_, List.mem_singleton.mp hcode⟩

theorem decimal_length_of_mem_statedIds {filters : FilterDict} {key : String}
    {id : Nat} (hid : id ∈ statedIds filters key) :
    (decimal id).length ≤ intMaxStrDigits := by
  unfold statedIds at hid
  cases hvalue : (truthyFilter filters key).bind idsOf with
  | none => simp [hvalue] at hid
  | some ids =>
      rw [hvalue] at hid
      obtain ⟨value, -, hids⟩ := Option.bind_eq_some_iff.mp hvalue
      obtain ⟨items, -, hitems⟩ := Option.bind_eq_some_iff.mp hids
      obtain ⟨item, -, hitem⟩ := exists_of_mem_mapM hitems hid
      exact decimal_length_of_parseDigits hitem

/-! ### Every group of tokens spells its parts -/

section Spelling

variable {rules : TextRules} {filters : FilterDict} {key : String}
  {op : Operator} {tokens : List Text}

theorem idTokens_spells {field : String} (hfield : text field = op.name)
    (htokens : idTokens filters key field = .ok tokens) :
    Spells tokens (idParts filters key op) := by
  have hids : tokens = (statedIds filters key).map fun id =>
      text field ++ text ":" ++ decimal id := by
    unfold idTokens at htokens
    unfold statedIds
    cases hvalue : truthyFilter filters key with
    | none =>
        rw [hvalue] at htokens
        cases htokens
        rfl
    | some value =>
        rw [hvalue] at htokens
        obtain ⟨ids, hread, hlist⟩ := exceptBind_eq_ok.mp htokens
        cases hlist
        rw [Option.bind_some, idsOf_of_idFilter hread]
        rfl
  refine ⟨?_, ?_⟩
  · rw [hids, hfield, idParts, List.map_map]
    rfl
  · intro part hpart
    obtain ⟨id, -, rfl⟩ := List.mem_map.mp hpart
    refine ⟨decimal_ne_nil id, ?_, ?_⟩
    · intro hquote
      exact (plain_of_isAsciiDigit (isAsciiDigit_of_mem_decimal _ hquote)).1 rfl
    · intro _ ch hch
      exact (plain_of_isAsciiDigit (isAsciiDigit_of_mem_decimal ch hch)).2

theorem quote_not_mem_oneLine (value : Text) :
    CodePoint.scalar '"' ∉ oneLine value := by
  intro hquote
  obtain ⟨ch, hch, hmapped⟩ := List.mem_map.mp hquote
  have hkept := of_decide_eq_true (List.mem_filter.mp hch).2
  split at hmapped
  · exact absurd hmapped (by decide)
  · exact hkept hmapped

theorem quotedTokens_spells (hkey : text key = op.name)
    (htokens : quotedTokens filters key = .ok tokens) :
    Spells tokens (textParts filters key op) := by
  unfold quotedTokens at htokens
  unfold textParts statedText
  cases hvalue : truthyFilter filters key with
  | none =>
      rw [hvalue] at htokens
      cases htokens
      exact ⟨rfl, nofun⟩
  | some value =>
      simp only [hvalue] at htokens
      cases hquoted : quotedFilterValue value with
      | none => simp [hquoted, refuse] at htokens
      | some quoted =>
          simp only [hquoted] at htokens
          cases htokens
          unfold quotedFilterValue at hquoted
          change (if oneLine value.str = [] then _ else _) = _ at hquoted
          split at hquoted
          · cases hquoted
          · rename_i hnonempty
            cases hquoted
            refine ⟨?_, ?_⟩
            · rw [hkey]
              rfl
            · intro part hpart
              obtain rfl := List.mem_singleton.mp hpart
              exact ⟨hnonempty, quote_not_mem_oneLine value.str, nofun⟩

theorem plain_of_dateShape {value : Text} (hshape : dateShape value = true) :
    value ≠ [] ∧ ∀ ch ∈ value, ch ≠ .scalar '"' ∧ ch.isSpace = false := by
  have hjoined : [CodePoint.scalar '-'].intercalate
      (value.splitOn (.scalar '-')) = value :=
    List.intercalate_splitOn _
  unfold dateShape at hshape
  split at hshape
  · rename_i year month day hsplit
    simp only [Bool.and_eq_true, decide_eq_true_eq] at hshape
    obtain ⟨⟨⟨hdigits, hyear⟩, -⟩, -⟩ := hshape
    rw [hsplit] at hjoined
    have hvalue : value = year ++ .scalar '-' :: (month ++ .scalar '-' :: day) := by
      rw [← hjoined]
      simp [List.intercalate]
    refine ⟨?_, ?_⟩
    · rw [hvalue]
      simp
    · intro ch hch
      rw [List.all_eq_true] at hdigits
      rw [hvalue] at hch
      by_cases hdash : ch = .scalar '-'
      · subst hdash
        exact ⟨by decide, by decide⟩
      · refine plain_of_isAsciiDigit (hdigits ch ?_)
        simp only [List.mem_append, List.mem_cons, hdash, false_or] at hch ⊢
        tauto
  · cases hshape

theorem dateTokens_stated {operator : String}
    (htokens : dateTokens rules filters key operator = .ok tokens) :
    truthyFilter filters key = none ∧ tokens = [] ∨
      ∃ value day, truthyFilter filters key = some (.text value) ∧
        dateShape value = true ∧ rules.strptime value = some day ∧
        tokens = [text operator ++ text ":" ++ value] := by
  unfold dateTokens at htokens
  split at htokens
  · cases htokens
    exact .inl ⟨by assumption, rfl⟩
  · rename_i value hvalue
    split at htokens
    · rename_i haccepted
      cases htokens
      obtain ⟨day, hday⟩ := Option.isSome_iff_exists.mp haccepted.2
      exact .inr ⟨value, day, hvalue, haccepted.1, hday, rfl⟩
    · cases htokens
  · cases htokens

theorem dateTokens_spells {operator : String} (hop : text operator = op.name)
    (htokens : dateTokens rules filters key operator = .ok tokens) :
    Spells tokens (dateParts filters key op) := by
  unfold dateParts
  rcases dateTokens_stated htokens with ⟨hnone, rfl⟩ |
    ⟨value, day, hvalue, hshape, -, rfl⟩
  · rw [hnone]
    exact ⟨rfl, nofun⟩
  · obtain ⟨hnonempty, hplain⟩ := plain_of_dateShape hshape
    rw [hvalue, hop]
    refine ⟨rfl, ?_⟩
    intro part hpart
    obtain rfl := List.mem_singleton.mp hpart
    exact ⟨hnonempty, fun hquote => (hplain _ hquote).1 rfl,
      fun _ ch hch => (hplain ch hch).2⟩

/-- An accepted language code is one token. -/
theorem langToken_code {value : JsonValue} {token : Text}
    (htoken : langToken rules value = .ok token) :
    token = text "lang:" ++ languageCode rules value ∧
      languageCode rules value ≠ [] ∧
      ∀ ch ∈ languageCode rules value,
        ch ≠ .scalar '"' ∧ ch.isSpace = false := by
  unfold langToken at htoken
  change (if languageCode rules value = [] then _ else _) = _ at htoken
  split at htoken
  · cases htoken
  · rename_i hnonempty
    split at htoken
    · cases htoken
    · rename_i hplain
      cases htoken
      refine ⟨rfl, hnonempty, ?_⟩
      intro ch hch
      simp only [List.any_eq_true, not_exists, not_and] at hplain
      have hchar := hplain ch hch
      simp only [Bool.or_eq_true, decide_eq_true_eq, not_or] at hchar
      exact ⟨hchar.1.2, Bool.eq_false_iff.mpr hchar.1.1⟩

theorem langItems_codes {items : List JsonValue}
    (htokens : items.mapM (langToken rules) = .ok tokens) :
    tokens = (items.map (languageCode rules)).map (text "lang:" ++ ·) ∧
      ∀ code ∈ items.map (languageCode rules), code ≠ [] ∧
        ∀ ch ∈ code, ch ≠ .scalar '"' ∧ ch.isSpace = false := by
  induction items generalizing tokens with
  | nil =>
      cases htokens
      exact ⟨rfl, nofun⟩
  | cons item rest ih =>
      rw [List.mapM_cons] at htokens
      obtain ⟨token, htoken, hmore⟩ := exceptBind_eq_ok.mp htokens
      obtain ⟨others, hothers, hlist⟩ := exceptBind_eq_ok.mp hmore
      cases hlist
      obtain ⟨rfl, hcode⟩ := langToken_code htoken
      obtain ⟨rfl, hcodes⟩ := ih hothers
      refine ⟨rfl, ?_⟩
      intro code hmem
      rcases List.mem_cons.mp hmem with rfl | hlater
      · exact hcode
      · exact hcodes code hlater

theorem langTokens_codes (htokens : langTokens rules filters = .ok tokens) :
    tokens = (statedLanguages rules filters).map (text "lang:" ++ ·) ∧
      ∀ code ∈ statedLanguages rules filters, code ≠ [] ∧
        ∀ ch ∈ code, ch ≠ .scalar '"' ∧ ch.isSpace = false := by
  unfold langTokens at htokens
  unfold statedLanguages
  split at htokens
  · rename_i hlang
    cases htokens
    rw [hlang]
    exact ⟨rfl, nofun⟩
  · rename_i hlang
    cases htokens
    rw [hlang]
    exact ⟨rfl, nofun⟩
  · cases htokens
  · rename_i items shown _ hlang
    rw [hlang]
    exact langItems_codes htokens
  · rename_i value hnull hempty hitems hlang
    obtain ⟨token, htoken, htokens⟩ := exceptBind_eq_ok.mp htokens
    have hsingle : [value].mapM (langToken rules) = .ok tokens := by
      rw [List.mapM_cons, htoken]
      exact htokens
    rw [hlang]
    cases value with
    | null => exact absurd rfl hnull
    | list items shown => exact absurd rfl (hitems items shown)
    | bool | int | float | text | object => exact langItems_codes hsingle

theorem langTokens_spells (htokens : langTokens rules filters = .ok tokens) :
    Spells tokens (langParts rules filters) := by
  obtain ⟨rfl, hcodes⟩ := langTokens_codes htokens
  refine ⟨?_, ?_⟩
  · rw [langParts, List.map_map]
    rfl
  · intro part hpart
    obtain ⟨code, hcode, rfl⟩ := List.mem_map.mp hpart
    obtain ⟨hnonempty, hplain⟩ := hcodes code hcode
    exact ⟨hnonempty, fun hquote => (hplain _ hquote).1 rfl,
      fun _ ch hch => (hplain ch hch).2⟩

theorem hasTokens_spells (htokens : hasTokens filters = .ok tokens) :
    Spells tokens (hasParts filters) := by
  have hwanted (wanted : Bool) :
      (ComposedPart.mk .hasOp (hasValue wanted) false).Contained := by
    cases wanted
    · exact ⟨by decide, by decide, by decide⟩
    · exact ⟨by decide, by decide, by decide⟩
  unfold hasTokens at htokens
  unfold hasParts statedHas
  split at htokens
  · rename_i hhas
    cases htokens
    rw [hhas]
    exact ⟨rfl, nofun⟩
  · rename_i hhas
    cases htokens
    rw [hhas]
    exact ⟨rfl, nofun⟩
  · rename_i hhas
    cases htokens
    rw [hhas]
    refine ⟨rfl, ?_⟩
    intro part hpart
    obtain rfl := List.mem_singleton.mp hpart
    exact hwanted true
  · rename_i hhas
    cases htokens
    rw [hhas]
    refine ⟨rfl, ?_⟩
    intro part hpart
    obtain rfl := List.mem_singleton.mp hpart
    exact hwanted false
  · cases htokens

/-- The tokens of each filter key. -/
structure FilterPieces where
  accountIds : List Text
  folderIds : List Text
  sender : List Text
  recipient : List Text
  subject : List Text
  attachmentName : List Text
  after : List Text
  before : List Text
  dateFrom : List Text
  dateTo : List Text
  lang : List Text
  has : List Text

def FilterPieces.all (pieces : FilterPieces) : List Text :=
  pieces.accountIds ++ pieces.folderIds ++ pieces.sender ++ pieces.recipient ++
    pieces.subject ++ pieces.attachmentName ++ pieces.after ++ pieces.before ++
    pieces.dateFrom ++ pieces.dateTo ++ pieces.lang ++ pieces.has

/-- Each filter key is composed into its piece. -/
structure FilterPieces.Of (rules : TextRules) (filters : FilterDict)
    (pieces : FilterPieces) : Prop where
  accountIds : idTokens filters "account_ids" "account_id" =
    .ok pieces.accountIds
  folderIds : idTokens filters "folder_ids" "folder_id" = .ok pieces.folderIds
  sender : quotedTokens filters "from" = .ok pieces.sender
  recipient : quotedTokens filters "to" = .ok pieces.recipient
  subject : quotedTokens filters "subject" = .ok pieces.subject
  attachmentName : quotedTokens filters "attachment_name" =
    .ok pieces.attachmentName
  after : dateTokens rules filters "after" "after" = .ok pieces.after
  before : dateTokens rules filters "before" "before" = .ok pieces.before
  dateFrom : dateTokens rules filters "date_from" "after" = .ok pieces.dateFrom
  dateTo : dateTokens rules filters "date_to" "before" = .ok pieces.dateTo
  lang : langTokens rules filters = .ok pieces.lang
  has : hasTokens filters = .ok pieces.has

theorem filterTokens_pieces
    (htokens : filterTokens rules filters = .ok tokens) :
    ∃ pieces : FilterPieces, pieces.Of rules filters ∧
      tokens = pieces.all := by
  unfold filterTokens at htokens
  obtain ⟨accountIds, haccounts, htokens⟩ := exceptBind_eq_ok.mp htokens
  obtain ⟨folderIds, hfolders, htokens⟩ := exceptBind_eq_ok.mp htokens
  obtain ⟨sender, hsender, htokens⟩ := exceptBind_eq_ok.mp htokens
  obtain ⟨recipient, hrecipient, htokens⟩ := exceptBind_eq_ok.mp htokens
  obtain ⟨subject, hsubject, htokens⟩ := exceptBind_eq_ok.mp htokens
  obtain ⟨attachment, hattachment, htokens⟩ := exceptBind_eq_ok.mp htokens
  obtain ⟨after, hafter, htokens⟩ := exceptBind_eq_ok.mp htokens
  obtain ⟨before, hbefore, htokens⟩ := exceptBind_eq_ok.mp htokens
  obtain ⟨dateFrom, hfrom, htokens⟩ := exceptBind_eq_ok.mp htokens
  obtain ⟨dateTo, hto, htokens⟩ := exceptBind_eq_ok.mp htokens
  obtain ⟨lang, hlang, htokens⟩ := exceptBind_eq_ok.mp htokens
  obtain ⟨has, hhas, htokens⟩ := exceptBind_eq_ok.mp htokens
  refine ⟨⟨accountIds, folderIds, sender, recipient, subject, attachment,
    after, before, dateFrom, dateTo, lang, has⟩, ?_,
    (Except.ok.inj htokens).symm⟩
  exact ⟨haccounts, hfolders, hsender, hrecipient, hsubject, hattachment,
    hafter, hbefore, hfrom, hto, hlang, hhas⟩

theorem filterTokens_spells (htokens : filterTokens rules filters = .ok tokens) :
    Spells tokens (filterParts rules filters) := by
  obtain ⟨pieces, hpieces, rfl⟩ := filterTokens_pieces htokens
  have hfree : Spells (pieces.folderIds ++ pieces.sender ++ pieces.recipient ++
      pieces.subject ++ pieces.attachmentName ++ pieces.after ++
      pieces.before ++ pieces.dateFrom ++ pieces.dateTo ++ pieces.lang ++
      pieces.has) (scopeFreeParts rules filters) := by
    refine Spells.append ?_ (hasTokens_spells hpieces.has)
    refine Spells.append ?_ (langTokens_spells hpieces.lang)
    refine Spells.append ?_ (dateTokens_spells rfl hpieces.dateTo)
    refine Spells.append ?_ (dateTokens_spells rfl hpieces.dateFrom)
    refine Spells.append ?_ (dateTokens_spells rfl hpieces.before)
    refine Spells.append ?_ (dateTokens_spells rfl hpieces.after)
    refine Spells.append ?_ (quotedTokens_spells rfl hpieces.attachmentName)
    refine Spells.append ?_ (quotedTokens_spells rfl hpieces.subject)
    refine Spells.append ?_ (quotedTokens_spells rfl hpieces.recipient)
    refine Spells.append ?_ (quotedTokens_spells rfl hpieces.sender)
    exact idTokens_spells rfl hpieces.folderIds
  have hscope : Spells pieces.accountIds
      (idParts filters "account_ids" .accountIdOp) :=
    idTokens_spells rfl hpieces.accountIds
  have hall := hscope.append hfree
  unfold filterParts FilterPieces.all
  simpa only [List.append_assoc] using hall

end Spelling

/-! ### What the parts set -/

section Effects

variable {rules : TextRules} {filters : FilterDict} {key : String}
  {tokens : List Text}

/-- The parse a dictionary leads to. -/
def statedParsing (rules : TextRules) (filters : FilterDict) : Parsing :=
  { Parsing.start with
    accountIds := (statedIds filters "account_ids").map Int.ofNat
    folderIds := (statedIds filters "folder_ids").map Int.ofNat
    fromSubstr := statedText filters "from"
    toSubstr := statedText filters "to"
    subjectSubstr := statedText filters "subject"
    attachmentName := statedText filters "attachment_name"
    after := statedDate rules filters "date_from" <|>
      statedDate rules filters "after"
    before := statedDate rules filters "date_to" <|>
      statedDate rules filters "before"
    hasAttachment := statedHas filters
    languages := statedLanguages rules filters }

theorem statedParsing_filters (rules : TextRules) (filters : FilterDict) :
    (statedParsing rules filters).finish.filters =
      statedFilters rules filters := rfl

theorem parseId_decimal {id : Nat} {op : Operator}
    (hlength : (decimal id).length ≤ intMaxStrDigits) :
    parseId (decimal id) op = .ok (Int.ofNat id) := by
  unfold parseId
  rw [parseDigits_decimal hlength]
  rfl

theorem applyAll_accountIds (before : Parsing) :
    applyAll rules before (idParts filters "account_ids" .accountIdOp) =
      .ok { before with
        accountIds := before.accountIds ++
          (statedIds filters "account_ids").map Int.ofNat } := by
  apply applyAll_list (fun before ids =>
    { before with accountIds := before.accountIds ++ ids.map Int.ofNat })
  · intro before
    simp
  · intro before first rest
    simp
  · intro before id hid
    unfold Parsing.apply
    rw [parseId_decimal (decimal_length_of_mem_statedIds hid)]
    rfl

theorem applyAll_folderIds (before : Parsing) :
    applyAll rules before (idParts filters "folder_ids" .folderIdOp) =
      .ok { before with
        folderIds := before.folderIds ++
          (statedIds filters "folder_ids").map Int.ofNat } := by
  apply applyAll_list (fun before ids =>
    { before with folderIds := before.folderIds ++ ids.map Int.ofNat })
  · intro before
    simp
  · intro before first rest
    simp
  · intro before id hid
    unfold Parsing.apply
    rw [parseId_decimal (decimal_length_of_mem_statedIds hid)]
    rfl

/-- Each language code is read back as itself. -/
theorem applyAll_languages
    (hlower : ∀ value, rules.lower (rules.lower value) = rules.lower value)
    (htokens : langTokens rules filters = .ok tokens) (before : Parsing) :
    applyAll rules before (langParts rules filters) =
      .ok { before with
        languages := before.languages ++ statedLanguages rules filters } := by
  apply applyAll_list (fun before codes =>
    { before with languages := before.languages ++ codes })
  · intro before
    simp
  · intro before first rest
    simp
  · intro before code hcode
    obtain ⟨hnonempty, hplain⟩ := (langTokens_codes htokens).2 code hcode
    have hlowered : rules.lower code = code := by
      obtain ⟨value, rfl⟩ := exists_of_mem_statedLanguages hcode
      exact hlower _
    unfold Parsing.apply
    rw [strip_of_plain fun ch hch => (hplain ch hch).2, hlowered,
      if_neg hnonempty]

/-- Applying the date tokens sets the date stated, if one is. -/
theorem applyAll_dateParts {operator : String} {op : Operator}
    (htokens : dateTokens rules filters key operator = .ok tokens)
    (set : Parsing → Option Int → Parsing)
    (hnone : ∀ before : Parsing, set before none = before)
    (hsome : ∀ (before : Parsing) (value : Text) (day : Int),
      rules.strptime value = some day →
        before.apply rules op value = .ok (set before (some day)))
    (before : Parsing) :
    applyAll rules before (dateParts filters key op) =
      .ok (set before (statedDate rules filters key)) := by
  unfold dateParts statedDate
  rcases dateTokens_stated htokens with ⟨hstated, -⟩ |
    ⟨value, day, hstated, -, hday, -⟩
  · rw [hstated, Option.bind_none, hnone]
    rfl
  · rw [hstated]
    change Except.bind (before.apply rules op value) _ = .ok (set before _)
    rw [hsome before value day hday]
    change _ = Except.ok (set before (rules.strptime value))
    rw [hday]
    rfl

/-- A wish about attachments, where none was read before. -/
theorem applyAll_has (wanted : Option Bool) {before : Parsing}
    (hunset : before.hasAttachment = none) :
    applyAll rules before
        (wanted.toList.map fun wish => ⟨.hasOp, hasValue wish, false⟩) =
      .ok { before with hasAttachment := wanted } := by
  have hkeep : { before with hasAttachment := none } = before := by
    rw [← hunset]
  cases wanted with
  | none =>
      rw [hkeep]
      rfl
  | some wish =>
      change Except.bind (before.apply rules .hasOp (hasValue wish)) _ = _
      have hparse : parseHas (hasValue wish) before.hasAttachment =
          .ok wish := by
        rw [hunset]
        cases wish
        · rfl
        · rfl
      unfold Parsing.apply
      rw [hparse]
      rfl

/-- The tokens of an accepted dictionary set the filters it states. -/
theorem filterParts_applied
    (hlower : ∀ value, rules.lower (rules.lower value) = rules.lower value)
    (htokens : filterTokens rules filters = .ok tokens) :
    applyAll rules Parsing.start (filterParts rules filters) =
      .ok (statedParsing rules filters) := by
  have hsender (before : Parsing) :
      applyAll rules before (textParts filters "from" .fromOp) =
        .ok { before with
          fromSubstr := statedText filters "from" <|> before.fromSubstr } :=
    applyAll_option (fun before value =>
      { before with fromSubstr := value <|> before.fromSubstr }) _
      (fun _ => rfl) (fun _ _ _ => rfl) before
  have hrecipient (before : Parsing) :
      applyAll rules before (textParts filters "to" .toOp) =
        .ok { before with
          toSubstr := statedText filters "to" <|> before.toSubstr } :=
    applyAll_option (fun before value =>
      { before with toSubstr := value <|> before.toSubstr }) _
      (fun _ => rfl) (fun _ _ _ => rfl) before
  have hsubject (before : Parsing) :
      applyAll rules before (textParts filters "subject" .subjectOp) =
        .ok { before with
          subjectSubstr :=
            statedText filters "subject" <|> before.subjectSubstr } :=
    applyAll_option (fun before value =>
      { before with subjectSubstr := value <|> before.subjectSubstr }) _
      (fun _ => rfl) (fun _ _ _ => rfl) before
  have hattachment (before : Parsing) :
      applyAll rules before
          (textParts filters "attachment_name" .attachmentNameOp) =
        .ok { before with
          attachmentName :=
            statedText filters "attachment_name" <|> before.attachmentName } :=
    applyAll_option (fun before value =>
      { before with attachmentName := value <|> before.attachmentName }) _
      (fun _ => rfl) (fun _ _ _ => rfl) before
  have hafterOp (before : Parsing) (value : Text) (day : Int)
      (hday : rules.strptime value = some day) :
      before.apply rules .afterOp value = .ok { before with after := some day } := by
    simp [Parsing.apply, parseDate, hday, bind, Except.bind]
  have hbeforeOp (before : Parsing) (value : Text) (day : Int)
      (hday : rules.strptime value = some day) :
      before.apply rules .beforeOp value =
        .ok { before with before := some day } := by
    simp [Parsing.apply, parseDate, hday, bind, Except.bind]
  obtain ⟨pieces, hpieces, -⟩ := filterTokens_pieces htokens
  have hsetAfter {key : String} {operator : String} {tokens : List Text}
      (htokens : dateTokens rules filters key operator = .ok tokens)
      (before : Parsing) :
      applyAll rules before (dateParts filters key .afterOp) =
        .ok { before with
          after := statedDate rules filters key <|> before.after } :=
    applyAll_dateParts htokens (fun before value =>
      { before with after := value <|> before.after }) (fun _ => rfl)
      hafterOp before
  have hsetBefore {key : String} {operator : String} {tokens : List Text}
      (htokens : dateTokens rules filters key operator = .ok tokens)
      (before : Parsing) :
      applyAll rules before (dateParts filters key .beforeOp) =
        .ok { before with
          before := statedDate rules filters key <|> before.before } :=
    applyAll_dateParts htokens (fun before value =>
      { before with before := value <|> before.before }) (fun _ => rfl)
      hbeforeOp before
  simp only [filterParts, scopeFreeParts, applyAll_append, applyAll_accountIds,
    applyAll_folderIds, hsender, hrecipient, hsubject, hattachment,
    hsetAfter hpieces.after, hsetBefore hpieces.before,
    hsetAfter hpieces.dateFrom, hsetBefore hpieces.dateTo,
    applyAll_languages hlower hpieces.lang, bind, Except.bind]
  rw [hasParts, applyAll_has _ rfl]
  simp [statedParsing, Parsing.start]

end Effects

end Localmail
