/-
The substring filters on the sender, the recipients and the subject, as the
database evaluates the conditions made for them: `ILIKE` with the value between
two wildcards.  A value without `%`, `_` and backslash is looked for as it is.
-/
import Mathlib.Data.List.ReduceOption
import Localmail.AsciiText
import Localmail.HeaderBlock
import Localmail.LikePattern
import Localmail.RunSearch

namespace Localmail

def likeMarks : LikeMarks CodePoint where
  many := .scalar '%'
  one := .scalar '_'
  escape := .scalar '\\'
  one_ne_many := by decide
  escape_ne_many := by decide
  escape_ne_one := by decide

/-- `lower` of the database, in its locale.  No mark is a letter or beside one
a different letter, and what is in lower case stays as it is. -/
structure SqlLower where
  lower : Text → Text
  lower_surrounded : ∀ value,
    lower (surrounded likeMarks value) = surrounded likeMarks (lower value)
  exists_mark_iff : ∀ value,
    (∃ char ∈ lower value, likeMarks.IsMark char) ↔
      ∃ char ∈ value, likeMarks.IsMark char
  settled : ∀ value found,
    (∀ char ∈ found, char ∈ lower value ∨ char = likeMarks.many) →
      lower found = found

/-- A lower case found letter by letter. -/
def SqlLower.ofFold (fold : CodePoint → CodePoint)
    (hfold : ∀ char, fold (fold char) = fold char)
    (hmark : ∀ char, likeMarks.IsMark (fold char) ↔ likeMarks.IsMark char)
    (hmany : fold likeMarks.many = likeMarks.many) : SqlLower where
  lower value := value.map fold
  lower_surrounded := by
    intro value
    simp [surrounded, hmany]
  exists_mark_iff := by
    intro value
    simp [hmark]
  settled := by
    intro value found hfound
    have hfixed : ∀ char ∈ found, fold char = id char := by
      intro char hchar
      rcases hfound char hchar with hlower | rfl
      · obtain ⟨before, -, rfl⟩ := List.mem_map.mp hlower
        exact hfold before
      · exact hmany
    rw [List.map_congr_left hfixed, List.map_id]

/-- The lower case of the `C` locale. -/
def sqlLowerAscii : SqlLower :=
  SqlLower.ofFold CodePoint.lowerAscii lowerAscii_lowerAscii
    (fun char => or_congr (lowerAscii_eq_iff '%' rfl char)
      (or_congr (lowerAscii_eq_iff '_' rfl char) (lowerAscii_eq_iff '\\' rfl char)))
    (lowerAscii_of_not_letter rfl)

/-! ### The conditions -/

/-- What the substring filters read of a message; `attachmentNames` are the
names `NAMES_JSONPATH` finds. -/
structure FilteredRow where
  fromAddr : Option Text
  fromName : Option Text
  toAddrs : Option (List (Option Text))
  subject : Option Text
  attachmentNames : List Text
deriving Repr, DecidableEq

/-- `OR` with `NULL`. -/
def sqlOr : Option Bool → Option Bool → Option Bool
  | some true, _ | _, some true => some true
  | some false, some false => some false
  | _, _ => none

/-- `strpos`, from 1. -/
def strpos (value part : Text) : Nat :=
  ((firstAt part value).map (· + 1)).getD 0

namespace SqlLower

variable (rules : SqlLower)

/-- `field ILIKE pattern`; a pattern that ends with the escape would raise. -/
def ilike (field : Option Text) (pattern : Text) : Option Bool :=
  field.bind fun value =>
    like likeMarks (rules.lower value) (rules.lower pattern)

/-- Whether a clause holds on a message; `others` decides those that are no
substring filter. -/
def clauseHolds (others : FilterClause → Bool) (row : FilteredRow) :
    FilterClause → Bool
  | .fromLike value =>
      let pattern := text "%" ++ value ++ text "%"
      sqlOr (rules.ilike row.fromAddr pattern)
        (rules.ilike row.fromName pattern) = some true
  | .toLike value =>
      let pattern := text "%" ++ value ++ text "%"
      (row.toAddrs.getD []).any fun address =>
        rules.ilike address pattern = some true
  | .subjectLike value =>
      rules.ilike row.subject (text "%" ++ value ++ text "%") = some true
  | .attachmentNameContains value =>
      row.attachmentNames.any fun name =>
        0 < strpos (rules.lower name) (rules.lower value)
  | other => others other

end SqlLower

/-! ### What they look for -/

inductive SubstrFilter where
  | sender
  | recipients
  | subject
deriving Repr, DecidableEq

namespace SubstrFilter

/-- The filters of a search that has this one alone. -/
def filters (value : Text) : SubstrFilter → SearchFilters
  | sender => { SearchFilters.unset with fromSubstr := some value }
  | recipients => { SearchFilters.unset with toSubstr := some value }
  | subject => { SearchFilters.unset with subjectSubstr := some value }

/-- The texts of a message one of which has to contain the value. -/
def texts (row : FilteredRow) : SubstrFilter → List Text
  | sender => row.fromAddr.toList ++ row.fromName.toList
  | recipients => (row.toAddrs.getD []).reduceOption
  | subject => row.subject.toList

/-- A message with one of its texts. -/
def rowOf (field : Text) : SubstrFilter → FilteredRow
  | sender => ⟨some field, none, none, none, []⟩
  | recipients => ⟨none, none, some [some field], none, []⟩
  | subject => ⟨none, none, none, some field, []⟩

@[simp] theorem texts_rowOf (field : Text) (filter : SubstrFilter) :
    filter.texts (filter.rowOf field) = [field] := by
  cases filter <;> rfl

/-- The clause of a filter, made of any value that is not empty. -/
def clause (value : Text) : SubstrFilter → FilterClause
  | sender => .fromLike value
  | recipients => .toLike value
  | subject => .subjectLike value

theorem filterSql_filters (value : Text) (filter : SubstrFilter) :
    filterSql (filter.filters value) =
      if value = [] then [] else [filter.clause value] := by
  cases value <;> cases filter <;> rfl

end SubstrFilter

section Contains

variable {rules : SqlLower} {others : FilterClause → Bool} {row : FilteredRow}

theorem sqlOr_eq_true_iff (left right : Option Bool) :
    sqlOr left right = some true ↔ left = some true ∨ right = some true := by
  cases left with
  | none => cases right with
    | none => decide
    | some right => cases right <;> decide
  | some left => cases left <;> cases right with
    | none => decide
    | some right => cases right <;> decide

theorem ilike_eq_true_iff (field : Option Text) (pattern : Text) :
    rules.ilike field pattern = some true ↔
      ∃ value ∈ field, like likeMarks (rules.lower value)
        (rules.lower pattern) = some true := by
  simp [SqlLower.ilike, Option.bind_eq_some_iff, Option.mem_def]

theorem strpos_pos_iff (value part : Text) :
    0 < strpos value part ↔ part <:+: value := by
  rcases eq_or_ne part [] with rfl | hpart
  · cases value <;> simp [strpos, firstAt]
  · cases hfirst : firstAt part value with
    | none => simp [strpos, hfirst, (firstAt_eq_none_iff hpart).mp hfirst]
    | some index =>
        have hinfix : part <:+: value := by
          by_contra hnone
          rw [(firstAt_eq_none_iff hpart).mpr hnone] at hfirst
          cases hfirst
        simp [strpos, hfirst, hinfix]

/-- No pattern made of a value raises. -/
theorem ilike_isSome (field value : Text) :
    (rules.ilike (some field) (text "%" ++ value ++ text "%")).isSome = true := by
  change (like likeMarks (rules.lower field)
    (rules.lower (surrounded likeMarks value))).isSome = true
  rw [rules.lower_surrounded]
  exact like_surrounded_isSome _ _

/-- Every condition asks whether one of the texts it reads matches. -/
theorem clauseHolds_clause_iff (filter : SubstrFilter) (value : Text) :
    rules.clauseHolds others row (filter.clause value) = true ↔
      ∃ field ∈ filter.texts row, like likeMarks (rules.lower field)
        (surrounded likeMarks (rules.lower value)) = some true := by
  have hpattern : text "%" ++ value ++ text "%" = surrounded likeMarks value :=
    rfl
  rw [← rules.lower_surrounded, ← hpattern]
  cases filter with
  | sender =>
      simp [SubstrFilter.clause, SqlLower.clauseHolds, SubstrFilter.texts,
        sqlOr_eq_true_iff, ilike_eq_true_iff, or_and_right, exists_or]
  | recipients =>
      simp [SubstrFilter.clause, SqlLower.clauseHolds, SubstrFilter.texts,
        ilike_eq_true_iff, List.reduceOption_mem_iff]
  | subject =>
      simp [SubstrFilter.clause, SqlLower.clauseHolds, SubstrFilter.texts,
        ilike_eq_true_iff]

/-- The filter on attachment names means containment, whatever the value. -/
theorem attachmentNameContains_iff (value : Text) :
    rules.clauseHolds others row (.attachmentNameContains value) = true ↔
      ∃ name ∈ row.attachmentNames, rules.lower value <:+: rules.lower name := by
  simp only [SqlLower.clauseHolds, List.any_eq_true, decide_eq_true_eq,
    strpos_pos_iff]

/-- A substring filter means containment for every message exactly if its value
has none of `%`, `_` and backslash. -/
theorem substr_filter_contains_iff (rules : SqlLower)
    (others : FilterClause → Bool) (filter : SubstrFilter) (value : Text) :
    (∀ clause ∈ filterSql (filter.filters value), ∀ row,
      rules.clauseHolds others row clause = true ↔
        ∃ field ∈ filter.texts row, rules.lower value <:+: rules.lower field) ↔
      ∀ char ∈ value, ¬ likeMarks.IsMark char := by
  rw [SubstrFilter.filterSql_filters]
  rcases eq_or_ne value [] with rfl | hvalue
  · exact iff_of_true nofun nofun
  rw [if_neg hvalue]
  simp only [List.forall_mem_singleton, clauseHolds_clause_iff]
  constructor
  · intro hmeans char hchar hmark
    obtain ⟨lowered, hlowered, hloweredMark⟩ :=
      (rules.exists_mark_iff value).mpr ⟨char, hchar, hmark⟩
    obtain ⟨field, hfield, hlike, hnone⟩ :=
      exists_like_surrounded_not_infix hlowered hloweredMark
    have hrow := hmeans (filter.rowOf field)
    simp only [SubstrFilter.texts_rowOf, List.mem_singleton, exists_eq_left,
      rules.settled value field hfield] at hrow
    exact hnone (hrow.mp hlike)
  · intro hplain row
    have hlowered : ∀ char ∈ rules.lower value, ¬ likeMarks.IsMark char := by
      intro char hchar hmark
      obtain ⟨found, hfound, hfoundMark⟩ :=
        (rules.exists_mark_iff value).mp ⟨char, hchar, hmark⟩
      exact hplain found hfound hfoundMark
    simp only [like_surrounded_iff hlowered]

end Contains

/-- `_` in a subject filter stands for any character. -/
theorem underscore_matches_any :
    ¬ ∀ clause ∈ filterSql (SubstrFilter.subject.filters (text "fee_b")),
      ∀ row, sqlLowerAscii.clauseHolds (fun _ => true) row clause = true ↔
        ∃ field ∈ SubstrFilter.subject.texts row,
          sqlLowerAscii.lower (text "fee_b") <:+: sqlLowerAscii.lower field := by
  intro hmeans
  have hrow := (hmeans (.subjectLike (text "fee_b")) (by decide)
    (SubstrFilter.subject.rowOf (text "Fee-B"))).mp (by decide)
  revert hrow
  decide

end Localmail
