/-
The exclusions applied to a message whichever way it was found, against the
boolean query they were taken from.  Adjacent terms are joined, `OR` binds
weaker, a dash negates; an exclusion is read off a token and its neighbours.
-/
import Localmail.FreeText
import Localmail.PhraseQuery
import Localmail.RunSearch

namespace Localmail

/-! ### The query as the database reads it -/

/-- The dashes a token starts with, as typed. -/
def leadingDashes (raw : Text) : Nat :=
  (raw.takeWhile (· = .scalar '-')).length

/-- Every dash negates once more. -/
def Token.isNegated (token : Token) : Bool :=
  leadingDashes token.raw % 2 = 1

section WebSearch

variable (words : Text → List Text)

/-- The words of a token without its dashes. -/
def Token.phrase (token : Token) : List Text :=
  words (token.stripped.drop (leadingDashes token.raw))

/-- The terms of an alternative; a token without words makes none. -/
def termsOf (tokens : List Token) : List (PhraseTerm Text) :=
  (tokens.filter fun token => token.phrase words ≠ []).map fun token =>
    ⟨token.isNegated, token.phrase words⟩

/-- The runs of tokens between `OR`s. -/
def alternatives (query : Text) : List (List Token) :=
  (tokenize query).splitOnP fun token => isOr token.raw

/-- `document @@ websearch_to_tsquery('simple', query)`, on a document as its
words in order. -/
def WebSearchMatches (document : List Text) (query : Text) : Prop :=
  ∃ tokens ∈ alternatives query, termsOf words tokens ≠ [] ∧
    AllHold document (termsOf words tokens)

/-- The clause on a message and the names of its files. -/
def ExcludingHolds (document names : List Text) (excluded : Text) : Prop :=
  WebSearchMatches words document excluded ∧
    WebSearchMatches words names excluded

/-- The tokens of a free text that are excluded from every message. -/
def appliedExclusions (rules : TextRules) (freeText : Text) : List Token :=
  excludedTokens rules (tokenize freeText)

/-- Between two runs of tokens, one of a word behind a single dash, with no
`OR` beside it. -/
structure Excludes (rules : TextRules) (before : List Token) (token : Token)
    (after : List Token) : Prop where
  oneDash : leadingDashes token.raw = 1
  word : token.stripped.any rules.isAlnum = true
  left : ∀ last ∈ before.getLast?, isOr last.raw = false
  right : ∀ next ∈ after.head?, isOr next.raw = false

/-- Every alternative that can match rules out what is excluded. -/
def ExclusionsShared (rules : TextRules) (freeText : Text) : Prop :=
  ∀ tokens ∈ alternatives freeText, termsOf words tokens ≠ [] →
    Consistent (termsOf words tokens) →
      ∀ before excluded after,
        tokenize freeText = before ++ excluded :: after →
        Excludes rules before excluded after →
          RulesOut (termsOf words tokens) (excluded.phrase words)

instance (document : List Text) (query : Text) :
    Decidable (WebSearchMatches words document query) :=
  inferInstanceAs (Decidable (∃ tokens ∈ alternatives query,
    termsOf words tokens ≠ [] ∧ AllHold document (termsOf words tokens)))

instance (document names : List Text) (excluded : Text) :
    Decidable (ExcludingHolds words document names excluded) :=
  inferInstanceAs (Decidable (_ ∧ _))

end WebSearch

/-! ### Reading the excluded text -/

section Excluded

variable {rules : TextRules} {words : Text → List Text} {freeText : Text}
  {token : Token}

/-- An exclusion starts with one dash. -/
theorem exists_of_isExclusion {raw : Text} (hexclusion : isExclusion raw = true) :
    ∃ rest, raw = .scalar '-' :: rest ∧ leadingDashes raw = 1 := by
  unfold isExclusion at hexclusion
  obtain ⟨hone, htwo⟩ := Bool.and_eq_true_iff.mp hexclusion
  cases raw with
  | nil => cases hone
  | cons first rest =>
      obtain rfl : CodePoint.scalar '-' = first := by
        simpa [text, List.isPrefixOf] using hone
      refine ⟨rest, rfl, ?_⟩
      cases rest with
      | nil => rfl
      | cons second others =>
          have hsecond : second ≠ .scalar '-' := by
            rintro rfl
            simp [text, List.isPrefixOf] at htwo
          simp [leadingDashes, hsecond]

theorem isExclusion_iff {raw : Text} :
    isExclusion raw = true ↔ leadingDashes raw = 1 := by
  constructor
  · intro hexclusion
    obtain ⟨-, -, hdashes⟩ := exists_of_isExclusion hexclusion
    exact hdashes
  · intro hdashes
    unfold leadingDashes at hdashes
    unfold isExclusion
    match raw with
    | [] => simp at hdashes
    | [first] =>
        by_cases hfirst : first = .scalar '-'
        · subst hfirst
          decide
        · simp [hfirst] at hdashes
    | first :: second :: rest =>
        by_cases hfirst : first = .scalar '-'
        · by_cases hsecond : second = .scalar '-'
          · simp [hfirst, hsecond] at hdashes
          · simp [hfirst, text, List.isPrefixOf, Ne.symm hsecond]
        · simp [hfirst] at hdashes

theorem apartFromOr_append {before after : List Token} :
    apartFromOr (before ++ token :: after) before.length = true ↔
      (∀ last ∈ before.getLast?, isOr last.raw = false) ∧
        ∀ next ∈ after.head?, isOr next.raw = false := by
  have hnext : (before ++ token :: after)[before.length + 1]? = after.head? := by
    rw [List.getElem?_append_right (by omega)]
    simp [List.head?_eq_getElem?]
  have hlast (hsome : 0 < before.length) :
      (before ++ token :: after)[before.length - 1]? = before.getLast? := by
    rw [List.getElem?_append_left (by omega), List.getLast?_eq_getElem?]
  have hany (found : Option Token) :
      (found.any fun token => isOr token.raw) = false ↔
        ∀ token ∈ found, isOr token.raw = false := by
    cases found <;> simp
  unfold apartFromOr
  rw [hnext]
  rcases Nat.eq_zero_or_pos before.length with hnone | hsome
  · obtain rfl := List.length_eq_zero_iff.mp hnone
    simp [hany]
  · rw [hlast hsome]
    simp [hsome, hany]

/-- What is excluded, by the tokens it stands between. -/
theorem mem_appliedExclusions_iff :
    token ∈ appliedExclusions rules freeText ↔
      ∃ before after, tokenize freeText = before ++ token :: after ∧
        Excludes rules before token after := by
  unfold appliedExclusions excludedTokens
  generalize tokenize freeText = tokens
  constructor
  · intro htoken
    obtain ⟨⟨given, index⟩, hentry, rfl⟩ := List.mem_map.mp htoken
    obtain ⟨hmem, hkept⟩ := List.mem_filter.mp hentry
    obtain ⟨hinside, hgiven⟩ :=
      List.getElem?_eq_some_iff.mp (List.mem_zipIdx_iff_getElem?.mp hmem)
    dsimp only at hinside hgiven hkept ⊢
    have hsplit : tokens =
        tokens.take index ++ given :: tokens.drop (index + 1) := by
      rw [← hgiven, ← List.drop_eq_getElem_cons hinside,
        List.take_append_drop]
    have hlength : (tokens.take index).length = index :=
      List.length_take_of_le hinside.le
    obtain ⟨hboth, hapart⟩ := Bool.and_eq_true_iff.mp hkept
    obtain ⟨hexclusion, halnum⟩ := Bool.and_eq_true_iff.mp hboth
    rw [hsplit] at hapart
    conv at hapart => enter [1, 2]; rw [← hlength]
    obtain ⟨hleft, hright⟩ := apartFromOr_append.mp hapart
    exact ⟨_, _, hsplit, isExclusion_iff.mp hexclusion, halnum, hleft, hright⟩
  · rintro ⟨before, after, rfl, hexcludes⟩
    refine List.mem_map.mpr ⟨(token, before.length), List.mem_filter.mpr ⟨?_, ?_⟩,
      rfl⟩
    · rw [List.mem_zipIdx_iff_getElem?]
      simp
    · dsimp only
      rw [isExclusion_iff.mpr hexcludes.oneDash, hexcludes.word,
        apartFromOr_append.mpr ⟨hexcludes.left, hexcludes.right⟩]
      rfl

theorem exclusionsShared_iff :
    ExclusionsShared words rules freeText ↔
      ∀ tokens ∈ alternatives freeText, termsOf words tokens ≠ [] →
        Consistent (termsOf words tokens) →
          ∀ excluded ∈ appliedExclusions rules freeText,
            RulesOut (termsOf words tokens) (excluded.phrase words) := by
  unfold ExclusionsShared
  simp only [mem_appliedExclusions_iff, forall_exists_index, and_imp]
  refine forall₄_congr fun tokens _ _ _ => ?_
  constructor
  · intro hshared excluded before after
    exact hshared before excluded after
  · intro hshared before excluded after
    exact hshared excluded before after

instance (rules : TextRules) (freeText : Text) :
    Decidable (ExclusionsShared words rules freeText) :=
  decidable_of_iff _ exclusionsShared_iff.symm

theorem mem_appliedExclusions (htoken : token ∈ appliedExclusions rules freeText) :
    token ∈ tokenize freeText ∧ isExclusion token.raw = true ∧
      token.stripped.any rules.isAlnum = true := by
  obtain ⟨before, after, hsplit, hexcludes⟩ :=
    mem_appliedExclusions_iff.mp htoken
  refine ⟨?_, isExclusion_iff.mpr hexcludes.oneDash, hexcludes.word⟩
  rw [hsplit]
  exact List.mem_append_right before List.mem_cons_self

theorem appliedExclusions_sublist (rules : TextRules) (freeText : Text) :
    (appliedExclusions rules freeText).Sublist (tokenize freeText) := by
  have hmapped := (List.filter_sublist (p := fun entry : Token × Nat =>
    isExclusion entry.1.raw && entry.1.stripped.any rules.isAlnum &&
      apartFromOr (tokenize freeText) entry.2)
    (l := (tokenize freeText).zipIdx)).map Prod.fst
  rwa [List.zipIdx_map_fst] at hmapped

/-- The excluded text is read back as the tokens it was made of. -/
theorem tokenize_excludedText (rules : TextRules) (freeText : Text) :
    tokenize (excludedText rules freeText) =
      appliedExclusions rules freeText := by
  rw [excludedText_eq]
  exact ((tokenize_wordList freeText).sublist
    (appliedExclusions_sublist rules freeText)).tokenize_joinSpaces

/-- It is one alternative. -/
theorem alternatives_excludedText (rules : TextRules) (freeText : Text) :
    alternatives (excludedText rules freeText) =
      [appliedExclusions rules freeText] := by
  unfold alternatives
  rw [tokenize_excludedText]
  apply List.splitOnP_eq_singleton
  intro token htoken
  obtain ⟨-, hexclusion, -⟩ := mem_appliedExclusions htoken
  obtain ⟨rest, hraw, -⟩ := exists_of_isExclusion hexclusion
  simp [isOr, hraw, lowerAscii, text, CodePoint.lowerAscii]

/-- What is excluded has a word in it, and is excluded. -/
theorem appliedExclusion_term
    (hwords : ∀ value, words value ≠ [] ↔ value.any rules.isAlnum = true)
    (hdash : rules.isAlnum (.scalar '-') = false)
    (htoken : token ∈ appliedExclusions rules freeText) :
    token.phrase words ≠ [] ∧ token.isNegated = true := by
  obtain ⟨hmem, hexclusion, halnum⟩ := mem_appliedExclusions htoken
  obtain ⟨rest, hraw, hdashes⟩ := exists_of_isExclusion hexclusion
  refine ⟨?_, by simp [Token.isNegated, hdashes]⟩
  have hstripped : token.stripped =
      .scalar '-' :: rest.filter (· ≠ .scalar '"') := by
    rw [stripped_of_mem_tokenize hmem, hraw]
    simp
  unfold Token.phrase
  rw [hwords, hdashes, hstripped, List.drop_one, List.tail_cons]
  rw [hstripped, List.any_cons, hdash, Bool.false_or] at halnum
  exact halnum

/-- The clause holds where no excluded phrase stands. -/
theorem webSearchMatches_excludedText
    (hwords : ∀ value, words value ≠ [] ↔ value.any rules.isAlnum = true)
    (hdash : rules.isAlnum (.scalar '-') = false) (document : List Text) :
    WebSearchMatches words document (excludedText rules freeText) ↔
      appliedExclusions rules freeText ≠ [] ∧
        ∀ token ∈ appliedExclusions rules freeText,
          ¬token.phrase words <:+: document := by
  have hall : (appliedExclusions rules freeText).filter
      (fun token => token.phrase words ≠ []) =
        appliedExclusions rules freeText := by
    apply List.filter_eq_self.mpr
    intro token htoken
    exact decide_eq_true (appliedExclusion_term hwords hdash htoken).1
  have hterms : termsOf words (appliedExclusions rules freeText) =
      (appliedExclusions rules freeText).map fun token =>
        ⟨token.isNegated, token.phrase words⟩ := by
    unfold termsOf
    rw [hall]
  have hholds : AllHold document (termsOf words
      (appliedExclusions rules freeText)) ↔
        ∀ token ∈ appliedExclusions rules freeText,
          ¬token.phrase words <:+: document := by
    rw [hterms]
    unfold AllHold
    rw [List.forall_mem_map]
    apply forall₂_congr
    intro token htoken
    simp [PhraseTerm.Holds, (appliedExclusion_term hwords hdash htoken).2]
  unfold WebSearchMatches
  rw [alternatives_excludedText]
  simp only [List.mem_singleton, exists_eq_left, hholds]
  rw [hterms]
  simp

theorem excludedText_ne_nil (hne : excludedText rules freeText ≠ []) :
    appliedExclusions rules freeText ≠ [] := by
  intro hempty
  apply hne
  rw [excludedText_eq, excludedOf]
  change joinSpaces ((appliedExclusions rules freeText).map Token.raw) = []
  rw [hempty]
  rfl

end Excluded

/-- The exclusion is the only clause of its kind on a message. -/
theorem excluding_mem_messageWhere {rules : TextRules} {parsed : ParsedQuery}
    {excluded : Text} :
    FilterClause.excluding excluded ∈ messageWhere rules parsed ↔
      excluded = excludedText rules parsed.freeText ∧ excluded ≠ [] := by
  have hscalar {α : Type} (clause : α → FilterClause) (value : Option α)
      (hclause : ∀ given, clause given ≠ .excluding excluded) :
      FilterClause.excluding excluded ∉ scalarClause clause value := by
    intro hmem
    obtain ⟨given, -, hgiven⟩ := Option.map_eq_some_iff.mp
      (Option.mem_toList.mp hmem)
    exact hclause given hgiven
  have hlist {α : Type} (clause : List α → FilterClause)
      (values : Option (List α))
      (hclause : ∀ given, clause given ≠ .excluding excluded) :
      FilterClause.excluding excluded ∉ listClause clause values := by
    intro hmem
    unfold listClause at hmem
    split at hmem
    · cases hmem
    · cases hmem
    · exact hclause _ (List.mem_singleton.mp hmem).symm
  have hfilters : FilterClause.excluding excluded ∉ filterSql parsed.filters := by
    unfold filterSql substrClause
    simp only [List.mem_append, not_or]
    refine ⟨⟨⟨⟨⟨⟨⟨⟨⟨⟨⟨⟨?_, ?_⟩, ?_⟩, ?_⟩, ?_⟩, ?_⟩, ?_⟩, ?_⟩, ?_⟩, ?_⟩, ?_⟩,
      ?_⟩, ?_⟩
    all_goals first
      | exact hlist _ _ nofun
      | exact hscalar _ _ nofun
  unfold messageWhere
  simp only [List.mem_append, hfilters, false_or]
  split
  · rename_i hempty
    simp [hempty]
  · rename_i hsome
    simp only [List.mem_singleton, FilterClause.excluding.injEq]
    constructor
    · rintro rfl
      exact ⟨rfl, hsome⟩
    · exact And.left

instance : Nonempty CodePoint := ⟨.scalar 'a'⟩

namespace ExclusionWitness

def rules : TextRules where
  lower := lowerAscii
  isAlnum := fun
    | .scalar char => char.isAlphanum
    | .surrogate _ => false
  strptime := fun _ => none

/-- The words of a text that holds one at most. -/
def words (value : Text) : List Text :=
  if value.any rules.isAlnum then [value.filter rules.isAlnum] else []

theorem words_ne_nil (value : Text) :
    words value ≠ [] ↔ value.any rules.isAlnum = true := by
  unfold words
  split
  · rename_i hsome
    simp [hsome]
  · rename_i hnone
    simp [hnone]

/-- What the parser makes of a free text without operators. -/
def parsed (freeText : String) : ParsedQuery :=
  ⟨text freeText, none, [], SearchFilters.unset⟩

end ExclusionWitness

end Localmail
