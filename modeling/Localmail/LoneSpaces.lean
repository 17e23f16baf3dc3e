/-
The operators of a query to the client and to the server.  The spaces the two
know differ in six characters; where no word that has one of these outside its
quotes names an operator, both read the same values of it, in the query and in
its tokens as they are spelled anew.
-/
import Localmail.AsciiText
import Localmail.RebuiltQuery

namespace Localmail

/-! ### Spaces -/

/-- The spaces of one reader only: U+FEFF of the client, the others of the
server. -/
def loneSpaces : Text := text "\u001c\u001d\u001e\u001f\u0085\ufeff"

def sharedSpace (ch : CodePoint) : Bool := ch.isSpace && ch.isJsSpace

def anySpace (ch : CodePoint) : Bool := ch.isSpace || ch.isJsSpace

theorem isSpace_eq_isJsSpace {ch : CodePoint} (hlone : ch ∉ loneSpaces) :
    ch.isSpace = ch.isJsSpace := by
  cases ch with
  | surrogate offset => rfl
  | scalar char =>
      simp only [loneSpaces, text, String.reduceToList, List.map_cons,
        List.map_nil, List.mem_cons, CodePoint.scalar.injEq, List.not_mem_nil,
        or_false, not_or, ← Char.toNat_inj, Char.reduceToNat] at hlone
      rw [Bool.eq_iff_iff]
      simp only [CodePoint.isSpace, CodePoint.isJsSpace, Bool.or_eq_true,
        Bool.and_eq_true, decide_eq_true_eq]
      omega

/-- No character of an operator's name is a space, in either case. -/
theorem not_anySpace_of_name {op : Operator} {ch : CodePoint}
    (hname : ch.lowerAscii ∈ op.name ++ text ":") : anySpace ch = false := by
  have hplain : ∀ other ∈ op.name ++ text ":", anySpace other = false := by
    cases op <;> decide
  cases ch with
  | surrogate offset => rfl
  | scalar char =>
      by_contra hspace
      have hletter : char.isAlpha = false := by
        rw [← Bool.not_eq_true, isAlpha_iff]
        simp only [anySpace, CodePoint.isSpace, CodePoint.isJsSpace,
          Bool.not_eq_false, Bool.or_eq_true, Bool.and_eq_true,
          decide_eq_true_eq] at hspace
        omega
      rw [lowerAscii_of_not_letter hletter] at hname
      exact hspace (hplain _ hname)

/-! ### Words that name an operator -/

/-- The word has a space of one reader only outside its quotes. -/
def HasLoneSpace (word : QuotedWord CodePoint) : Prop :=
  ∃ ch ∈ outsideQuotes (.scalar '"') false word.raw, ch ∈ loneSpaces

/-- No piece of the text between spaces of either reader begins with the
operator's name and its colon. -/
def OperatorFree (op : Operator) (given : Text) : Prop :=
  ∀ piece ∈ quotedWords (.scalar '"') anySpace given,
    ¬ op.name ++ text ":" <+: lowerAscii piece.bare

/-- No word of the query between spaces that both know has a space of one reader
only, outside its quotes, and names the operator. -/
def OperatorShared (op : Operator) (query : Text) : Prop :=
  ∀ word ∈ quotedWords (.scalar '"') sharedSpace query,
    HasLoneSpace word → OperatorFree op word.raw

instance (word : QuotedWord CodePoint) : Decidable (HasLoneSpace word) :=
  inferInstanceAs (Decidable (∃ ch ∈ _, _))

instance (op : Operator) (given : Text) : Decidable (OperatorFree op given) :=
  inferInstanceAs (Decidable (∀ piece ∈ _, _))

instance (op : Operator) (query : Text) : Decidable (OperatorShared op query) :=
  inferInstanceAs (Decidable (∀ word ∈ _, _))

/-- A query without the six outside its quotes shares every operator. -/
theorem operatorShared_of_no_loneSpace {op : Operator} {query : Text}
    (hnone : ∀ ch ∈ outsideQuotes (.scalar '"') false query, ch ∉ loneSpaces) :
    OperatorShared op query := by
  rintro word hword ⟨ch, hch, hlone⟩
  exact absurd hlone (hnone ch (mem_outsideQuotes_of_mem hword hch))

section Free

variable {op : Operator} {sep : CodePoint → Bool}

/-- A token with a value of the operator begins with its name. -/
theorem exists_name_of_operatorValue {token : Token} {value : Text}
    (hvalue : operatorValue op token = some value) :
    ∃ name, name ++ text ":" <+: token.stripped ∧ lowerAscii name = op.name := by
  by_cases hcolon : CodePoint.scalar ':' ∈ token.stripped
  · obtain ⟨name, found, hstripped, hname⟩ :=
      List.eq_append_cons_of_mem hcolon
    have hwhole : token.stripped = name ++ text ":" ++ found := by
      rw [hstripped, List.append_assoc]
      rfl
    unfold operatorValue at hvalue
    rw [hwhole, partitionColon_append hname] at hvalue
    dsimp only at hvalue
    split at hvalue
    · rename_i hnamed
      refine ⟨name, ?_, operators_lookup.mp hnamed.1⟩
      rw [hwhole]
      exact List.prefix_append _ _
    · cases hvalue
  · unfold operatorValue partitionColon at hvalue
    rw [if_neg hcolon] at hvalue
    cases hvalue

theorem OperatorFree.operatorValue {word : QuotedWord CodePoint}
    (hfree : OperatorFree op word.raw)
    (hbare : word.bare = withoutQuotes (.scalar '"') word.raw) :
    operatorValue op word.token = none := by
  rw [← Option.not_isSome_iff_eq_none]
  intro hsome
  obtain ⟨value, hvalue⟩ := Option.isSome_iff_exists.mp hsome
  obtain ⟨name, hlead, hname⟩ := exists_name_of_operatorValue hvalue
  have hlower : lowerAscii (name ++ text ":") = op.name ++ text ":" := by
    rw [← hname]
    simp [lowerAscii, text, CodePoint.lowerAscii]
  have hsolid : ∀ ch ∈ name ++ text ":", anySpace ch = false := by
    intro ch hch
    apply @not_anySpace_of_name op
    rw [← hlower]
    exact List.mem_map_of_mem hch
  have hwhole : name ++ text ":" <+: withoutQuotes (.scalar '"') word.raw := by
    rw [← hbare]
    exact hlead
  obtain ⟨piece, hpiece, hfound⟩ :=
    @exists_splitQuoted_of_begins _ _ (.scalar '"') anySpace false .empty
      word.raw (name ++ text ":") (by simp [text]) hsolid hwhole
  apply hfree piece hpiece
  rw [← hlower]
  exact hfound.map _

/-- A word of a text without the operator is without it as well. -/
theorem OperatorFree.of_mem {given : Text} (hfree : OperatorFree op given)
    (hclosed : quotedAfter (.scalar '"') false given = false)
    (hsep : ∀ ch, sep ch = true → anySpace ch = true)
    {word : QuotedWord CodePoint}
    (hword : word ∈ quotedWords (.scalar '"') sep given) :
    OperatorFree op word.raw := by
  intro piece hpiece
  have hsplit : quotedWords (.scalar '"') anySpace given =
      (quotedWords (.scalar '"') sep given).flatMap fun found =>
        quotedWords (.scalar '"') anySpace found.raw :=
    quotedWords_flatMap hclosed fun ch _ => hsep ch
  apply hfree
  rw [hsplit]
  exact List.mem_flatMap.mpr ⟨word, hword, hpiece⟩

/-- A reader finds no value of the operator in such a text. -/
theorem OperatorFree.typedValues {given : Text} (hfree : OperatorFree op given)
    (hclosed : quotedAfter (.scalar '"') false given = false)
    (hsep : ∀ ch, sep ch = true → anySpace ch = true) :
    typedValues op
        ((quotedWords (.scalar '"') sep given).map QuotedWord.token) = [] := by
  refine List.filterMap_eq_nil_iff.mpr fun token htoken => ?_
  obtain ⟨word, hword, rfl⟩ := List.mem_map.mp htoken
  exact (hfree.of_mem hclosed hsep hword).operatorValue
    (isQuotedWord_of_mem hclosed word hword).bare_eq

end Free

/-! ### Values read alike -/

theorem anySpace_of_isSpace (ch : CodePoint) (hspace : ch.isSpace = true) :
    anySpace ch = true := by
  rw [anySpace, hspace, Bool.true_or]

theorem anySpace_of_isJsSpace (ch : CodePoint) (hspace : ch.isJsSpace = true) :
    anySpace ch = true := by
  rw [anySpace, hspace, Bool.or_true]

/-- A word without a space of one reader only is a word to both. -/
theorem isQuotedWord_of_shared {word : QuotedWord CodePoint}
    (hword : IsQuotedWord (.scalar '"') sharedSpace word)
    (hlone : ¬ HasLoneSpace word) :
    IsQuotedWord (.scalar '"') CodePoint.isSpace word ∧
      IsQuotedWord (.scalar '"') CodePoint.isJsSpace word := by
  have hboth : ∀ ch ∈ outsideQuotes (.scalar '"') false word.raw,
      ch.isSpace = false ∧ ch.isJsSpace = false := by
    intro ch hch
    have hsame := isSpace_eq_isJsSpace fun hin => hlone ⟨ch, hch, hin⟩
    have hnot := hword.unsplit ch hch
    rw [sharedSpace, hsame, Bool.and_self] at hnot
    exact ⟨hsame.trans hnot, hnot⟩
  exact ⟨⟨hword.nonempty, hword.bare_eq, hword.closed,
      fun ch hch => (hboth ch hch).1⟩,
    ⟨hword.nonempty, hword.bare_eq, hword.closed,
      fun ch hch => (hboth ch hch).2⟩⟩

section Alike

variable {op : Operator} {query : Text} (hbalanced : BalancedQuotes query)

include hbalanced

theorem quotedWords_sharedSpace {sep : CodePoint → Bool}
    (hsep : ∀ ch, sharedSpace ch = true → sep ch = true) :
    quotedWords (.scalar '"') sep query =
      (quotedWords (.scalar '"') sharedSpace query).flatMap fun word =>
        quotedWords (.scalar '"') sep word.raw :=
  quotedWords_flatMap ((balancedQuotes_iff query).mp hbalanced)
    fun ch _ => hsep ch

theorem isQuotedWord_sharedSpace {word : QuotedWord CodePoint}
    (hword : word ∈ quotedWords (.scalar '"') sharedSpace query) :
    IsQuotedWord (.scalar '"') sharedSpace word :=
  isQuotedWord_of_mem ((balancedQuotes_iff query).mp hbalanced) word hword

variable (hshared : OperatorShared op query)

include hshared

/-- Client and server read the same values in the query. -/
theorem typedValues_tokenize :
    typedValues op (tokenize query) = typedValues op (tokenizeRaw query) := by
  rw [tokenize_eq_quotedWords, tokenizeRaw_eq_quotedWords hbalanced,
    quotedWords_sharedSpace hbalanced fun ch h => (Bool.and_eq_true_iff.mp h).1,
    quotedWords_sharedSpace hbalanced fun ch h => (Bool.and_eq_true_iff.mp h).2,
    List.map_flatMap, List.map_flatMap, typedValues_flatMap,
    typedValues_flatMap]
  refine List.flatMap_congr fun word hword => ?_
  have hquoted := isQuotedWord_sharedSpace hbalanced hword
  by_cases hlone : HasLoneSpace word
  · have hfree := hshared word hword hlone
    rw [hfree.typedValues hquoted.closed anySpace_of_isSpace,
      hfree.typedValues hquoted.closed anySpace_of_isJsSpace]
  · obtain ⟨hserver, hclient⟩ := isQuotedWord_of_shared hquoted hlone
    rw [hserver.quotedWords, hclient.quotedWords]

/-- The server reads in a token that is spelled anew what the client reads in
it. -/
theorem typedValues_spellToken {token : Token}
    (htoken : token ∈ tokenizeRaw query) :
    typedValues op (tokenize (spellToken token)) = typedValues op [token] := by
  have hclient := isQuotedWord_of_mem_tokenizeRaw hbalanced htoken
  by_cases hrequoted : token.Requoted
  · rw [tokenize_requoted hclient hrequoted]
    rfl
  · rw [spellToken_kept hclient hrequoted]
    rw [tokenizeRaw_eq_quotedWords hbalanced,
      quotedWords_sharedSpace hbalanced fun ch h => (Bool.and_eq_true_iff.mp h).2]
      at htoken
    obtain ⟨found, hfound, rfl⟩ := List.mem_map.mp htoken
    obtain ⟨word, hword, hin⟩ := List.mem_flatMap.mp hfound
    have hquoted := isQuotedWord_sharedSpace hbalanced hword
    by_cases hlone : HasLoneSpace word
    · have hfree := (hshared word hword hlone).of_mem hquoted.closed
        anySpace_of_isJsSpace hin
      have hnone : operatorValue op found.token = none :=
        hfree.operatorValue hclient.bare_eq
      have hserver := hfree.typedValues hclient.closed anySpace_of_isSpace
      rw [← tokenize_eq_quotedWords] at hserver
      refine Eq.trans hserver ?_
      simp [typedValues, hnone]
    · obtain ⟨hserver, hsame⟩ := isQuotedWord_of_shared hquoted hlone
      rw [hsame.quotedWords, List.mem_singleton] at hin
      subst hin
      rw [@tokenize_of_isQuotedWord found.token hserver]

end Alike

end Localmail
