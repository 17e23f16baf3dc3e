/-
What a query means after the client has taken it apart and put it together
again.  The client and the server split a text outside its quotes, at different
spaces; a token that is wrapped in quotes anew loses the spaces only the server
knows and the place of its dash.
-/
import Mathlib.Algebra.Order.BigOperators.Group.List
import Mathlib.Algebra.Order.Group.Nat
import Localmail.ClientTokens
import Localmail.QuotedWords

namespace Localmail

/-- `joinTokens` of the query's own tokens. -/
def rebuiltQuery (query : Text) : Text :=
  joinTokens (tokenizeRaw query)

/-- Client and server read the same tokens in the rebuilt query, and the
server the same of them as exclusions and as `OR`. -/
structure KeepsMeaning (query : Text) : Prop where
  client : (tokenizeRaw (rebuiltQuery query)).map Token.stripped =
    (tokenizeRaw query).map Token.stripped
  server : (tokenize (rebuiltQuery query)).map Token.stripped =
    (tokenize query).map Token.stripped
  exclusions : (tokenize (rebuiltQuery query)).map
      (fun token => isExclusion token.raw) =
    (tokenize query).map fun token => isExclusion token.raw
  ors : (tokenize (rebuiltQuery query)).map (fun token => isOr token.raw) =
    (tokenize query).map fun token => isOr token.raw

/-- What the server makes of a token of free text. -/
def Token.reading (token : Token) : Text × Bool × Bool :=
  (token.stripped, isExclusion token.raw, isOr token.raw)

/-- The token has an apostrophe outside its quotes. -/
def Token.Requoted (token : Token) : Prop :=
  CodePoint.scalar '\'' ∈ dropQuoted none token.raw

instance (token : Token) : Decidable token.Requoted :=
  inferInstanceAs (Decidable (_ ∈ _))

/-- No byte order mark is outside the quotes; a token that is wrapped anew has
no space there that only the server knows, and it is an exclusion if it begins
with a dash once its quotes are gone. -/
structure SurvivesRebuilding (query : Text) : Prop where
  noMark : CodePoint.scalar '\uFEFF' ∉ dropQuoted none query
  unsplit : ∀ token ∈ tokenizeRaw query, token.Requoted →
    ∀ ch ∈ dropQuoted none token.raw, ch.isSpace = false
  dashed : ∀ token ∈ tokenizeRaw query, token.Requoted →
    token.stripped.head? = some (.scalar '-') → isExclusion token.raw = true

/-! ### The two readers -/

def QuotedWord.token (word : QuotedWord CodePoint) : Token :=
  ⟨word.bare, word.raw⟩

def Token.word (token : Token) : QuotedWord CodePoint :=
  ⟨token.stripped, token.raw⟩

section Readers

theorem Lexing.flush_foldl (query : Text) (state : Lexing) :
    (query.foldl Lexing.step state).flush =
      state.out ++ (splitQuoted (.scalar '"') CodePoint.isSpace state.quoted
        ⟨state.buf, state.raw⟩ query).map QuotedWord.token := by
  induction query generalizing state with
  | nil =>
      rw [List.foldl_nil, Lexing.flush, splitQuoted, QuotedWord.emit]
      split <;> simp [QuotedWord.token]
  | cons ch rest ih =>
      rw [List.foldl_cons, ih, splitQuoted, Lexing.step]
      by_cases hquote : ch = .scalar '"'
      · cases hquoted : state.quoted <;> simp [hquote, QuotedWord.mark]
      · cases hquoted : state.quoted with
        | true => simp [hquote, hquoted, QuotedWord.push, Lexing.push]
        | false =>
            cases hspace : ch.isSpace with
            | false => simp [hquote, hquoted, QuotedWord.push, Lexing.push]
            | true =>
                simp only [hquote, ↓reduceIte, Bool.false_eq_true, Lexing.flush,
                  Bool.not_false, Bool.and_self, QuotedWord.emit]
                split <;> simp [QuotedWord.empty, QuotedWord.token]

/-- The server's tokens. -/
theorem tokenize_eq_quotedWords (query : Text) :
    tokenize query =
      (quotedWords (.scalar '"') CodePoint.isSpace query).map
        QuotedWord.token :=
  Lexing.flush_foldl query Lexing.start

theorem RawLexing.finish_foldl (query : Text) (state : RawLexing)
    (hclosed : quotedAfter (.scalar '"') state.inQuote query = false) :
    (query.foldl RawLexing.step state).finish =
      state.out ++ (splitQuoted (.scalar '"') CodePoint.isJsSpace state.inQuote
        ⟨state.buf, state.raw⟩ query).map QuotedWord.token := by
  induction query generalizing state with
  | nil =>
      rw [quotedAfter] at hclosed
      rw [List.foldl_nil, RawLexing.finish, hclosed, if_neg Bool.false_ne_true,
        RawLexing.flush, splitQuoted, QuotedWord.emit]
      dsimp only
      split <;> simp [QuotedWord.token]
  | cons ch rest ih =>
      rw [quotedAfter] at hclosed
      rw [List.foldl_cons, splitQuoted, RawLexing.step]
      by_cases hquote : ch = .scalar '"'
      · rw [if_pos hquote] at hclosed
        cases hquoted : state.inQuote with
        | true =>
            rw [hquoted] at hclosed
            simp only [hquote, ↓reduceIte]
            rw [ih _ hclosed]
            rfl
        | false =>
            rw [hquoted] at hclosed
            simp only [hquote, ↓reduceIte, Bool.false_eq_true]
            rw [ih _ hclosed]
            rfl
      · rw [if_neg hquote] at hclosed
        cases hquoted : state.inQuote with
        | true =>
            rw [hquoted] at hclosed
            simp only [hquote, ↓reduceIte]
            rw [ih _ (by exact hquoted ▸ hclosed)]
            simp [RawLexing.push, QuotedWord.push, hquoted]
        | false =>
            rw [hquoted] at hclosed
            simp only [hquote, ↓reduceIte, Bool.false_eq_true, Bool.not_false,
              Bool.true_and]
            rw [ih _ (by rw [state.plain_inQuote, hquoted]; exact hclosed),
              state.plain_inQuote, hquoted, RawLexing.plain]
            cases hspace : ch.isJsSpace with
            | false => simp [QuotedWord.push, RawLexing.push]
            | true =>
                simp only [↓reduceIte, RawLexing.flush, QuotedWord.emit]
                split <;> simp [QuotedWord.empty, QuotedWord.token]

/-- Whether a quote is open depends on how many were read. -/
theorem quotedAfter_parity (quoted : Bool) (query : Text) :
    quotedAfter (.scalar '"') quoted query =
      (quoted ^^ query.count (.scalar '"') % 2 == 1) := by
  induction query generalizing quoted with
  | nil => simp [quotedAfter]
  | cons ch rest ih =>
      rw [quotedAfter, ih, oddQuotes_cons, ← Bool.xor_assoc]
      by_cases hquote : ch = .scalar '"'
      · simp [hquote]
      · simp [hquote, beq_eq_false_iff_ne.mpr hquote]

theorem balancedQuotes_iff (query : Text) :
    BalancedQuotes query ↔ quotedAfter (.scalar '"') false query = false := by
  rw [quotedAfter_parity, BalancedQuotes]
  simp

/-- The client's tokens, where every quote is closed. -/
theorem tokenizeRaw_eq_quotedWords {query : Text}
    (hbalanced : BalancedQuotes query) :
    tokenizeRaw query =
      (quotedWords (.scalar '"') CodePoint.isJsSpace query).map
        QuotedWord.token :=
  RawLexing.finish_foldl query RawLexing.start
    ((balancedQuotes_iff query).mp hbalanced)

/-- Where every quote is closed, what is dropped is what is in quotes. -/
theorem dropQuoted_outside (query : Text) (run : Option Text)
    (hclosed : quotedAfter (.scalar '"') run.isSome query = false) :
    dropQuoted run query = outsideQuotes (.scalar '"') run.isSome query := by
  induction query generalizing run with
  | nil =>
      cases run with
      | none => rfl
      | some run => cases hclosed
  | cons ch rest ih =>
      rw [quotedAfter] at hclosed
      by_cases hquote : ch = .scalar '"'
      · rw [if_pos hquote] at hclosed
        cases run with
        | none =>
            simpa [dropQuoted, outsideQuotes, hquote] using ih (some []) hclosed
        | some run =>
            simpa [dropQuoted, outsideQuotes, hquote] using ih none hclosed
      · rw [if_neg hquote] at hclosed
        cases run with
        | none =>
            simpa [dropQuoted, outsideQuotes, hquote] using ih none hclosed
        | some run =>
            simpa [dropQuoted, outsideQuotes, hquote] using
              ih (some (run ++ [ch])) hclosed

theorem dropQuoted_eq {query : Text} (hbalanced : BalancedQuotes query) :
    dropQuoted none query = outsideQuotes (.scalar '"') false query :=
  dropQuoted_outside query none ((balancedQuotes_iff query).mp hbalanced)

/-- A token of the client is alone in its own spelling. -/
theorem isQuotedWord_of_mem_tokenizeRaw {query : Text}
    (hbalanced : BalancedQuotes query) {token : Token}
    (htoken : token ∈ tokenizeRaw query) :
    IsQuotedWord (.scalar '"') CodePoint.isJsSpace token.word := by
  rw [tokenizeRaw_eq_quotedWords hbalanced] at htoken
  obtain ⟨word, hword, rfl⟩ := List.mem_map.mp htoken
  exact isQuotedWord_of_mem ((balancedQuotes_iff query).mp hbalanced) word hword

theorem tokenize_of_isQuotedWord {token : Token}
    (hword : IsQuotedWord (.scalar '"') CodePoint.isSpace token.word) :
    tokenize token.raw = [token] := by
  have hwords := hword.quotedWords
  change quotedWords (.scalar '"') CodePoint.isSpace token.raw =
    [token.word] at hwords
  rw [tokenize_eq_quotedWords, hwords]
  rfl

end Readers

/-! ### Spellings -/

section Spelling

variable {token : Token}

/-- The token as it is spelled in the rebuilt query. -/
def Token.respelled (token : Token) : Token :=
  ⟨token.stripped, spellToken token⟩

theorem dropQuoted_raw
    (hword : IsQuotedWord (.scalar '"') CodePoint.isJsSpace token.word) :
    dropQuoted none token.raw =
      outsideQuotes (.scalar '"') false token.raw :=
  dropQuoted_eq ((balancedQuotes_iff _).mpr hword.closed)

theorem requoted_iff
    (hword : IsQuotedWord (.scalar '"') CodePoint.isJsSpace token.word) :
    token.Requoted ↔ CodePoint.scalar '\'' ∈
      outsideQuotes (.scalar '"') false token.raw := by
  rw [Token.Requoted, dropQuoted_raw hword]

theorem plain_of_isQuotedWord
    (hword : IsQuotedWord (.scalar '"') CodePoint.isJsSpace token.word) :
    CodePoint.scalar '"' ∉ token.stripped := by
  have hbare : token.stripped = withoutQuotes (.scalar '"') token.raw :=
    hword.bare_eq
  rw [hbare]
  exact not_mem_withoutQuotes

theorem spellToken_kept
    (hword : IsQuotedWord (.scalar '"') CodePoint.isJsSpace token.word)
    (hkept : ¬ token.Requoted) : spellToken token = token.raw := by
  rw [spellToken]
  by_cases hraw : token.raw = token.stripped
  · have hnone : CodePoint.scalar '"' ∉ token.raw :=
      hraw ▸ plain_of_isQuotedWord hword
    have houtside :
        outsideQuotes (.scalar '"') false token.raw = token.stripped := by
      rw [outsideQuotes_of_not_mem hnone, if_neg Bool.false_ne_true, hraw]
    have hsolid : token.stripped.any (fun ch =>
        ch.isJsSpace || ch = .scalar '\'') = false := by
      rw [requoted_iff hword, houtside] at hkept
      refine List.any_eq_false.mpr fun ch hch => ?_
      have hspace := hword.unsplit ch (by exact houtside ▸ hch)
      have hother : ch ≠ .scalar '\'' := fun hsame => hkept (hsame ▸ hch)
      simp [hspace, hother]
    rw [if_neg (by simp [hraw]), hsolid]
    simp [hraw]
  · exact if_pos ⟨hraw, hkept⟩

theorem isOr_of_mem {raw : Text} {ch : CodePoint} (hch : ch ∈ raw)
    (hother : ch.lowerAscii ∉ text "or") : isOr raw = false :=
  decide_eq_false fun hor =>
    hother (hor ▸ List.mem_map_of_mem hch)

/-- The part of a token that stays before its new quotes. -/
def Token.lead (token : Token) : Text :=
  if token.stripped.head? = some (.scalar '-') then text "-" else []

theorem mem_lead {ch : CodePoint} (hch : ch ∈ token.lead) :
    ch = .scalar '-' := by
  unfold Token.lead at hch
  split at hch
  · exact List.mem_singleton.mp hch
  · cases hch

section Requoted

variable (hword : IsQuotedWord (.scalar '"') CodePoint.isJsSpace token.word)
  (hrequoted : token.Requoted)

include hword hrequoted

theorem spellToken_requoted :
    ∃ inner, token.stripped = token.lead ++ inner ∧
      CodePoint.scalar '"' ∉ token.lead ∧ CodePoint.scalar '"' ∉ inner ∧
      spellToken token =
        token.lead ++ .scalar '"' :: (inner ++ [.scalar '"']) := by
  have hplain := plain_of_isQuotedWord hword
  have hbare : token.stripped = withoutQuotes (.scalar '"') token.raw :=
    hword.bare_eq
  have hmem : CodePoint.scalar '\'' ∈ token.stripped :=
    hbare ▸ mem_of_outsideQuotes ((requoted_iff hword).mp hrequoted)
  have hany : token.stripped.any (fun ch =>
      ch.isJsSpace || ch = .scalar '\'') = true :=
    List.any_eq_true.mpr ⟨_, hmem, by simp⟩
  rw [spellToken, if_neg fun hkept => hkept.2 hrequoted, hany]
  simp only [Bool.not_true, Bool.false_eq_true, ↓reduceIte]
  split
  · rename_i rest hdash
    have hlead : token.lead = text "-" := by simp [Token.lead, hdash]
    rw [hdash] at hplain
    obtain ⟨hquote, hrest⟩ := List.ne_and_not_mem_of_not_mem_cons hplain
    exact ⟨rest, hlead ▸ hdash, by simp [hlead, text], hrest, hlead ▸ rfl⟩
  · rename_i hother
    have hlead : token.lead = [] := if_neg fun hdash => by
      obtain ⟨rest, hrest⟩ := List.head?_eq_some_iff.mp hdash
      exact hother rest hrest
    rw [hlead]
    exact ⟨token.stripped, rfl, List.not_mem_nil, hplain, rfl⟩

/-- A token wrapped anew is alone in its spelling to every reader that takes
no dash for a space. -/
theorem isQuotedWord_requoted {sep : CodePoint → Bool}
    (hdash : sep (.scalar '-') = false) :
    IsQuotedWord (.scalar '"') sep token.respelled.word := by
  obtain ⟨inner, hstripped, hlead, hinner, hspell⟩ :=
    spellToken_requoted hword hrequoted
  have hnonempty : token.stripped ≠ [] := hword.nonempty
  have hsolid : ∀ ch ∈ token.lead, sep ch = false := by
    intro ch hch
    rw [mem_lead hch, hdash]
  have hwrapped := isQuotedWord_wrapped hlead hinner (hstripped ▸ hnonempty)
    hsolid
  rwa [← hstripped, ← hspell] at hwrapped

theorem isExclusion_requoted :
    isExclusion (spellToken token) = true ↔
      token.stripped.head? = some (.scalar '-') := by
  obtain ⟨inner, -, -, -, hspell⟩ := spellToken_requoted hword hrequoted
  rw [hspell, Token.lead]
  by_cases hdash : token.stripped.head? = some (.scalar '-')
  · rw [if_pos hdash]
    exact iff_of_true rfl hdash
  · rw [if_neg hdash]
    exact iff_of_false Bool.false_ne_true hdash

theorem isOr_raw : isOr token.raw = false := by
  have hmem := mem_of_outsideQuotes ((requoted_iff hword).mp hrequoted)
  exact isOr_of_mem (List.mem_of_mem_filter hmem) (by decide)

theorem isOr_requoted : isOr (spellToken token) = false := by
  obtain ⟨inner, -, -, -, hspell⟩ := spellToken_requoted hword hrequoted
  have hmem : CodePoint.scalar '"' ∈ spellToken token := by
    rw [hspell]
    exact List.mem_append_right _ List.mem_cons_self
  exact isOr_of_mem hmem (by decide)

/-- The server reads it as one token. -/
theorem tokenize_requoted :
    tokenize (spellToken token) = [token.respelled] :=
  tokenize_of_isQuotedWord (isQuotedWord_requoted hword hrequoted rfl)

end Requoted

theorem head_of_isExclusion
    (hword : IsQuotedWord (.scalar '"') CodePoint.isJsSpace token.word)
    (hexclusion : isExclusion token.raw = true) :
    token.stripped.head? = some (.scalar '-') := by
  have hbare : token.stripped = withoutQuotes (.scalar '"') token.raw :=
    hword.bare_eq
  rw [isExclusion, Bool.and_eq_true] at hexclusion
  obtain ⟨rest, hrest⟩ := List.isPrefixOf_iff_prefix.mp hexclusion.1
  rw [hbare, ← hrest]
  rfl

/-- In every case the client finds the token again. -/
theorem isQuotedWord_respelled
    (hword : IsQuotedWord (.scalar '"') CodePoint.isJsSpace token.word) :
    IsQuotedWord (.scalar '"') CodePoint.isJsSpace token.respelled.word := by
  by_cases hrequoted : token.Requoted
  · exact isQuotedWord_requoted hword hrequoted rfl
  · rw [Token.respelled, spellToken_kept hword hrequoted]
    exact hword

end Spelling

/-! ### The rebuilt query -/

section Rebuilt

variable {query : Text} (hbalanced : BalancedQuotes query)

/-- Every space of the client but the byte order mark is one of the
server's. -/
theorem isSpace_of_isJsSpace {ch : CodePoint} (hspace : ch.isJsSpace = true)
    (hmark : ch ≠ .scalar '\uFEFF') : ch.isSpace = true := by
  cases ch with
  | surrogate offset => cases hspace
  | scalar char =>
      have hcode : char.toNat ≠ 0xFEFF := fun hsame =>
        hmark (congrArg CodePoint.scalar (Char.toNat_inj.mp hsame))
      simp only [CodePoint.isJsSpace, CodePoint.isSpace, Bool.or_eq_true,
        Bool.and_eq_true, decide_eq_true_eq] at hspace ⊢
      omega

include hbalanced

theorem closed_spellings :
    ∀ given ∈ (tokenizeRaw query).map spellToken,
      quotedAfter (.scalar '"') false given = false := by
  intro given hgiven
  obtain ⟨token, htoken, rfl⟩ := List.mem_map.mp hgiven
  exact (isQuotedWord_respelled
    (isQuotedWord_of_mem_tokenizeRaw hbalanced htoken)).closed

theorem balancedQuotes_rebuiltQuery : BalancedQuotes (rebuiltQuery query) :=
  (balancedQuotes_iff _).mpr
    (quotedAfter_intercalate (by decide) (closed_spellings hbalanced))

/-- The client finds its own tokens in the rebuilt query. -/
theorem tokenizeRaw_rebuiltQuery :
    tokenizeRaw (rebuiltQuery query) =
      (tokenizeRaw query).map Token.respelled := by
  have hwords : ∀ token ∈ tokenizeRaw query,
      (quotedWords (.scalar '"') CodePoint.isJsSpace (spellToken token)).map
        QuotedWord.token = [token.respelled] := by
    intro token htoken
    have hrespelled := isQuotedWord_respelled
      (isQuotedWord_of_mem_tokenizeRaw hbalanced htoken)
    exact congrArg (List.map QuotedWord.token) hrespelled.quotedWords
  have hjoined : rebuiltQuery query =
      [CodePoint.scalar ' '].intercalate
        ((tokenizeRaw query).map spellToken) := rfl
  rw [tokenizeRaw_eq_quotedWords (balancedQuotes_rebuiltQuery hbalanced),
    hjoined, quotedWords_intercalate (by decide) rfl
      (closed_spellings hbalanced), List.flatMap_map, List.map_flatMap,
    List.flatMap_congr hwords, ← List.map_eq_flatMap]

omit hbalanced in
/-- The server reads the rebuilt query one spelled token after the other. -/
theorem tokenize_rebuiltQuery :
    tokenize (rebuiltQuery query) =
      (tokenizeRaw query).flatMap fun token => tokenize (spellToken token) :=
  tokenize_joinTokens (tokenizeRaw_paired query)

/-- Where both readers know the same spaces, the server splits the client's
tokens further. -/
theorem tokenize_eq_flatMap
    (hmark : CodePoint.scalar '\uFEFF' ∉ dropQuoted none query) :
    tokenize query =
      (tokenizeRaw query).flatMap fun token => tokenize token.raw := by
  have hfiner : ∀ ch ∈ outsideQuotes (.scalar '"') false query,
      ch.isJsSpace = true → ch.isSpace = true := by
    intro ch hch hspace
    rw [dropQuoted_eq hbalanced] at hmark
    exact isSpace_of_isJsSpace hspace fun hsame => hmark (hsame ▸ hch)
  rw [tokenize_eq_quotedWords, tokenizeRaw_eq_quotedWords hbalanced,
    quotedWords_flatMap ((balancedQuotes_iff query).mp hbalanced) hfiner,
    List.map_flatMap, List.flatMap_map]
  simp only [tokenize_eq_quotedWords]
  rfl

end Rebuilt

/-! ### What the tokens hold -/

section Counts

variable {query : Text} {p : CodePoint → Bool}

theorem countP_tokenize (hquote : p (.scalar '"') = false) :
    ((tokenize query).flatMap Token.stripped).countP p +
      (outsideQuotes (.scalar '"') false query).countP
        (fun ch => p ch && ch.isSpace) = query.countP p := by
  rw [tokenize_eq_quotedWords, List.flatMap_map]
  exact countP_quotedWords p hquote

theorem countP_tokenizeRaw (hbalanced : BalancedQuotes query)
    (hquote : p (.scalar '"') = false) :
    ((tokenizeRaw query).flatMap Token.stripped).countP p +
      (outsideQuotes (.scalar '"') false query).countP
        (fun ch => p ch && ch.isJsSpace) = query.countP p := by
  rw [tokenizeRaw_eq_quotedWords hbalanced, List.flatMap_map]
  exact countP_quotedWords p hquote

/-- The spaces outside the quotes of a text are those the server splits at. -/
theorem countP_tokenize_isSpace :
    ((tokenize query).flatMap Token.stripped).countP CodePoint.isSpace +
      (outsideQuotes (.scalar '"') false query).countP CodePoint.isSpace =
    query.countP CodePoint.isSpace := by
  have hcount := @countP_tokenize query CodePoint.isSpace rfl
  simpa only [Bool.and_self] using hcount

theorem outsideQuotes_rebuiltQuery (hbalanced : BalancedQuotes query) :
    CodePoint.scalar '\uFEFF' ∉
      outsideQuotes (.scalar '"') false (rebuiltQuery query) := by
  intro hmark
  rcases mem_outsideQuotes_intercalate (by decide)
    (closed_spellings hbalanced) hmark with hspace | ⟨given, hgiven, hin⟩
  · exact absurd hspace (by decide)
  · obtain ⟨token, htoken, rfl⟩ := List.mem_map.mp hgiven
    have hrespelled := isQuotedWord_respelled
      (isQuotedWord_of_mem_tokenizeRaw hbalanced htoken)
    exact absurd (hrespelled.unsplit _ hin) (by decide)

def isMark (ch : CodePoint) : Bool :=
  ch = .scalar '\uFEFF'

theorem countP_isMark_eq_zero {given : Text} :
    given.countP isMark = 0 ↔ CodePoint.scalar '\uFEFF' ∉ given := by
  rw [List.countP_eq_zero]
  constructor
  · intro hnone hmark
    exact hnone _ hmark rfl
  · intro hnone ch hch hmark
    exact hnone (of_decide_eq_true hmark ▸ hch)

theorem countP_tokenize_isMark :
    ((tokenize query).flatMap Token.stripped).countP isMark =
      query.countP isMark := by
  have hcount := @countP_tokenize query isMark rfl
  have hnever : ∀ ch, ¬ (isMark ch && ch.isSpace) = true := by
    intro ch hboth
    obtain ⟨hmark, hspace⟩ := Bool.and_eq_true_iff.mp hboth
    rw [of_decide_eq_true hmark] at hspace
    cases hspace
  rwa [List.countP_eq_zero.mpr fun ch _ => hnever ch] at hcount

theorem countP_tokenizeRaw_isMark (hbalanced : BalancedQuotes query) :
    ((tokenizeRaw query).flatMap Token.stripped).countP isMark +
      (outsideQuotes (.scalar '"') false query).countP isMark =
    query.countP isMark := by
  have hcount := @countP_tokenizeRaw query isMark hbalanced rfl
  have hboth : (fun ch => isMark ch && ch.isJsSpace) = isMark := by
    funext ch
    cases hmark : isMark ch with
    | false => rfl
    | true =>
        rw [of_decide_eq_true hmark]
        rfl
  rwa [hboth] at hcount

/-- The client splits at a byte order mark, the server keeps it. -/
theorem noMark_of_server (hbalanced : BalancedQuotes query)
    (hserver : (tokenize (rebuiltQuery query)).map Token.stripped =
      (tokenize query).map Token.stripped) :
    CodePoint.scalar '\uFEFF' ∉ dropQuoted none query := by
  have hrebuilt := balancedQuotes_rebuiltQuery hbalanced
  have hclient : (tokenizeRaw (rebuiltQuery query)).flatMap Token.stripped =
      (tokenizeRaw query).flatMap Token.stripped := by
    rw [tokenizeRaw_rebuiltQuery hbalanced, List.flatMap_map]
    rfl
  have hrebuiltServer := @countP_tokenize_isMark (rebuiltQuery query)
  have hrebuiltClient := countP_tokenizeRaw_isMark hrebuilt
  have hserverCount := @countP_tokenize_isMark query
  have hclientCount := countP_tokenizeRaw_isMark hbalanced
  have houtside := countP_isMark_eq_zero.mpr
    (outsideQuotes_rebuiltQuery hbalanced)
  rw [List.flatMap_def, hserver, ← List.flatMap_def] at hrebuiltServer
  rw [hclient] at hrebuiltClient
  rw [dropQuoted_eq hbalanced, ← countP_isMark_eq_zero]
  omega

end Counts

/-! ### Tokens wrapped anew -/

section Survives

/-- Lists of blocks of the same lengths are the same where they are joined
to the same. -/
theorem flatMap_inj_of_length {α β : Type*} {given : List α}
    {first second : α → List β}
    (hlength : ∀ entry ∈ given, (first entry).length = (second entry).length)
    (hsame : given.flatMap first = given.flatMap second) :
    ∀ entry ∈ given, first entry = second entry := by
  induction given with
  | nil => nofun
  | cons head rest ih =>
      obtain ⟨hhead, hrest⟩ := List.append_inj
        (by simpa only [List.flatMap_cons] using hsame)
        (hlength head List.mem_cons_self)
      exact List.forall_mem_cons.mpr ⟨hhead, ih
        (fun entry hentry => hlength entry (List.mem_cons_of_mem _ hentry))
        hrest⟩

theorem eq_of_sum_eq {α : Type*} {given : List α} {first second : α → Nat}
    (hle : ∀ entry ∈ given, first entry ≤ second entry)
    (hsum : (given.map first).sum = (given.map second).sum) :
    ∀ entry ∈ given, first entry = second entry := by
  intro entry hentry
  by_contra hne
  have hlt : first entry < second entry :=
    lt_of_le_of_ne (hle entry hentry) hne
  exact (List.sum_lt_sum first second hle ⟨entry, hentry, hlt⟩).ne hsum

/-- The spaces in the texts the server reads. -/
def serverSpaces (query : Text) : Nat :=
  ((tokenize query).flatMap Token.stripped).countP CodePoint.isSpace

theorem serverSpaces_raw {token : Token}
    (hword : IsQuotedWord (.scalar '"') CodePoint.isJsSpace token.word) :
    serverSpaces token.raw +
      (outsideQuotes (.scalar '"') false token.raw).countP CodePoint.isSpace =
    token.stripped.countP CodePoint.isSpace := by
  have hbare : token.stripped = withoutQuotes (.scalar '"') token.raw :=
    hword.bare_eq
  rw [serverSpaces, countP_tokenize_isSpace, hbare, countP_withoutQuotes rfl]

theorem serverSpaces_requoted {token : Token}
    (hword : IsQuotedWord (.scalar '"') CodePoint.isJsSpace token.word)
    (hrequoted : token.Requoted) :
    serverSpaces (spellToken token) =
      token.stripped.countP CodePoint.isSpace := by
  rw [serverSpaces, tokenize_requoted hword hrequoted, List.flatMap_singleton]
  rfl

/-- A token wrapped anew loses none of its spaces. -/
theorem serverSpaces_le {token : Token}
    (hword : IsQuotedWord (.scalar '"') CodePoint.isJsSpace token.word) :
    serverSpaces token.raw ≤ serverSpaces (spellToken token) := by
  by_cases hrequoted : token.Requoted
  · rw [serverSpaces_requoted hword hrequoted, ← serverSpaces_raw hword]
    exact Nat.le_add_right _ _
  · rw [spellToken_kept hword hrequoted]

theorem sum_serverSpaces (tokens : List Token) (spelled : Token → Text) :
    ((tokens.flatMap fun token => tokenize (spelled token)).flatMap
        Token.stripped).countP CodePoint.isSpace =
      (tokens.map fun token => serverSpaces (spelled token)).sum := by
  rw [List.flatMap_assoc, List.countP_flatMap]
  rfl

variable {query : Text} (hbalanced : BalancedQuotes query)
  (hmark : CodePoint.scalar '\uFEFF' ∉ dropQuoted none query)

include hbalanced hmark

/-- Only an unbroken token is read alike when it is wrapped anew. -/
theorem unsplit_of_server
    (hserver : (tokenize (rebuiltQuery query)).map Token.stripped =
      (tokenize query).map Token.stripped) {token : Token}
    (htoken : token ∈ tokenizeRaw query) (hrequoted : token.Requoted) :
    ∀ ch ∈ dropQuoted none token.raw, ch.isSpace = false := by
  have hword {token : Token} (htoken : token ∈ tokenizeRaw query) :=
    isQuotedWord_of_mem_tokenizeRaw hbalanced htoken
  have htexts : (tokenize (rebuiltQuery query)).flatMap Token.stripped =
      (tokenize query).flatMap Token.stripped := by
    rw [List.flatMap_def, hserver, ← List.flatMap_def]
  have hsum := congrArg (List.countP CodePoint.isSpace) htexts
  rw [tokenize_rebuiltQuery, tokenize_eq_flatMap hbalanced hmark,
    sum_serverSpaces, sum_serverSpaces] at hsum
  have hsame := eq_of_sum_eq
    (fun token htoken => serverSpaces_le (hword htoken)) hsum.symm token htoken
  have hraw := serverSpaces_raw (hword htoken)
  rw [serverSpaces_requoted (hword htoken) hrequoted] at hsame
  have hnone : (outsideQuotes (.scalar '"') false token.raw).countP
      CodePoint.isSpace = 0 := by omega
  rw [dropQuoted_raw (hword htoken)]
  intro ch hch
  exact Bool.eq_false_iff.mpr (List.countP_eq_zero.mp hnone ch hch)

variable (hunsplit : ∀ token ∈ tokenizeRaw query, token.Requoted →
  ∀ ch ∈ dropQuoted none token.raw, ch.isSpace = false)

include hunsplit

omit hmark in
theorem tokenize_raw_requoted {token : Token}
    (htoken : token ∈ tokenizeRaw query) (hrequoted : token.Requoted) :
    tokenize token.raw = [token] := by
  have hword := isQuotedWord_of_mem_tokenizeRaw hbalanced htoken
  have hsolid := hunsplit token htoken hrequoted
  rw [dropQuoted_raw hword] at hsolid
  exact tokenize_of_isQuotedWord
    ⟨hword.nonempty, hword.bare_eq, hword.closed, hsolid⟩

theorem dashed_of_exclusions
    (hexclusions : (tokenize (rebuiltQuery query)).map
        (fun token => isExclusion token.raw) =
      (tokenize query).map fun token => isExclusion token.raw)
    {token : Token} (htoken : token ∈ tokenizeRaw query)
    (hrequoted : token.Requoted)
    (hdash : token.stripped.head? = some (.scalar '-')) :
    isExclusion token.raw = true := by
  have hword {token : Token} (htoken : token ∈ tokenizeRaw query) :=
    isQuotedWord_of_mem_tokenizeRaw hbalanced htoken
  rw [tokenize_rebuiltQuery, tokenize_eq_flatMap hbalanced hmark,
    List.map_flatMap, List.map_flatMap] at hexclusions
  have hlength : ∀ token ∈ tokenizeRaw query,
      ((tokenize (spellToken token)).map
        fun token => isExclusion token.raw).length =
      ((tokenize token.raw).map fun token => isExclusion token.raw).length := by
    intro token htoken
    by_cases hrequoted : token.Requoted
    · rw [tokenize_requoted (hword htoken) hrequoted,
        tokenize_raw_requoted hbalanced hunsplit htoken hrequoted]
      rfl
    · rw [spellToken_kept (hword htoken) hrequoted]
  have hsame := flatMap_inj_of_length hlength hexclusions token htoken
  rw [tokenize_requoted (hword htoken) hrequoted,
    tokenize_raw_requoted hbalanced hunsplit htoken hrequoted] at hsame
  have hspelled := (isExclusion_requoted (hword htoken) hrequoted).mpr hdash
  exact (List.singleton_inj.mp hsame).symm.trans hspelled

theorem readings_of_dashed
    (hdashed : ∀ token ∈ tokenizeRaw query, token.Requoted →
      token.stripped.head? = some (.scalar '-') →
      isExclusion token.raw = true) :
    (tokenize (rebuiltQuery query)).map Token.reading =
      (tokenize query).map Token.reading := by
  rw [tokenize_rebuiltQuery, tokenize_eq_flatMap hbalanced hmark,
    List.map_flatMap, List.map_flatMap]
  refine List.flatMap_congr fun token htoken => ?_
  have hword := isQuotedWord_of_mem_tokenizeRaw hbalanced htoken
  by_cases hrequoted : token.Requoted
  · have hexclusion : isExclusion (spellToken token) =
        isExclusion token.raw := by
      rw [Bool.eq_iff_iff, isExclusion_requoted hword hrequoted]
      exact ⟨hdashed token htoken hrequoted, head_of_isExclusion hword⟩
    rw [tokenize_requoted hword hrequoted,
      tokenize_raw_requoted hbalanced hunsplit htoken hrequoted]
    simp only [List.map_singleton, Token.reading, Token.respelled, hexclusion,
      isOr_requoted hword hrequoted, isOr_raw hword hrequoted]
  · rw [spellToken_kept hword hrequoted]

end Survives

/-- Taking a query apart and putting it together again keeps its meaning just
where the spaces and dashes outside its quotes survive it. -/
theorem keepsMeaning_iff_survives (query : Text)
    (hbalanced : BalancedQuotes query) :
    KeepsMeaning query ↔ SurvivesRebuilding query := by
  constructor
  · intro hkeeps
    have hmark := noMark_of_server hbalanced hkeeps.server
    have hunsplit (token : Token) (htoken : token ∈ tokenizeRaw query)
        (hrequoted : token.Requoted) :=
      unsplit_of_server hbalanced hmark hkeeps.server htoken hrequoted
    exact
      { noMark := hmark
        unsplit := hunsplit
        dashed := fun _ => dashed_of_exclusions hbalanced hmark hunsplit
          hkeeps.exclusions }
  · intro hsurvives
    have hreadings := readings_of_dashed hbalanced hsurvives.noMark
      hsurvives.unsplit hsurvives.dashed
    have hparts {β : Type} (part : Text × Bool × Bool → β) :
        (tokenize (rebuiltQuery query)).map (part ∘ Token.reading) =
          (tokenize query).map (part ∘ Token.reading) := by
      rw [← List.map_map, hreadings, List.map_map]
    refine
      { client := ?_
        server := hparts Prod.fst
        exclusions := hparts fun reading => reading.2.1
        ors := hparts fun reading => reading.2.2 }
    rw [tokenizeRaw_rebuiltQuery hbalanced, List.map_map]
    rfl

/-- A token typed with quotes beside a word with an apostrophe. -/
theorem keepsMeaning_apostrophe :
    KeepsMeaning (text "-\"a b\" it's") :=
  (keepsMeaning_iff_survives _ (by decide)).mpr
    ⟨by decide, by decide, by decide⟩

/-- Two dashes require a word; the rebuilt query excludes it. -/
theorem double_dash_excludes :
    ¬ ∀ query, BalancedQuotes query → KeepsMeaning query := by
  intro hall
  have hexclusions := (hall (text "--it's") (by decide)).exclusions
  revert hexclusions
  decide +kernel

end Localmail
