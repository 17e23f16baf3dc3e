/-
What the tokenizer makes of texts put together.  A word that leaves no quote
open is read the same in front of anything else, so tokens joined by spaces
are read back as those tokens.
-/
import Localmail.QueryParse

namespace Localmail

/-! ### What was emitted before -/

/-- The same lexing after `out` was emitted. -/
def Lexing.after (state : Lexing) (out : List Token) : Lexing :=
  { state with out := out ++ state.out }

theorem Lexing.flush_after (state : Lexing) (out : List Token) :
    (state.after out).flush = out ++ state.flush := by
  unfold Lexing.flush Lexing.after
  split
  · rfl
  · exact List.append_assoc _ _ _

theorem Lexing.step_after (state : Lexing) (out : List Token) (ch : CodePoint) :
    (state.after out).step ch = (state.step ch).after out := by
  unfold Lexing.step
  rw [Lexing.flush_after]
  cases hquoted : state.quoted with
  | true =>
      by_cases hclose : ch = .scalar '"'
      · simp [Lexing.after, hquoted, hclose]
      · simp [Lexing.after, Lexing.push, hquoted, hclose]
  | false =>
      by_cases hopen : ch = .scalar '"'
      · simp [Lexing.after, hquoted, hopen]
      · by_cases hspace : ch.isSpace
        · simp [Lexing.after, hquoted, hopen, hspace]
        · simp [Lexing.after, Lexing.push, hquoted, hopen, hspace]

theorem Lexing.foldl_after (query : Text) (state : Lexing)
    (out : List Token) :
    query.foldl Lexing.step (state.after out) =
      (query.foldl Lexing.step state).after out := by
  induction query generalizing state with
  | nil => rfl
  | cons ch rest ih =>
      simp only [List.foldl_cons, Lexing.step_after]
      exact ih (state.step ch)

/-! ### Words -/

/-- The token is what its own spelling is read as, and no quote is left
open. -/
structure ClosedWord (token : Token) : Prop where
  nonempty : token.stripped ≠ []
  read : token.raw.foldl Lexing.step Lexing.start =
    ⟨[], token.stripped, token.raw, false⟩

/-- The token is what its own spelling is read as. -/
structure IsWord (token : Token) : Prop where
  nonempty : token.stripped ≠ []
  read : ∃ quoted, token.raw.foldl Lexing.step Lexing.start =
    ⟨[], token.stripped, token.raw, quoted⟩

theorem ClosedWord.isWord {token : Token} (hword : ClosedWord token) :
    IsWord token :=
  ⟨hword.nonempty, false, hword.read⟩

theorem IsWord.tokenize {token : Token} (hword : IsWord token) :
    tokenize token.raw = [token] := by
  obtain ⟨hnonempty, quoted, hread⟩ := hword
  unfold Localmail.tokenize
  rw [hread]
  simp [Lexing.flush, hnonempty]

/-- Behind a closed word and a space the tokenizer starts anew. -/
theorem ClosedWord.tokenize_append {token : Token} (hword : ClosedWord token)
    (rest : Text) :
    tokenize (token.raw ++ .scalar ' ' :: rest) = token :: tokenize rest := by
  have hspace : Lexing.step ⟨[], token.stripped, token.raw, false⟩ (.scalar ' ') =
      Lexing.start.after [token] := by
    simp [Lexing.step, Lexing.flush, Lexing.after, Lexing.start,
      CodePoint.isSpace, hword.nonempty]
  unfold Localmail.tokenize
  rw [List.foldl_append, hword.read, List.foldl_cons, hspace,
    Lexing.foldl_after, Lexing.flush_after]
  rfl

theorem joinSpaces_cons_cons (first second : Text) (rest : List Text) :
    joinSpaces (first :: second :: rest) =
      first ++ .scalar ' ' :: joinSpaces (second :: rest) := by
  unfold joinSpaces
  rw [List.intercalate_cons_cons]
  simp [text]

theorem joinSpaces_singleton (only : Text) : joinSpaces [only] = only := by
  simp [joinSpaces]

/-- Closed words, then any text. -/
theorem tokenize_joinSpaces_append {tokens : List Token}
    (hclosed : ∀ token ∈ tokens, ClosedWord token) (rest : Text) :
    tokenize (joinSpaces (tokens.map Token.raw ++ [rest])) =
      tokens ++ tokenize rest := by
  induction tokens with
  | nil => simp [joinSpaces_singleton]
  | cons token others ih =>
      have hword := hclosed token List.mem_cons_self
      have hothers := ih fun other hother =>
        hclosed other (List.mem_cons_of_mem _ hother)
      obtain ⟨next, more, hnext⟩ : ∃ next more,
          others.map Token.raw ++ [rest] = next :: more :=
        List.exists_cons_of_ne_nil (by simp)
      rw [List.map_cons, List.cons_append, hnext, joinSpaces_cons_cons,
        hword.tokenize_append, ← hnext, hothers]
      rfl

/-- Only the last of these words may leave a quote open. -/
structure WordList (tokens : List Token) : Prop where
  words : ∀ token ∈ tokens, IsWord token
  closed : tokens.Pairwise fun token _ => ClosedWord token

theorem WordList.sublist {tokens kept : List Token} (hwords : WordList tokens)
    (hkept : kept.Sublist tokens) : WordList kept :=
  ⟨fun token htoken => hwords.words token (hkept.subset htoken),
    hwords.closed.sublist hkept⟩

/-- Words joined by spaces are read back as those words. -/
theorem WordList.tokenize_joinSpaces {tokens : List Token}
    (hwords : WordList tokens) :
    tokenize (joinSpaces (tokens.map Token.raw)) = tokens := by
  induction tokens with
  | nil => rfl
  | cons token rest ih =>
      cases rest with
      | nil =>
          have hword := hwords.words token List.mem_cons_self
          rw [List.map_cons, List.map_nil, joinSpaces_singleton, hword.tokenize]
      | cons next more =>
          have hclosed := (List.pairwise_cons.mp hwords.closed).1 next
            List.mem_cons_self
          have hrest := ih (hwords.sublist (List.sublist_cons_self _ _))
          rw [List.map_cons] at hrest
          rw [List.map_cons, List.map_cons, joinSpaces_cons_cons,
            hclosed.tokenize_append, hrest]

/-! ### The tokens of a text -/

/-- What was emitted is closed, and the token under way is what its spelling
so far is read as. -/
structure LexOk (state : Lexing) : Prop where
  out : ∀ token ∈ state.out, ClosedWord token
  read : state.raw.foldl Lexing.step Lexing.start =
    ⟨[], state.buf, state.raw, state.quoted⟩

theorem LexOk.start : LexOk Lexing.start :=
  ⟨nofun, rfl⟩

theorem LexOk.step {state : Lexing} (hlex : LexOk state) (ch : CodePoint) :
    LexOk (state.step ch) := by
  have hread : (state.raw ++ [ch]).foldl Lexing.step Lexing.start =
      Lexing.step ⟨[], state.buf, state.raw, state.quoted⟩ ch := by
    rw [List.foldl_append, hlex.read]
    rfl
  unfold Lexing.step at hread ⊢
  cases hquoted : state.quoted with
  | true =>
      by_cases hclose : ch = .scalar '"'
      · simp only [hquoted, hclose, ↓reduceIte] at hread ⊢
        exact ⟨hlex.out, hread⟩
      · simp only [hquoted, hclose, ↓reduceIte, Lexing.push] at hread ⊢
        exact ⟨hlex.out, hread⟩
  | false =>
      by_cases hopen : ch = .scalar '"'
      · simp only [hquoted, hopen, Bool.false_eq_true, ↓reduceIte] at hread ⊢
        exact ⟨hlex.out, hread⟩
      · by_cases hspace : ch.isSpace
        · simp only [hopen, hspace, Bool.false_eq_true, ↓reduceIte]
          refine ⟨?_, rfl⟩
          intro token htoken
          by_cases hempty : state.buf = []
          · rw [Lexing.flush, if_pos hempty] at htoken
            exact hlex.out token htoken
          · rw [Lexing.flush, if_neg hempty] at htoken
            rcases List.mem_append.mp htoken with hold | hnew
            · exact hlex.out token hold
            · obtain rfl := List.mem_singleton.mp hnew
              exact ⟨hempty, hquoted ▸ hlex.read⟩
        · simp only [hquoted, hopen, hspace, Bool.false_eq_true, ↓reduceIte,
            Lexing.push] at hread ⊢
          exact ⟨hlex.out, hread⟩

theorem LexOk.foldl {state : Lexing} (hlex : LexOk state) (query : Text) :
    LexOk (query.foldl Lexing.step state) := by
  induction query generalizing state with
  | nil => exact hlex
  | cons ch rest ih => exact ih (hlex.step ch)

theorem wordList_of_closed {tokens : List Token}
    (hclosed : ∀ token ∈ tokens, ClosedWord token) : WordList tokens :=
  ⟨fun token htoken => (hclosed token htoken).isWord,
    List.pairwise_of_forall_mem_list fun first hfirst _ _ =>
      hclosed first hfirst⟩

/-- Every token is a word, and only the last may leave a quote open. -/
theorem tokenize_wordList (query : Text) : WordList (tokenize query) := by
  have hlex := LexOk.start.foldl query
  unfold tokenize Lexing.flush
  generalize query.foldl Lexing.step Lexing.start = final at hlex ⊢
  split
  · exact wordList_of_closed hlex.out
  · rename_i hnonempty
    have hout := wordList_of_closed hlex.out
    refine ⟨?_, ?_⟩
    · intro token htoken
      rcases List.mem_append.mp htoken with hold | hnew
      · exact hout.words token hold
      · obtain rfl := List.mem_singleton.mp hnew
        exact ⟨hnonempty, final.quoted, hlex.read⟩
    · refine List.pairwise_append.mpr
        ⟨hout.closed, List.pairwise_singleton _ _, ?_⟩
      intro first hfirst _ _
      exact hlex.out first hfirst

/-- A token is its spelling without the quotes. -/
def Lexing.Unquoted (state : Lexing) : Prop :=
  state.buf = state.raw.filter (· ≠ .scalar '"') ∧
    ∀ token ∈ state.out, token.stripped = token.raw.filter (· ≠ .scalar '"')

theorem Lexing.Unquoted.flush {state : Lexing} (hstate : state.Unquoted) :
    ∀ token ∈ state.flush,
      token.stripped = token.raw.filter (· ≠ .scalar '"') := by
  intro token htoken
  unfold Lexing.flush at htoken
  split at htoken
  · exact hstate.2 token htoken
  · rcases List.mem_append.mp htoken with hold | hnew
    · exact hstate.2 token hold
    · obtain rfl := List.mem_singleton.mp hnew
      exact hstate.1

theorem Lexing.Unquoted.step {state : Lexing} (hstate : state.Unquoted)
    (ch : CodePoint) : (state.step ch).Unquoted := by
  have hquote : state.raw.filter (· ≠ CodePoint.scalar '"') =
      (state.raw ++ [CodePoint.scalar '"']).filter
        (· ≠ CodePoint.scalar '"') := by
    simp
  have hpush (hplain : ch ≠ .scalar '"') : (state.push ch).Unquoted :=
    ⟨by simp [Lexing.push, hstate.1, hplain], hstate.2⟩
  unfold Lexing.step
  split
  · split
    · rename_i hclose
      exact ⟨by rw [hclose, hstate.1]; exact hquote, hstate.2⟩
    · rename_i hplain
      exact hpush hplain
  · split
    · rename_i hopen
      exact ⟨by rw [hopen, hstate.1]; exact hquote, hstate.2⟩
    · rename_i hplain
      split
      · exact ⟨rfl, hstate.flush⟩
      · exact hpush hplain

theorem stripped_of_mem_tokenize {query : Text} {token : Token}
    (htoken : token ∈ tokenize query) :
    token.stripped = token.raw.filter (· ≠ .scalar '"') := by
  have hfold {given : Text} {state : Lexing} (hstate : state.Unquoted) :
      (given.foldl Lexing.step state).Unquoted := by
    induction given generalizing state with
    | nil => exact hstate
    | cons ch rest ih => exact ih (hstate.step ch)
  have hstart : Lexing.start.Unquoted := ⟨rfl, nofun⟩
  exact (hfold hstart).flush token htoken

end Localmail
