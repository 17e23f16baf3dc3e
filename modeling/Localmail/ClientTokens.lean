/-
The tokens the client reads and writes.  However a query is quoted, a token is
read without quotes and spelled with balanced ones, so a rebuilt query is read
by the server one token after the other; and the filters typed in a query are
the last values of their operators.
-/
import Localmail.FilterParse
import Localmail.OperatorValues

namespace Localmail

/-! ### Tokens as read -/

/-- A token without quotes, spelled with balanced ones. -/
structure Token.Paired (token : Token) : Prop where
  plain : CodePoint.scalar '"' ∉ token.stripped
  paired : BalancedQuotes token.raw

/-- What holds between two characters. -/
structure RawPaired (state : RawLexing) : Prop where
  out : ∀ token ∈ state.out, token.Paired
  plain : CodePoint.scalar '"' ∉ state.buf
  unquoted : state.inQuote = false → BalancedQuotes state.raw
  quoted : state.inQuote = true →
    BalancedQuotes (state.raw ++ [.scalar '"']) ∧
      CodePoint.scalar '"' ∉ state.bufBeforeQuote ∧
      BalancedQuotes state.rawBeforeQuote

theorem rawPaired_start : RawPaired RawLexing.start :=
  ⟨nofun, nofun, fun _ => rfl, nofun⟩

/-- What holds outside any quote. -/
structure RawPlain (state : RawLexing) : Prop where
  out : ∀ token ∈ state.out, token.Paired
  plain : CodePoint.scalar '"' ∉ state.buf
  paired : BalancedQuotes state.raw

theorem RawPlain.flush {state : RawLexing} (hstate : RawPlain state) :
    RawPlain state.flush := by
  refine ⟨?_, nofun, rfl⟩
  intro token htoken
  change token ∈ (if state.buf = [] then state.out
    else state.out ++ [⟨state.buf, state.raw⟩]) at htoken
  split at htoken
  · exact hstate.out token htoken
  · rcases List.mem_append.mp htoken with hold | hnew
    · exact hstate.out token hold
    · obtain rfl := List.mem_singleton.mp hnew
      exact ⟨hstate.plain, hstate.paired⟩

theorem RawPlain.push {state : RawLexing} (hstate : RawPlain state)
    {ch : CodePoint} (hquote : ch ≠ .scalar '"') :
    RawPlain (state.push ch) := by
  refine ⟨hstate.out, ?_, ?_⟩
  · simp [RawLexing.push, hstate.plain, Ne.symm hquote]
  · refine hstate.paired.append (balancedQuotes_of_not_mem ?_)
    simpa using Ne.symm hquote

theorem RawPlain.plain_step {state : RawLexing} (hstate : RawPlain state)
    {ch : CodePoint} (hquote : ch ≠ .scalar '"') :
    RawPlain (state.plain ch) := by
  unfold RawLexing.plain
  split
  · exact hstate.flush
  · exact hstate.push hquote

theorem RawPlain.foldl {state : RawLexing} (hstate : RawPlain state)
    {run : Text} (hquote : CodePoint.scalar '"' ∉ run) :
    RawPlain (run.foldl RawLexing.plain state) := by
  induction run generalizing state with
  | nil => exact hstate
  | cons ch rest ih =>
      obtain ⟨hne, hrest⟩ := List.ne_and_not_mem_of_not_mem_cons hquote
      exact ih (hstate.plain_step (Ne.symm hne)) hrest

theorem RawPlain.of_paired {state : RawLexing} (hstate : RawPaired state)
    (hquote : state.inQuote = false) : RawPlain state :=
  ⟨hstate.out, hstate.plain, hstate.unquoted hquote⟩

theorem RawLexing.plain_inQuote (state : RawLexing) (ch : CodePoint) :
    (state.plain ch).inQuote = state.inQuote := by
  unfold RawLexing.plain
  split <;> rfl

theorem RawPaired.step {state : RawLexing} (hstate : RawPaired state)
    (ch : CodePoint) : RawPaired (state.step ch) := by
  unfold RawLexing.step
  cases hin : state.inQuote with
  | true =>
      obtain ⟨hraw, hbuf, hbefore⟩ := hstate.quoted hin
      by_cases hquote : ch = .scalar '"'
      · simp only [hquote, ↓reduceIte]
        exact ⟨hstate.out, hstate.plain, fun _ => hraw, nofun⟩
      · simp only [hquote, ↓reduceIte]
        refine ⟨hstate.out, ?_, ?_, fun _ => ⟨?_, hbuf, hbefore⟩⟩
        · simp [RawLexing.push, hstate.plain, Ne.symm hquote]
        · intro hopen
          change state.inQuote = false at hopen
          rw [hin] at hopen
          cases hopen
        · change BalancedQuotes (state.raw ++ [ch] ++ [.scalar '"'])
          unfold BalancedQuotes at hraw ⊢
          simpa [List.count_append, List.count_cons, hquote] using hraw
  | false =>
      have hplain := RawPlain.of_paired hstate hin
      by_cases hquote : ch = .scalar '"'
      · simp only [hquote, Bool.false_eq_true, ↓reduceIte]
        refine ⟨hstate.out, hstate.plain, nofun,
          fun _ => ⟨?_, hstate.plain, hplain.paired⟩⟩
        have htwo : BalancedQuotes [.scalar '"', .scalar '"'] := by decide
        simpa using hplain.paired.append htwo
      · simp only [hquote, Bool.false_eq_true, ↓reduceIte]
        have hnext := hplain.plain_step hquote
        have hstill : (state.plain ch).inQuote = false :=
          (state.plain_inQuote ch).trans hin
        refine ⟨hnext.out, hnext.plain, fun _ => hnext.paired, ?_⟩
        intro hopen
        rw [hstill] at hopen
        cases hopen

theorem RawPaired.finish {state : RawLexing} (hstate : RawPaired state) :
    ∀ token ∈ state.finish, token.Paired := by
  unfold RawLexing.finish
  split
  · rename_i hin
    obtain ⟨-, hbuf, hraw⟩ := hstate.quoted hin
    have hback : RawPlain { state with
        buf := state.bufBeforeQuote
        raw := state.rawBeforeQuote } := ⟨hstate.out, hbuf, hraw⟩
    have htail : CodePoint.scalar '"' ∉
        state.buf.drop state.bufBeforeQuote.length :=
      fun hquote => hstate.plain (List.mem_of_mem_drop hquote)
    exact (hback.foldl htail).flush.out
  · rename_i hin
    exact (RawPlain.of_paired hstate (by simpa using hin)).flush.out

/-- Every token of the client is paired, closed or not the query's own
quotes. -/
theorem tokenizeRaw_paired (query : Text) :
    ∀ token ∈ tokenizeRaw query, token.Paired := by
  have hfold {given : Text} {state : RawLexing} (hstate : RawPaired state) :
      RawPaired (given.foldl RawLexing.step state) := by
    induction given generalizing state with
    | nil => exact hstate
    | cons ch rest ih => exact ih (hstate.step ch)
  exact (hfold rawPaired_start).finish

/-! ### Tokens as written -/

theorem Token.Paired.spelled {token : Token} (htoken : token.Paired) :
    BalancedQuotes (spellToken token) := by
  have hstripped := balancedQuotes_of_not_mem htoken.plain
  unfold spellToken
  split
  · exact htoken.paired
  · split
    · exact hstripped
    · split
      · rename_i rest hdash
        have hrest : BalancedQuotes rest := by
          unfold BalancedQuotes at hstripped ⊢
          rw [hdash] at hstripped
          simpa using hstripped
        unfold BalancedQuotes at hrest ⊢
        simp [text, List.count_append] at hrest ⊢
        omega
      · unfold BalancedQuotes at hstripped ⊢
        simp [text, List.count_append] at hstripped ⊢
        omega

/-- The server reads a rebuilt query one spelled token after the other. -/
theorem tokenize_joinTokens {tokens : List Token}
    (hpaired : ∀ token ∈ tokens, token.Paired) :
    tokenize (joinTokens tokens) =
      tokens.flatMap fun token => tokenize (spellToken token) := by
  unfold joinTokens
  rw [tokenize_joinSpaces_flatMap]
  · rw [List.flatMap_map]
  · intro spelled hspelled
    obtain ⟨token, htoken, rfl⟩ := List.mem_map.mp hspelled
    exact (hpaired token htoken).spelled

/-! ### Typed filters -/

/-- The operators with a chip whose typed value replaces it. -/
def chipOperators : List Operator :=
  [.fromOp, .toOp, .subjectOp, .afterOp, .beforeOp]

/-- The text a chip holds. -/
def SearchFiltersUI.chip (filters : SearchFiltersUI) : Operator → Text
  | .fromOp => filters.fromChip
  | .toOp => filters.toChip
  | .subjectOp => filters.subject
  | .afterOp => filters.after
  | .beforeOp => filters.before
  | _ => []

theorem mem_of_lookup {entries : List (Text × Operator)} {name : Text}
    {op : Operator} (hlookup : entries.lookup name = some op) :
    (name, op) ∈ entries := by
  obtain ⟨before, after, rfl, -⟩ := List.lookup_eq_some_iff.mp hlookup
  simp

theorem operators_lookup {name : Text} {op : Operator} :
    operators.lookup name = some op ↔ name = op.name := by
  constructor
  · intro hlookup
    have hall : ∀ entry ∈ operators, entry.1 = entry.2.name := by decide
    exact hall (name, op) (mem_of_lookup hlookup)
  · rintro rfl
    cases op <;> rfl

theorem popoverOperators_lookup {name : Text} {op : Operator}
    (hop : op ∈ chipOperators) :
    popoverOperators.lookup name = some op ↔ name = op.name := by
  constructor
  · intro hlookup
    have hall : ∀ entry ∈ popoverOperators, entry.1 = entry.2.name := by decide
    exact hall (name, op) (mem_of_lookup hlookup)
  · rintro rfl
    revert hop
    cases op <;> decide

/-- Client and server agree on the chip operator a token names. -/
theorem operatorValue_popover {op : Operator} (hop : op ∈ chipOperators)
    (token : Token) :
    operatorValue op token =
      (popoverOperator token.stripped).bind fun entry =>
        if entry.1 = op then some entry.2 else none := by
  unfold operatorValue popoverOperator
  cases partitionColon token.stripped with
  | none => rfl
  | some parts =>
      obtain ⟨name, value⟩ := parts
      by_cases hvalue : value = []
      · simp [hvalue]
      · by_cases hname : name = []
        · subst hname
          have hnone : operatorNamed [] ≠ some op := by
            intro hsome
            have hempty := operators_lookup.mp hsome
            cases op <;> cases hempty
          simp [hnone]
        · simp only [hvalue, hname, or_self, ↓reduceIte, ne_eq, not_false_eq_true,
            and_true, operatorNamed, operators_lookup]
          cases hlookup : popoverOperators.lookup (lowerAscii name) with
          | none =>
              have hother : lowerAscii name ≠ op.name := by
                intro hsame
                rw [(popoverOperators_lookup hop).mpr hsame] at hlookup
                cases hlookup
              simp [hother]
          | some named =>
              have hsame : lowerAscii name = op.name ↔ named = op := by
                rw [← popoverOperators_lookup hop, hlookup]
                exact Option.some_inj
              simp [hsame]

section Extract

variable {toLowerCase : Text → Text} {op : Operator}

theorem extracting_step_chip (hop : op ∈ chipOperators) (state : Extracting)
    (token : Token) :
    (state.step toLowerCase token).filters.chip op =
      (operatorValue op token).getD (state.filters.chip op) := by
  rw [operatorValue_popover hop]
  unfold Extracting.step
  cases popoverOperator token.stripped with
  | none => rfl
  | some entry =>
      obtain ⟨named, value⟩ := entry
      revert hop
      cases named <;> cases op <;>
        simp [chipOperators, SearchFiltersUI.chip] <;> split <;> rfl

theorem extracting_foldl_chip (hop : op ∈ chipOperators) (tokens : List Token)
    (state : Extracting) :
    (tokens.foldl (Extracting.step toLowerCase) state).filters.chip op =
      (typedValues op tokens).getLast?.getD (state.filters.chip op) := by
  induction tokens generalizing state with
  | nil => rfl
  | cons token rest ih =>
      rw [List.foldl_cons, ih, extracting_step_chip hop]
      unfold typedValues
      rw [List.filterMap_cons]
      cases operatorValue op token with
      | none => rfl
      | some value =>
          rw [List.getLast?_cons]
          cases (rest.filterMap (operatorValue op)).getLast? <;> rfl

/-- A typed filter is the last value of its operator. -/
theorem extractDslFilters_chip (hop : op ∈ chipOperators) (query : Text) :
    (extractDslFilters toLowerCase query).filters.chip op =
      (typedValues op (tokenizeRaw query)).getLast?.getD [] := by
  have hempty : emptyFilters.chip op = [] := by
    cases op <;> rfl
  unfold extractDslFilters
  rw [extracting_foldl_chip hop, hempty]

end Extract

end Localmail
