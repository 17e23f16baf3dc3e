/-
Splitting a text into words at separators outside quotes.  A word is kept
with its quotes and without them, and one without a character is dropped.  What
a separator is differs between readers; two of them agree on a text where they
agree outside its quotes.
-/
import Mathlib.Data.List.Basic

namespace Localmail

universe u

/-- A word without its quotes, and as it is spelled. -/
structure QuotedWord (α : Type u) where
  bare : List α
  raw : List α
deriving Repr, DecidableEq

variable {α : Type u}

namespace QuotedWord

def empty : QuotedWord α := ⟨[], []⟩

def push (word : QuotedWord α) (ch : α) : QuotedWord α :=
  ⟨word.bare ++ [ch], word.raw ++ [ch]⟩

/-- A quote is part of the spelling only. -/
def mark (word : QuotedWord α) (ch : α) : QuotedWord α :=
  ⟨word.bare, word.raw ++ [ch]⟩

def emit (word : QuotedWord α) : List (QuotedWord α) :=
  if word.bare = [] then [] else [word]

end QuotedWord

section Split

variable [DecidableEq α] (quote : α) (sep : α → Bool)

/-- The words of a text, `word` being the one under way. -/
def splitQuoted : Bool → QuotedWord α → List α → List (QuotedWord α)
  | _, word, [] => word.emit
  | quoted, word, ch :: rest =>
      if ch = quote then splitQuoted (!quoted) (word.mark ch) rest
      else if !quoted && sep ch then
        word.emit ++ splitQuoted false .empty rest
      else splitQuoted quoted (word.push ch) rest

def quotedWords (given : List α) : List (QuotedWord α) :=
  splitQuoted quote sep false .empty given

/-- Whether a quote is open behind a text. -/
def quotedAfter : Bool → List α → Bool
  | quoted, [] => quoted
  | quoted, ch :: rest =>
      quotedAfter (if ch = quote then !quoted else quoted) rest

/-- The characters outside the quotes. -/
def outsideQuotes : Bool → List α → List α
  | _, [] => []
  | quoted, ch :: rest =>
      if ch = quote then outsideQuotes (!quoted) rest
      else if quoted then outsideQuotes quoted rest
      else ch :: outsideQuotes quoted rest

def withoutQuotes (given : List α) : List α :=
  given.filter fun ch => ch ≠ quote

/-- A word that a reader finds alone in its own spelling. -/
structure IsQuotedWord (word : QuotedWord α) : Prop where
  nonempty : word.bare ≠ []
  bare_eq : word.bare = withoutQuotes quote word.raw
  closed : quotedAfter quote false word.raw = false
  unsplit : ∀ ch ∈ outsideQuotes quote false word.raw, sep ch = false

end Split

section Words

variable [DecidableEq α] {quote : α} {sep : α → Bool} {quoted : Bool}
  {word : QuotedWord α} {given rest : List α}

theorem quotedAfter_append (quoted : Bool) (given rest : List α) :
    quotedAfter quote quoted (given ++ rest) =
      quotedAfter quote (quotedAfter quote quoted given) rest := by
  induction given generalizing quoted with
  | nil => rfl
  | cons ch given ih => exact ih _

theorem outsideQuotes_append (quoted : Bool) (given rest : List α) :
    outsideQuotes quote quoted (given ++ rest) =
      outsideQuotes quote quoted given ++
        outsideQuotes quote (quotedAfter quote quoted given) rest := by
  induction given generalizing quoted with
  | nil => rfl
  | cons ch given ih =>
      rw [List.cons_append, outsideQuotes, outsideQuotes, quotedAfter]
      by_cases hquote : ch = quote
      · rw [if_pos hquote, if_pos hquote, if_pos hquote, ih]
      · rw [if_neg hquote, if_neg hquote, if_neg hquote, ih]
        cases quoted with
        | true => rfl
        | false => rfl

theorem mem_of_outsideQuotes {ch : α}
    (hmem : ch ∈ outsideQuotes quote quoted given) :
    ch ∈ withoutQuotes quote given := by
  induction given generalizing quoted with
  | nil => cases hmem
  | cons head given ih =>
      rw [outsideQuotes] at hmem
      unfold withoutQuotes at ih ⊢
      by_cases hquote : head = quote
      · rw [if_pos hquote] at hmem
        rw [List.filter_cons_of_neg (by simpa using hquote)]
        exact ih hmem
      · rw [if_neg hquote] at hmem
        rw [List.filter_cons_of_pos (by simpa using hquote)]
        cases quoted with
        | true => exact List.mem_cons_of_mem _ (ih hmem)
        | false =>
            rcases List.mem_cons.mp hmem with rfl | hrest
            · exact List.mem_cons_self
            · exact List.mem_cons_of_mem _ (ih hrest)

theorem quotedAfter_of_not_mem (hnone : quote ∉ given) :
    quotedAfter quote quoted given = quoted := by
  induction given with
  | nil => rfl
  | cons ch given ih =>
      obtain ⟨hne, hrest⟩ := List.ne_and_not_mem_of_not_mem_cons hnone
      rw [quotedAfter, if_neg (Ne.symm hne)]
      exact ih hrest

theorem outsideQuotes_of_not_mem (hnone : quote ∉ given) :
    outsideQuotes quote quoted given = if quoted then [] else given := by
  induction given with
  | nil => cases quoted <;> rfl
  | cons ch given ih =>
      obtain ⟨hne, hrest⟩ := List.ne_and_not_mem_of_not_mem_cons hnone
      rw [outsideQuotes, if_neg (Ne.symm hne), ih hrest]
      cases quoted <;> rfl

theorem withoutQuotes_append (given rest : List α) :
    withoutQuotes quote (given ++ rest) =
      withoutQuotes quote given ++ withoutQuotes quote rest :=
  List.filter_append ..

theorem not_mem_withoutQuotes : quote ∉ withoutQuotes quote given := by
  simp [withoutQuotes]

theorem withoutQuotes_eq_self (hnone : quote ∉ given) :
    withoutQuotes quote given = given :=
  List.filter_eq_self.mpr fun _ hch =>
    decide_eq_true fun hquote => hnone (hquote ▸ hch)

theorem countP_withoutQuotes {p : α → Bool} (hquote : p quote = false) :
    (withoutQuotes quote given).countP p = given.countP p := by
  rw [withoutQuotes, List.countP_filter]
  refine List.countP_congr fun ch _ => ?_
  by_cases hsame : ch = quote
  · simp [hsame, hquote]
  · simp [hsame]

section Wrapped

variable {lead inner : List α} (hlead : quote ∉ lead) (hinner : quote ∉ inner)

include hlead hinner

/-- A text in quotes behind some that is not. -/
theorem outsideQuotes_wrapped :
    outsideQuotes quote false (lead ++ quote :: (inner ++ [quote])) = lead := by
  rw [outsideQuotes_append, quotedAfter_of_not_mem hlead,
    outsideQuotes_of_not_mem hlead, outsideQuotes, if_pos rfl,
    outsideQuotes_append, outsideQuotes_of_not_mem hinner,
    quotedAfter_of_not_mem hinner]
  simp [outsideQuotes]

theorem isQuotedWord_wrapped (hnonempty : lead ++ inner ≠ [])
    (hsolid : ∀ ch ∈ lead, sep ch = false) :
    IsQuotedWord quote sep
      ⟨lead ++ inner, lead ++ quote :: (inner ++ [quote])⟩ := by
  refine ⟨hnonempty, ?_, ?_, ?_⟩
  · have hquote : withoutQuotes quote [quote] = [] := by simp [withoutQuotes]
    rw [← List.singleton_append, withoutQuotes_append, withoutQuotes_append,
      withoutQuotes_append, hquote, withoutQuotes_eq_self hlead,
      withoutQuotes_eq_self hinner, List.append_nil, List.nil_append]
  · dsimp only
    rw [quotedAfter_append, quotedAfter_of_not_mem hlead, quotedAfter,
      quotedAfter_append, quotedAfter_of_not_mem hinner]
    simp [quotedAfter]
  · dsimp only
    rw [outsideQuotes_wrapped hlead hinner]
    exact hsolid

end Wrapped

theorem quotedAfter_intercalate {joint : α} (hjoint : joint ≠ quote)
    {texts : List (List α)}
    (hclosed : ∀ given ∈ texts, quotedAfter quote false given = false) :
    quotedAfter quote false ([joint].intercalate texts) = false := by
  induction texts with
  | nil => rfl
  | cons first others ih =>
      have hfirst := hclosed first List.mem_cons_self
      cases others with
      | nil => rwa [List.intercalate_singleton]
      | cons second more =>
          rw [List.intercalate_cons_cons, List.append_assoc,
            quotedAfter_append, hfirst, List.cons_append, List.nil_append,
            quotedAfter, if_neg hjoint]
          exact ih fun given hgiven =>
            hclosed given (List.mem_cons_of_mem _ hgiven)

/-- What is outside the quotes of texts put together. -/
theorem mem_outsideQuotes_intercalate {ch joint : α}
    (hjoint : joint ≠ quote) {texts : List (List α)}
    (hclosed : ∀ given ∈ texts, quotedAfter quote false given = false)
    (hmem : ch ∈ outsideQuotes quote false ([joint].intercalate texts)) :
    ch = joint ∨ ∃ given ∈ texts, ch ∈ outsideQuotes quote false given := by
  induction texts with
  | nil => cases hmem
  | cons first others ih =>
      cases others with
      | nil =>
          rw [List.intercalate_singleton] at hmem
          exact .inr ⟨first, List.mem_singleton_self _, hmem⟩
      | cons second more =>
          rw [List.intercalate_cons_cons, List.append_assoc,
            outsideQuotes_append, hclosed first List.mem_cons_self,
            List.cons_append, List.nil_append, outsideQuotes, if_neg hjoint,
            if_neg Bool.false_ne_true] at hmem
          rcases List.mem_append.mp hmem with hfirst | hlater
          · exact .inr ⟨first, List.mem_cons_self, hfirst⟩
          · rcases List.mem_cons.mp hlater with hsame | hothers
            · exact .inl hsame
            · rcases ih (fun given hgiven =>
                hclosed given (List.mem_cons_of_mem _ hgiven)) hothers with
                hsame | ⟨given, hgiven, hin⟩
              · exact .inl hsame
              · exact .inr ⟨given, List.mem_cons_of_mem _ hgiven, hin⟩

omit [DecidableEq α] in
/-- A character ends a word only outside the quotes. -/
theorem outside_of_ends {ch : α} (hends : (!quoted && sep ch) = true) :
    quoted = false ∧ sep ch = true := by
  simpa using hends

/-- A text without separators goes into the word under way. -/
theorem splitQuoted_append
    (hunsplit : ∀ ch ∈ outsideQuotes quote quoted given, sep ch = false) :
    splitQuoted quote sep quoted word (given ++ rest) =
      splitQuoted quote sep (quotedAfter quote quoted given)
        ⟨word.bare ++ withoutQuotes quote given, word.raw ++ given⟩ rest := by
  induction given generalizing quoted word with
  | nil => simp [quotedAfter, withoutQuotes]
  | cons ch given ih =>
      rw [outsideQuotes] at hunsplit
      rw [List.cons_append, splitQuoted, quotedAfter]
      by_cases hquote : ch = quote
      · rw [if_pos hquote] at hunsplit ⊢
        rw [if_pos hquote, ih hunsplit]
        simp [QuotedWord.mark, withoutQuotes, hquote]
      · rw [if_neg hquote] at hunsplit ⊢
        have hjoins : (!quoted && sep ch) = false := by
          cases quoted with
          | true => rfl
          | false => simpa using hunsplit ch List.mem_cons_self
        have hrest : ∀ other ∈ outsideQuotes quote quoted given,
            sep other = false := by
          intro other hother
          cases quoted with
          | true => exact hunsplit other hother
          | false => exact hunsplit other (List.mem_cons_of_mem _ hother)
        rw [hjoins, if_neg Bool.false_ne_true, if_neg hquote, ih hrest]
        simp [QuotedWord.push, withoutQuotes, hquote]

theorem IsQuotedWord.quotedWords (hword : IsQuotedWord quote sep word) :
    quotedWords quote sep word.raw = [word] := by
  have hsplit := @splitQuoted_append α _ quote sep false .empty word.raw []
    hword.unsplit
  rw [List.append_nil] at hsplit
  rw [Localmail.quotedWords, hsplit, hword.closed]
  simp only [QuotedWord.empty, List.nil_append, ← hword.bare_eq]
  unfold splitQuoted QuotedWord.emit
  rw [if_neg hword.nonempty]

/-- Behind a separator the splitting starts anew. -/
theorem splitQuoted_sep {ch : α}
    (hclosed : quotedAfter quote quoted given = false) (hquote : ch ≠ quote)
    (hsep : sep ch = true) :
    splitQuoted quote sep quoted word (given ++ ch :: rest) =
      splitQuoted quote sep quoted word given ++
        quotedWords quote sep rest := by
  induction given generalizing quoted word with
  | nil =>
      rw [quotedAfter] at hclosed
      subst hclosed
      conv_lhs => rw [List.nil_append, splitQuoted, if_neg hquote, hsep]
      rfl
  | cons head given ih =>
      rw [quotedAfter] at hclosed
      rw [List.cons_append, splitQuoted, splitQuoted]
      by_cases hhead : head = quote
      · rw [if_pos hhead] at hclosed
        rw [if_pos hhead, if_pos hhead, ih hclosed]
      · rw [if_neg hhead] at hclosed
        rw [if_neg hhead, if_neg hhead]
        split
        · rename_i hends
          rw [(outside_of_ends hends).1] at hclosed
          rw [ih hclosed, List.append_assoc]
        · exact ih hclosed

/-- The words of texts put together are those of the texts. -/
theorem quotedWords_intercalate {ch : α} (hquote : ch ≠ quote)
    (hsep : sep ch = true) {texts : List (List α)}
    (hclosed : ∀ given ∈ texts, quotedAfter quote false given = false) :
    quotedWords quote sep ([ch].intercalate texts) =
      texts.flatMap (quotedWords quote sep) := by
  induction texts with
  | nil => rfl
  | cons first others ih =>
      cases others with
      | nil => simp
      | cons second more =>
          have hfirst := hclosed first List.mem_cons_self
          have hothers := ih fun given hgiven =>
            hclosed given (List.mem_cons_of_mem _ hgiven)
          rw [List.intercalate_cons_cons, List.append_assoc, List.cons_append,
            List.nil_append, quotedWords, splitQuoted_sep hfirst hquote hsep,
            hothers]
          rfl

/-! ### The words of a text -/

/-- The word under way is what its spelling so far is read as. -/
structure PartialWord (quote : α) (sep : α → Bool) (quoted : Bool)
    (word : QuotedWord α) : Prop where
  bare_eq : word.bare = withoutQuotes quote word.raw
  after : quotedAfter quote false word.raw = quoted
  unsplit : ∀ ch ∈ outsideQuotes quote false word.raw, sep ch = false

theorem partialWord_empty : PartialWord quote sep false .empty :=
  ⟨rfl, rfl, nofun⟩

theorem PartialWord.mark (hword : PartialWord quote sep quoted word) :
    PartialWord quote sep (!quoted) (word.mark quote) := by
  refine ⟨?_, ?_, ?_⟩
  · simp [QuotedWord.mark, withoutQuotes, hword.bare_eq]
  · simp [QuotedWord.mark, quotedAfter_append, hword.after, quotedAfter]
  · intro ch hch
    rw [QuotedWord.mark, outsideQuotes_append] at hch
    simp only [outsideQuotes, ↓reduceIte, List.append_nil] at hch
    exact hword.unsplit ch hch

theorem PartialWord.push {ch : α} (hword : PartialWord quote sep quoted word)
    (hquote : ch ≠ quote) (hjoins : (!quoted && sep ch) = false) :
    PartialWord quote sep quoted (word.push ch) := by
  refine ⟨?_, ?_, ?_⟩
  · simp [QuotedWord.push, withoutQuotes, hword.bare_eq, hquote]
  · simp [QuotedWord.push, quotedAfter_append, hword.after, quotedAfter, hquote]
  · intro other hother
    rw [QuotedWord.push, outsideQuotes_append, hword.after] at hother
    rcases List.mem_append.mp hother with hold | hnew
    · exact hword.unsplit other hold
    · cases quoted with
      | true => simp [outsideQuotes, hquote] at hnew
      | false =>
          obtain rfl : other = ch := by
            simpa [outsideQuotes, hquote] using hnew
          exact hjoins

theorem PartialWord.of_mem_emit {found : QuotedWord α}
    (hword : PartialWord quote sep false word) (hfound : found ∈ word.emit) :
    IsQuotedWord quote sep found := by
  unfold QuotedWord.emit at hfound
  split at hfound
  · cases hfound
  · rename_i hnonempty
    rw [List.mem_singleton.mp hfound]
    exact ⟨hnonempty, hword.bare_eq, hword.after, hword.unsplit⟩

theorem PartialWord.of_mem {found : QuotedWord α}
    (hword : PartialWord quote sep quoted word)
    (hclosed : quotedAfter quote quoted given = false)
    (hfound : found ∈ splitQuoted quote sep quoted word given) :
    IsQuotedWord quote sep found := by
  induction given generalizing quoted word with
  | nil =>
      rw [quotedAfter] at hclosed
      subst hclosed
      exact hword.of_mem_emit hfound
  | cons ch given ih =>
      rw [quotedAfter] at hclosed
      rw [splitQuoted] at hfound
      by_cases hquote : ch = quote
      · rw [if_pos hquote] at hclosed hfound
        rw [hquote] at hfound
        exact ih hword.mark hclosed hfound
      · rw [if_neg hquote] at hclosed hfound
        cases hends : !quoted && sep ch with
        | true =>
            obtain ⟨rfl, -⟩ := outside_of_ends hends
            rw [hends, if_pos rfl] at hfound
            rcases List.mem_append.mp hfound with hhere | hlater
            · exact hword.of_mem_emit hhere
            · exact ih partialWord_empty hclosed hlater
        | false =>
            rw [hends, if_neg Bool.false_ne_true] at hfound
            exact ih (hword.push hquote hends) hclosed hfound

/-- What is outside the quotes of a word is so in the text. -/
theorem PartialWord.mem_outsideQuotes {found : QuotedWord α} {ch : α}
    (hword : PartialWord quote sep quoted word)
    (hfound : found ∈ splitQuoted quote sep quoted word given)
    (hch : ch ∈ outsideQuotes quote false found.raw) :
    ch ∈ outsideQuotes quote false word.raw ∨
      ch ∈ outsideQuotes quote quoted given := by
  induction given generalizing quoted word with
  | nil =>
      rw [splitQuoted, QuotedWord.emit] at hfound
      split at hfound
      · cases hfound
      · rw [List.mem_singleton.mp hfound] at hch
        exact .inl hch
  | cons head given ih =>
      rw [splitQuoted] at hfound
      rw [outsideQuotes]
      by_cases hquote : head = quote
      · rw [if_pos hquote] at hfound ⊢
        rw [hquote] at hfound
        refine (ih hword.mark hfound).imp_left fun hold => ?_
        rw [QuotedWord.mark, outsideQuotes_append] at hold
        simpa [outsideQuotes] using hold
      · rw [if_neg hquote] at hfound ⊢
        cases hends : !quoted && sep head with
        | true =>
            obtain ⟨rfl, -⟩ := outside_of_ends hends
            rw [hends, if_pos rfl] at hfound
            rw [if_neg Bool.false_ne_true]
            rcases List.mem_append.mp hfound with hhere | hlater
            · unfold QuotedWord.emit at hhere
              split at hhere
              · cases hhere
              · rw [List.mem_singleton.mp hhere] at hch
                exact .inl hch
            · rcases ih (@partialWord_empty α _ quote sep) hlater with
                hnew | hrest
              · cases hnew
              · exact .inr (List.mem_cons_of_mem _ hrest)
        | false =>
            rw [hends, if_neg Bool.false_ne_true] at hfound
            have hnext := ih (hword.push hquote hends) hfound
            rw [QuotedWord.push, outsideQuotes_append, hword.after] at hnext
            cases quoted with
            | true => simpa [outsideQuotes, hquote] using hnext
            | false =>
                simpa [outsideQuotes, hquote, or_assoc] using hnext

theorem mem_outsideQuotes_of_mem {found : QuotedWord α} {ch : α}
    (hfound : found ∈ quotedWords quote sep given)
    (hch : ch ∈ outsideQuotes quote false found.raw) :
    ch ∈ outsideQuotes quote false given :=
  (partialWord_empty.mem_outsideQuotes hfound hch).resolve_left nofun

/-- Where every quote is closed, each word is one. -/
theorem isQuotedWord_of_mem (hclosed : quotedAfter quote false given = false) :
    ∀ found ∈ quotedWords quote sep given, IsQuotedWord quote sep found :=
  fun _ hfound => partialWord_empty.of_mem hclosed hfound

theorem quotedWords_of_withoutQuotes (hnone : withoutQuotes quote given = []) :
    quotedWords quote sep given = [] := by
  have hunsplit : ∀ ch ∈ outsideQuotes quote false given, sep ch = false := by
    intro ch hch
    have hmem := mem_of_outsideQuotes hch
    rw [hnone] at hmem
    cases hmem
  have hsplit := @splitQuoted_append α _ quote sep false .empty given []
    hunsplit
  rw [List.append_nil, hnone] at hsplit
  rw [quotedWords, hsplit]
  rfl

theorem PartialWord.quotedWords_raw {finer : α → Bool}
    (hword : PartialWord quote sep false word) :
    quotedWords quote finer word.raw =
      word.emit.flatMap fun found => quotedWords quote finer found.raw := by
  unfold QuotedWord.emit
  split
  · rename_i hempty
    exact quotedWords_of_withoutQuotes (hword.bare_eq.symm.trans hempty)
  · exact (List.flatMap_singleton ..).symm

/-- A reader with more separators outside the quotes splits the words
further. -/
theorem PartialWord.splitQuoted_flatMap {finer : α → Bool}
    (hword : PartialWord quote sep quoted word)
    (hclosed : quotedAfter quote quoted given = false)
    (hfiner : ∀ ch ∈ outsideQuotes quote quoted given,
      sep ch = true → finer ch = true) :
    quotedWords quote finer (word.raw ++ given) =
      (splitQuoted quote sep quoted word given).flatMap fun found =>
        quotedWords quote finer found.raw := by
  induction given generalizing quoted word with
  | nil =>
      rw [quotedAfter] at hclosed
      subst hclosed
      rw [List.append_nil]
      exact hword.quotedWords_raw
  | cons ch given ih =>
      rw [quotedAfter] at hclosed
      rw [outsideQuotes] at hfiner
      rw [splitQuoted]
      by_cases hquote : ch = quote
      · rw [if_pos hquote] at hclosed hfiner ⊢
        rw [hquote, ← ih hword.mark hclosed hfiner, QuotedWord.mark,
          List.append_assoc]
        rfl
      · rw [if_neg hquote] at hclosed hfiner ⊢
        cases hends : !quoted && sep ch with
        | true =>
            obtain ⟨rfl, hsep⟩ := outside_of_ends hends
            have hrest := ih (@partialWord_empty α _ quote sep) hclosed
              fun other hother => hfiner other (List.mem_cons_of_mem _ hother)
            rw [if_pos rfl, List.flatMap_append, ← hword.quotedWords_raw,
              ← hrest, quotedWords, splitQuoted_sep hword.after hquote
                (hfiner ch List.mem_cons_self hsep)]
            rfl
        | false =>
            have hrest : ∀ other ∈ outsideQuotes quote quoted given,
                sep other = true → finer other = true := by
              intro other hother
              cases quoted with
              | true => exact hfiner other hother
              | false => exact hfiner other (List.mem_cons_of_mem _ hother)
            rw [if_neg Bool.false_ne_true,
              ← ih (hword.push hquote hends) hclosed hrest, QuotedWord.push,
              List.append_assoc]
            rfl

theorem quotedWords_flatMap {finer : α → Bool}
    (hclosed : quotedAfter quote false given = false)
    (hfiner : ∀ ch ∈ outsideQuotes quote false given,
      sep ch = true → finer ch = true) :
    quotedWords quote finer given =
      (quotedWords quote sep given).flatMap fun found =>
        quotedWords quote finer found.raw :=
  partialWord_empty.splitQuoted_flatMap hclosed hfiner

/-- A text without separators stays together: a word under way that begins with
it, or will, is found. -/
theorem exists_splitQuoted_of_begins {lead : List α} (hsome : lead ≠ [])
    (hsolid : ∀ ch ∈ lead, sep ch = false)
    (hlead : lead <+: word.bare ++ withoutQuotes quote given) :
    ∃ found ∈ splitQuoted quote sep quoted word given, lead <+: found.bare := by
  induction given generalizing quoted word with
  | nil =>
      have hword : lead <+: word.bare := by simpa [withoutQuotes] using hlead
      have hbare : word.bare ≠ [] := fun hempty =>
        hsome (List.prefix_nil.mp (hempty ▸ hword))
      refine ⟨word, ?_, hword⟩
      rw [splitQuoted, QuotedWord.emit, if_neg hbare]
      exact List.mem_singleton_self word
  | cons ch given ih =>
      rw [splitQuoted]
      by_cases hquote : ch = quote
      · rw [if_pos hquote]
        refine ih ?_
        simpa [QuotedWord.mark, withoutQuotes, hquote] using hlead
      · rw [if_neg hquote]
        have hnext : withoutQuotes quote (ch :: given) =
            ch :: withoutQuotes quote given :=
          List.filter_cons_of_pos (by simpa using hquote)
        rw [hnext] at hlead
        cases hends : !quoted && sep ch with
        | true =>
            -- `lead` is complete before the separator it does not hold
            have hout : ch ∉ lead := by
              intro hmem
              have hsep := (outside_of_ends hends).2
              rw [hsolid ch hmem] at hsep
              cases hsep
            have hword : lead <+: word.bare := by
              have hlater : word.bare ++ [ch] <+:
                  word.bare ++ ch :: withoutQuotes quote given := by
                simp
              rcases List.prefix_or_prefix_of_prefix hlead hlater with hle | hge
              · rcases List.prefix_concat_iff.mp hle with heq | hword
                · exact absurd (by simp [heq]) hout
                · exact hword
              · exact absurd (hge.subset (by simp)) hout
            have hbare : word.bare ≠ [] := fun hempty =>
              hsome (List.prefix_nil.mp (hempty ▸ hword))
            rw [if_pos rfl]
            refine ⟨word, List.mem_append_left _ ?_, hword⟩
            rw [QuotedWord.emit, if_neg hbare]
            exact List.mem_singleton_self word
        | false =>
            rw [if_neg Bool.false_ne_true]
            refine ih ?_
            simpa [QuotedWord.push] using hlead

/-- What the words hold of a text: all but its separators outside the
quotes. -/
theorem countP_splitQuoted (p : α → Bool) (hquote : p quote = false) :
    ((splitQuoted quote sep quoted word given).flatMap
        QuotedWord.bare).countP p +
      (outsideQuotes quote quoted given).countP (fun ch => p ch && sep ch) =
    word.bare.countP p + given.countP p := by
  induction given generalizing quoted word with
  | nil =>
      simp only [splitQuoted, QuotedWord.emit, outsideQuotes]
      split
      · rename_i hempty
        simp [hempty]
      · simp
  | cons ch given ih =>
      rw [splitQuoted, outsideQuotes]
      by_cases hhead : ch = quote
      · rw [if_pos hhead, if_pos hhead, ih, List.countP_cons_of_neg]
        · rfl
        · simp [hhead, hquote]
      · rw [if_neg hhead, if_neg hhead]
        cases quoted with
        | true =>
            rw [if_pos rfl]
            simp only [Bool.not_true, Bool.false_and, Bool.false_eq_true,
              ↓reduceIte]
            rw [ih]
            simp only [QuotedWord.push, List.countP_append, List.countP_cons,
              List.countP_nil]
            omega
        | false =>
            rw [if_neg Bool.false_ne_true, List.countP_cons, List.countP_cons]
            cases hsep : sep ch with
            | true =>
                have hrest := @ih false .empty
                simp only [QuotedWord.empty, List.countP_nil] at hrest
                simp only [Bool.not_false, Bool.and_self, ↓reduceIte,
                  List.flatMap_append, List.countP_append, Bool.and_true]
                have hword : (word.emit.flatMap QuotedWord.bare).countP p =
                    word.bare.countP p := by
                  unfold QuotedWord.emit
                  split
                  · rename_i hempty
                    rw [hempty]
                    rfl
                  · simp
                rw [hword]
                simp only [QuotedWord.empty]
                omega
            | false =>
                simp only [Bool.and_false, Bool.false_eq_true, ↓reduceIte,
                  Nat.add_zero]
                rw [ih]
                simp only [QuotedWord.push, List.countP_append,
                  List.countP_cons, List.countP_nil]
                omega

theorem countP_quotedWords (p : α → Bool) (hquote : p quote = false) :
    ((quotedWords quote sep given).flatMap QuotedWord.bare).countP p +
      (outsideQuotes quote false given).countP (fun ch => p ch && sep ch) =
    given.countP p := by
  have hcount := @countP_splitQuoted α _ quote sep false .empty given p hquote
  exact hcount.trans (Nat.zero_add _)

end Words

end Localmail
