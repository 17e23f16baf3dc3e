/-
`search/chunking.py`: how a message or an extracted text becomes the chunks
that are indexed, and when that raises.  The tokenizer is a parameter with what
is documented of it: `encode` refuses a text with a special-token literal and
accepts every other one.
-/
import Mathlib.Data.List.Infix
import Mathlib.Data.List.TakeWhile
import Localmail.StripText
import Localmail.SyncPass

namespace Localmail

/-! ### Python strings -/

/-- The characters `str.splitlines` splits at. -/
def CodePoint.isLineBoundary : CodePoint → Bool
  | .surrogate _ => false
  | .scalar char =>
      let code := char.toNat
      0x0A ≤ code && code ≤ 0x0D || 0x1C ≤ code && code ≤ 0x1E ||
        code = 0x85 || code = 0x2028 || code = 0x2029

/-- `str.splitlines`, with the line read so far and whether a carriage return
ended the one before. -/
def splitLinesFrom (line : Text) (afterReturn : Bool) : Text → List Text
  | [] => if line = [] then [] else [line]
  | char :: rest =>
      if afterReturn ∧ char = .scalar '\n' then splitLinesFrom line false rest
      else if char.isLineBoundary then
        line :: splitLinesFrom [] (char = .scalar '\r') rest
      else splitLinesFrom (line ++ [char]) false rest

def splitLines (text : Text) : List Text :=
  splitLinesFrom [] false text

/-- `re.sub("[ \t]+", " ", ...)`. -/
def collapseInline (inRun : Bool) : Text → Text
  | [] => []
  | char :: rest =>
      if char = .scalar ' ' ∨ char = .scalar '\t' then
        if inRun then collapseInline true rest
        else .scalar ' ' :: collapseInline true rest
      else char :: collapseInline false rest

/-- `re.sub` of three or more newlines by two; `run` counts the newlines
before. -/
def collapseBlankLines (run : Nat) : Text → Text
  | [] => []
  | char :: rest =>
      if char = .scalar '\n' then
        if run < 2 then .scalar '\n' :: collapseBlankLines (run + 1) rest
        else collapseBlankLines (run + 1) rest
      else char :: collapseBlankLines 0 rest

def join (separator : String) (parts : List Text) : Text :=
  (text separator).intercalate parts

/-! ### `chunking.py` -/

def normalizeWhitespace (text : Text) : Text :=
  let lines := (splitLines text).map fun line => strip (collapseInline false line)
  strip (collapseBlankLines 0 (join "\n" lines))

/-- `text_empty.is_blank`. -/
def isBlank (value : Text) : Bool :=
  value.isEmpty || value.all CodePoint.isSpace

/-- The special tokens of `cl100k_base`. -/
def specialTokens : List String :=
  ["<|endoftext|>", "<|fim_prefix|>", "<|fim_middle|>", "<|fim_suffix|>",
    "<|endofprompt|>"]

def HasSpecialToken (value : Text) : Prop :=
  ∃ token ∈ specialTokens, text token <:+: value

instance (value : Text) : Decidable (HasSpecialToken value) :=
  inferInstanceAs (Decidable (∃ token ∈ specialTokens, _))

inductive ValueError where
  | size
  | overlap
  | disallowedSpecialToken
deriving Repr, DecidableEq

/-- `tiktoken.Encoding`, called with its defaults.  A window of a text's tokens
decodes to that piece of the text, with replacement characters where it cuts
one, so to no special token the text does not have. -/
structure Encoding where
  Token : Type
  encode : Text → Except ValueError (List Token)
  decode : List Token → Text
  encode_special : ∀ text, HasSpecialToken text →
    encode text = .error .disallowedSpecialToken
  encode_total : ∀ text, ¬ HasSpecialToken text →
    ∃ tokens, encode text = .ok tokens
  decode_window : ∀ text tokens window, encode text = .ok tokens →
    window <:+: tokens → ¬ HasSpecialToken (decode window)

/-- The fields of `SearchConfig` the two chunking passes read. -/
structure ChunkingConfig where
  chunkSizeTokens : Int
  chunkOverlapTokens : Int
  chunkStripQuotedReplies : Bool
  chunkStripSignatures : Bool
  extractorMaxExtractedChars : Int
  embedWorkerBatchSize : Int
  embedWorkerChunkBatchSize : Int
  embedWorkerMaxChunkRetries : Int

inductive ChunkKind where
  | header
  | body
  | attachment
deriving Repr, DecidableEq

structure ChunkSpec where
  kind : ChunkKind
  chunkIdx : Nat
  text : Text
  tokenCount : Nat
deriving Repr, DecidableEq

/-- `chunking.MessageRow`; the date is in its ISO format. -/
structure MessageText where
  id : Nat
  subject : Option Text
  fromAddr : Option Text
  fromName : Option Text
  toAddrs : Option (List Text)
  dateSent : Option Text
  bodyText : Option Text
deriving Repr, DecidableEq

/-- `_HEADER_BODY_INTRO_TOKENS`. -/
def headerBodyIntroTokens : Nat := 200

section Chunking

variable (enc : Encoding)

/-- The windows of the loop of `split_by_tokens`; the fuel bounds their
number. -/
def windowsFuel (size step : Nat) : Nat → List enc.Token → List (List enc.Token)
  | 0, _ => []
  | fuel + 1, tokens =>
      tokens.take size ::
        if tokens.length ≤ size then []
        else windowsFuel size step fuel (tokens.drop step)

def splitByTokens (text : Text) (size overlap : Int) :
    Except ValueError (List Text) :=
  if size ≤ 0 then .error .size
  else if overlap < 0 ∨ size ≤ overlap then .error .overlap
  else
    match enc.encode text with
    | .error error => .error error
    | .ok tokens =>
        if tokens.length ≤ size then .ok (if text = [] then [] else [text])
        else
          .ok ((windowsFuel enc size.toNat (size - overlap).toNat tokens.length
            tokens).map enc.decode)

/-- One `ChunkSpec` a piece, numbered from `idx`. -/
def pieceSpecs (kind : ChunkKind) (idx : Nat) :
    List Text → Except ValueError (List ChunkSpec)
  | [] => .ok []
  | piece :: rest =>
      match enc.encode piece with
      | .error error => .error error
      | .ok tokens =>
          match pieceSpecs kind (idx + 1) rest with
          | .error error => .error error
          | .ok specs => .ok (⟨kind, idx, piece, tokens.length⟩ :: specs)

/-- A truthy string. -/
def given (text : Option Text) : Option Text :=
  text.filter fun value => value ≠ []

/-- The parts of the header chunk; an absent address prints as `None` beside a
name. -/
def headerParts (message : MessageText) (intro : List enc.Token) : List Text :=
  ((given message.subject).map fun subject =>
      text "Subject: " ++ subject).toList ++
    (match given message.fromName, given message.fromAddr with
      | some name, _ =>
          [text "From: " ++ strip (name ++ text " <" ++
            message.fromAddr.getD (text "None") ++ text ">")]
      | none, some addr => [text "From: " ++ strip addr]
      | none, none => []) ++
    (match message.toAddrs with
      | some (addr :: rest) => [text "To: " ++ join ", " (addr :: rest)]
      | some [] | none => []) ++
    (message.dateSent.map fun date => text "Date: " ++ date).toList ++
    (if intro.isEmpty then [] else [enc.decode intro])

/-- The text of the header chunk, given the tokens of the body. -/
def headerLine (message : MessageText) (tokens : List enc.Token) : Text :=
  join " | " (headerParts enc message (tokens.take headerBodyIntroTokens))

/-- `_header_text`. -/
def headerText (message : MessageText) (body : Text) :
    Except ValueError Text :=
  match enc.encode body with
  | .error error => .error error
  | .ok tokens => .ok (headerLine enc message tokens)

/-- The text `chunk_attachment_text` splits: normalized, and cut to the
configured length. -/
def attachmentBody (cfg : ChunkingConfig) (value : Text) : Text :=
  let normalized := normalizeWhitespace value
  if cfg.extractorMaxExtractedChars < normalized.length then
    sliceTo normalized cfg.extractorMaxExtractedChars ++
      text "\n[truncated]"
  else normalized

def chunkAttachmentText (cfg : ChunkingConfig) (text : Text) :
    Except ValueError (List ChunkSpec) :=
  if normalizeWhitespace text = [] then .ok []
  else
    match splitByTokens enc (attachmentBody cfg text) cfg.chunkSizeTokens
        cfg.chunkOverlapTokens with
    | .error error => .error error
    | .ok pieces => pieceSpecs enc .attachment 0 pieces

variable (stripQuotedReplies stripSignature : Text → Text)

/-- The body `chunk_message` works on.  What `strip_quoted_replies` and
`strip_signature` remove does not matter here. -/
def cleanBody (cfg : ChunkingConfig) (message : MessageText) : Text :=
  let raw := message.bodyText.getD []
  let unquoted := if cfg.chunkStripQuotedReplies then stripQuotedReplies raw
    else raw
  normalizeWhitespace
    (if cfg.chunkStripSignatures then stripSignature unquoted else unquoted)

def chunkMessage (cfg : ChunkingConfig) (message : MessageText) :
    Except ValueError (List ChunkSpec) :=
  let body := cleanBody stripQuotedReplies stripSignature cfg message
  match headerText enc message body with
  | .error error => .error error
  | .ok header =>
      match enc.encode header,
          if body = [] then .ok [] else enc.encode body with
      | .error error, _ => .error error
      | .ok _, .error error => .error error
      | .ok headerTokens, .ok bodyTokens =>
          let headerSpec : ChunkSpec :=
            ⟨.header, 0, header, headerTokens.length⟩
          if bodyTokens.length ≤ headerBodyIntroTokens then .ok [headerSpec]
          else
            match splitByTokens enc
                (enc.decode (bodyTokens.drop headerBodyIntroTokens))
                cfg.chunkSizeTokens cfg.chunkOverlapTokens with
            | .error error => .error error
            | .ok pieces =>
                match pieceSpecs enc .body 0 pieces with
                | .error error => .error error
                | .ok specs => .ok (headerSpec :: specs)

end Chunking

/-! ### What normalizing keeps -/

section Solid

variable {char : CodePoint} (hsolid : char.isSpace = false)

include hsolid

theorem mem_collapseInline_iff {inRun : Bool} {text : Text} :
    char ∈ collapseInline inRun text ↔ char ∈ text := by
  have hblank : char ≠ .scalar ' ' ∧ char ≠ .scalar '\t' := by
    constructor <;> rintro rfl <;> exact absurd hsolid (by decide)
  induction text generalizing inRun with
  | nil => simp [collapseInline]
  | cons head rest ih =>
      simp only [collapseInline]
      split
      · rename_i hhead
        have hne : char ≠ head := by
          rintro rfl
          rcases hhead with h | h
          · exact hblank.1 h
          · exact hblank.2 h
        split
        · simp [ih, hne]
        · simp [ih, hne, hblank.1]
      · simp [ih]

theorem mem_collapseBlankLines_iff {run : Nat} {text : Text} :
    char ∈ collapseBlankLines run text ↔ char ∈ text := by
  have hnewline : char ≠ .scalar '\n' := by
    rintro rfl
    exact absurd hsolid (by decide)
  induction text generalizing run with
  | nil => simp [collapseBlankLines]
  | cons head rest ih =>
      simp only [collapseBlankLines]
      split
      · rename_i hhead
        split
        · simp [ih, hhead, hnewline]
        · simp [ih, hhead, hnewline]
      · simp [ih]

theorem mem_join_iff {lines : List Text} :
    char ∈ join "\n" lines ↔ ∃ line ∈ lines, char ∈ line := by
  have hnewline : char ≠ .scalar '\n' := by
    rintro rfl
    exact absurd hsolid (by decide)
  induction lines with
  | nil => simp [join]
  | cons line rest ih =>
      cases rest with
      | nil => simp [join]
      | cons second rest =>
          have hrest : char ∈ join "\n" (line :: second :: rest) ↔
              char ∈ line ∨ char ∈ join "\n" (second :: rest) := by
            simp [join, text, List.intercalate_cons_cons, hnewline]
          exact hrest.trans ((or_congr Iff.rfl ih).trans (by simp))

theorem not_lineBoundary : char.isLineBoundary = false := by
  cases char with
  | surrogate offset => rfl
  | scalar char =>
      by_contra hboundary
      simp only [Bool.not_eq_false] at hboundary
      simp only [CodePoint.isLineBoundary, CodePoint.isSpace, Bool.or_eq_true,
        Bool.and_eq_true, decide_eq_true_eq, Bool.or_eq_false_iff,
        Bool.and_eq_false_iff, decide_eq_false_iff_not] at hboundary hsolid
      omega

theorem mem_splitLinesFrom_iff {line text : Text} {afterReturn : Bool} :
    (∃ out ∈ splitLinesFrom line afterReturn text, char ∈ out) ↔
      char ∈ line ∨ char ∈ text := by
  have hnot := not_lineBoundary hsolid
  have hnewline : char ≠ .scalar '\n' := by
    rintro rfl
    exact absurd hsolid (by decide)
  induction text generalizing line afterReturn with
  | nil =>
      simp only [splitLinesFrom]
      split
      · rename_i hline
        simp [hline]
      · simp
  | cons head rest ih =>
      simp only [splitLinesFrom]
      split
      · rename_i hskip
        simp [ih, hskip.2, hnewline]
      · split
        · rename_i hboundary
          have hne : char ≠ head := by
            rintro rfl
            rw [hnot] at hboundary
            cases hboundary
          simp [ih, hne]
        · simp [ih, or_assoc]

theorem mem_normalizeWhitespace_iff {text : Text} :
    char ∈ normalizeWhitespace text ↔ char ∈ text := by
  simp only [normalizeWhitespace, mem_strip_iff hsolid,
    mem_collapseBlankLines_iff hsolid, mem_join_iff hsolid, List.mem_map,
    exists_exists_and_eq_and, mem_collapseInline_iff hsolid, splitLines]
  rw [mem_splitLinesFrom_iff hsolid]
  simp

end Solid

/-- The blank-text rule agrees with the chunker. -/
theorem normalizeWhitespace_eq_nil_iff (text : Text) :
    normalizeWhitespace text = [] ↔ isBlank text = true := by
  have hblank : isBlank text = true ↔ ∀ char ∈ text, char.isSpace = true := by
    cases text with
    | nil => simp [isBlank]
    | cons head rest => simp [isBlank]
  rw [hblank]
  constructor
  · intro hnil char hchar
    by_contra hsolid
    simp only [Bool.not_eq_true] at hsolid
    have hmem := (mem_normalizeWhitespace_iff hsolid).mpr hchar
    rw [hnil] at hmem
    cases hmem
  · intro hspaces
    apply strip_eq_nil_iff.mpr
    intro char hchar
    by_contra hsolid
    simp only [Bool.not_eq_true] at hsolid
    have hkept : char ∈ strip (collapseBlankLines 0 (join "\n"
        ((splitLines text).map fun line =>
          strip (collapseInline false line)))) :=
      (mem_strip_iff hsolid).mpr hchar
    have hmem := (mem_normalizeWhitespace_iff hsolid).mp hkept
    rw [hspaces char hmem] at hsolid
    cases hsolid

/-! ### When chunking raises -/

section Raises

variable {enc : Encoding}

theorem Encoding.encode_ok_iff (enc : Encoding) (text : Text) :
    (∃ tokens, enc.encode text = .ok tokens) ↔ ¬ HasSpecialToken text := by
  constructor
  · rintro ⟨tokens, htokens⟩ hspecial
    rw [enc.encode_special text hspecial] at htokens
    cases htokens
  · exact enc.encode_total text

theorem windowsFuel_within {size step fuel : Nat} {tokens window : List enc.Token}
    (hwindow : window ∈ windowsFuel enc size step fuel tokens) :
    window <:+: tokens := by
  induction fuel generalizing tokens with
  | zero => cases hwindow
  | succ fuel ih =>
      simp only [windowsFuel, List.mem_cons] at hwindow
      rcases hwindow with rfl | hlater
      · exact (List.take_prefix _ _).isInfix
      · split at hlater
        · cases hlater
        · exact (ih hlater).trans (List.drop_suffix _ _).isInfix

/-- The configured windows are windows at all. -/
def ChunkingConfig.WindowsOk (cfg : ChunkingConfig) : Prop :=
  0 < cfg.chunkSizeTokens ∧ 0 ≤ cfg.chunkOverlapTokens ∧
    cfg.chunkOverlapTokens < cfg.chunkSizeTokens

/-- What `split_by_tokens` returns: pieces without special tokens, and one at
least of a text that is not empty. -/
theorem splitByTokens_ok {cfg : ChunkingConfig} {text : Text} {pieces : List Text}
    (h : splitByTokens enc text cfg.chunkSizeTokens cfg.chunkOverlapTokens =
      .ok pieces) :
    cfg.WindowsOk ∧ ¬ HasSpecialToken text ∧
      (∀ piece ∈ pieces, ¬ HasSpecialToken piece) ∧
      (text ≠ [] → pieces ≠ []) := by
  unfold splitByTokens at h
  split at h
  · cases h
  · rename_i hsize
    split at h
    · cases h
    · rename_i hoverlap
      split at h
      · cases h
      · rename_i tokens htokens
        have htext : ¬ HasSpecialToken text :=
          (enc.encode_ok_iff text).mp ⟨tokens, htokens⟩
        refine ⟨by unfold ChunkingConfig.WindowsOk; omega, htext, ?_⟩
        split at h
        · cases h
          split
          · rename_i hnil
            exact ⟨nofun, fun hne => absurd hnil hne⟩
          · refine ⟨?_, fun _ => List.cons_ne_nil _ _⟩
            intro piece hpiece
            rw [List.mem_singleton.mp hpiece]
            exact htext
        · rename_i hlong
          cases h
          refine ⟨?_, fun _ => ?_⟩
          · intro piece hpiece
            obtain ⟨window, hwindow, rfl⟩ := List.mem_map.mp hpiece
            exact enc.decode_window text tokens window htokens
              (windowsFuel_within hwindow)
          · obtain ⟨fuel, hfuel⟩ : ∃ fuel, tokens.length = fuel + 1 :=
              ⟨tokens.length - 1, by omega⟩
            simp [hfuel, windowsFuel]

theorem splitByTokens_total (enc : Encoding) {cfg : ChunkingConfig} (hwindows : cfg.WindowsOk)
    {text : Text} (htext : ¬ HasSpecialToken text) :
    ∃ pieces, splitByTokens enc text cfg.chunkSizeTokens
      cfg.chunkOverlapTokens = .ok pieces := by
  obtain ⟨tokens, htokens⟩ := enc.encode_total text htext
  obtain ⟨hsize, hoverlap, hlt⟩ := hwindows
  have hsize' : ¬ cfg.chunkSizeTokens ≤ 0 := by omega
  have hoverlap' : ¬ (cfg.chunkOverlapTokens < 0 ∨
      cfg.chunkSizeTokens ≤ cfg.chunkOverlapTokens) := by omega
  simp only [splitByTokens, hsize', hoverlap', htokens, ↓reduceIte]
  split
  · exact ⟨_, rfl⟩
  · exact ⟨_, rfl⟩

theorem pieceSpecs_total {pieces : List Text}
    (hpieces : ∀ piece ∈ pieces, ¬ HasSpecialToken piece) (kind : ChunkKind)
    (idx : Nat) : ∃ specs, pieceSpecs enc kind idx pieces = .ok specs := by
  induction pieces generalizing idx with
  | nil => exact ⟨[], rfl⟩
  | cons piece rest ih =>
      obtain ⟨tokens, htokens⟩ :=
        enc.encode_total piece (hpieces piece List.mem_cons_self)
      obtain ⟨specs, hspecs⟩ :=
        ih (fun other h => hpieces other (List.mem_cons_of_mem _ h)) (idx + 1)
      exact ⟨⟨kind, idx, piece, tokens.length⟩ :: specs,
        by simp only [pieceSpecs, htokens, hspecs]⟩

/-- The specs are numbered upwards, one for each piece. -/
theorem pieceSpecs_ok {pieces : List Text} {kind : ChunkKind} {idx : Nat}
    {specs : List ChunkSpec} (h : pieceSpecs enc kind idx pieces = .ok specs) :
    specs.length = pieces.length ∧
      (∀ spec ∈ specs, spec.kind = kind ∧ idx ≤ spec.chunkIdx) ∧
      specs.Pairwise fun spec later => spec.chunkIdx < later.chunkIdx := by
  induction pieces generalizing idx specs with
  | nil =>
      cases h
      exact ⟨rfl, nofun, .nil⟩
  | cons piece rest ih =>
      simp only [pieceSpecs] at h
      split at h
      · cases h
      · split at h
        · cases h
        · rename_i later hlater
          cases h
          obtain ⟨hlength, hkinds, hsorted⟩ := ih hlater
          refine ⟨by simp [hlength], ?_, List.pairwise_cons.mpr ⟨?_, hsorted⟩⟩
          · intro spec hspec
            rcases List.mem_cons.mp hspec with rfl | hrest
            · exact ⟨rfl, le_rfl⟩
            · exact ⟨(hkinds spec hrest).1, by have := (hkinds spec hrest).2; omega⟩
          · intro spec hspec
            have := (hkinds spec hspec).2
            dsimp only
            omega

theorem attachmentBody_ne_nil {cfg : ChunkingConfig} {text : Text}
    (hsolid : normalizeWhitespace text ≠ []) : attachmentBody cfg text ≠ [] := by
  simp only [attachmentBody]
  split
  · exact List.append_ne_nil_of_right_ne_nil _ (by decide)
  · exact hsolid

/-- An extracted text can be chunked: its windows make sense and the tokenizer
takes it. -/
structure AttachmentChunks (cfg : ChunkingConfig) (text : Text) : Prop where
  windows : cfg.WindowsOk
  body : ¬ HasSpecialToken (attachmentBody cfg text)

/-- A text that is not blank is chunked into something, or not at all. -/
theorem chunkAttachmentText_ok_iff {cfg : ChunkingConfig} {text : Text}
    (hsolid : isBlank text = false) :
    (∃ specs, chunkAttachmentText enc cfg text = .ok specs) ↔
      AttachmentChunks cfg text := by
  have hne : normalizeWhitespace text ≠ [] := by
    intro hnil
    rw [(normalizeWhitespace_eq_nil_iff text).mp hnil] at hsolid
    cases hsolid
  simp only [chunkAttachmentText, hne, ↓reduceIte]
  constructor
  · rintro ⟨specs, hspecs⟩
    split at hspecs
    · cases hspecs
    · rename_i pieces hpieces
      obtain ⟨hwindows, hbody, -, -⟩ := splitByTokens_ok hpieces
      exact ⟨hwindows, hbody⟩
  · intro hchunks
    obtain ⟨pieces, hpieces⟩ := splitByTokens_total enc hchunks.windows
      hchunks.body
    obtain ⟨-, -, hclean, -⟩ := splitByTokens_ok hpieces
    rw [hpieces]
    exact pieceSpecs_total hclean .attachment 0

/-- What the chunks of a text look like. -/
theorem chunkAttachmentText_specs {cfg : ChunkingConfig} {text : Text}
    {specs : List ChunkSpec}
    (h : chunkAttachmentText enc cfg text = .ok specs) :
    (isBlank text = false → specs ≠ []) ∧
      (isBlank text = true → specs = []) ∧
      specs.Pairwise fun spec later => spec.chunkIdx < later.chunkIdx := by
  unfold chunkAttachmentText at h
  split at h
  · rename_i hnil
    cases h
    have hblank := (normalizeWhitespace_eq_nil_iff text).mp hnil
    exact ⟨fun hsolid => by simp [hblank] at hsolid, fun _ => rfl, .nil⟩
  · rename_i hne
    split at h
    · cases h
    · rename_i pieces hpieces
      obtain ⟨-, -, -, hsome⟩ := splitByTokens_ok hpieces
      obtain ⟨hlength, -, hsorted⟩ := pieceSpecs_ok h
      refine ⟨fun _ hnil => ?_, fun hblank => ?_, hsorted⟩
      · apply hsome (attachmentBody_ne_nil hne)
        rw [hnil] at hlength
        exact List.length_eq_zero_iff.mp hlength.symm
      · exact absurd ((normalizeWhitespace_eq_nil_iff text).mpr hblank) hne

variable {stripQuotedReplies stripSignature : Text → Text}

/-- The tokens of a text, none of one the tokenizer refuses. -/
def Encoding.tokens (enc : Encoding) (text : Text) : List enc.Token :=
  match enc.encode text with
  | .ok tokens => tokens
  | .error _ => []

/-- A message can be chunked: the tokenizer takes its body and its header
line, and where the body is long the windows make sense. -/
structure MessageChunks (enc : Encoding)
    (stripQuotedReplies stripSignature : Text → Text) (cfg : ChunkingConfig)
    (message : MessageText) : Prop where
  body : ¬ HasSpecialToken
    (cleanBody stripQuotedReplies stripSignature cfg message)
  header : ¬ HasSpecialToken (headerLine enc message
    (enc.tokens (cleanBody stripQuotedReplies stripSignature cfg message)))
  windows : cleanBody stripQuotedReplies stripSignature cfg message = [] ∨
    (enc.tokens (cleanBody stripQuotedReplies stripSignature cfg
      message)).length ≤ headerBodyIntroTokens ∨ cfg.WindowsOk

theorem chunkMessage_ok_iff {cfg : ChunkingConfig} {message : MessageText} :
    (∃ specs, chunkMessage enc stripQuotedReplies stripSignature cfg message =
        .ok specs) ↔
      MessageChunks enc stripQuotedReplies stripSignature cfg message := by
  constructor
  · rintro ⟨specs, h⟩
    simp only [chunkMessage, headerText] at h
    split at h
    · cases h
    · rename_i header hheader
      split at hheader
      · cases hheader
      · rename_i tokens htokens
        cases hheader
        have hsame : enc.tokens (cleanBody stripQuotedReplies stripSignature cfg
            message) = tokens := by
          simp only [Encoding.tokens, htokens]
        have hbody := (enc.encode_ok_iff _).mp ⟨tokens, htokens⟩
        split at h
        · cases h
        · cases h
        · rename_i headerTokens bodyTokens hheaderTokens hbodyTokens
          have hheader := (enc.encode_ok_iff _).mp ⟨_, hheaderTokens⟩
          refine ⟨hbody, hsame ▸ hheader, ?_⟩
          by_cases hempty : cleanBody stripQuotedReplies stripSignature cfg
              message = []
          · exact .inl hempty
          · rw [if_neg hempty, htokens] at hbodyTokens
            cases hbodyTokens
            refine .inr ?_
            rw [hsame]
            split at h
            · rename_i hshort
              exact .inl hshort
            · split at h
              · cases h
              · rename_i pieces hpieces
                exact .inr (splitByTokens_ok hpieces).1
  · intro hchunks
    obtain ⟨tokens, htokens⟩ := enc.encode_total _ hchunks.body
    have hsame : enc.tokens (cleanBody stripQuotedReplies stripSignature cfg
        message) = tokens := by
      simp only [Encoding.tokens, htokens]
    obtain ⟨headerTokens, hheaderTokens⟩ :=
      enc.encode_total _ (hsame ▸ hchunks.header)
    have hwindows := hchunks.windows
    rw [hsame] at hwindows
    simp only [chunkMessage, headerText, htokens, hheaderTokens]
    split
    · rename_i herror
      cases herror
    · rename_i herror
      split at herror <;> cases herror
    · rename_i headerTokens' bodyTokens hheader hbody
      split
      · exact ⟨_, rfl⟩
      · rename_i hlong
        have hlongBody : cfg.WindowsOk ∧ bodyTokens = tokens := by
          split at hbody
          · cases hbody
            exact absurd (Nat.zero_le _) hlong
          · rename_i hne
            cases hbody
            exact ⟨(hwindows.resolve_left hne).resolve_left hlong, rfl⟩
        obtain ⟨hok, rfl⟩ := hlongBody
        have hremainder := enc.decode_window _ _
          (bodyTokens.drop headerBodyIntroTokens) htokens
          (List.drop_suffix _ _).isInfix
        obtain ⟨pieces, hpieces⟩ := splitByTokens_total enc hok hremainder
        obtain ⟨-, -, hclean, -⟩ := splitByTokens_ok hpieces
        obtain ⟨specs, hspecs⟩ := pieceSpecs_total hclean .body 0
        rw [hpieces]
        dsimp only
        rw [hspecs]
        exact ⟨_, rfl⟩

/-- A chunked message has its header chunk first. -/
theorem chunkMessage_header {cfg : ChunkingConfig} {message : MessageText}
    {specs : List ChunkSpec}
    (h : chunkMessage enc stripQuotedReplies stripSignature cfg message =
      .ok specs) :
    ∃ header rest, specs = header :: rest ∧ header.kind = .header := by
  simp only [chunkMessage] at h
  split at h
  · cases h
  · split at h
    · cases h
    · cases h
    · split at h
      · cases h
        exact ⟨_, _, rfl, rfl⟩
      · split at h
        · cases h
        · split at h
          · cases h
          · cases h
            exact ⟨_, _, rfl, rfl⟩

end Raises

end Localmail
