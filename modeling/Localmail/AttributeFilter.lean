/-
The URLs that the HTML attribute filter leaves in a message.  A browser takes
TAB, LF and CR out of a URL wherever they stand, where the filter only trims its
front; and a pattern's `$` and its case folding reach past the ASCII text that
it spells.
-/
import Localmail.AsciiText
import Localmail.StripText

namespace Localmail

/-! ### The filter -/

/-- `[\x00-\x20]`. -/
def CodePoint.isControlOrSpace : CodePoint → Bool
  | .surrogate _ => false
  | .scalar char => char.toNat ≤ 0x20

/-- `_LEADING_URL_TRIM_RE.sub("", value)`. -/
def leadingUrlTrim (value : Text) : Text :=
  value.dropWhile CodePoint.isControlOrSpace

def hrefDenySchemes : List Text :=
  [text "cid:", text "data:"]

/-- `value.lower().startswith(heads)`; `str.lower` makes no other character one
of the heads' letters. -/
def StartsWithAny (heads : List Text) (value : Text) : Prop :=
  ∃ head ∈ heads, head <+: lowerAscii value

instance (heads : List Text) (value : Text) :
    Decidable (StartsWithAny heads value) :=
  inferInstanceAs (Decidable (∃ head ∈ heads, head <+: lowerAscii value))

def CodePoint.isAngle (char : CodePoint) : Bool :=
  char = .scalar '<' || char = .scalar '>'

/-- `value.strip("<>")`. -/
def stripAngles (value : Text) : Text :=
  ((value.dropWhile CodePoint.isAngle).reverse.dropWhile
    CodePoint.isAngle).reverse

/-- The letters outside ASCII that `re.IGNORECASE` takes for one in it. -/
def caseFolds : List (CodePoint × CodePoint) :=
  [(.scalar '\u0130', .scalar 'i'), (.scalar '\u0131', .scalar 'i'),
    (.scalar '\u017F', .scalar 's'), (.scalar '\u212A', .scalar 'k')]

/-- What a character is to a pattern under `re.IGNORECASE`. -/
def CodePoint.ignoreCase (char : CodePoint) : CodePoint :=
  (caseFolds.lookup char).getD char.lowerAscii

/-- What follows `head`, spelled in any case. -/
def afterHead (head value : Text) : Option Text :=
  if (value.take head.length).map CodePoint.ignoreCase = head then
    some (value.drop head.length)
  else none

/-- What `$` leaves to match: it also holds before a newline at the end. -/
def beforeFinalNewline (value : Text) : Text :=
  if value.getLast? = some (.scalar '\n') then value.dropLast else value

/-- The group of `_CID_RE`. -/
def cidMatch (value : Text) : Option Text :=
  (afterHead (text "cid:") value).bind fun rest =>
    let group := beforeFinalNewline rest
    if group ≠ [] ∧ .scalar '\n' ∉ group then some group else none

/-- `[A-Za-z0-9+/=]`. -/
def CodePoint.isBase64 : CodePoint → Bool
  | .surrogate _ => false
  | .scalar char => char.isAlphanum || char = '+' || char = '/' || char = '='

def imageKinds : List Text :=
  [text "png", text "jpeg", text "gif", text "webp"]

def dataImageHead (kind : Text) : Text :=
  text "data:image/" ++ kind ++ text ";base64,"

/-- `_DATA_IMAGE_RE.match(value)`. -/
def dataImageMatch (value : Text) : Bool :=
  imageKinds.any fun kind =>
    (afterHead (dataImageHead kind) value).any fun rest =>
      (beforeFinalNewline rest).all fun char => char.ignoreCase.isBase64

def externalSchemes : List Text :=
  [text "https://", text "http://"]

/-- `_rewrite_img_src`; `cidToSha` is the lookup in `cid_to_sha`. -/
def rewriteImgSrc (cidToSha : Text → Option Text) (allowExternalImages : Bool)
    (value : Text) : Option Text :=
  match cidMatch (stripAngles value) with
  | some group =>
      (cidToSha (stripAngles group)).map fun sha =>
        text "/v1/attachments/" ++ sha
  | none =>
      if dataImageMatch value then some value
      else if allowExternalImages ∧
          StartsWithAny externalSchemes (leadingUrlTrim value) then
        some (leadingUrlTrim value)
      else none

/-- The filter of `_make_attribute_filter`. -/
def attributeFilter (cidToSha : Text → Option Text)
    (allowExternalImages : Bool) (tag attr value : Text) : Option Text :=
  if tag = text "img" ∧ attr = text "src" then
    rewriteImgSrc cidToSha allowExternalImages value
  else if attr = text "href" ∧
      StartsWithAny hrefDenySchemes (leadingUrlTrim value) then none
  else some value

/-! ### What a browser makes of a URL -/

def CodePoint.isTabOrNewline (char : CodePoint) : Bool :=
  char = .scalar '\t' || char = .scalar '\n' || char = .scalar '\r'

/-- The input of the URL parser: without the C0 controls and spaces around it,
and without any TAB, LF and CR. -/
def normaliseUrl (value : Text) : Text :=
  ((leadingUrlTrim value).reverse.dropWhile
    CodePoint.isControlOrSpace).reverse.filter fun char => !char.isTabOrNewline

def CodePoint.isSchemeChar : CodePoint → Bool
  | .surrogate _ => false
  | .scalar char => char.isAlphanum || char = '+' || char = '-' || char = '.'

def CodePoint.isLetter : CodePoint → Bool
  | .surrogate _ => false
  | .scalar char => char.isAlpha

/-- The scheme of a URL: letters, digits, `+`, `-` and `.` up to a colon, the
first a letter.  It is compared in lower case. -/
def urlScheme (url : Text) : Option Text :=
  let scheme := url.takeWhile CodePoint.isSchemeChar
  if url.head?.any CodePoint.isLetter ∧
      (url.dropWhile CodePoint.isSchemeChar).head? = some (.scalar ':') then
    some (lowerAscii scheme)
  else none

def dangerousSchemes : List Text :=
  [text "cid", text "data"]

/-- A link that a browser follows to neither `cid:` nor `data:`. -/
def SafeHref (value : Text) : Prop :=
  ∀ scheme ∈ urlScheme (normaliseUrl value), scheme ∉ dangerousSchemes

/-- All of the value is the head of an inline image, in any ASCII case, and
base64 characters. -/
def IsDataImage (value : Text) : Prop :=
  ∃ kind ∈ imageKinds, ∃ head body, value = head ++ body ∧
    lowerAscii head = dataImageHead kind ∧ ∀ char ∈ body, char.isBase64 = true

/-- A source that is an attachment of the message, an inline image or, where
these are allowed, an absolute URL. -/
def SafeSrc (cidToSha : Text → Option Text) (allowExternalImages : Bool)
    (src : Text) : Prop :=
  (∃ cid sha, cidToSha cid = some sha ∧ src = text "/v1/attachments/" ++ sha) ∨
    IsDataImage src ∨
    allowExternalImages = true ∧ StartsWithAny externalSchemes src

/-- The filter leaves no dangerous URL in this attribute. -/
def LeavesSafe (cidToSha : Text → Option Text) (allowExternalImages : Bool)
    (tag attr value : Text) : Prop :=
  ∀ kept ∈ attributeFilter cidToSha allowExternalImages tag attr value,
    (tag = text "img" ∧ attr = text "src" →
      SafeSrc cidToSha allowExternalImages kept) ∧
    (¬(tag = text "img" ∧ attr = text "src") → attr = text "href" →
      SafeHref kept)

/-! ### Where the filter falls short -/

/-- The letters before the first colon. -/
def beforeColon (value : Text) : Text :=
  value.takeWhile (· ≠ .scalar ':')

/-- No TAB, LF or CR stands inside a scheme that spells a dangerous one. -/
def SchemeUnbroken (value : Text) : Prop :=
  let url := leadingUrlTrim value
  .scalar ':' ∈ url →
    lowerAscii ((beforeColon url).filter fun char => !char.isTabOrNewline) ∈
      dangerousSchemes →
    ∀ char ∈ beforeColon url, char.isTabOrNewline = false

/-- An inline image is spelled in ASCII and has no newline. -/
def ImagePlain (value : Text) : Prop :=
  dataImageMatch value = true → ∀ char ∈ value,
    char ≠ .scalar '\n' ∧ char ∉ caseFolds.map Prod.fst

def AttributePlain (tag attr value : Text) : Prop :=
  (tag = text "img" ∧ attr = text "src" → ImagePlain value) ∧
    (¬(tag = text "img" ∧ attr = text "src") → attr = text "href" →
      SchemeUnbroken value)

/-! ### The scheme of a link -/

/-- A text has a head that ends in its only colon just when the head is spelled
before the first colon. -/
theorem colonHead_iff {name : Text} (hname : .scalar ':' ∉ name) (value : Text) :
    name ++ text ":" <+: lowerAscii value ↔
      .scalar ':' ∈ value ∧ lowerAscii (beforeColon value) = name := by
  induction value generalizing name with
  | nil => simp [lowerAscii, text]
  | cons char rest ih =>
      have hcolon := lowerAscii_eq_iff ':' (by decide) char
      by_cases hchar : char = .scalar ':'
      · subst hchar
        have hlower : (CodePoint.scalar ':').lowerAscii = .scalar ':' := rfl
        cases name with
        | nil => simp [lowerAscii, beforeColon, text, hlower]
        | cons first name =>
            have hfirst : first ≠ .scalar ':' := by
              rintro rfl
              exact hname List.mem_cons_self
            simp [lowerAscii, beforeColon, hlower, hfirst]
      · have hlower : CodePoint.scalar ':' ≠ char.lowerAscii :=
          fun hsame => hchar (hcolon.mp hsame.symm)
        cases name with
        | nil => simp [lowerAscii, beforeColon, hchar, text, hlower]
        | cons first name =>
            have hrest := ih (fun hmem => hname (List.mem_cons_of_mem _ hmem))
            simp only [lowerAscii, beforeColon] at hrest
            simp only [lowerAscii, beforeColon, List.cons_append, List.map_cons,
              List.cons_prefix_cons, hrest, List.mem_cons,
              Ne.symm hchar, false_or, ne_eq, hchar, not_false_eq_true,
              decide_true, List.takeWhile_cons_of_pos, List.cons.injEq]
            constructor
            · rintro ⟨rfl, hmem, hspelled⟩
              exact ⟨hmem, rfl, hspelled⟩
            · rintro ⟨hmem, rfl, hspelled⟩
              exact ⟨rfl, hmem, hspelled⟩

theorem colon_not_mem_of_dangerous {name : Text}
    (hname : name ∈ dangerousSchemes) : .scalar ':' ∉ name := by
  revert name
  decide

/-- The filter denies what is spelled before the first colon. -/
theorem startsWithAny_deny_iff (value : Text) :
    StartsWithAny hrefDenySchemes value ↔
      .scalar ':' ∈ value ∧ lowerAscii (beforeColon value) ∈ dangerousSchemes := by
  have hheads : hrefDenySchemes = dangerousSchemes.map (· ++ text ":") := rfl
  rw [StartsWithAny, hheads]
  constructor
  · rintro ⟨head, hhead, hstarts⟩
    obtain ⟨name, hname, rfl⟩ := List.mem_map.mp hhead
    obtain ⟨hcolon, rfl⟩ :=
      (colonHead_iff (colon_not_mem_of_dangerous hname) value).mp hstarts
    exact ⟨hcolon, hname⟩
  · rintro ⟨hcolon, hname⟩
    exact ⟨_, List.mem_map_of_mem hname,
      (colonHead_iff (colon_not_mem_of_dangerous hname) value).mpr
        ⟨hcolon, rfl⟩⟩

theorem colon_not_mem_beforeColon (value : Text) :
    .scalar ':' ∉ beforeColon value := by
  intro hmem
  simpa using List.all_eq_true.mp List.all_takeWhile _ hmem

theorem eq_beforeColon_append {value : Text} (hcolon : .scalar ':' ∈ value) :
    ∃ rest, value = beforeColon value ++ .scalar ':' :: rest := by
  induction value with
  | nil => cases hcolon
  | cons char rest ih =>
      by_cases hchar : char = .scalar ':'
      · exact ⟨rest, by simp [beforeColon, hchar]⟩
      · obtain ⟨tail, htail⟩ := ih
          ((List.mem_cons.mp hcolon).resolve_left (Ne.symm hchar))
        refine ⟨tail, ?_⟩
        rw [beforeColon] at htail
        simpa [beforeColon, hchar] using htail

theorem beforeColon_append {left right : Text} (hleft : .scalar ':' ∉ left) :
    beforeColon (left ++ .scalar ':' :: right) = left := by
  apply takeWhile_of_stop
  · intro char hchar
    refine decide_eq_true ?_
    rintro rfl
    exact hleft hchar
  · rfl

theorem isLetter_lowerAscii (char : CodePoint) :
    char.lowerAscii.isLetter = char.isLetter := by
  cases char with
  | surrogate offset => rfl
  | scalar char => exact isAlpha_toLower char

theorem isSchemeChar_of_isLetter {char : CodePoint}
    (hletter : char.isLetter = true) : char.isSchemeChar = true := by
  cases char with
  | surrogate offset => cases hletter
  | scalar char =>
      rw [CodePoint.isLetter] at hletter
      simp [CodePoint.isSchemeChar, Char.isAlphanum, hletter]

theorem letters_of_dangerous {name : Text} (hname : name ∈ dangerousSchemes) :
    name ≠ [] ∧ ∀ char ∈ name, char.isLetter = true := by
  revert name
  decide

/-- A URL has a dangerous scheme just when it is spelled before the first
colon. -/
theorem urlScheme_dangerous_iff (url : Text) :
    (∃ scheme ∈ urlScheme url, scheme ∈ dangerousSchemes) ↔
      .scalar ':' ∈ url ∧ lowerAscii (beforeColon url) ∈ dangerousSchemes := by
  constructor
  · rintro ⟨scheme, hscheme, hdangerous⟩
    simp only [urlScheme, Option.mem_def, Option.ite_none_right_eq_some,
      Option.some.injEq] at hscheme
    obtain ⟨⟨-, hstop⟩, rfl⟩ := hscheme
    obtain ⟨rest, hrest⟩ := List.head?_eq_some_iff.mp hstop
    have hurl : url = url.takeWhile CodePoint.isSchemeChar ++
        .scalar ':' :: rest := by
      rw [← hrest, List.takeWhile_append_dropWhile]
    have hname : CodePoint.scalar ':' ∉
        url.takeWhile CodePoint.isSchemeChar := fun hmem =>
      Bool.false_ne_true (List.all_eq_true.mp List.all_takeWhile _ hmem)
    have hbefore := @beforeColon_append _ rest hname
    rw [← hurl] at hbefore
    exact ⟨by rw [hurl]; simp, hbefore ▸ hdangerous⟩
  · rintro ⟨hcolon, hdangerous⟩
    obtain ⟨rest, hurl⟩ := eq_beforeColon_append hcolon
    obtain ⟨hne, hletters⟩ := letters_of_dangerous hdangerous
    have hletter : ∀ char ∈ beforeColon url, char.isLetter = true := by
      intro char hchar
      rw [← isLetter_lowerAscii]
      exact hletters _ (List.mem_map_of_mem hchar)
    have hscheme : ∀ char ∈ beforeColon url, char.isSchemeChar = true :=
      fun char hchar => isSchemeChar_of_isLetter (hletter char hchar)
    refine ⟨lowerAscii (beforeColon url), ?_, hdangerous⟩
    generalize beforeColon url = name at hurl hne hletter hscheme ⊢
    subst hurl
    have htake : (name ++ .scalar ':' :: rest).takeWhile
        CodePoint.isSchemeChar = name := takeWhile_of_stop hscheme rfl
    have hdrop : (name ++ .scalar ':' :: rest).dropWhile
        CodePoint.isSchemeChar = .scalar ':' :: rest := by
      rw [List.dropWhile_append_of_pos hscheme]
      rfl
    cases name with
    | nil => exact absurd rfl hne
    | cons first name =>
        have hfirst : (first :: name ++ .scalar ':' :: rest).head?.any
            CodePoint.isLetter = true :=
          hletter first List.mem_cons_self
        simp only [urlScheme, htake, hdrop]
        exact if_pos ⟨hfirst, rfl⟩

/-- What the browser's input is before its first colon. -/
theorem normaliseUrl_of_colon {value : Text}
    (hcolon : .scalar ':' ∈ leadingUrlTrim value) :
    .scalar ':' ∈ normaliseUrl value ∧
      beforeColon (normaliseUrl value) =
        (beforeColon (leadingUrlTrim value)).filter
          fun char => !char.isTabOrNewline := by
  obtain ⟨rest, hurl⟩ := eq_beforeColon_append hcolon
  have hname := colon_not_mem_beforeColon (leadingUrlTrim value)
  have hinput : normaliseUrl value =
      (beforeColon (leadingUrlTrim value)).filter
        (fun char => !char.isTabOrNewline) ++ .scalar ':' ::
        (rest.reverse.dropWhile CodePoint.isControlOrSpace).reverse.filter
          fun char => !char.isTabOrNewline := by
    generalize beforeColon (leadingUrlTrim value) = name at hurl
    rw [normaliseUrl, hurl, dropWhile_reverse_append_cons rfl,
      List.filter_append, List.filter_cons_of_pos rfl]
  rw [hinput]
  exact ⟨by simp, beforeColon_append fun hmem =>
    hname (List.mem_of_mem_filter hmem)⟩

theorem safeHref_iff (value : Text) :
    SafeHref value ↔
      (.scalar ':' ∈ leadingUrlTrim value →
        lowerAscii ((beforeColon (leadingUrlTrim value)).filter
          fun char => !char.isTabOrNewline) ∉ dangerousSchemes) := by
  have hdangerous : ¬SafeHref value ↔ .scalar ':' ∈ normaliseUrl value ∧
      lowerAscii (beforeColon (normaliseUrl value)) ∈ dangerousSchemes := by
    rw [← urlScheme_dangerous_iff]
    simp [SafeHref]
  by_cases hcolon : .scalar ':' ∈ leadingUrlTrim value
  · obtain ⟨hmem, hbefore⟩ := normaliseUrl_of_colon hcolon
    rw [hbefore] at hdangerous
    tauto
  · have hmem : .scalar ':' ∉ normaliseUrl value := by
      intro hmem
      have := List.mem_of_mem_filter hmem
      exact hcolon (List.mem_reverse.mp ((List.dropWhile_sublist _).subset
        (List.mem_reverse.mp this)))
    tauto

theorem no_tab_of_dangerous {value : Text}
    (hdangerous : lowerAscii value ∈ dangerousSchemes) :
    ∀ char ∈ value, char.isTabOrNewline = false := by
  have hnames : ∀ name ∈ dangerousSchemes, ∀ char ∈ name,
      char.isTabOrNewline = false := by decide
  intro char hchar
  by_contra htab
  have hlower := hnames _ hdangerous _ (List.mem_map_of_mem hchar)
  simp only [CodePoint.isTabOrNewline, Bool.not_eq_false, Bool.or_eq_true,
    decide_eq_true_eq] at htab
  obtain (rfl | rfl) | rfl := htab <;> cases hlower

/-- A kept link is safe unless a TAB, LF or CR hides its scheme. -/
theorem href_safe_iff (value : Text) :
    (¬StartsWithAny hrefDenySchemes (leadingUrlTrim value) → SafeHref value) ↔
      SchemeUnbroken value := by
  rw [startsWithAny_deny_iff, safeHref_iff, SchemeUnbroken]
  by_cases hcolon : .scalar ':' ∈ leadingUrlTrim value
  · simp only [hcolon, true_and, forall_const]
    generalize beforeColon (leadingUrlTrim value) = scheme
    constructor
    · intro hsafe hspelled
      by_contra hbroken
      exact hsafe (fun hdenied => hbroken (no_tab_of_dangerous hdenied)) hspelled
    · intro hunbroken hkept hspelled
      have hwhole : scheme.filter (fun char => !char.isTabOrNewline) =
          scheme := by
        rw [List.filter_eq_self]
        intro char hchar
        rw [hunbroken hspelled char hchar]
        rfl
      rw [hwhole] at hspelled
      exact hkept hspelled
  · simp [hcolon]

/-! ### The source of an image -/

theorem ignoreCase_of_not_folded {char : CodePoint}
    (hchar : char ∉ caseFolds.map Prod.fst) :
    char.ignoreCase = char.lowerAscii := by
  have hlookup : caseFolds.lookup char = none := by
    apply List.lookup_eq_none_iff.mpr
    intro fold hfold
    have hne : char ≠ fold.1 := by
      rintro rfl
      exact hchar (List.mem_map_of_mem hfold)
    simp [hne]
  rw [CodePoint.ignoreCase, hlookup]
  rfl

theorem lowerAscii_of_ignoreCase {char : CodePoint}
    (hchar : char.ignoreCase = .scalar 'd') : char.lowerAscii = .scalar 'd' := by
  by_cases hfolded : char ∈ caseFolds.map Prod.fst
  · simp only [caseFolds, List.map_cons, List.map_nil, List.mem_cons,
      List.not_mem_nil, or_false] at hfolded
    obtain rfl | rfl | rfl | rfl := hfolded <;> cases hchar
  · rw [← ignoreCase_of_not_folded hfolded]
    exact hchar

theorem isBase64_lowerAscii (char : CodePoint) :
    char.lowerAscii.isBase64 = char.isBase64 := by
  cases char with
  | surrogate offset => rfl
  | scalar char =>
      simp only [CodePoint.lowerAscii, CodePoint.isBase64, isAlphanum_toLower,
        toLower_eq_iff '+' rfl, toLower_eq_iff '/' rfl,
        toLower_eq_iff '=' rfl]

/-- What the head of an inline image and its data are spelled with. -/
def CodePoint.isImageChar (char : CodePoint) : Bool :=
  char.isBase64 || char = .scalar ':' || char = .scalar ';' ||
    char = .scalar ','

theorem isImageChar_lowerAscii (char : CodePoint) :
    char.lowerAscii.isImageChar = char.isImageChar := by
  simp only [CodePoint.isImageChar, isBase64_lowerAscii,
    lowerAscii_eq_iff ':' rfl,
    lowerAscii_eq_iff ';' rfl,
    lowerAscii_eq_iff ',' rfl]

theorem plain_of_isImageChar {char : CodePoint}
    (hchar : char.isImageChar = true) :
    char ≠ .scalar '\n' ∧ char ∉ caseFolds.map Prod.fst := by
  have hothers : ∀ other ∈ .scalar '\n' :: caseFolds.map Prod.fst,
      CodePoint.isImageChar other = false := by decide
  have hne : char ∉ .scalar '\n' :: caseFolds.map Prod.fst := by
    intro hmem
    rw [hothers char hmem] at hchar
    cases hchar
  simpa [not_or] using hne

theorem afterHead_eq_some_iff {head value rest : Text} :
    afterHead head value = some rest ↔
      ∃ front, value = front ++ rest ∧
        front.map CodePoint.ignoreCase = head := by
  simp only [afterHead, Option.ite_none_right_eq_some, Option.some.injEq]
  constructor
  · rintro ⟨hfront, rfl⟩
    exact ⟨_, (List.take_append_drop _ _).symm, hfront⟩
  · rintro ⟨front, rfl, rfl⟩
    simp

theorem dataImageMatch_iff {value : Text} :
    dataImageMatch value = true ↔ ∃ kind ∈ imageKinds, ∃ head rest,
      value = head ++ rest ∧
        head.map CodePoint.ignoreCase = dataImageHead kind ∧
        ∀ char ∈ beforeFinalNewline rest, char.ignoreCase.isBase64 = true := by
  simp only [dataImageMatch, List.any_eq_true, Option.any_eq_true,
    afterHead_eq_some_iff, List.all_eq_true]
  constructor
  · rintro ⟨kind, hkind, rest, ⟨head, hvalue, hhead⟩, hrest⟩
    exact ⟨kind, hkind, head, rest, hvalue, hhead, hrest⟩
  · rintro ⟨kind, hkind, head, rest, hvalue, hhead, hrest⟩
    exact ⟨kind, hkind, rest, ⟨head, hvalue, hhead⟩, hrest⟩

/-- A value the pattern matches is an inline image just when it is plain. -/
theorem isDataImage_iff_of_match {value : Text}
    (hmatch : dataImageMatch value = true) :
    IsDataImage value ↔ ∀ char ∈ value,
      char ≠ .scalar '\n' ∧ char ∉ caseFolds.map Prod.fst := by
  constructor
  · rintro ⟨kind, hkind, head, body, rfl, hhead, hbody⟩ char hchar
    apply plain_of_isImageChar
    rcases List.mem_append.mp hchar with hmem | hmem
    · have hheads : ∀ kind ∈ imageKinds, ∀ char ∈ dataImageHead kind,
          char.isImageChar = true := by decide
      rw [← isImageChar_lowerAscii]
      exact hheads kind hkind _ (hhead ▸ List.mem_map_of_mem hmem)
    · rw [CodePoint.isImageChar, hbody char hmem]
      rfl
  · intro hplain
    obtain ⟨kind, hkind, head, rest, rfl, hhead, hrest⟩ :=
      dataImageMatch_iff.mp hmatch
    have hlast : beforeFinalNewline rest = rest := by
      apply if_neg
      intro hlast
      exact (hplain _ (List.mem_append_right _
        (List.mem_of_getLast? hlast))).1 rfl
    rw [hlast] at hrest
    refine ⟨kind, hkind, head, rest, rfl, ?_, ?_⟩
    · rw [← hhead]
      apply List.map_congr_left
      intro char hchar
      exact (ignoreCase_of_not_folded
        (hplain char (List.mem_append_left _ hchar)).2).symm
    · intro char hchar
      rw [← isBase64_lowerAscii, ← ignoreCase_of_not_folded
        (hplain char (List.mem_append_right _ hchar)).2]
      exact hrest char hchar

theorem starts_of_match {value : Text} (hmatch : dataImageMatch value = true) :
    ∃ first rest, value = first :: rest ∧
      first.ignoreCase = .scalar 'd' := by
  obtain ⟨kind, -, head, rest, rfl, hhead, -⟩ := dataImageMatch_iff.mp hmatch
  cases head with
  | nil => cases hhead
  | cons first head => exact ⟨first, head ++ rest, rfl, (List.cons.inj hhead).1⟩

/-- An inline image is no reference to an attachment. -/
theorem cidMatch_of_dataImage {value : Text}
    (hmatch : dataImageMatch value = true) :
    cidMatch (stripAngles value) = none := by
  obtain ⟨first, rest, rfl, hfirst⟩ := starts_of_match hmatch
  have hangle : first.isAngle = false := by
    by_contra hangle
    simp only [CodePoint.isAngle, Bool.not_eq_false, Bool.or_eq_true,
      decide_eq_true_eq] at hangle
    obtain rfl | rfl := hangle <;> cases hfirst
  have hstripped : ∃ others, stripAngles (first :: rest) = first :: others := by
    rw [stripAngles, List.dropWhile_cons_of_neg (by simp [hangle])]
    exact ⟨_, dropWhile_reverse_append_cons hangle [] rest⟩
  obtain ⟨others, hothers⟩ := hstripped
  rw [cidMatch, hothers, afterHead, if_neg]
  · rfl
  · intro hhead
    have := (List.cons.inj hhead).1
    rw [hfirst] at this
    cases this

theorem src_safe_iff (cidToSha : Text → Option Text)
    (allowExternalImages : Bool) (value : Text) :
    (∀ src ∈ rewriteImgSrc cidToSha allowExternalImages value,
      SafeSrc cidToSha allowExternalImages src) ↔ ImagePlain value := by
  by_cases hmatch : dataImageMatch value = true
  · have hnone := cidMatch_of_dataImage hmatch
    obtain ⟨first, rest, hvalue, hfirst⟩ := starts_of_match hmatch
    have hlower := lowerAscii_of_ignoreCase hfirst
    have honly : SafeSrc cidToSha allowExternalImages value ↔
        IsDataImage value := by
      rw [SafeSrc]
      constructor
      · rintro (⟨cid, sha, -, rfl⟩ | himage | ⟨-, scheme, hscheme, hstarts⟩)
        · obtain rfl := (List.cons.inj hvalue).1
          cases hlower
        · exact himage
        · rw [hvalue, lowerAscii, List.map_cons, hlower] at hstarts
          simp [externalSchemes, text] at hscheme
          obtain rfl | rfl := hscheme <;> simp at hstarts
      · exact fun himage => .inr (.inl himage)
    simp only [rewriteImgSrc, hnone, hmatch, ImagePlain, ↓reduceIte,
      Option.mem_def, Option.some.injEq, forall_eq', forall_const, honly]
    exact isDataImage_iff_of_match hmatch
  · refine iff_of_true ?_ (fun h => absurd h hmatch)
    intro src hsrc
    rw [rewriteImgSrc] at hsrc
    cases hcid : cidMatch (stripAngles value) with
    | some group =>
        simp only [hcid, Option.mem_def, Option.map_eq_some_iff] at hsrc
        obtain ⟨sha, hsha, rfl⟩ := hsrc
        exact .inl ⟨_, sha, hsha, rfl⟩
    | none =>
        simp only [hcid, hmatch, Bool.false_eq_true, ↓reduceIte,
          Option.mem_def, Option.ite_none_right_eq_some,
          Option.some.injEq] at hsrc
        obtain ⟨hexternal, rfl⟩ := hsrc
        exact .inr (.inr hexternal)

/-- The filter leaves no dangerous URL in an attribute just when no TAB, LF or
CR breaks up the scheme of a link, and an inline image is plain ASCII. -/
theorem attribute_filter_safe_iff (cidToSha : Text → Option Text)
    (allowExternalImages : Bool) (tag attr value : Text) :
    LeavesSafe cidToSha allowExternalImages tag attr value ↔
      AttributePlain tag attr value := by
  by_cases hsrc : tag = text "img" ∧ attr = text "src"
  · simp only [LeavesSafe, AttributePlain, attributeFilter, hsrc, and_self,
      ↓reduceIte, forall_const, not_true_eq_false, false_implies, and_true]
    exact src_safe_iff cidToSha allowExternalImages value
  · by_cases hhref : attr = text "href"
    · constructor
      · intro hsafe
        refine ⟨fun h => absurd h hsrc, fun _ _ => ?_⟩
        apply (href_safe_iff value).mp
        intro hkept
        have hfilter : attributeFilter cidToSha allowExternalImages tag attr
            value = some value := by
          rw [attributeFilter, if_neg hsrc, if_neg fun h => hkept h.2]
        exact (hsafe value hfilter).2 hsrc hhref
      · rintro ⟨-, hplain⟩ kept hfilter
        refine ⟨fun h => absurd h hsrc, fun _ _ => ?_⟩
        rw [attributeFilter, if_neg hsrc] at hfilter
        obtain ⟨hkept, hvalue⟩ := Option.ite_none_left_eq_some.mp hfilter
        obtain rfl := Option.some.inj hvalue
        exact (href_safe_iff value).mpr (hplain hsrc hhref)
          fun h => hkept ⟨hhref, h⟩
    · simp [LeavesSafe, AttributePlain, hsrc, hhref]

/-- The two defects: a scheme broken by a TAB, and a newline after the data of an
image. -/
theorem attribute_filter_keeps_broken_scheme :
    ¬LeavesSafe (fun _ => none) false (text "a") (text "href")
        (text "da\tta:text/html,x") ∧
      ¬LeavesSafe (fun _ => none) false (text "img") (text "src")
        (text "data:image/png;base64,AA\n") := by
  constructor
  · intro hsafe
    have hkept := (hsafe (text "da\tta:text/html,x") (by decide)).2 (by decide)
      rfl
    exact hkept (text "data") (by decide) (by decide)
  · intro hsafe
    have hkept := (hsafe (text "data:image/png;base64,AA\n") (by decide)).1
      (by decide)
    rcases hkept with ⟨cid, sha, hsha, -⟩ | himage | ⟨hallowed, -⟩
    · cases hsha
    · have hplain := (isDataImage_iff_of_match (by decide)).mp himage
        (.scalar '\n') (by decide)
      exact hplain.1 rfl
    · cases hallowed

end Localmail
