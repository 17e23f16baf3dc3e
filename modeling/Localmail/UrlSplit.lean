/-
The standard library's `urlsplit` and `urlunsplit`: a URL in its five parts, the
host and the port of its network location, and what is refused.
-/
import Localmail.AttributeFilter
import Localmail.FilterTokens
import Localmail.StripText

namespace Localmail

/-- `str.lower`, `unicodedata.normalize("NFKC", _)`, and whether
`ipaddress.ip_address` makes an IPv6 address of a text. -/
structure UrlRules where
  lower : Text → Text
  nfkc : Text → Text
  isIpv6 : Text → Bool

def urlSeparators : Text := text "/?#@:"

/-- A character outside ASCII whose normal form has a separator in it. -/
def UrlRules.Expands (rules : UrlRules) (char : CodePoint) : Prop :=
  char.isAscii = false ∧ ∃ sep ∈ urlSeparators, sep ∈ rules.nfkc [char]

/-- What is in lower case stays so; lowering makes no punctuation and no
character that expands; and the normal form of a text has a separator just where
that of a character has one, ASCII being its own. -/
structure UrlRules.Lawful (rules : UrlRules) : Prop where
  lower_eq : ∀ value part, (∀ char ∈ part, char ∈ rules.lower value) →
    rules.lower part = part
  lower_punctuation : ∀ value char, char ∈ rules.lower value →
    char.isAscii = true → char.isLetter = false → char ∈ value
  lower_expands : ∀ value char, char ∈ rules.lower value →
    rules.Expands char → char ∈ value
  nfkc_separator : ∀ value, (∃ sep ∈ urlSeparators, sep ∈ rules.nfkc value) ↔
    ∃ char ∈ value, ∃ sep ∈ urlSeparators, sep ∈ rules.nfkc [char]
  nfkc_ascii : ∀ char, char.isAscii = true → rules.nfkc [char] = [char]

/-! ### Partitions -/

/-- `value.partition(sep)[0]`. -/
def before (sep : Char) (value : Text) : Text :=
  value.takeWhile (· ≠ .scalar sep)

/-- `value.partition(sep)[2]`. -/
def after (sep : Char) (value : Text) : Text :=
  (value.dropWhile (· ≠ .scalar sep)).tail

/-- `value.rpartition(sep)[2]`. -/
def afterLast (sep : Char) (value : Text) : Text :=
  (value.reverse.takeWhile (· ≠ .scalar sep)).reverse

section Partition

variable {sep : Char} {left right value : Text} {char : CodePoint}

theorem before_append (hleft : .scalar sep ∉ left) :
    before sep (left ++ .scalar sep :: right) = left := by
  apply takeWhile_of_stop (decide_ne_of_notMem hleft)
  simp

theorem after_append (hleft : .scalar sep ∉ left) :
    after sep (left ++ .scalar sep :: right) = right := by
  rw [after, List.dropWhile_append_of_pos (decide_ne_of_notMem hleft)]
  simp

theorem before_of_notMem (hvalue : .scalar sep ∉ value) :
    before sep value = value := by
  rw [before, List.takeWhile_eq_self_iff]
  exact decide_ne_of_notMem hvalue

theorem after_of_notMem (hvalue : .scalar sep ∉ value) :
    after sep value = [] := by
  have hdrop : value.dropWhile (· ≠ .scalar sep) = [] := by
    rw [List.dropWhile_eq_nil_iff]
    exact decide_ne_of_notMem hvalue
  rw [after, hdrop]
  rfl

theorem sep_notMem_before : .scalar sep ∉ before sep value := by
  intro hmem
  have hkeeps := List.mem_takeWhile_imp hmem
  simp at hkeeps

theorem before_after (hvalue : .scalar sep ∈ value) :
    value = before sep value ++ .scalar sep :: after sep value := by
  obtain ⟨left, right, rfl, hleft⟩ := List.eq_append_cons_of_mem hvalue
  rw [before_append hleft, after_append hleft]

theorem mem_of_mem_before (hchar : char ∈ before sep value) : char ∈ value :=
  List.takeWhile_subset _ hchar

theorem mem_of_mem_after (hchar : char ∈ after sep value) : char ∈ value :=
  (List.dropWhile_sublist _).mem (List.mem_of_mem_tail hchar)

theorem before_append_dropWhile :
    before sep value ++ value.dropWhile (· ≠ .scalar sep) = value :=
  List.takeWhile_append_dropWhile

theorem before_append_drop (hleft : .scalar sep ∉ left) :
    before sep (left ++ value.dropWhile (· ≠ .scalar sep)) = left := by
  cases hdrop : value.dropWhile (· ≠ .scalar sep) with
  | nil => rw [List.append_nil, before_of_notMem hleft]
  | cons first rest =>
      have hhead := List.head?_dropWhile_not
        (fun char : CodePoint => decide (char ≠ .scalar sep)) value
      rw [hdrop] at hhead
      obtain rfl : first = .scalar sep := by simpa using hhead
      exact before_append hleft

theorem before_mono (hbegins : left <+: right) :
    before sep left <+: before sep right := by
  obtain ⟨more, rfl⟩ := hbegins
  by_cases hleft : .scalar sep ∈ left
  · obtain ⟨first, rest, rfl, hfirst⟩ := List.eq_append_cons_of_mem hleft
    rw [before_append hfirst, List.append_assoc, List.cons_append,
      before_append hfirst]
  · rw [before_of_notMem hleft]
    rw [before, List.takeWhile_append_of_pos (decide_ne_of_notMem hleft)]
    exact List.prefix_append _ _

theorem afterLast_of_notMem (hvalue : .scalar sep ∉ value) :
    afterLast sep value = value := by
  have hreverse : .scalar sep ∉ value.reverse :=
    fun hmem => hvalue (List.mem_reverse.mp hmem)
  have htake := before_of_notMem hreverse
  rw [before] at htake
  rw [afterLast, htake, List.reverse_reverse]

theorem mem_of_mem_afterLast (hchar : char ∈ afterLast sep value) :
    char ∈ value := by
  rw [afterLast, List.mem_reverse] at hchar
  exact List.mem_reverse.mp (List.takeWhile_subset _ hchar)

theorem sep_notMem_afterLast : .scalar sep ∉ afterLast sep value := by
  rw [afterLast, List.mem_reverse]
  exact sep_notMem_before

end Partition

/-! ### Splitting -/

structure SplitUrl where
  scheme : Text
  netloc : Text
  path : Text
  query : Text
  fragment : Text
deriving Repr, DecidableEq

/-- The scheme, in lower case, and the rest. -/
def splitScheme (url : Text) : Text × Text :=
  if .scalar ':' ∈ url ∧ (before ':' url).head?.any CodePoint.isLetter ∧
      (before ':' url).all CodePoint.isSchemeChar then
    (lowerAscii (before ':' url), after ':' url)
  else ([], url)

def CodePoint.endsNetloc (char : CodePoint) : Bool :=
  char ∈ text "/?#"

/-- `_splitnetloc`, of a URL that begins with two slashes. -/
def splitNetloc (url : Text) : Text × Text :=
  if url.take 2 = text "//" then
    ((url.drop 2).takeWhile fun char => !char.endsNetloc,
      (url.drop 2).dropWhile fun char => !char.endsNetloc)
  else ([], url)

def CodePoint.isHexDigit (char : CodePoint) : Bool :=
  char ∈ text "0123456789abcdefABCDEF"

/-- `_check_bracketed_host`; `v` begins an address of a later version. -/
def checkBracketedHost (rules : UrlRules) (host : Text) : Bool :=
  match host with
  | .scalar 'v' :: rest =>
      rest.takeWhile CodePoint.isHexDigit ≠ [] &&
        match rest.dropWhile CodePoint.isHexDigit with
        | .scalar '.' :: address => address ≠ [] && .scalar '\n' ∉ address
        | _ => false
  | _ => rules.isIpv6 host

/-- `_check_bracketed_netloc`. -/
def checkBracketedNetloc (rules : UrlRules) (netloc : Text) : Bool :=
  let hostinfo := afterLast '@' netloc
  if .scalar '[' ∈ hostinfo then
    let bracketed := after '[' hostinfo
    let port := after ']' bracketed
    before '[' hostinfo = [] && (port = [] || port.head? = some (.scalar ':')) &&
      checkBracketedHost rules (before ']' bracketed)
  else checkBracketedHost rules (before ':' hostinfo)

/-- What `urlsplit` asks of the brackets in a network location. -/
def checkBrackets (rules : UrlRules) (netloc : Text) : Bool :=
  if .scalar '[' ∈ netloc then
    .scalar ']' ∈ netloc && checkBracketedNetloc rules netloc
  else .scalar ']' ∉ netloc

/-- `_checknetloc`. -/
def checkNetloc (rules : UrlRules) (netloc : Text) : Bool :=
  let plain := netloc.filter fun char => char ∉ text "@:#?"
  netloc.all CodePoint.isAscii || plain = rules.nfkc plain ||
    urlSeparators.all fun char => char ∉ rules.nfkc plain

/-- `urlsplit`; `none` is the `ValueError`. -/
def urlsplit (rules : UrlRules) (url : Text) : Option SplitUrl :=
  let url := (leadingUrlTrim url).filter fun char => !char.isTabOrNewline
  let (scheme, url) := splitScheme url
  let (netloc, url) := splitNetloc url
  if checkBrackets rules netloc && checkNetloc rules netloc then
    some
      { scheme := scheme
        netloc := netloc
        path := before '?' (before '#' url)
        query := after '?' (before '#' url)
        fragment := after '#' url }
  else none

/-! ### Host and port -/

/-- `_hostinfo`, with an empty port for `None`. -/
def hostinfo (netloc : Text) : Text × Text :=
  let hostinfo := afterLast '@' netloc
  if .scalar '[' ∈ hostinfo then
    let bracketed := after '[' hostinfo
    (before ']' bracketed, after ':' (after ']' bracketed))
  else (before ':' hostinfo, after ':' hostinfo)

/-- `hostname`.  The zone of a scoped address keeps its case. -/
def hostname (rules : UrlRules) (netloc : Text) : Option Text :=
  let host := (hostinfo netloc).1
  if host = [] then none
  else
    some (rules.lower (before '%' host) ++ host.dropWhile (· ≠ .scalar '%'))

/-- `port`; the outer `none` is the `ValueError`. -/
def netlocPort (netloc : Text) : Option (Option Nat) :=
  let port := (hostinfo netloc).2
  if port = [] then some none
  else
    match parseDigits port with
    | none => none
    | some number => if number ≤ 65535 then some (some number) else none

/-! ### Writing -/

def usesNetloc : List Text :=
  [text "", text "ftp", text "http", text "gopher", text "nntp",
    text "telnet", text "imap", text "wais", text "file", text "mms",
    text "https", text "shttp", text "snews", text "prospero", text "rtsp",
    text "rtsps", text "rtspu", text "rsync", text "svn", text "svn+ssh",
    text "sftp", text "nfs", text "git", text "git+ssh", text "ws",
    text "wss", text "itms-services"]

/-- `urlunsplit`. -/
def urlunsplit (parts : SplitUrl) : Text :=
  let url := parts.path
  let url :=
    if parts.netloc ≠ [] ∨ parts.scheme ≠ [] ∧ parts.scheme ∈ usesNetloc ∧
        url.take 2 ≠ text "//" then
      text "//" ++ parts.netloc ++
        (if url ≠ [] ∧ url.head? ≠ some (.scalar '/') then text "/" ++ url
          else url)
    else url
  let url := if parts.scheme ≠ [] then parts.scheme ++ text ":" ++ url else url
  let url := if parts.query ≠ [] then url ++ text "?" ++ parts.query else url
  if parts.fragment ≠ [] then url ++ text "#" ++ parts.fragment else url

/-! ### What a split URL is made of -/

/-- A query with its mark. -/
def queryText (query : Text) : Text :=
  if query = [] then [] else .scalar '?' :: query

def TabFree (value : Text) : Prop :=
  ∀ char ∈ value, char.isTabOrNewline = false

theorem TabFree.append {left right : Text} (hleft : TabFree left)
    (hright : TabFree right) : TabFree (left ++ right) := by
  intro char hchar
  rcases List.mem_append.mp hchar with hmem | hmem
  · exact hleft char hmem
  · exact hright char hmem

theorem TabFree.cons {char : CodePoint} {rest : Text}
    (hchar : char.isTabOrNewline = false) (hrest : TabFree rest) :
    TabFree (char :: rest) := by
  intro other hother
  rcases List.mem_cons.mp hother with rfl | hmem
  · exact hchar
  · exact hrest other hmem

structure SplitUrl.Plain (parts : SplitUrl) : Prop where
  netloc : ∀ char ∈ parts.netloc, char.endsNetloc = false
  netlocTabs : TabFree parts.netloc
  pathStart : parts.path = [] ∨ parts.path.head? = some (.scalar '/')
  pathQuery : .scalar '?' ∉ parts.path
  pathFragment : .scalar '#' ∉ parts.path
  pathTabs : TabFree parts.path
  query : .scalar '#' ∉ parts.query
  queryTabs : TabFree parts.query

theorem splitNetloc_fst (url : Text) :
    ∀ char ∈ (splitNetloc url).1, char.endsNetloc = false ∧ char ∈ url := by
  intro char hchar
  rw [splitNetloc] at hchar
  split at hchar
  · refine ⟨?_, List.mem_of_mem_drop (List.takeWhile_subset _ hchar)⟩
    simpa using List.mem_takeWhile_imp hchar
  · cases hchar

theorem splitNetloc_append {url : Text} (hnetloc : (splitNetloc url).1 ≠ []) :
    url = text "//" ++ (splitNetloc url).1 ++ (splitNetloc url).2 := by
  rw [splitNetloc] at hnetloc ⊢
  split at hnetloc
  · rename_i hslashes
    rw [if_pos hslashes, List.append_assoc, List.takeWhile_append_dropWhile,
      ← hslashes, List.take_append_drop]
  · exact absurd rfl hnetloc

theorem splitNetloc_snd {url : Text} (hnetloc : (splitNetloc url).1 ≠ []) :
    (splitNetloc url).2 = [] ∨
      ∃ char rest, (splitNetloc url).2 = char :: rest ∧
        char.endsNetloc = true := by
  rw [splitNetloc] at hnetloc ⊢
  split at hnetloc
  · rename_i hslashes
    rw [if_pos hslashes]
    cases hrest : (url.drop 2).dropWhile fun char => !char.endsNetloc with
    | nil => exact .inl rfl
    | cons char rest =>
        refine .inr ⟨char, rest, rfl, ?_⟩
        have hhead := List.head?_dropWhile_not
          (fun char : CodePoint => !char.endsNetloc) (url.drop 2)
        rw [hrest] at hhead
        simpa using hhead
  · exact absurd rfl hnetloc

/-- Before a query or a fragment stands a path, which begins with a slash. -/
theorem pathStart_of_rest {rest : Text}
    (hrest : rest = [] ∨ ∃ char tail, rest = char :: tail ∧
      char.endsNetloc = true) :
    before '?' (before '#' rest) = [] ∨
      (before '?' (before '#' rest)).head? = some (.scalar '/') := by
  obtain rfl | ⟨char, tail, rfl, hend⟩ := hrest
  · exact .inl rfl
  · have hcases : char = .scalar '/' ∨ char = .scalar '?' ∨
        char = .scalar '#' := by
      simpa [CodePoint.endsNetloc, text] using hend
    obtain rfl | rfl | rfl := hcases
    · exact .inr rfl
    · exact .inl rfl
    · exact .inl rfl

/-- The URL that is split: without what `urlsplit` removes. -/
def cleanUrl (url : Text) : Text :=
  (leadingUrlTrim url).filter fun char => !char.isTabOrNewline

theorem cleanUrl_tabFree (url : Text) : TabFree (cleanUrl url) := by
  intro char hchar
  simpa using (List.mem_filter.mp hchar).2

theorem cleanUrl_length (url : Text) : (cleanUrl url).length ≤ url.length := by
  calc (cleanUrl url).length
      ≤ (leadingUrlTrim url).length := List.length_filter_le _ _
    _ ≤ url.length := (List.dropWhile_sublist _).length_le

theorem splitScheme_append {url : Text} (hscheme : (splitScheme url).1 ≠ []) :
    url = before ':' url ++ .scalar ':' :: (splitScheme url).2 ∧
      (before ':' url).length = (splitScheme url).1.length := by
  rw [splitScheme] at hscheme ⊢
  split at hscheme
  · rename_i hcolon
    rw [if_pos hcolon]
    refine ⟨before_after hcolon.1, ?_⟩
    rw [lowerAscii, List.length_map]
  · exact absurd rfl hscheme

theorem splitScheme_snd_subset (url : Text) :
    ∀ char ∈ (splitScheme url).2, char ∈ url := by
  intro char hchar
  rw [splitScheme] at hchar
  split at hchar
  · exact mem_of_mem_after hchar
  · exact hchar

theorem splitNetloc_snd_subset (url : Text) :
    ∀ char ∈ (splitNetloc url).2, char ∈ url := by
  intro char hchar
  rw [splitNetloc] at hchar
  split at hchar
  · exact List.mem_of_mem_drop ((List.dropWhile_sublist _).mem hchar)
  · exact hchar

theorem urlsplit_eq (rules : UrlRules) (url : Text) :
    urlsplit rules url =
      if checkBrackets rules (splitNetloc (splitScheme (cleanUrl url)).2).1 &&
          checkNetloc rules (splitNetloc (splitScheme (cleanUrl url)).2).1 then
        some
          { scheme := (splitScheme (cleanUrl url)).1
            netloc := (splitNetloc (splitScheme (cleanUrl url)).2).1
            path := before '?'
              (before '#' (splitNetloc (splitScheme (cleanUrl url)).2).2)
            query := after '?'
              (before '#' (splitNetloc (splitScheme (cleanUrl url)).2).2)
            fragment := after '#'
              (splitNetloc (splitScheme (cleanUrl url)).2).2 }
      else none := rfl

theorem queryText_length (value : Text) :
    (before '?' value).length + (queryText (after '?' value)).length ≤
      value.length := by
  by_cases hmark : .scalar '?' ∈ value
  · have hvalue := congrArg List.length (before_after hmark)
    rw [List.length_append, List.length_cons] at hvalue
    rw [queryText]
    split
    · rw [List.length_nil]
      omega
    · rw [List.length_cons]
      omega
  · rw [before_of_notMem hmark, after_of_notMem hmark]
    exact le_of_eq rfl

theorem urlsplit_plain {rules : UrlRules} {url : Text} {parts : SplitUrl}
    (hsplit : urlsplit rules url = some parts) (hnetloc : parts.netloc ≠ []) :
    parts.Plain := by
  rw [urlsplit_eq] at hsplit
  split at hsplit
  · have htabs : ∀ char ∈ (splitScheme (cleanUrl url)).2,
        char.isTabOrNewline = false := fun char hchar =>
      cleanUrl_tabFree url char (splitScheme_snd_subset _ char hchar)
    generalize (splitScheme (cleanUrl url)).2 = rest at hsplit htabs
    have hparts := Option.some.inj hsplit
    subst hparts
    have hrest : ∀ char ∈ (splitNetloc rest).2, char.isTabOrNewline = false :=
      fun char hchar => htabs char (splitNetloc_snd_subset _ char hchar)
    exact
      { netloc := fun char hchar => (splitNetloc_fst rest char hchar).1
        netlocTabs := fun char hchar =>
          htabs char (splitNetloc_fst rest char hchar).2
        pathStart := pathStart_of_rest (splitNetloc_snd hnetloc)
        pathQuery := sep_notMem_before
        pathFragment := fun hmem => sep_notMem_before (mem_of_mem_before hmem)
        pathTabs := fun char hchar =>
          hrest char (mem_of_mem_before (mem_of_mem_before hchar))
        query := fun hmem => sep_notMem_before (mem_of_mem_after hmem)
        queryTabs := fun char hchar =>
          hrest char (mem_of_mem_before (mem_of_mem_after hchar)) }
  · cases hsplit

theorem urlsplit_checks {rules : UrlRules} {url : Text} {parts : SplitUrl}
    (hsplit : urlsplit rules url = some parts) :
    checkBrackets rules parts.netloc = true ∧
      checkNetloc rules parts.netloc = true := by
  rw [urlsplit_eq] at hsplit
  split at hsplit
  · rename_i hchecks
    rw [Bool.and_eq_true] at hchecks
    rw [← Option.some.inj hsplit]
    exact hchecks
  · cases hsplit

/-- The parts take no more room than the URL. -/
theorem urlsplit_length {rules : UrlRules} {url : Text} {parts : SplitUrl}
    (hsplit : urlsplit rules url = some parts) (hscheme : parts.scheme ≠ [])
    (hnetloc : parts.netloc ≠ []) :
    parts.scheme.length + 3 + parts.netloc.length + parts.path.length +
      (queryText parts.query).length ≤ url.length := by
  rw [urlsplit_eq] at hsplit
  split at hsplit
  · have hparts := Option.some.inj hsplit
    subst hparts
    have hclean := cleanUrl_length url
    obtain ⟨hcolon, hlength⟩ := splitScheme_append hscheme
    have hslashes := congrArg List.length (splitNetloc_append hnetloc)
    have hwhole := congrArg List.length hcolon
    have hquery := queryText_length
      (before '#' (splitNetloc (splitScheme (cleanUrl url)).2).2)
    have hfragment : (before '#'
        (splitNetloc (splitScheme (cleanUrl url)).2).2).length ≤ _ :=
      (List.takeWhile_sublist _).length_le
    have htwo : (text "//").length = 2 := rfl
    simp only [List.length_append, List.length_cons] at hslashes hwhole
    dsimp only at hscheme hnetloc ⊢
    omega
  · cases hsplit

/-! ### Splitting what is written -/

/-- The schemes of a resource. -/
def WebScheme (scheme : Text) : Prop :=
  scheme = text "http" ∨ scheme = text "https"

theorem WebScheme.tabFree {scheme : Text} (hscheme : WebScheme scheme) :
    TabFree scheme := by
  obtain rfl | rfl := hscheme
  · exact (by decide : ∀ char ∈ text "http", char.isTabOrNewline = false)
  · exact (by decide : ∀ char ∈ text "https", char.isTabOrNewline = false)

/-- Nothing is removed of the beginning of a web URL without TAB, LF and CR. -/
theorem cleanUrl_of_web {scheme rest url : Text} (hscheme : WebScheme scheme)
    (hrest : TabFree rest) (hurl : url <+: scheme ++ rest) :
    cleanUrl url = url := by
  have htrim : leadingUrlTrim url = url := by
    cases url with
    | nil => rfl
    | cons first tail =>
        obtain ⟨others, hothers⟩ := hurl
        have hfirst : first = .scalar 'h' := by
          obtain rfl | rfl := hscheme <;> exact (List.cons.inj hothers).1
        rw [hfirst]
        rfl
  rw [cleanUrl, htrim, List.filter_eq_self]
  intro char hchar
  rw [hscheme.tabFree.append hrest char (hurl.subset hchar)]
  rfl

theorem splitScheme_web {scheme : Text} (hscheme : WebScheme scheme)
    (rest : Text) :
    splitScheme (scheme ++ .scalar ':' :: rest) = (scheme, rest) := by
  have hcolon : .scalar ':' ∉ scheme := by
    obtain rfl | rfl := hscheme <;> decide
  have hletters : scheme.head?.any CodePoint.isLetter = true ∧
      scheme.all CodePoint.isSchemeChar = true ∧ lowerAscii scheme = scheme := by
    obtain rfl | rfl := hscheme <;> decide
  rw [splitScheme, before_append hcolon, after_append hcolon,
    if_pos ⟨by simp, hletters.1, hletters.2.1⟩, hletters.2.2]

theorem splitNetloc_of_plain {netloc rest : Text}
    (hnetloc : ∀ char ∈ netloc, char.endsNetloc = false)
    (hrest : rest = [] ∨ ∃ char tail, rest = char :: tail ∧
      char.endsNetloc = true) :
    splitNetloc (text "//" ++ netloc ++ rest) = (netloc, rest) := by
  have hkeeps : ∀ char ∈ netloc, (!char.endsNetloc) = true := by
    intro char hchar
    rw [hnetloc char hchar]
    rfl
  have hdrop : (text "//" ++ netloc ++ rest).drop 2 = netloc ++ rest := rfl
  have htake : (text "//" ++ netloc ++ rest).take 2 = text "//" := rfl
  rw [splitNetloc, if_pos htake, hdrop, List.takeWhile_append_of_pos hkeeps,
    List.dropWhile_append_of_pos hkeeps]
  obtain rfl | ⟨char, tail, rfl, hend⟩ := hrest
  · simp
  · rw [List.takeWhile_cons_of_neg (by simp [hend]),
      List.dropWhile_cons_of_neg (by simp [hend]), List.append_nil]

theorem query_mark_rest (path query : Text)
    (hpath : path = [] ∨ path.head? = some (.scalar '/')) :
    path ++ queryText query = [] ∨
      ∃ char tail, path ++ queryText query = char :: tail ∧
        char.endsNetloc = true := by
  cases path with
  | nil =>
      rw [queryText]
      split
      · exact .inl rfl
      · exact .inr ⟨_, _, rfl, by decide⟩
  | cons first rest =>
      obtain hempty | hslash := hpath
      · cases hempty
      · obtain rfl : first = .scalar '/' := Option.some.inj hslash
        exact .inr ⟨_, _, rfl, by decide⟩

theorem split_query {path query : Text} (hpathQuery : .scalar '?' ∉ path)
    (hpathFragment : .scalar '#' ∉ path) (hquery : .scalar '#' ∉ query) :
    before '#' (path ++ queryText query) = path ++ queryText query ∧
      after '#' (path ++ queryText query) = [] ∧
      before '?' (path ++ queryText query) = path ∧
      after '?' (path ++ queryText query) = query := by
  have hhash : .scalar '#' ∉ path ++ queryText query := by
    rw [List.mem_append, not_or]
    refine ⟨hpathFragment, ?_⟩
    rw [queryText]
    split
    · exact List.not_mem_nil
    · simp [hquery]
  refine ⟨before_of_notMem hhash, after_of_notMem hhash, ?_⟩
  by_cases hempty : query = []
  · rw [queryText, if_pos hempty, List.append_nil, hempty]
    exact ⟨before_of_notMem hpathQuery, after_of_notMem hpathQuery⟩
  · rw [queryText, if_neg hempty]
    exact ⟨before_append hpathQuery, after_append hpathQuery⟩

theorem SplitUrl.Plain.tabFree {parts : SplitUrl} (hplain : parts.Plain) :
    TabFree (.scalar ':' :: (text "//" ++ parts.netloc ++
      (parts.path ++ queryText parts.query))) := by
  have hquery : TabFree (queryText parts.query) := by
    rw [queryText]
    split
    · exact nofun
    · exact TabFree.cons (by decide) hplain.queryTabs
  have hslashes : TabFree (text "//") := by
    intro char
    revert char
    decide
  exact TabFree.cons (by decide) ((hslashes.append hplain.netlocTabs).append
    (hplain.pathTabs.append hquery))

/-- What is written is split in the same parts, as long as its network location
is taken. -/
theorem urlsplit_written (rules : UrlRules) {parts : SplitUrl}
    (hscheme : WebScheme parts.scheme) (hplain : parts.Plain)
    (hfragment : parts.fragment = []) :
    urlsplit rules (parts.scheme ++ .scalar ':' ::
        (text "//" ++ parts.netloc ++ (parts.path ++ queryText parts.query))) =
      if checkBrackets rules parts.netloc && checkNetloc rules parts.netloc then
        some parts
      else none := by
  have htabs := hplain.tabFree
  obtain ⟨hbefore, hafter, hpath, hquery⟩ :=
    split_query hplain.pathQuery hplain.pathFragment hplain.query
  rw [urlsplit_eq, cleanUrl_of_web hscheme htabs List.prefix_rfl, splitScheme_web hscheme,
    splitNetloc_of_plain hplain.netloc
      (query_mark_rest _ _ hplain.pathStart)]
  dsimp only
  rw [hbefore, hafter, hpath, hquery, ← hfragment]

/-- The beginning of a web URL has no more than the beginning of its network
location. -/
theorem netloc_beginning {rules : UrlRules} {scheme netloc rest url : Text}
    {parts : SplitUrl} (hscheme : WebScheme scheme)
    (htabs : TabFree (.scalar ':' :: (text "//" ++ netloc ++ rest)))
    (hrest : rest = [] ∨ ∃ char tail, rest = char :: tail ∧
      char.endsNetloc = true)
    (hurl : url <+: scheme ++ .scalar ':' :: (text "//" ++ netloc ++ rest))
    (hsplit : urlsplit rules url = some parts) (hparts : parts.scheme ≠ [])
    (hnetloc : ∀ char ∈ netloc, char.endsNetloc = false)
    (hfound : parts.netloc ≠ []) : parts.netloc <+: netloc := by
  have hcolon : .scalar ':' ∉ scheme := by
    obtain rfl | rfl := hscheme <;> decide
  rw [urlsplit_eq, cleanUrl_of_web hscheme htabs hurl] at hsplit
  split at hsplit
  · have hsame := Option.some.inj hsplit
    subst hsame
    dsimp only at hparts hfound ⊢
    obtain ⟨more, hmore⟩ := hurl
    have hfirst := (splitScheme_append hparts).1
    have hsecond := splitNetloc_append hfound
    generalize (splitScheme url).2 = tail at hfirst hsecond hfound ⊢
    have htail : tail ++ more = text "//" ++ netloc ++ rest := by
      have hafter := congrArg (after ':') hmore
      rw [hfirst, List.append_assoc, List.cons_append,
        after_append sep_notMem_before, after_append hcolon] at hafter
      exact hafter
    have hwhole : (splitNetloc tail).1 ++ ((splitNetloc tail).2 ++ more) =
        netloc ++ rest := by
      rw [hsecond] at htail
      simpa [List.append_assoc] using htail
    have hplain : ∀ char ∈ (splitNetloc tail).1, (!char.endsNetloc) = true := by
      intro char hchar
      rw [(splitNetloc_fst tail char hchar).1]
      rfl
    have hkept : (netloc ++ rest).takeWhile (fun char => !char.endsNetloc) =
        netloc := by
      have hwritten := splitNetloc_of_plain hnetloc hrest
      have hslashes : (text "//" ++ netloc ++ rest).take 2 = text "//" := rfl
      rw [splitNetloc, if_pos hslashes] at hwritten
      exact congrArg Prod.fst hwritten
    refine ⟨((splitNetloc tail).2 ++ more).takeWhile
      (fun char => !char.endsNetloc), ?_⟩
    rw [← List.takeWhile_append_of_pos hplain, hwhole, hkept]
  · cases hsplit

/-! ### Hosts and ports -/

theorem hostinfo_of_plain {netloc : Text} (huser : .scalar '@' ∉ netloc)
    (hbracket : .scalar '[' ∉ netloc) :
    hostinfo netloc = (before ':' netloc, after ':' netloc) := by
  rw [hostinfo, afterLast_of_notMem huser, if_neg hbracket]

theorem mem_of_mem_host {netloc : Text} {char : CodePoint}
    (hchar : char ∈ (hostinfo netloc).1) : char ∈ netloc := by
  rw [hostinfo] at hchar
  split at hchar
  · exact mem_of_mem_afterLast (mem_of_mem_after (mem_of_mem_before hchar))
  · exact mem_of_mem_afterLast (mem_of_mem_before hchar)

theorem user_notMem_host (netloc : Text) :
    .scalar '@' ∉ (hostinfo netloc).1 := by
  intro hmem
  rw [hostinfo] at hmem
  split at hmem
  · exact sep_notMem_afterLast (mem_of_mem_after (mem_of_mem_before hmem))
  · exact sep_notMem_afterLast (mem_of_mem_before hmem)

/-- A host has brackets of one kind at most. -/
theorem brackets_of_host (netloc : Text) :
    .scalar '[' ∉ (hostinfo netloc).1 ∨ .scalar ']' ∉ (hostinfo netloc).1 := by
  rw [hostinfo]
  split
  · exact .inr sep_notMem_before
  · rename_i hbracket
    exact .inl fun hmem => hbracket (mem_of_mem_before hmem)

/-- A port with its colon. -/
def portText (port : Text) : Text :=
  if port = [] then [] else .scalar ':' :: port

theorem portText_length (value : Text) :
    (before ':' value).length + (portText (after ':' value)).length ≤
      value.length := by
  by_cases hcolon : .scalar ':' ∈ value
  · have hvalue := congrArg List.length (before_after hcolon)
    rw [List.length_append, List.length_cons] at hvalue
    rw [portText]
    split
    · rw [List.length_nil]
      omega
    · rw [List.length_cons]
      omega
  · rw [before_of_notMem hcolon, after_of_notMem hcolon]
    exact le_of_eq rfl

theorem after_length (sep : Char) (value : Text) :
    (after sep value).length ≤ value.length :=
  ((List.tail_sublist _).trans (List.dropWhile_sublist _)).length_le

theorem hostinfo_length (netloc : Text) :
    (hostinfo netloc).1.length + (portText (hostinfo netloc).2).length ≤
      netloc.length := by
  have hlast : (afterLast '@' netloc).length ≤ netloc.length := by
    rw [afterLast, List.length_reverse, ← @List.length_reverse _ netloc]
    exact (List.takeWhile_sublist _).length_le
  rw [hostinfo]
  split
  · have hopen := after_length '[' (afterLast '@' netloc)
    have hport := portText_length (after ']' (after '[' (afterLast '@' netloc)))
    have hclose : (before ']' (after '[' (afterLast '@' netloc))).length +
        (after ']' (after '[' (afterLast '@' netloc))).length ≤
          (after '[' (afterLast '@' netloc)).length := by
      generalize after '[' (afterLast '@' netloc) = bracketed
      by_cases hbracket : .scalar ']' ∈ bracketed
      · have hvalue := congrArg List.length (before_after hbracket)
        rw [List.length_append, List.length_cons] at hvalue
        omega
      · rw [before_of_notMem hbracket, after_of_notMem hbracket]
        exact le_of_eq rfl
    dsimp only
    omega
  · have hport := portText_length (afterLast '@' netloc)
    dsimp only
    omega

end Localmail
