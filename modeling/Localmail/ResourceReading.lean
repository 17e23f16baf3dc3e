/-
A bound resource is accepted again just when the canonical forms are read as they
are written.
-/
import Localmail.ResourceBinding

namespace Localmail

/-! ### The canonical form by its parts -/

def Resource.canonical (resource : Resource) : Text :=
  resource.scheme ++ .scalar ':' ::
    (text "//" ++ resource.netloc ++
      (resource.path ++ queryText resource.query))

theorem urlunsplit_of_web {parts : SplitUrl} (hscheme : WebScheme parts.scheme)
    (hnetloc : parts.netloc ≠ [])
    (hpath : parts.path = [] ∨ parts.path.head? = some (.scalar '/'))
    (hfragment : parts.fragment = []) :
    urlunsplit parts = parts.scheme ++ .scalar ':' ::
      (text "//" ++ parts.netloc ++
        (parts.path ++ queryText parts.query)) := by
  have hslash : (if parts.path ≠ [] ∧ parts.path.head? ≠ some (.scalar '/') then
      text "/" ++ parts.path else parts.path) = parts.path := by
    apply if_neg
    rintro ⟨hsome, hother⟩
    exact hpath.elim hsome hother
  have hsome : parts.scheme ≠ [] := by
    obtain hweb | hweb := hscheme <;> rw [hweb] <;> decide
  have hcolon : text ":" = [.scalar ':'] := rfl
  simp only [urlunsplit, hslash, hnetloc, hsome, hfragment, ne_eq,
    not_false_eq_true, true_or, if_true, not_true_eq_false, if_false]
  rw [queryText, hcolon]
  by_cases hquery : parts.query = []
  · simp [hquery, List.append_assoc]
  · simp [hquery, List.append_assoc, text]

theorem webScheme_of_lookup {scheme : Text} {port : Nat}
    (hlookup : defaultPorts.lookup scheme = some port) : WebScheme scheme := by
  by_contra hother
  rw [WebScheme, not_or] at hother
  have hnone : defaultPorts.lookup scheme = none := by
    simp [defaultPorts, List.lookup_cons, beq_eq_false_iff_ne.mpr hother.1,
      beq_eq_false_iff_ne.mpr hother.2]
  rw [hnone] at hlookup
  cases hlookup

theorem dropSlash_subset {path : Text} :
    ∀ char ∈ dropSlash path, char ∈ path := by
  intro char hchar
  rw [dropSlash] at hchar
  split at hchar
  · exact List.mem_of_mem_dropLast hchar
  · exact hchar

theorem dropSlash_start {path : Text}
    (hpath : path = [] ∨ path.head? = some (.scalar '/')) :
    dropSlash path = [] ∨ (dropSlash path).head? = some (.scalar '/') := by
  rw [dropSlash]
  split
  · cases path with
    | nil => exact .inl rfl
    | cons first rest =>
        cases rest with
        | nil => exact .inl rfl
        | cons second rest =>
            obtain hempty | hslash := hpath
            · cases hempty
            · exact .inr hslash
  · exact hpath

theorem writtenNetloc_eq (host : Text) (port : Option Nat) (defaultPort : Nat) :
    writtenNetloc host port defaultPort =
      host ++ portText (((if port = some defaultPort then none else port).map
        decimal).getD []) := by
  cases port with
  | none => simp [writtenNetloc, portText]
  | some number =>
      rw [writtenNetloc]
      by_cases hsame : number = defaultPort
      · simp [hsame, portText]
      · simp [hsame, portText, decimal_ne_nil, text]

theorem resourceOf_eq_some {rules : UrlRules} {raw : Text}
    {resource : Resource} :
    resourceOf rules raw = some resource ↔
      ∃ parts port defaultPort host, urlsplit rules (strip raw) = some parts ∧
        netlocPort parts.netloc = some port ∧
        defaultPorts.lookup parts.scheme = some defaultPort ∧
        hostname rules parts.netloc = some host ∧ host ≠ [] ∧
        parts.fragment = [] ∧
        resource =
          { scheme := parts.scheme
            host := host
            port := if port = some defaultPort then none else port
            path := dropSlash parts.path
            query := parts.query } := by
  simp only [resourceOf, bind, Option.bind_eq_some_iff]
  constructor
  · rintro ⟨parts, hsplit, port, hport, defaultPort, hdefault, host, hhost, hif⟩
    split at hif
    · cases hif
    · rename_i hkept
      rw [not_or, not_ne_iff] at hkept
      exact ⟨parts, port, defaultPort, host, hsplit, hport, hdefault, hhost,
        hkept.1, hkept.2, (Option.some.inj hif).symm⟩
  · rintro ⟨parts, port, defaultPort, host, hsplit, hport, hdefault, hhost,
      hsome, hfragment, rfl⟩
    refine ⟨parts, hsplit, port, hport, defaultPort, hdefault, host, hhost, ?_⟩
    rw [if_neg]
    rw [not_or, not_ne_iff]
    exact ⟨hsome, hfragment⟩

theorem netloc_ne_nil_of_host {rules : UrlRules} {netloc host : Text}
    (hhost : hostname rules netloc = some host) : netloc ≠ [] := by
  rintro rfl
  cases hhost

theorem canonicalizeResource_eq (rules : UrlRules) (raw : Text) :
    canonicalizeResource rules raw =
      (resourceOf rules raw).map Resource.canonical := by
  rw [canonicalizeResource, resourceOf]
  cases hsplit : urlsplit rules (strip raw) with
  | none => rfl
  | some parts =>
      cases hport : netlocPort parts.netloc with
      | none => simp [hport]
      | some port =>
          cases hdefault : defaultPorts.lookup parts.scheme with
          | none => simp [hport, hdefault]
          | some defaultPort =>
              cases hhost : hostname rules parts.netloc with
              | none => simp [hport, hdefault, hhost]
              | some host =>
                  simp only [hport, hdefault, hhost, bind, Option.bind_some]
                  split
                  · rfl
                  · rename_i hkept
                    rw [not_or, not_ne_iff] at hkept
                    have hplain := urlsplit_plain hsplit
                      (netloc_ne_nil_of_host hhost)
                    have hnetloc : writtenNetloc host port defaultPort ≠ [] := by
                      rw [writtenNetloc_eq]
                      exact List.append_ne_nil_of_left_ne_nil hkept.1 _
                    have hunsplit : urlunsplit
                        { scheme := parts.scheme
                          netloc := writtenNetloc host port defaultPort
                          path := dropSlash parts.path
                          query := parts.query
                          fragment := [] } = _ :=
                      urlunsplit_of_web (webScheme_of_lookup hdefault) hnetloc
                        (dropSlash_start hplain.pathStart) rfl
                    rw [hunsplit, Option.map_some]
                    simp only [Resource.canonical, Resource.netloc,
                      writtenNetloc_eq]

/-! ### What is read -/

/-- Without `@`, `:`, `#` and `?` no separator is left. -/
theorem separator_notMem_plain {netloc : Text}
    (hends : ∀ char ∈ netloc, char.endsNetloc = false) {sep : CodePoint} (hsep : sep ∈ urlSeparators) :
    sep ∉ netloc.filter fun char => char ∉ text "@:#?" := by
  intro hmem
  obtain ⟨hnetloc, hkept⟩ := List.mem_filter.mp hmem
  have hother := hends sep hnetloc
  have hall : ∀ sep ∈ urlSeparators,
      sep ∈ text "@:#?" ∨ sep.endsNetloc = true := by decide
  obtain hnamed | hend := hall sep hsep
  · exact of_decide_eq_true hkept hnamed
  · rw [hend] at hother
    cases hother

section Checks

variable {rules : UrlRules} (hrules : rules.Lawful) {netloc : Text}
  (hends : ∀ char ∈ netloc, char.endsNetloc = false)

include hrules hends

theorem not_expands_of_checkNetloc (hcheck : checkNetloc rules netloc = true)
    {char : CodePoint} (hchar : char ∈ netloc) : ¬rules.Expands char := by
  rintro ⟨hascii, hseparator⟩
  have hplain : char ∈ netloc.filter fun char => char ∉ text "@:#?" := by
    refine List.mem_filter.mpr ⟨hchar, decide_eq_true fun hnamed => ?_⟩
    have hall : ∀ other ∈ text "@:#?", other.isAscii = true := by decide
    rw [hall char hnamed] at hascii
    cases hascii
  obtain ⟨sep, hsep, hmem⟩ :=
    (hrules.nfkc_separator _).mpr ⟨char, hplain, hseparator⟩
  simp only [checkNetloc, Bool.or_eq_true, decide_eq_true_eq] at hcheck
  obtain (hall | hsame) | hnone := hcheck
  · rw [List.all_eq_true.mp hall char hchar] at hascii
    cases hascii
  · rw [← hsame] at hmem
    exact separator_notMem_plain hends hsep hmem
  · exact of_decide_eq_true (List.all_eq_true.mp hnone sep hsep) hmem

theorem checkNetloc_of_plain
    (hplain : ∀ char ∈ netloc, ¬rules.Expands char) :
    checkNetloc rules netloc = true := by
  simp only [checkNetloc, Bool.or_eq_true]
  refine .inr (List.all_eq_true.mpr fun sep hsep => decide_eq_true fun hmem => ?_)
  obtain ⟨char, hchar, other, hother, hin⟩ :=
    (hrules.nfkc_separator _).mp ⟨sep, hsep, hmem⟩
  cases hascii : char.isAscii with
  | true =>
      rw [hrules.nfkc_ascii char hascii, List.mem_singleton] at hin
      exact separator_notMem_plain hends hother (hin ▸ hchar)
  | false =>
      exact hplain char (List.mem_of_mem_filter hchar)
        ⟨hascii, other, hother, hin⟩

end Checks

section Hosts

variable {rules : UrlRules} (hrules : rules.Lawful) {netloc host : Text}
  (hhost : hostname rules netloc = some host)

include hhost

theorem hostname_eq : host = rules.lower (before '%' (hostinfo netloc).1) ++
    (hostinfo netloc).1.dropWhile (· ≠ .scalar '%') := by
  rw [hostname] at hhost
  split at hhost
  · cases hhost
  · exact (Option.some.inj hhost).symm

theorem mem_hostname {char : CodePoint} (hchar : char ∈ host) :
    char ∈ rules.lower (before '%' (hostinfo netloc).1) ∨
      char ∈ (hostinfo netloc).1 := by
  rw [hostname_eq hhost, List.mem_append] at hchar
  obtain hlower | hzone := hchar
  · exact .inl hlower
  · exact .inr ((List.dropWhile_sublist _).mem hzone)

include hrules

theorem punctuation_of_hostname {char : CodePoint}
    (hascii : char.isAscii = true) (hletter : char.isLetter = false)
    (hchar : char ∈ host) : char ∈ (hostinfo netloc).1 := by
  obtain hlower | hmem := mem_hostname hhost hchar
  · exact mem_of_mem_before
      (hrules.lower_punctuation _ _ hlower hascii hletter)
  · exact hmem

theorem expanding_of_hostname {char : CodePoint}
    (hexpands : rules.Expands char) (hchar : char ∈ host) :
    char ∈ (hostinfo netloc).1 := by
  obtain hlower | hmem := mem_hostname hhost hchar
  · exact mem_of_mem_before (hrules.lower_expands _ _ hlower hexpands)
  · exact hmem

theorem hostname_lowered : before '%' host =
    rules.lower (before '%' (hostinfo netloc).1) := by
  have hpercent :
      .scalar '%' ∉ rules.lower (before '%' (hostinfo netloc).1) := by
    intro hmem
    exact sep_notMem_before
      (hrules.lower_punctuation _ _ hmem (by decide) (by decide))
  rw [hostname_eq hhost]
  exact before_append_drop hpercent

end Hosts

/-- What holds of the parts of a resource that was read. -/
structure Resource.WellFormed (rules : UrlRules) (resource : Resource) :
    Prop where
  scheme : WebScheme resource.scheme
  host : resource.host ≠ []
  hostEnds : ∀ char ∈ resource.host, char.endsNetloc = false
  hostTabs : TabFree resource.host
  user : .scalar '@' ∉ resource.host
  brackets : .scalar '[' ∉ resource.host ∨ .scalar ']' ∉ resource.host
  lowered : ∃ value, before '%' resource.host = rules.lower value
  plain : ∀ char ∈ resource.host, ¬rules.Expands char
  port : ∀ number ∈ resource.port, number ≤ 65535 ∧
    defaultPorts.lookup resource.scheme ≠ some number
  pathStart : resource.path = [] ∨ resource.path.head? = some (.scalar '/')
  pathQuery : .scalar '?' ∉ resource.path
  pathFragment : .scalar '#' ∉ resource.path
  pathTabs : TabFree resource.path
  query : .scalar '#' ∉ resource.query
  queryTabs : TabFree resource.query

theorem netlocPort_le {netloc : Text} {port : Option Nat}
    (hport : netlocPort netloc = some port) : ∀ number ∈ port, number ≤ 65535 := by
  rw [netlocPort] at hport
  split at hport
  · rw [← Option.some.inj hport]
    exact nofun
  · split at hport
    · cases hport
    · split at hport
      · rename_i hsmall
        rw [← Option.some.inj hport]
        intro number hnumber
        rw [← Option.some.inj hnumber]
        exact hsmall
      · cases hport

theorem endsNetloc_punctuation {char : CodePoint}
    (hend : char.endsNetloc = true) :
    char.isAscii = true ∧ char.isLetter = false := by
  have hall : ∀ char ∈ text "/?#",
      char.isAscii = true ∧ char.isLetter = false := by decide
  exact hall char (of_decide_eq_true hend)

theorem isTabOrNewline_punctuation {char : CodePoint}
    (htab : char.isTabOrNewline = true) :
    char.isAscii = true ∧ char.isLetter = false := by
  simp only [CodePoint.isTabOrNewline, Bool.or_eq_true, decide_eq_true_eq] at htab
  obtain (rfl | rfl) | rfl := htab <;> decide

theorem resourceOf_wellFormed {rules : UrlRules} (hrules : rules.Lawful)
    {raw : Text} {resource : Resource}
    (hread : resourceOf rules raw = some resource) :
    resource.WellFormed rules := by
  obtain ⟨parts, port, defaultPort, host, hsplit, hport, hdefault, hhost, hsome,
    -, rfl⟩ := resourceOf_eq_some.mp hread
  have hplain := urlsplit_plain hsplit (netloc_ne_nil_of_host hhost)
  have hchecks := urlsplit_checks hsplit
  exact
    { scheme := webScheme_of_lookup hdefault
      host := hsome
      hostEnds := by
        intro char hchar
        rw [← Bool.not_eq_true]
        intro hend
        obtain ⟨hascii, hletter⟩ := endsNetloc_punctuation hend
        have hmem := mem_of_mem_host
          (punctuation_of_hostname hrules hhost hascii hletter hchar)
        rw [hplain.netloc char hmem] at hend
        cases hend
      hostTabs := by
        intro char hchar
        rw [← Bool.not_eq_true]
        intro htab
        obtain ⟨hascii, hletter⟩ := isTabOrNewline_punctuation htab
        have hmem := mem_of_mem_host
          (punctuation_of_hostname hrules hhost hascii hletter hchar)
        rw [hplain.netlocTabs char hmem] at htab
        cases htab
      user := fun hmem => user_notMem_host _ (punctuation_of_hostname hrules
        hhost (by decide) (by decide) hmem)
      brackets := by
        obtain hopen | hclose := brackets_of_host parts.netloc
        · exact .inl fun hmem => hopen (punctuation_of_hostname hrules hhost
            (by decide) (by decide) hmem)
        · exact .inr fun hmem => hclose (punctuation_of_hostname hrules hhost
            (by decide) (by decide) hmem)
      lowered := ⟨_, hostname_lowered hrules hhost⟩
      plain := fun char hchar hexpands =>
        not_expands_of_checkNetloc hrules hplain.netloc hchecks.2
          (mem_of_mem_host
            (expanding_of_hostname hrules hhost hexpands hchar)) hexpands
      port := by
        intro number hnumber
        dsimp only at hnumber
        split at hnumber
        · cases hnumber
        · rename_i hdiffer
          refine ⟨netlocPort_le hport number hnumber, ?_⟩
          rw [hdefault]
          rintro ⟨⟩
          exact hdiffer hnumber
      pathStart := dropSlash_start hplain.pathStart
      pathQuery := fun hmem => hplain.pathQuery (dropSlash_subset _ hmem)
      pathFragment := fun hmem => hplain.pathFragment (dropSlash_subset _ hmem)
      pathTabs := fun char hmem =>
        hplain.pathTabs char (dropSlash_subset _ hmem)
      query := hplain.query
      queryTabs := hplain.queryTabs }

/-! ### Reading the written host -/

theorem netloc_of_none {resource : Resource} (hport : resource.port = none) :
    resource.netloc = resource.host := by
  rw [Resource.netloc, hport]
  exact List.append_nil _

theorem netloc_of_some {resource : Resource} {number : Nat}
    (hport : resource.port = some number) :
    resource.netloc = resource.host ++ .scalar ':' :: decimal number := by
  rw [Resource.netloc, hport, Option.map_some, Option.getD_some, portText,
    if_neg (decimal_ne_nil number)]

/-- What stands before the first colon is of the host. -/
theorem before_netloc (resource : Resource) :
    before ':' resource.netloc = before ':' resource.host := by
  cases hport : resource.port with
  | none => rw [netloc_of_none hport]
  | some number =>
      rw [netloc_of_some hport]
      by_cases hcolon : .scalar ':' ∈ resource.host
      · obtain ⟨left, right, hhost, hleft⟩ := List.eq_append_cons_of_mem hcolon
        rw [hhost, List.append_assoc, List.cons_append, before_append hleft,
          before_append hleft]
      · rw [before_append hcolon, before_of_notMem hcolon]

theorem mem_netloc_iff {resource : Resource} {char : CodePoint}
    (hcolon : char ≠ .scalar ':') (hdigit : char.isAsciiDigit = false) :
    char ∈ resource.netloc ↔ char ∈ resource.host := by
  rw [Resource.netloc, List.mem_append]
  constructor
  · rintro (hmem | hmem)
    · exact hmem
    · exfalso
      rw [portText] at hmem
      split at hmem
      · cases hmem
      · obtain rfl | hmem := List.mem_cons.mp hmem
        · exact hcolon rfl
        · cases hport : resource.port with
          | none =>
              rw [hport] at hmem
              cases hmem
          | some number =>
              rw [hport] at hmem
              have hother := isAsciiDigit_of_mem_decimal char hmem
              rw [hdigit] at hother
              cases hother
  · exact Or.inl

section Written

variable {rules : UrlRules} (hrules : rules.Lawful) {resource : Resource}
  (hformed : resource.WellFormed rules)

include hformed

theorem user_notMem_netloc : .scalar '@' ∉ resource.netloc := by
  rw [mem_netloc_iff (by decide) (by decide)]
  exact hformed.user

theorem checkBrackets_netloc : checkBrackets rules resource.netloc = true ↔
    .scalar '[' ∉ resource.host ∧ .scalar ']' ∉ resource.host := by
  have hopen : .scalar '[' ∈ resource.netloc ↔ .scalar '[' ∈ resource.host :=
    mem_netloc_iff (by decide) (by decide)
  have hclose : .scalar ']' ∈ resource.netloc ↔ .scalar ']' ∈ resource.host :=
    mem_netloc_iff (by decide) (by decide)
  rw [checkBrackets]
  split
  · rename_i hmem
    rw [hopen] at hmem
    have hnone := hformed.brackets.resolve_left (not_not_intro hmem)
    simp [hmem, hclose, hnone]
  · rename_i hmem
    rw [hopen] at hmem
    simp [hmem, hclose]

theorem netloc_ends : ∀ char ∈ resource.netloc, char.endsNetloc = false := by
  intro char hchar
  cases hend : char.endsNetloc with
  | false => rfl
  | true =>
      have hall : ∀ other ∈ text "/?#", other ≠ .scalar ':' ∧
          other.isAsciiDigit = false := by decide
      obtain ⟨hcolon, hdigit⟩ := hall char (of_decide_eq_true hend)
      rw [mem_netloc_iff hcolon hdigit] at hchar
      rw [hformed.hostEnds char hchar] at hend
      cases hend

theorem netloc_tabFree : TabFree resource.netloc := by
  intro char hchar
  cases htab : char.isTabOrNewline with
  | false => rfl
  | true =>
      have hother : char ≠ .scalar ':' ∧ char.isAsciiDigit = false := by
        simp only [CodePoint.isTabOrNewline, Bool.or_eq_true,
          decide_eq_true_eq] at htab
        obtain (rfl | rfl) | rfl := htab <;> decide
      rw [mem_netloc_iff hother.1 hother.2] at hchar
      rw [hformed.hostTabs char hchar] at htab
      cases htab

theorem netloc_plain : ∀ char ∈ resource.netloc, ¬rules.Expands char := by
  intro char hchar hexpands
  have hcolon : char ≠ .scalar ':' := by
    rintro rfl
    exact absurd hexpands.1 (by decide)
  have hdigit : char.isAsciiDigit = false := by
    rw [← Bool.not_eq_true]
    intro hdigit
    have hascii := hexpands.1
    rw [isAscii_of_isAsciiDigit hdigit] at hascii
    cases hascii
  rw [mem_netloc_iff hcolon hdigit] at hchar
  exact hformed.plain char hchar hexpands

/-- The parts of the canonical form. -/
theorem canonical_plain : SplitUrl.Plain
    { scheme := resource.scheme
      netloc := resource.netloc
      path := resource.path
      query := resource.query
      fragment := [] } where
  netloc := netloc_ends hformed
  netlocTabs := netloc_tabFree hformed
  pathStart := hformed.pathStart
  pathQuery := hformed.pathQuery
  pathFragment := hformed.pathFragment
  pathTabs := hformed.pathTabs
  query := hformed.query
  queryTabs := hformed.queryTabs

include hrules

/-- A host read from the beginning of what is written is not changed again. -/
theorem hostname_of_beginning {netloc : Text} (hbegins : netloc <+: resource.netloc)
    (hopen : .scalar '[' ∉ netloc) :
    hostname rules netloc =
      if before ':' netloc = [] then none else some (before ':' netloc) := by
  have huser : .scalar '@' ∉ netloc :=
    fun hmem => user_notMem_netloc hformed (hbegins.subset hmem)
  have hinfo := hostinfo_of_plain huser hopen
  have hhost : before ':' netloc <+: resource.host := by
    apply (before_mono hbegins).trans
    rw [before_netloc]
    exact List.takeWhile_prefix _
  obtain ⟨value, hvalue⟩ := hformed.lowered
  have hlower : rules.lower (before '%' (before ':' netloc)) =
      before '%' (before ':' netloc) := by
    apply hrules.lower_eq value
    intro char hchar
    rw [← hvalue]
    exact (before_mono hhost).subset hchar
  rw [hostname, hinfo]
  dsimp only
  rw [hlower, before_append_dropWhile]

end Written

theorem decimal_length_of_port {number : Nat} (hnumber : number ≤ 65535) :
    (decimal number).length ≤ intMaxStrDigits := by
  have hfive : (decimal number).length ≤ 5 := by
    rw [decimal, List.length_map]
    apply (Nat.length_toDigits_le_iff (by decide) (by decide)).mpr
    omega
  exact hfive.trans (by decide)

/-- A port is read from digits alone, and not beyond its range. -/
theorem netlocPort_of_plain {netloc : Text} {port : Option Nat}
    (huser : .scalar '@' ∉ netloc) (hopen : .scalar '[' ∉ netloc) :
    netlocPort netloc = some port ↔
      (after ':' netloc = [] ∧ port = none) ∨
        ∃ number, parseDigits (after ':' netloc) = some number ∧
          number ≤ 65535 ∧ port = some number := by
  rw [netlocPort, hostinfo_of_plain huser hopen]
  dsimp only
  by_cases hempty : after ':' netloc = []
  · have hnone : parseDigits [] = none := rfl
    rw [if_pos hempty, hempty, hnone]
    simp [eq_comm]
  · rw [if_neg hempty]
    cases hparse : parseDigits (after ':' netloc) with
    | none => simp [hempty]
    | some number =>
        by_cases hsmall : number ≤ 65535
        · simp [hempty, hsmall, eq_comm]
        · simp [hempty, hsmall]

/-- A port is written as it was read, without the default one. -/
def shownPort (port : Option Nat) (defaultPort : Nat) : Text :=
  portText (((if port = some defaultPort then none else port).map
    decimal).getD [])

theorem shownPort_eq_cons_iff {port : Option Nat} {defaultPort : Nat}
    {digits : Text} :
    shownPort port defaultPort = .scalar ':' :: digits ↔
      ∃ number, port = some number ∧ number ≠ defaultPort ∧
        decimal number = digits := by
  cases port with
  | none => simp [shownPort, portText]
  | some number =>
      by_cases hsame : number = defaultPort
      · simp [shownPort, portText, hsame]
      · simp [shownPort, portText, hsame, decimal_ne_nil]

section Kept

variable {rules : UrlRules} (hrules : rules.Lawful) {resource : Resource}
  (hformed : resource.WellFormed rules) {defaultPort : Nat}
  (hdefault : defaultPorts.lookup resource.scheme = some defaultPort)

include hformed hdefault

theorem netloc_kept_plain (hcolon : .scalar ':' ∉ resource.host)
    (hopen : .scalar '[' ∉ resource.host) :
    netlocPort resource.netloc = some resource.port ∧
      resource.host ++ shownPort resource.port defaultPort =
        resource.netloc := by
  have huser := user_notMem_netloc hformed
  have hbracket : .scalar '[' ∉ resource.netloc := by
    rw [mem_netloc_iff (by decide) (by decide)]
    exact hopen
  have hkept : (if resource.port = some defaultPort then none
      else resource.port) = resource.port := by
    apply if_neg
    intro hsame
    exact (hformed.port defaultPort hsame).2 hdefault
  refine ⟨?_, by rw [shownPort, hkept, Resource.netloc]⟩
  rw [netlocPort_of_plain huser hbracket]
  cases hport : resource.port with
  | none =>
      rw [netloc_of_none hport]
      exact .inl ⟨after_of_notMem hcolon, rfl⟩
  | some number =>
      have hsmall := (hformed.port number hport).1
      rw [netloc_of_some hport, after_append hcolon]
      exact .inr ⟨number, parseDigits_decimal (decimal_length_of_port hsmall),
        hsmall, rfl⟩

omit hdefault in
/-- A host with a colon is kept just as the name and the port that are read of
it. -/
theorem netloc_kept_colon {name rest : Text}
    (hhost : resource.host = name ++ .scalar ':' :: rest)
    (hname : .scalar ':' ∉ name) (hopen : .scalar '[' ∉ resource.host) :
    (∃ port, netlocPort resource.netloc = some port ∧
        name ++ shownPort port defaultPort = resource.netloc) ↔
      resource.port = none ∧ ∃ number, rest = decimal number ∧
        number ≤ 65535 ∧ number ≠ defaultPort := by
  have huser := user_notMem_netloc hformed
  have hbracket : .scalar '[' ∉ resource.netloc := by
    rw [mem_netloc_iff (by decide) (by decide)]
    exact hopen
  cases hport : resource.port with
  | some number =>
      refine iff_of_false ?_ nofun
      rintro ⟨port, hread, -⟩
      rw [netlocPort_of_plain huser hbracket, netloc_of_some hport, hhost,
        List.append_assoc, List.cons_append, after_append hname] at hread
      obtain ⟨hempty, -⟩ | ⟨other, hparse, -⟩ := hread
      · simp at hempty
      · rw [parseDigits] at hparse
        split at hparse
        · rename_i hdigits
          have hcolon := List.all_eq_true.mp hdigits.2.1 (.scalar ':')
            (by simp)
          cases hcolon
        · cases hparse
  | none =>
      have hnetloc : resource.netloc = name ++ .scalar ':' :: rest := by
        rw [netloc_of_none hport, hhost]
      rw [hnetloc] at huser hbracket ⊢
      constructor
      · rintro ⟨port, hread, hsame⟩
        obtain ⟨number, hnumber, hdiffer, hdigits⟩ :=
          shownPort_eq_cons_iff.mp (List.append_cancel_left hsame)
        exact ⟨rfl, number, hdigits.symm, netlocPort_le hread number hnumber,
          hdiffer⟩
      · rintro ⟨-, number, hdigits, hsmall, hdiffer⟩
        refine ⟨some number, ?_, ?_⟩
        · rw [netlocPort_of_plain huser hbracket, after_append hname, hdigits]
          exact .inr ⟨number, parseDigits_decimal (decimal_length_of_port hsmall),
            hsmall, rfl⟩
        · rw [shownPort_eq_cons_iff.mpr ⟨number, rfl, hdiffer, hdigits.symm⟩]

/-- What is read of the written host and port is written so again. -/
theorem netloc_kept_iff (hrules : rules.Lawful) :
    (checkBrackets rules resource.netloc = true ∧ ∃ port host,
        netlocPort resource.netloc = some port ∧
        hostname rules resource.netloc = some host ∧
        host ++ shownPort port defaultPort = resource.netloc) ↔
      resource.HostKept := by
  rw [checkBrackets_netloc hformed, Resource.HostKept, ← and_assoc]
  apply and_congr_right
  rintro ⟨hopen, -⟩
  have hbracket : .scalar '[' ∉ resource.netloc := by
    rw [mem_netloc_iff (by decide) (by decide)]
    exact hopen
  rw [hostname_of_beginning hrules hformed List.prefix_rfl hbracket, before_netloc]
  by_cases hcolon : .scalar ':' ∈ resource.host
  · obtain ⟨name, rest, hhost, hname⟩ := List.eq_append_cons_of_mem hcolon
    have hkept := @netloc_kept_colon _ _ hformed defaultPort _ _ hhost hname hopen
    rw [hhost, before_append hname, ← hhost]
    simp only [hcolon, forall_const]
    constructor
    · rintro ⟨port, host, hread, hfound, hsame⟩
      split at hfound
      · cases hfound
      · rename_i hsome
        obtain rfl := Option.some.inj hfound
        obtain ⟨hport, number, rfl, hsmall, hdiffer⟩ := hkept.mp ⟨port, hread, hsame⟩
        refine ⟨hport, name, number, hsome, hname, hhost, hsmall, ?_⟩
        rw [hdefault]
        exact fun hother => hdiffer (Option.some.inj hother).symm
    · rintro ⟨hport, name', number, hsome, hname', hhost', hsmall, hdiffer⟩
      have hbefore := congrArg (before ':') (hhost.symm.trans hhost')
      rw [before_append hname, before_append hname'] at hbefore
      have hafter := congrArg (after ':') (hhost.symm.trans hhost')
      rw [after_append hname, after_append hname'] at hafter
      have hother : number ≠ defaultPort := by
        rintro rfl
        exact hdiffer hdefault
      obtain ⟨port, hread, hsame⟩ :=
        hkept.mpr ⟨hport, number, hafter, hsmall, hother⟩
      rw [← hbefore] at hsome
      exact ⟨port, name, hread, if_neg hsome, hsame⟩
  · obtain ⟨hread, hsame⟩ := netloc_kept_plain hformed hdefault hcolon hopen
    rw [before_of_notMem hcolon, if_neg hformed.host]
    exact iff_of_true ⟨resource.port, resource.host, hread, rfl, hsame⟩
      fun hmem => absurd hmem hcolon

end Kept

/-! ### Reading the canonical form -/

theorem shownPort_length {netloc : Text} {port : Option Nat}
    (hport : netlocPort netloc = some port) (defaultPort : Nat) :
    (shownPort port defaultPort).length ≤
      (portText (hostinfo netloc).2).length := by
  rw [netlocPort] at hport
  split at hport
  · rw [← Option.some.inj hport]
    exact Nat.zero_le _
  · rename_i hsome
    split at hport
    · cases hport
    · rename_i number hparse
      split at hport
      · rw [← Option.some.inj hport, shownPort, portText, portText, if_neg hsome]
        by_cases hsame : number = defaultPort
        · simp [hsame]
        · simp [hsame, decimal_ne_nil,
            decimal_length_le_of_parseDigits hparse]
      · cases hport

theorem dropSlash_eq_iff (path : Text) :
    dropSlash path = path ↔ path.getLast? ≠ some (.scalar '/') := by
  rw [dropSlash]
  split
  · rename_i hslash
    refine iff_of_false (fun hsame => ?_) (not_not_intro hslash)
    have hlength := congrArg List.length hsame
    cases path with
    | nil => cases hslash
    | cons first rest =>
        rw [List.length_dropLast, List.length_cons] at hlength
        omega
  · rename_i hslash
    exact iff_of_true rfl hslash

theorem dropSlash_length (path : Text) :
    (dropSlash path).length ≤ path.length := by
  rw [dropSlash]
  split
  · exact (List.dropLast_sublist _).length_le
  · exact le_rfl

theorem canonical_length (resource : Resource) :
    resource.canonical.length = resource.scheme.length + 3 +
      resource.netloc.length + resource.path.length +
      (queryText resource.query).length := by
  have hslashes : (text "//").length = 2 := rfl
  simp only [Resource.canonical, List.length_append, List.length_cons, hslashes]
  omega

theorem netloc_ne_nil {resource : Resource} (hhost : resource.host ≠ []) :
    resource.netloc ≠ [] :=
  List.append_ne_nil_of_left_ne_nil hhost _

theorem canonical_end {resource : Resource} (hhost : resource.host ≠ []) :
    resource.canonical.getLast? =
      (resource.netloc ++ resource.path ++ resource.query).getLast? := by
  have hnetloc := netloc_ne_nil hhost
  have hwhole : resource.canonical = resource.scheme ++ text "://" ++
      (resource.netloc ++ resource.path ++ queryText resource.query) := by
    simp [Resource.canonical, text]
  rw [hwhole, List.getLast?_append_of_ne_nil _ (by simp [hnetloc]), queryText]
  cases hquery : resource.query with
  | nil => rfl
  | cons first rest =>
      rw [if_neg (List.cons_ne_nil first rest),
        List.getLast?_append_of_ne_nil _ (List.cons_ne_nil _ _),
        List.getLast?_append_of_ne_nil _ (List.cons_ne_nil _ _),
        List.getLast?_cons_cons]

section Canonical

variable {rules : UrlRules} (hrules : rules.Lawful) {resource : Resource}
  (hformed : resource.WellFormed rules)

include hformed

theorem canonical_strip : strip resource.canonical = rstrip resource.canonical := by
  have hhead : lstrip resource.canonical = resource.canonical := by
    rw [Resource.canonical]
    obtain hweb | hweb := hformed.scheme <;> rw [hweb] <;> rfl
  rw [strip_eq, hhead]

/-- The parts are read off the canonical form. -/
theorem canonical_inj {other : Resource} (hother : other.WellFormed rules)
    (hscheme : other.scheme = resource.scheme)
    (hsame : other.canonical = resource.canonical) :
    other.netloc = resource.netloc ∧
      other.path ++ queryText other.query =
        resource.path ++ queryText resource.query := by
  rw [Resource.canonical, Resource.canonical, hscheme] at hsame
  have hrest := congrArg splitNetloc
    (List.cons.inj (List.append_cancel_left hsame)).2
  rw [splitNetloc_of_plain (netloc_ends hother)
      (query_mark_rest _ _ hother.pathStart),
    splitNetloc_of_plain (netloc_ends hformed)
      (query_mark_rest _ _ hformed.pathStart)] at hrest
  exact Prod.mk.inj hrest

include hrules

/-- What is read of a canonical form that does not end in whitespace. -/
theorem resourceOf_canonical {defaultPort : Nat}
    (hdefault : defaultPorts.lookup resource.scheme = some defaultPort)
    (hsolid : ∀ char ∈ resource.canonical.getLast?, char.isSpace = false)
    {other : Resource} :
    resourceOf rules resource.canonical = some other ↔
      checkBrackets rules resource.netloc = true ∧ ∃ port host,
        netlocPort resource.netloc = some port ∧
        hostname rules resource.netloc = some host ∧
        other =
          { scheme := resource.scheme
            host := host
            port := if port = some defaultPort then none else port
            path := dropSlash resource.path
            query := resource.query } := by
  have hstrip : strip resource.canonical = resource.canonical := by
    rw [canonical_strip hformed, rstrip_of_solid_end hsolid]
  have hsplit := urlsplit_written rules hformed.scheme
    (canonical_plain hformed) rfl
  rw [checkNetloc_of_plain hrules (netloc_ends hformed) (netloc_plain hformed),
    Bool.and_true] at hsplit
  have hbefore : ∀ {host}, checkBrackets rules resource.netloc = true →
      hostname rules resource.netloc = some host → host ≠ [] := by
    intro host hbrackets hhost
    have hopen := ((checkBrackets_netloc hformed).mp hbrackets).1
    rw [hostname_of_beginning hrules hformed List.prefix_rfl
      (by rwa [mem_netloc_iff (by decide) (by decide)])] at hhost
    split at hhost
    · cases hhost
    · rename_i hsome
      rw [← Option.some.inj hhost]
      exact hsome
  rw [resourceOf_eq_some, hstrip]
  constructor
  · rintro ⟨parts, port, ownPort, host, hparts, hport, hown, hhost, -, -, rfl⟩
    rw [Resource.canonical, hsplit] at hparts
    split at hparts
    · rename_i hbrackets
      obtain rfl := Option.some.inj hparts
      obtain rfl := Option.some.inj (hdefault.symm.trans hown)
      exact ⟨hbrackets, port, host, hport, hhost, rfl⟩
    · cases hparts
  · rintro ⟨hbrackets, port, host, hport, hhost, rfl⟩
    rw [Resource.canonical, hsplit, if_pos hbrackets]
    exact ⟨_, port, defaultPort, host, rfl, hport, hdefault, hhost,
      hbefore hbrackets hhost, rfl, rfl⟩

theorem canonicalize_canonical_iff_solid
    (hsolid : ∀ char ∈ resource.canonical.getLast?, char.isSpace = false) :
    canonicalizeResource rules resource.canonical = some resource.canonical ↔
      resource.HostKept ∧ resource.path.getLast? ≠ some (.scalar '/') := by
  obtain ⟨defaultPort, hdefault⟩ : ∃ defaultPort,
      defaultPorts.lookup resource.scheme = some defaultPort := by
    obtain hweb | hweb := hformed.scheme <;> rw [hweb]
    · exact ⟨80, by decide⟩
    · exact ⟨443, by decide⟩
  rw [← netloc_kept_iff hformed hdefault hrules, ← dropSlash_eq_iff,
    canonicalizeResource_eq, Option.map_eq_some_iff]
  constructor
  · rintro ⟨other, hread, hsame⟩
    have hother := resourceOf_wellFormed hrules hread
    obtain ⟨hbrackets, port, host, hport, hhost, rfl⟩ :=
      (resourceOf_canonical hrules hformed hdefault hsolid).mp hread
    obtain ⟨hnetloc, hpath⟩ := canonical_inj hformed hother rfl hsame
    exact ⟨⟨hbrackets, port, host, hport, hhost, hnetloc⟩,
      List.append_cancel_right hpath⟩
  · rintro ⟨⟨hbrackets, port, host, hport, hhost, hnetloc⟩, hpath⟩
    refine ⟨_, (resourceOf_canonical hrules hformed hdefault hsolid).mpr
      ⟨hbrackets, port, host, hport, hhost, rfl⟩, ?_⟩
    have hshown : Resource.netloc
        { scheme := resource.scheme
          host := host
          port := if port = some defaultPort then none else port
          path := dropSlash resource.path
          query := resource.query } = resource.netloc := hnetloc
    rw [Resource.canonical, hshown, hpath, Resource.canonical]

theorem canonicalize_canonical_ne {last : CodePoint}
    (hlast : resource.canonical.getLast? = some last)
    (hspace : last.isSpace = true) :
    canonicalizeResource rules resource.canonical ≠ some resource.canonical := by
  rw [canonicalizeResource_eq]
  intro hsame
  obtain ⟨other, hread, htext⟩ := Option.map_eq_some_iff.mp hsame
  obtain ⟨parts, port, defaultPort, host, hsplit, hport, hdefault, hhost, -, -,
    rfl⟩ := resourceOf_eq_some.mp hread
  have hscheme : parts.scheme ≠ [] := by
    obtain hweb | hweb := webScheme_of_lookup hdefault <;> rw [hweb] <;> decide
  have hnetloc := netloc_ne_nil_of_host hhost
  have hstrip : strip resource.canonical = rstrip resource.canonical :=
    canonical_strip hformed
  have hbegins : parts.netloc <+: resource.netloc := by
    apply netloc_beginning hformed.scheme (canonical_plain hformed).tabFree
      (query_mark_rest _ _ hformed.pathStart) _ hsplit hscheme
      (netloc_ends hformed) hnetloc
    rw [hstrip]
    exact rstrip_beginning _
  have hopen : .scalar '[' ∉ parts.netloc := by
    intro hmem
    have hbrackets := (urlsplit_checks hsplit).1
    rw [checkBrackets, if_pos hmem, Bool.and_eq_true, decide_eq_true_eq]
      at hbrackets
    have hboth := hformed.brackets
    rw [← mem_netloc_iff (by decide) (by decide),
      ← mem_netloc_iff (by decide) (by decide)] at hboth
    exact hboth.elim (fun hnone => hnone (hbegins.subset hmem))
      fun hnone => hnone (hbegins.subset hbrackets.1)
  have huser : .scalar '@' ∉ parts.netloc :=
    fun hmem => user_notMem_netloc hformed (hbegins.subset hmem)
  have hlower : host.length ≤ (hostinfo parts.netloc).1.length := by
    rw [hostname_of_beginning hrules hformed hbegins hopen] at hhost
    split at hhost
    · cases hhost
    · rw [← Option.some.inj hhost, hostinfo_of_plain huser hopen]
  have hshown := shownPort_length hport defaultPort
  have hinfo := hostinfo_length parts.netloc
  have hparts := urlsplit_length hsplit hscheme hnetloc
  have hshort := rstrip_length_lt hlast hspace
  have hpath := dropSlash_length parts.path
  have hwhole := congrArg List.length htext
  rw [canonical_length] at hwhole
  rw [hstrip] at hparts
  have hother : Resource.netloc
      { scheme := parts.scheme
        host := host
        port := if port = some defaultPort then none else port
        path := dropSlash parts.path
        query := parts.query } = host ++ shownPort port defaultPort := rfl
  rw [hother, List.length_append] at hwhole
  dsimp only at hwhole
  omega

end Canonical

/-! ### Accepted resources -/

section Accepted

variable {rules : UrlRules} (hrules : rules.Lawful)

include hrules

/-- The canonical form of a text is its own just when all that is read of the
text is kept. -/
theorem canonicalize_idempotent_iff {raw canon : Text}
    (hcanon : canonicalizeResource rules raw = some canon) :
    canonicalizeResource rules canon = some canon ↔ ResourceKept rules raw := by
  rw [canonicalizeResource_eq, Option.map_eq_some_iff] at hcanon
  obtain ⟨resource, hread, rfl⟩ := hcanon
  have hformed := resourceOf_wellFormed hrules hread
  have hkept : ResourceKept rules raw ↔ resource.Kept := by
    constructor
    · exact fun hkept => hkept resource hread
    · intro hkept other hother
      rw [hread] at hother
      rwa [← Option.some.inj hother]
  rw [hkept, Resource.Kept, ← canonical_end hformed.host]
  by_cases hsolid : ∀ char ∈ resource.canonical.getLast?, char.isSpace = false
  · rw [canonicalize_canonical_iff_solid hrules hformed hsolid]
    exact ⟨fun hboth => ⟨hboth.1, hboth.2, hsolid⟩,
      fun hall => ⟨hall.1, hall.2.1⟩⟩
  · refine iff_of_false ?_ fun hall => hsolid hall.2.2
    push Not at hsolid
    obtain ⟨last, hlast, hspace⟩ := hsolid
    exact canonicalize_canonical_ne hrules hformed hlast
      (by simpa using hspace)

omit hrules in
theorem canonicalize_ne_nil {raw canon : Text}
    (hcanon : canonicalizeResource rules raw = some canon) : canon ≠ [] := by
  rw [canonicalizeResource_eq, Option.map_eq_some_iff] at hcanon
  obtain ⟨resource, -, rfl⟩ := hcanon
  rw [Resource.canonical]
  exact List.append_ne_nil_of_right_ne_nil _ (List.cons_ne_nil _ _)

omit hrules in
/-- The accepted set holds the canonical forms of its sources. -/
theorem mem_accepted_iff {configured : Option (List Text)} {derived : Text}
    {accepted : List Text}
    (hresolve : resolveAcceptedResources rules configured derived =
      .ok accepted) {canon : Text} :
    canon ∈ accepted ↔ ∃ raw ∈ resourceSources configured derived,
      canonicalizeResource rules raw = some canon := by
  have hderived : ∀ {accepted : List Text},
      resolveAcceptedResources rules none derived = .ok accepted →
        (canon ∈ accepted ↔ ∃ raw ∈ [derived],
          canonicalizeResource rules raw = some canon) := by
    intro accepted hown
    cases hcanon : canonicalizeResource rules derived with
    | none =>
        rw [resolveAcceptedResources, hcanon] at hown
        cases hown
    | some own =>
        rw [resolveAcceptedResources, hcanon] at hown
        rw [← Except.ok.inj hown]
        simp [hcanon, eq_comm]
  rcases configured with _ | _ | ⟨first, rest⟩
  · exact hderived hresolve
  · exact hderived hresolve
  · simp only [resolveAcceptedResources] at hresolve
    split at hresolve
    · cases hresolve
    · rw [← Except.ok.inj hresolve, List.mem_filter, List.mem_filterMap,
        decide_eq_true_eq]
      constructor
      · exact fun hmem => hmem.1
      · rintro ⟨raw, hraw, hcanon⟩
        exact ⟨⟨raw, hraw, hcanon⟩, canonicalize_ne_nil hcanon⟩

omit hrules in
theorem bound_mem {requested : Option Text} {accepted : List Text}
    {require : Bool} {decision : ResourceDecision} {bound : Text}
    (hdecide : decideResource rules requested accepted require = some decision)
    (hbound : decision.bound = some bound) : bound ∈ accepted := by
  cases requested with
  | none =>
      rw [decideResource] at hdecide
      split at hdecide
      · obtain rfl := Option.some.inj hdecide
        cases hbound
      · obtain ⟨first, hfirst, rfl⟩ := Option.map_eq_some_iff.mp hdecide
        obtain rfl : first = bound := Option.some.inj hbound
        exact List.mem_of_mem_head? hfirst
  | some requested =>
      rw [decideResource] at hdecide
      split at hdecide
      · split at hdecide
        · rename_i canon _ hmem
          obtain rfl := Option.some.inj hdecide
          obtain rfl : canon = bound := Option.some.inj hbound
          exact hmem
        · obtain rfl := Option.some.inj hdecide
          cases hbound
      · obtain rfl := Option.some.inj hdecide
        cases hbound

end Accepted

/-- The canonical form of a text is its own, and an accepted set accepts what is
bound to it, just when all that is read of the texts is kept. -/
theorem bound_resource_accepted_iff (rules : UrlRules) (hrules : rules.Lawful) :
    (∀ raw canon, canonicalizeResource rules raw = some canon →
      (canonicalizeResource rules canon = some canon ↔
        ResourceKept rules raw)) ∧
    ∀ configured derived accepted,
      resolveAcceptedResources rules configured derived = .ok accepted →
        (BoundAccepted rules accepted ∧
            (∀ canon ∈ accepted,
              canonicalizeResource rules canon = some canon) ↔
          ∀ raw ∈ resourceSources configured derived,
            ResourceKept rules raw) ∧
        (accepted.length = 1 → (BoundAccepted rules accepted ↔
          ∀ raw ∈ resourceSources configured derived,
            ResourceKept rules raw)) := by
  refine ⟨fun raw canon => canonicalize_idempotent_iff hrules, ?_⟩
  intro configured derived accepted hresolve
  have hmem : ∀ canon, canon ∈ accepted ↔ _ :=
    fun canon => mem_accepted_iff hresolve
  have hown : (∀ canon ∈ accepted,
      canonicalizeResource rules canon = some canon) ↔
        ∀ raw ∈ resourceSources configured derived, ResourceKept rules raw := by
    constructor
    · intro hown raw hraw resource hread
      have hcanon : canonicalizeResource rules raw = some resource.canonical := by
        rw [canonicalizeResource_eq, hread]
        rfl
      exact (canonicalize_idempotent_iff hrules hcanon).mp
        (hown _ ((hmem _).mpr ⟨raw, hraw, hcanon⟩)) resource hread
    · intro hkept canon hcanon
      obtain ⟨raw, hraw, hread⟩ := (hmem canon).mp hcanon
      exact (canonicalize_idempotent_iff hrules hread).mpr (hkept raw hraw)
  have hbound : (∀ canon ∈ accepted,
      canonicalizeResource rules canon = some canon) →
        BoundAccepted rules accepted := by
    intro hown requested require decision bound hdecide _ hgiven
    have haccepted := bound_mem hdecide hgiven
    rw [audienceAccepted, hown bound haccepted]
    simpa using haccepted
  refine ⟨?_, fun hone => ?_⟩
  · rw [← hown]
    exact ⟨fun hboth => hboth.2, fun hall => ⟨hbound hall, hall⟩⟩
  · rw [← hown]
    refine ⟨fun haccepted => ?_, hbound⟩
    obtain ⟨canon, rfl⟩ := List.length_eq_one_iff.mp hone
    have hcheck := haccepted none false _ canon rfl rfl rfl
    rw [audienceAccepted, Option.any_eq_true] at hcheck
    obtain ⟨again, hagain, hsame⟩ := hcheck
    rw [List.mem_singleton.mp (of_decide_eq_true hsame)] at hagain
    intro other hother
    rw [List.mem_singleton.mp hother]
    exact hagain

namespace ResourceWitness

/-- As the standard library for ASCII. -/
def urlRules : UrlRules where
  lower := lowerAscii
  nfkc := id
  isIpv6 := fun host => host = text "::1"

theorem urlRules_lawful : urlRules.Lawful where
  lower_eq := by
    intro value part hpart
    conv_rhs => rw [← List.map_id part]
    apply List.map_congr_left
    intro char hchar
    obtain ⟨source, -, rfl⟩ := List.mem_map.mp (hpart char hchar)
    exact lowerAscii_lowerAscii source
  lower_punctuation := by
    intro value char hchar _ hletter
    obtain ⟨source, hsource, rfl⟩ := List.mem_map.mp hchar
    rw [isLetter_lowerAscii] at hletter
    cases source with
    | surrogate offset => exact hsource
    | scalar source =>
        rw [lowerAscii_of_not_letter hletter]
        exact hsource
  lower_expands := by
    rintro value char - ⟨hascii, sep, hsep, hmem⟩
    have hall : ∀ sep ∈ urlSeparators, sep.isAscii = true := by decide
    rw [← List.mem_singleton.mp hmem, hall sep hsep] at hascii
    cases hascii
  nfkc_separator := by
    intro value
    simp only [urlRules, id_eq, List.mem_singleton]
    constructor
    · rintro ⟨sep, hsep, hmem⟩
      exact ⟨sep, hmem, sep, hsep, rfl⟩
    · rintro ⟨char, hchar, sep, hsep, rfl⟩
      exact ⟨sep, hsep, hchar⟩
  nfkc_ascii := fun char _ => rfl

end ResourceWitness

open ResourceWitness in
/-- A server of an IPv6 address refuses every token that it binds. -/
theorem ipv6_resource_refused :
    resolveAcceptedResources urlRules (some [text "http://[::1]/mcp"])
        (text "http://h/mcp") = .ok [text "http://::1/mcp"] ∧
      decideResource urlRules none [text "http://::1/mcp"] false =
        some ⟨true, some (text "http://::1/mcp"), none⟩ ∧
      audienceAccepted urlRules (some [text "http://::1/mcp"])
        (some (text "http://::1/mcp")) = false := by
  decide +kernel

open ResourceWitness in
theorem bound_resource_accepted_iff_mcp :
    BoundAccepted urlRules [text "https://h:8443/mcp"] := by
  have hresolve : resolveAcceptedResources urlRules
      (some [text "https://H:8443/mcp/"]) (text "http://h/mcp") =
        .ok [text "https://h:8443/mcp"] := by
    decide +kernel
  have haccepted := ((bound_resource_accepted_iff urlRules urlRules_lawful).2
    _ _ _ hresolve).2 rfl
  apply haccepted.mpr
  intro raw hraw resource hread
  rw [List.mem_singleton.mp hraw] at hread
  have hparts : resourceOf urlRules (text "https://H:8443/mcp/") =
      some ⟨text "https", text "h", some 8443, text "/mcp", []⟩ := by
    decide +kernel
  rw [← Option.some.inj (hparts.symm.trans hread)]
  refine ⟨⟨by decide, by decide, fun hcolon => ?_⟩, by decide, by decide⟩
  exact absurd hcolon (by decide)

end Localmail
