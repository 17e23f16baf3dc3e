/-
Which texts of a parsed message the database can store.  Every text but the
header values passes only `strip_nuls` or nothing on its way from the email
package to the statement, so a lone surrogate the package answers with is bound.
-/
import Localmail.MailParser
import Localmail.StorableText

namespace Localmail

/-- UTF-8 has bytes for the text. -/
def Encodable (value : Text) : Prop :=
  ∀ offset, CodePoint.surrogate offset ∉ value

theorem Encodable.nil : Encodable [] := nofun

theorem Storable.encodable {value : Text} (hvalue : Storable value) :
    Encodable value :=
  fun _ hmem => Bool.false_ne_true (hvalue _ hmem)

theorem encodable_text (literal : String) : Encodable (text literal) := by
  intro offset hmem
  obtain ⟨char, -, hchar⟩ := List.mem_map.mp hmem
  cases hchar

theorem storable_iff {value : Text} :
    Storable value ↔ Encodable value ∧ CodePoint.scalar '\x00' ∉ value := by
  constructor
  · intro hstorable
    refine ⟨hstorable.encodable, fun hnul => ?_⟩
    exact absurd (hstorable _ hnul) (by decide)
  · rintro ⟨hencodable, hnul⟩ ch hch
    cases ch with
    | surrogate offset => exact absurd hch (hencodable offset)
    | scalar char =>
        refine decide_eq_true ?_
        rintro rfl
        exact hnul hch

theorem storable_stripNuls {value : Text} :
    Storable (stripNuls value) ↔ Encodable value := by
  have hnul : CodePoint.scalar '\x00' ∉ stripNuls value := fun hmem =>
    of_decide_eq_true (List.mem_filter.mp hmem).2 rfl
  have hkeeps (offset) : CodePoint.surrogate offset ∈ stripNuls value ↔
      CodePoint.surrogate offset ∈ value :=
    List.mem_filter.trans (and_iff_left rfl)
  rw [storable_iff, and_iff_left hnul]
  exact forall_congr' fun offset => not_congr (hkeeps offset)

theorem encodable_replaceSurrogates (value : Text) :
    Encodable (replaceSurrogates value) := by
  intro offset hmem
  obtain ⟨ch, -, hch⟩ := List.mem_map.mp hmem
  cases ch <;> cases hch

/-! ### What the text functions keep of a lone surrogate -/

section Surrogate

variable {offset : Fin 2048} {value : Text}

theorem surrogate_mem_withoutEnds_iff (hangled : isAngled value = true) :
    CodePoint.surrogate offset ∈ withoutEnds value ↔
      CodePoint.surrogate offset ∈ value := by
  obtain ⟨hopen, hclose⟩ := Bool.and_eq_true_iff.mp hangled
  obtain ⟨rest, rfl⟩ := List.isPrefixOf_iff_prefix.mp hopen
  obtain ⟨front, hfront⟩ := List.isSuffixOf_iff_suffix.mp hclose
  cases front with
  | nil => cases hfront
  | cons first middle =>
      obtain ⟨-, hrest⟩ := List.cons.inj hfront
      have hrest : rest = middle ++ text ">" := hrest.symm
      rw [hrest]
      have hinner : withoutEnds (text "<" ++ (middle ++ text ">")) = middle :=
        List.dropLast_concat
      rw [hinner]
      simp [text]

end Surrogate

theorem encodable_strip {value : Text} :
    Encodable (strip value) ↔ Encodable value :=
  forall_congr' fun _ => not_congr (mem_strip_iff rfl)

theorem encodable_withoutEnds {value : Text} (hangled : isAngled value = true) :
    Encodable (withoutEnds value) ↔ Encodable value :=
  forall_congr' fun _ => not_congr (surrogate_mem_withoutEnds_iff hangled)

theorem encodable_of_strip_eq_nil {value : Text} (hblank : strip value = []) :
    Encodable value := by
  rw [← encodable_strip, hblank]
  exact Encodable.nil

theorem mem_splitWords_iff {ch : CodePoint} (hsolid : ch.isSpace = false)
    {value : Text} :
    (∃ word ∈ splitWords value, ch ∈ word) ↔ ch ∈ value := by
  have hpieces : (∃ piece ∈ value.splitOnP CodePoint.isSpace, ch ∈ piece) ↔
      ch ∈ value := by
    induction value with
    | nil => simp
    | cons head rest ih =>
        rw [List.splitOnP_cons_eq_if_modifyHead]
        split
        · rename_i hspace
          have hne : ch ≠ head := by
            rintro rfl
            exact Bool.false_ne_true (hsolid.symm.trans hspace)
          simpa [hne] using ih
        · cases hrest : rest.splitOnP CodePoint.isSpace with
          | nil => exact absurd hrest (List.splitOnP_ne_nil _ _)
          | cons first others =>
              rw [hrest] at ih
              simp only [List.modifyHead_cons, List.mem_cons, exists_eq_or_imp]
              rw [or_assoc]
              simp only [List.mem_cons, exists_eq_or_imp] at ih
              rw [ih]
  rw [← hpieces]
  constructor
  · rintro ⟨word, hword, hch⟩
    exact ⟨word, List.mem_of_mem_filter hword, hch⟩
  · rintro ⟨piece, hpiece, hch⟩
    refine ⟨piece, List.mem_filter.mpr ⟨hpiece, ?_⟩, hch⟩
    exact decide_eq_true (List.ne_nil_of_mem hch)

theorem forall_splitWords_encodable {value : Text} :
    (∀ word ∈ splitWords value, Encodable word) ↔ Encodable value := by
  constructor
  · intro hwords offset hmem
    obtain ⟨word, hword, hch⟩ := (mem_splitWords_iff rfl).mpr hmem
    exact hwords word hword offset hch
  · intro hvalue word hword offset hch
    exact hvalue offset ((mem_splitWords_iff rfl).mp ⟨word, hword, hch⟩)

/-! ### Optional texts and lists of texts -/

theorem forall_given_encodable {value : Option Text} :
    (∀ kept ∈ given value, Encodable kept) ↔
      ∀ stated ∈ value, Encodable stated := by
  constructor
  · rintro hgiven stated rfl
    by_cases hempty : stated = []
    · rw [hempty]
      exact Encodable.nil
    · refine hgiven stated (Option.mem_filter_iff.mpr ⟨rfl, ?_⟩)
      exact decide_eq_true hempty
  · intro hvalue stated hstated
    exact hvalue stated (Option.mem_filter_iff.mp hstated).1

theorem forall_map_stripNuls_storable {values : List Text} :
    (∀ bound ∈ values.map stripNuls, Storable bound) ↔
      ∀ value ∈ values, Encodable value := by
  rw [List.forall_mem_map]
  exact forall₂_congr fun _ _ => storable_stripNuls

theorem forall_mem_map_stripNuls_storable {value : Option Text} :
    (∀ bound ∈ value.map stripNuls, Storable bound) ↔
      ∀ stated ∈ value, Encodable stated := by
  cases value with
  | none => simp
  | some value => simpa using storable_stripNuls

theorem forall_cleaned_storable {value : Option Text} :
    (∀ bound ∈ cleaned value, Storable bound) ↔
      ∀ stated ∈ value, Encodable stated := by
  rw [← forall_mem_map_stripNuls_storable]
  constructor
  · intro hcleaned bound hbound
    by_cases hempty : bound = []
    · rw [hempty]
      exact Storable.nil
    · refine hcleaned bound (Option.mem_filter_iff.mpr ⟨hbound, ?_⟩)
      exact decide_eq_true hempty
  · intro hbound bound hmem
    exact hbound bound (Option.mem_filter_iff.mp hmem).1

theorem forall_normalizeMessageId_encodable {value : Option Text} :
    (∀ id ∈ normalizeMessageId value, Encodable id) ↔
      ∀ stated ∈ value, Encodable stated := by
  cases value with
  | none => simp [normalizeMessageId]
  | some value =>
      simp only [normalizeMessageId, Option.mem_some, forall_eq']
      split
      · rename_i hblank
        simpa using encodable_of_strip_eq_nil hblank
      · split
        · rename_i hangled
          have hinner := encodable_of_strip_eq_nil hangled.2
          rw [encodable_withoutEnds hangled.1, encodable_strip] at hinner
          simpa using hinner
        · simpa using encodable_strip

/-- A file name with its unsafe characters replaced and its leading dots and
underscores dropped. -/
theorem storable_safeName {name : Text} :
    Storable ((name.map fun ch =>
      if ch.isUnsafe then CodePoint.scalar '_' else ch).dropWhile
        CodePoint.isDotOrUnderscore) ↔ Encodable name := by
  have hkeeps (offset) : CodePoint.surrogate offset ∈ (name.map fun ch =>
      if ch.isUnsafe then CodePoint.scalar '_' else ch) ↔
        CodePoint.surrogate offset ∈ name := by
    rw [List.mem_map]
    constructor
    · rintro ⟨ch, hch, hshown⟩
      split at hshown
      · cases hshown
      · rwa [← hshown]
    · exact fun hmem => ⟨_, hmem, rfl⟩
  have hnul : CodePoint.scalar '\x00' ∉ (name.map fun ch =>
      if ch.isUnsafe then CodePoint.scalar '_' else ch) := by
    rw [List.mem_map]
    rintro ⟨ch, -, hshown⟩
    split at hshown
    · cases hshown
    · rename_i hsafe
      exact hsafe (hshown ▸ rfl)
  rw [storable_iff, and_iff_left fun hmem =>
    hnul ((List.dropWhile_sublist _).mem hmem)]
  exact forall_congr' fun offset => not_congr
    ((mem_dropWhile_iff rfl).trans (hkeeps offset))

theorem storable_sanitizeFilename {name : Text} :
    Storable (sanitizeFilename name) ↔ Encodable name := by
  unfold sanitizeFilename
  split
  · rename_i hblank
    have hname : Encodable name := by
      rcases hblank with rfl | hstrip
      · exact Encodable.nil
      · exact encodable_of_strip_eq_nil hstrip
    exact iff_of_true (by decide) hname
  · dsimp only
    split
    · rename_i hempty
      have hname : Encodable name := by
        rw [← storable_safeName, hempty]
        exact Storable.nil
      exact iff_of_true (by decide) hname
    · exact storable_safeName

/-! ### Headers -/

/-- The names of a header dictionary hold to one predicate and its values to
another. -/
def EntriesHold (name value : Text → Prop)
    (entries : List (Text × List Text)) : Prop :=
  ∀ entry ∈ entries, name entry.1 ∧ ∀ held ∈ entry.2, value held

section Grouping

variable {name value : Text → Prop}

theorem entriesHold_append {first second : List (Text × List Text)} :
    EntriesHold name value (first ++ second) ↔
      EntriesHold name value first ∧ EntriesHold name value second :=
  List.forall_mem_append

theorem entriesHold_setdefaultAppend {out : List (Text × List Text)}
    {key added : Text} :
    EntriesHold name value (setdefaultAppend out key added) ↔
      EntriesHold name value out ∧ name key ∧ value added := by
  unfold setdefaultAppend
  split
  · rename_i hfound
    obtain ⟨present, hpresent, hkey⟩ := List.any_eq_true.mp hfound
    have hkey : present.1 = key := of_decide_eq_true hkey
    unfold EntriesHold
    rw [List.forall_mem_map]
    constructor
    · intro hheld
      have hold : EntriesHold name value out := by
        intro entry hentry
        have hgrown := hheld entry hentry
        split at hgrown
        · exact ⟨hgrown.1, fun held hmem =>
            hgrown.2 held (List.mem_append_left _ hmem)⟩
        · exact hgrown
      have hgrown := hheld present hpresent
      rw [if_pos hkey] at hgrown
      exact ⟨hold, hkey ▸ hgrown.1, hgrown.2 added (by simp)⟩
    · rintro ⟨hold, -, hadded⟩ entry hentry
      obtain ⟨hname, hvalues⟩ := hold entry hentry
      split
      · refine ⟨hname, fun held hmem => ?_⟩
        rcases List.mem_append.mp hmem with hmem | hmem
        · exact hvalues held hmem
        · rwa [List.mem_singleton.mp hmem]
      · exact ⟨hname, hvalues⟩
  · rw [entriesHold_append]
    simp [EntriesHold]

theorem entriesHold_groupEntries {entries : List HeaderEntry} :
    EntriesHold name value (groupEntries entries) ↔
      ∀ entry ∈ entries, name entry.name ∧ value entry.value := by
  have hfold (out : List (Text × List Text)) :
      EntriesHold name value (entries.foldl (fun out entry =>
        setdefaultAppend out entry.name entry.value) out) ↔
      EntriesHold name value out ∧
        ∀ entry ∈ entries, name entry.name ∧ value entry.value := by
    induction entries generalizing out with
    | nil => simp
    | cons entry rest ih =>
        rw [List.foldl_cons, ih, entriesHold_setdefaultAppend,
          List.forall_mem_cons, and_assoc]
  unfold groupEntries
  rw [hfold, and_iff_right]
  nofun

end Grouping

namespace EmailPackage

variable {pkg : EmailPackage} {msg : pkg.Message} {part : pkg.Part}

theorem headersDict_storable :
    EntriesHold Storable Encodable (pkg.headersDict msg) ↔
      ∀ item ∈ pkg.rawItems msg, Storable item.1 := by
  have hvalue (item) : Encodable
      (stripNuls (replaceSurrogates (headerValue pkg item))) :=
    (storable_stripNuls.mpr (encodable_replaceSurrogates _)).encodable
  unfold headersDict entriesFromMessage
  rw [entriesHold_groupEntries, List.forall_mem_map]
  exact forall₂_congr fun item _ => and_iff_left (hvalue item)

/-! ### What the package must answer -/

variable (pkg msg part)

/-- The header is absent, unreadable or free of lone surrogates. -/
def HeaderEncodable (name : String) : Prop :=
  ∀ value, pkg.get msg name = .ok (some value) → Encodable value

def SenderEncodable : Prop :=
  ∀ raw name addr others, pkg.getAll msg "From" = .ok raw → raw ≠ [] →
    pkg.getaddresses raw = .ok ((name, addr) :: others) →
    Encodable name ∧ Encodable addr

def AddressesEncodable (header : String) : Prop :=
  ∀ raw pairs, pkg.getAll msg header = .ok raw → raw ≠ [] →
    pkg.getaddresses raw = .ok pairs → ∀ pair ∈ pairs, Encodable pair.2

/-- A part read as a text is free of lone surrogates; one read as bytes is
decoded with replacement. -/
def ContentEncodable : Prop :=
  ∀ value, pkg.getContent part = .ok (.text value) → Encodable value

structure AttachmentStorable : Prop where
  filename : ∀ name, pkg.getFilename part = .ok (some name) → Encodable name
  mimeType : ∀ value, pkg.getContentType part = .ok value → Storable value
  contentId :
    ∀ value, pkg.getContentId part = .ok (some value) → Encodable value

/-- No text the package answers with holds a lone surrogate, and neither a
header name nor a mime type holds a NUL. -/
structure TextsStorable : Prop where
  messageId : pkg.HeaderEncodable msg "Message-Id"
  inReplyTo : pkg.HeaderEncodable msg "In-Reply-To"
  refs : pkg.HeaderEncodable msg "References"
  subject : pkg.HeaderEncodable msg "Subject"
  sender : pkg.SenderEncodable msg
  toAddrs : pkg.AddressesEncodable msg "To"
  ccAddrs : pkg.AddressesEncodable msg "Cc"
  bccAddrs : pkg.AddressesEncodable msg "Bcc"
  headerNames : ∀ item ∈ pkg.rawItems msg, Storable item.1
  plain : ∀ part, pkg.getBody msg "plain" = .ok (some part) →
    pkg.ContentEncodable part
  html : ∀ part, pkg.getBody msg "html" = .ok (some part) →
    pkg.getContentType part = .ok (text "text/html") →
    pkg.ContentEncodable part
  attachments : ∀ parts, pkg.iterAttachments msg = .ok parts →
    ∀ part ∈ parts, pkg.AttachmentStorable part

/-! ### What each reader keeps -/

variable {pkg msg part}

theorem get_encodable {name : String} {value : Option Text}
    (hread : pkg.get msg name = .ok value) :
    (∀ stated ∈ value, Encodable stated) ↔ pkg.HeaderEncodable msg name := by
  unfold HeaderEncodable
  rw [hread]
  simp [Except.ok.injEq]

theorem headerText_encodable {name : String} :
    (∀ stated ∈ pkg.headerText msg name, Encodable stated) ↔
      pkg.HeaderEncodable msg name := by
  unfold headerText
  split
  · rename_i hread
    simp [HeaderEncodable, hread]
  · rename_i hread
    rw [forall_given_encodable, get_encodable hread]

theorem refsList_encodable {refs : List Text}
    (hread : pkg.refsList msg = .ok refs) :
    (∀ word ∈ refs, Encodable word) ↔ pkg.HeaderEncodable msg "References" := by
  obtain ⟨value, hvalue, hrefs⟩ := exceptBind_eq_ok.mp hread
  rw [← get_encodable hvalue, ← forall_given_encodable]
  cases hgiven : given value with
  | none =>
      rw [hgiven] at hrefs
      cases hrefs
      simp
  | some raw =>
      rw [hgiven] at hrefs
      cases hrefs
      simpa using forall_splitWords_encodable

theorem addressList_encodable {header : String} {addrs : List Text}
    (hread : pkg.addressList msg header = .ok addrs) :
    (∀ addr ∈ addrs, Encodable addr) ↔ pkg.AddressesEncodable msg header := by
  obtain ⟨raw, hraw, haddrs⟩ := exceptBind_eq_ok.mp hread
  unfold AddressesEncodable
  split at haddrs
  · rename_i hempty
    cases haddrs
    refine iff_of_true nofun fun raw' _ hraw' hne => ?_
    cases hraw.symm.trans hraw'
    exact absurd hempty hne
  · rename_i hne
    obtain ⟨pairs, hpairs, hkept⟩ := exceptBind_eq_ok.mp haddrs
    cases hkept
    constructor
    · intro haddrs raw' pairs' hraw' _ hpairs' pair hpair
      cases hraw.symm.trans hraw'
      cases hpairs.symm.trans hpairs'
      by_cases hempty : pair.2 = []
      · rw [hempty]
        exact Encodable.nil
      · refine haddrs pair.2 (List.mem_filter.mpr ⟨?_, decide_eq_true hempty⟩)
        exact List.mem_map_of_mem hpair
    · intro hpairs' addr haddr
      obtain ⟨pair, hpair, rfl⟩ := List.mem_map.mp (List.mem_of_mem_filter haddr)
      exact hpairs' raw pairs hraw hne hpairs pair hpair

theorem fromPair_encodable {sender : Option Text × Option Text}
    (hread : pkg.fromPair msg = .ok sender) :
    ((∀ addr ∈ sender.1, Encodable addr) ∧
      ∀ name ∈ sender.2, Encodable name) ↔ pkg.SenderEncodable msg := by
  obtain ⟨raw, hraw, hsender⟩ := exceptBind_eq_ok.mp hread
  unfold SenderEncodable
  split at hsender
  · rename_i hempty
    cases hsender
    refine iff_of_true ⟨nofun, nofun⟩ fun raw' _ _ _ hraw' hne => ?_
    cases hraw.symm.trans hraw'
    exact absurd hempty hne
  · rename_i hne
    obtain ⟨pairs, hpairs, hfirst⟩ := exceptBind_eq_ok.mp hsender
    cases pairs with
    | nil =>
        cases hfirst
        refine iff_of_true ⟨nofun, nofun⟩ fun raw' _ _ _ hraw' _ hpairs' => ?_
        cases hraw.symm.trans hraw'
        cases hpairs.symm.trans hpairs'
    | cons pair others =>
        cases hfirst
        rw [forall_given_encodable, forall_given_encodable]
        constructor
        · rintro ⟨haddr, hname⟩ raw' name addr others' hraw' _ hpairs'
          cases hraw.symm.trans hraw'
          cases hpairs.symm.trans hpairs'
          exact ⟨hname name rfl, haddr addr rfl⟩
        · intro hboth
          obtain ⟨hname, haddr⟩ := hboth raw _ _ _ hraw hne hpairs
          exact ⟨by simpa using haddr, by simpa using hname⟩

theorem encodable_decodeBytes (payload : Bytes) :
    Encodable (pkg.decodeBytes payload) := by
  intro offset hmem
  obtain ⟨char, -, hchar⟩ := List.mem_map.mp hmem
  cases hchar

theorem decodePartText_encodable {value : Text}
    (hread : pkg.decodePartText part = .ok value) :
    Encodable value ↔ pkg.ContentEncodable part := by
  unfold decodePartText at hread
  unfold ContentEncodable
  cases hcontent : pkg.getContent part with
  | error raised =>
      have hvalue : Encodable value := by
        cases raised with
        | other =>
            rw [hcontent] at hread
            cases hread
        | undecodable =>
            rw [hcontent] at hread
            obtain ⟨payload, -, hdecoded⟩ := exceptBind_eq_ok.mp hread
            cases hdecoded
            exact encodable_decodeBytes payload
      exact iff_of_true hvalue nofun
  | ok content =>
      rw [hcontent] at hread
      cases content with
      | bytes payload =>
          cases hread
          exact iff_of_true (encodable_decodeBytes payload) nofun
      | text stated =>
          cases hread
          simp

theorem plainBody_encodable {body : Option Text}
    (hread : pkg.plainBody msg = .ok body) :
    (∀ value ∈ body, Encodable value) ↔
      ∀ part, pkg.getBody msg "plain" = .ok (some part) →
        pkg.ContentEncodable part := by
  obtain ⟨found, hfound, hbody⟩ := exceptBind_eq_ok.mp hread
  rw [hfound]
  cases found with
  | none =>
      cases hbody
      exact iff_of_true nofun nofun
  | some part =>
      obtain ⟨value, hvalue, hkept⟩ := exceptBind_eq_ok.mp hbody
      cases hkept
      simpa using decodePartText_encodable hvalue

theorem htmlBody_encodable {html : Option Text}
    (hread : pkg.htmlBody msg = .ok html) :
    (∀ value ∈ html, Encodable value) ↔
      ∀ part, pkg.getBody msg "html" = .ok (some part) →
        pkg.getContentType part = .ok (text "text/html") →
        pkg.ContentEncodable part := by
  obtain ⟨found, hfound, hhtml⟩ := exceptBind_eq_ok.mp hread
  rw [hfound]
  cases found with
  | none =>
      cases hhtml
      exact iff_of_true nofun nofun
  | some part =>
      obtain ⟨contentType, htype, hpart⟩ := exceptBind_eq_ok.mp hhtml
      split at hpart
      · rename_i heq
        obtain ⟨value, hvalue, hkept⟩ := exceptBind_eq_ok.mp hpart
        cases hkept
        simpa [htype, heq] using decodePartText_encodable hvalue
      · rename_i hne
        cases hpart
        simp [htype, hne]

theorem contentId_encodable {cid : Option Text}
    (hread : pkg.contentId part = .ok cid) :
    (∀ value ∈ cid, Storable value) ↔
      ∀ value, pkg.getContentId part = .ok (some value) → Encodable value := by
  obtain ⟨raw, hraw, hcid⟩ := exceptBind_eq_ok.mp hread
  have hstated : (∀ value ∈ given raw, Encodable value) ↔
      ∀ value, pkg.getContentId part = .ok (some value) → Encodable value := by
    rw [forall_given_encodable, hraw]
    simp [Except.ok.injEq]
  rw [← hstated]
  cases hgiven : given raw with
  | none =>
      rw [hgiven] at hcid
      cases hcid
      simp
  | some value =>
      rw [hgiven] at hcid
      cases hcid
      have hinner : Encodable (if isAngled (strip value) then
          withoutEnds (strip value) else strip value) ↔ Encodable value := by
        split
        · rename_i hangled
          rw [encodable_withoutEnds hangled, encodable_strip]
        · exact encodable_strip
      have hclean := @forall_cleaned_storable (some
        (if isAngled (strip value) then withoutEnds (strip value)
          else strip value))
      simpa [cleaned, hinner] using hclean

theorem filename_encodable {filename : Option Text}
    (hread : pkg.getFilename part = .ok filename) :
    Encodable ((given filename).getD (text "attachment")) ↔
      ∀ name, pkg.getFilename part = .ok (some name) → Encodable name := by
  have hstated : (∀ value ∈ given filename, Encodable value) ↔
      ∀ name, pkg.getFilename part = .ok (some name) → Encodable name := by
    rw [forall_given_encodable, hread]
    simp [Except.ok.injEq]
  rw [← hstated]
  cases given filename with
  | none => exact iff_of_true (encodable_text _) nofun
  | some name => simp

theorem readAttachment_storable {attachment : Attachment}
    (hread : pkg.readAttachment part = .ok attachment) :
    (∀ value ∈ attachment.boundTexts, Storable value) ↔
      pkg.AttachmentStorable part := by
  obtain ⟨filename, hfilename, hread⟩ := exceptBind_eq_ok.mp hread
  obtain ⟨payload, -, hread⟩ := exceptBind_eq_ok.mp hread
  obtain ⟨mimeType, hmime, hread⟩ := exceptBind_eq_ok.mp hread
  obtain ⟨cid, hcid, hread⟩ := exceptBind_eq_ok.mp hread
  cases hread
  have hid : (∀ value ∈ (given cid).toList, Storable value) ↔
      ∀ value, pkg.getContentId part = .ok (some value) → Encodable value := by
    rw [← contentId_encodable hcid]
    simp only [Option.mem_toList]
    constructor
    · intro hgiven value hvalue
      by_cases hempty : value = []
      · rw [hempty]
        exact Storable.nil
      · exact hgiven value
          (Option.mem_filter_iff.mpr ⟨hvalue, decide_eq_true hempty⟩)
    · exact fun hcid value hvalue => hcid value (Option.mem_filter_iff.mp hvalue).1
  simp only [Attachment.boundTexts, List.forall_mem_cons]
  rw [hid, storable_sanitizeFilename, filename_encodable hfilename]
  constructor
  · rintro ⟨hstored, hname, hcontent⟩
    refine ⟨hname, fun value hvalue => ?_, hcontent⟩
    cases hmime.symm.trans hvalue
    exact hstored
  · rintro ⟨hname, hstored, hcontent⟩
    exact ⟨hstored mimeType hmime, hname, hcontent⟩

theorem mapM_readAttachment {parts : List pkg.Part}
    {attachments : List Attachment}
    (hread : parts.mapM pkg.readAttachment = .ok attachments) :
    List.Forall₂ (fun part attachment =>
      pkg.readAttachment part = .ok attachment) parts attachments := by
  induction parts generalizing attachments with
  | nil =>
      cases hread
      exact .nil
  | cons part rest ih =>
      rw [List.mapM_cons] at hread
      obtain ⟨first, hfirst, hread⟩ := exceptBind_eq_ok.mp hread
      obtain ⟨others, hothers, hread⟩ := exceptBind_eq_ok.mp hread
      cases hread
      exact .cons hfirst (ih hothers)

theorem attachmentsOf_storable {attachments : List Attachment}
    (hread : pkg.attachmentsOf msg = .ok attachments) :
    (∀ value ∈ attachments.flatMap Attachment.boundTexts, Storable value) ↔
      ∀ parts, pkg.iterAttachments msg = .ok parts →
        ∀ part ∈ parts, pkg.AttachmentStorable part := by
  obtain ⟨parts, hparts, hmap⟩ := exceptBind_eq_ok.mp hread
  have hpaired : (∀ attachment ∈ attachments,
      ∀ value ∈ attachment.boundTexts, Storable value) ↔
      ∀ part ∈ parts, pkg.AttachmentStorable part := by
    have hrel := mapM_readAttachment hmap
    clear hmap hparts hread
    induction hrel with
    | nil => exact iff_of_true nofun nofun
    | cons hfirst _ ih =>
        rw [List.forall_mem_cons, List.forall_mem_cons]
        exact and_congr (readAttachment_storable hfirst) ih
  rw [hparts]
  simp only [List.mem_flatMap, Except.ok.injEq, forall_eq']
  rw [← hpaired]
  exact ⟨fun hall attachment hmem value hvalue => hall value ⟨_, hmem, hvalue⟩,
    fun hall value ⟨attachment, hmem, hvalue⟩ => hall attachment hmem value hvalue⟩

/-! ### Placeholders -/

theorem subjectOr_storable {attachments : List Attachment}
    {subject : Option Text} :
    (∀ value ∈ subjectOr attachments subject, Storable value) ↔
      ∀ value ∈ subject, Encodable value := by
  rw [← forall_cleaned_storable]
  unfold subjectOr
  split
  · rename_i hplaceholder
    rw [hplaceholder.2]
    exact iff_of_true (by simpa using by decide) nofun
  · rfl

theorem shownName_storable {attachment : Attachment}
    (hname : Encodable attachment.filename) : Storable (shownName attachment) := by
  have hcleaned := forall_cleaned_storable.mpr
    fun value (hvalue : value ∈ some attachment.filename) =>
      Option.mem_some.mp hvalue ▸ hname
  unfold shownName
  cases hshown : cleaned (some attachment.filename) with
  | none => exact (by decide : Storable (text "attachment"))
  | some name => exact hcleaned name hshown

theorem bodyOr_storable {attachments : List Attachment} {body : Option Text}
    (hnames : ∀ attachment ∈ attachments, Encodable attachment.filename) :
    (∀ value ∈ bodyOr attachments body, Storable value) ↔
      ∀ value ∈ body, Encodable value := by
  rw [← forall_cleaned_storable]
  unfold bodyOr
  split
  · rename_i hplaceholder
    rw [hplaceholder.2]
    have hjoined : Storable (join ", " (attachments.map shownName)) := by
      refine Storable.intercalate (by decide) ?_
      rw [List.forall_mem_map]
      exact fun attachment hmem => shownName_storable (hnames attachment hmem)
    refine iff_of_true ?_ nofun
    simp only [Option.mem_some, forall_eq', storable_append]
    exact ⟨⟨by decide, hjoined⟩, by decide⟩
  · rfl

/-! ### The bound texts -/

theorem rowTexts_storable {parsed : ParsedMail} :
    (∀ value ∈ parsed.rowTexts, Storable value) ↔
      ((∀ value ∈ parsed.messageId, Storable value) ∧
        (∀ value ∈ parsed.inReplyTo, Storable value) ∧
        (∀ value ∈ parsed.refs, Storable value) ∧
        (∀ value ∈ parsed.subject, Storable value) ∧
        (∀ value ∈ parsed.fromAddr, Storable value) ∧
        (∀ value ∈ parsed.fromName, Storable value)) ∧
      ((∀ value ∈ parsed.toAddrs, Storable value) ∧
        (∀ value ∈ parsed.ccAddrs, Storable value) ∧
        (∀ value ∈ parsed.bccAddrs, Storable value)) ∧
      EntriesHold Storable Storable parsed.headers ∧
      (∀ value ∈ parsed.bodyText, Storable value) ∧
      (∀ value ∈ parsed.bodyHtml, Storable value) := by
  have hheaders : (∀ value ∈ parsed.headers.flatMap
      (fun entry => entry.1 :: entry.2), Storable value) ↔
      EntriesHold Storable Storable parsed.headers := by
    simp only [List.mem_flatMap, EntriesHold]
    constructor
    · intro hall entry hentry
      have hentry := fun value hvalue => hall value ⟨entry, hentry, hvalue⟩
      exact List.forall_mem_cons.mp hentry
    · rintro hall value ⟨entry, hentry, hvalue⟩
      exact List.forall_mem_cons.mpr (hall entry hentry) value hvalue
  unfold ParsedMail.rowTexts
  simp only [List.forall_mem_append, hheaders, Option.mem_toList, Option.mem_def,
    and_assoc]

/-- Every way the upsert ends binds part of what an insert binds. -/
theorem boundTexts_storable {parsed : ParsedMail} :
    (∀ outcome, ∀ value ∈ parsed.boundTexts outcome, Storable value) ↔
      (∀ value ∈ parsed.rowTexts, Storable value) ∧
        ∀ value ∈ parsed.attachments.flatMap Attachment.boundTexts,
          Storable value := by
  constructor
  · intro hall
    have hinserted := hall .inserted
    simp only [ParsedMail.boundTexts, List.forall_mem_append] at hinserted
    exact ⟨hinserted.1.2, hinserted.2⟩
  · rintro ⟨hrow, hattachments⟩ outcome
    have hid : ∀ value ∈ parsed.messageId.toList, Storable value := by
      simpa only [Option.mem_toList, Option.mem_def] using
        (rowTexts_storable.mp hrow).1.1
    cases outcome with
    | existing => exact hid
    | inserted =>
        simp only [ParsedMail.boundTexts, List.forall_mem_append]
        exact ⟨⟨hid, hrow⟩, hattachments⟩
    | raced =>
        simp only [ParsedMail.boundTexts, List.forall_mem_append]
        exact ⟨⟨hid, hrow⟩, hid⟩

/-- The texts of an attachment name it. -/
theorem filename_of_boundTexts {attachments : List Attachment}
    (hbound : ∀ value ∈ attachments.flatMap Attachment.boundTexts,
      Storable value) :
    ∀ attachment ∈ attachments, Encodable attachment.filename := by
  intro attachment hmem
  rw [← storable_sanitizeFilename]
  refine hbound _ (List.mem_flatMap.mpr ⟨attachment, hmem, ?_⟩)
  exact List.mem_cons_of_mem _ List.mem_cons_self

theorem headers_storable :
    EntriesHold Storable Storable ((pkg.headersDict msg).map fun entry =>
      (entry.1, entry.2.map stripNuls)) ↔
        ∀ item ∈ pkg.rawItems msg, Storable item.1 := by
  rw [← headersDict_storable]
  unfold EntriesHold
  rw [List.forall_mem_map]
  exact forall₂_congr fun entry _ =>
    and_congr_right' forall_map_stripNuls_storable

/-- What is bound for a message that parses is storable exactly when no text
the package answers with holds a lone surrogate, and no header name and no mime
type holds a NUL either. -/
theorem bound_texts_storable_iff (pkg : EmailPackage) {raw : Bytes}
    {parsed : ParsedMail} (hparse : pkg.parseMessage raw = .ok parsed) :
    (∀ outcome, ∀ value ∈ parsed.boundTexts outcome, Storable value) ↔
      ∀ msg, pkg.messageFromBytes raw = .ok msg → pkg.TextsStorable msg := by
  obtain ⟨msg, hmsg, hparse⟩ := exceptBind_eq_ok.mp hparse
  obtain ⟨sender, hsender, hparse⟩ := exceptBind_eq_ok.mp hparse
  obtain ⟨body, hbody, hparse⟩ := exceptBind_eq_ok.mp hparse
  obtain ⟨html, hhtml, hparse⟩ := exceptBind_eq_ok.mp hparse
  obtain ⟨inReplyTo, hreply, hparse⟩ := exceptBind_eq_ok.mp hparse
  obtain ⟨subject, hsubject, hparse⟩ := exceptBind_eq_ok.mp hparse
  obtain ⟨attachments, hattachments, hparse⟩ := exceptBind_eq_ok.mp hparse
  obtain ⟨refs, hrefs, hparse⟩ := exceptBind_eq_ok.mp hparse
  obtain ⟨toAddrs, hto, hparse⟩ := exceptBind_eq_ok.mp hparse
  obtain ⟨ccAddrs, hcc, hparse⟩ := exceptBind_eq_ok.mp hparse
  obtain ⟨bccAddrs, hbcc, hparse⟩ := exceptBind_eq_ok.mp hparse
  cases hparse
  rw [boundTexts_storable, rowTexts_storable]
  simp only [forall_mem_map_stripNuls_storable, forall_map_stripNuls_storable,
    forall_normalizeMessageId_encodable, forall_given_encodable,
    headerText_encodable, get_encodable hreply, refsList_encodable hrefs,
    subjectOr_storable, get_encodable hsubject, addressList_encodable hto,
    addressList_encodable hcc, addressList_encodable hbcc, headers_storable,
    forall_cleaned_storable, htmlBody_encodable hhtml,
    attachmentsOf_storable hattachments]
  constructor
  · rintro ⟨⟨hids, hrecipients, hnames, hbodies⟩, hparts⟩ msg' hmsg'
    cases hmsg.symm.trans hmsg'
    obtain ⟨hid, hreply', hrefs', hsubject', haddr, hname⟩ := hids
    obtain ⟨hto', hcc', hbcc'⟩ := hrecipients
    have hfiles := filename_of_boundTexts
      ((attachmentsOf_storable hattachments).mpr hparts)
    exact {
      messageId := hid
      inReplyTo := hreply'
      refs := hrefs'
      subject := hsubject'
      sender := (fromPair_encodable hsender).mp ⟨haddr, hname⟩
      toAddrs := hto'
      ccAddrs := hcc'
      bccAddrs := hbcc'
      headerNames := hnames
      plain := (plainBody_encodable hbody).mp ((bodyOr_storable hfiles).mp hbodies.1)
      html := hbodies.2
      attachments := hparts }
  · intro htexts
    have htexts := htexts msg hmsg
    obtain ⟨haddr, hname⟩ := (fromPair_encodable hsender).mpr htexts.sender
    have hfiles := filename_of_boundTexts
      ((attachmentsOf_storable hattachments).mpr htexts.attachments)
    have hplain := (plainBody_encodable hbody).mpr htexts.plain
    exact ⟨⟨⟨htexts.messageId, htexts.inReplyTo, htexts.refs, htexts.subject,
        haddr, hname⟩, ⟨htexts.toAddrs, htexts.ccAddrs, htexts.bccAddrs⟩,
      htexts.headerNames, (bodyOr_storable hfiles).mpr hplain, htexts.html⟩,
      htexts.attachments⟩

end EmailPackage

namespace MailWitness

/-- The answers for a message of one text part, with no address and no
attachment; each header has its text on the wire and as parsed. -/
def answering (headers : List (String × String × String)) (content : Text)
    (payload digest : Bytes) : EmailPackage where
  Message := Unit
  Part := Unit
  messageFromBytes _ := .ok ()
  get _ name := .ok ((headers.lookup name).map fun entry => text entry.2)
  getAll _ _ := .ok []
  getaddresses _ := .ok []
  rawItems _ := headers.map fun item => (text item.1, text item.2.1)
  headerFetchParse name value := .ok
    (((headers.find? fun item => text item.1 = name).map
      fun item => text item.2.2).getD value)
  getBody _ preferred := .ok (if preferred = "plain" then some () else none)
  iterAttachments _ := .ok []
  getContent _ := .ok (.text content)
  getPayload _ := .ok (some payload)
  getContentType _ := .ok (text "text/plain")
  getFilename _ := .ok none
  getContentId _ := .ok none
  decodeReplace bytes := bytes.map fun byte => Char.ofNat byte.toNat
  parsedateToDatetime _ := none
  sha256 _ := digest

/-- The bytes of an ASCII text. -/
def ascii (literal : String) : Bytes :=
  literal.toList.map fun char => UInt8.ofNat char.toNat

/-- `+2AA-` is a lone high surrogate in UTF-7. -/
def utf7Raw : Bytes :=
  ascii "Content-Type: text/plain; charset=utf-7\r\n\r\n+2AA-"

def utf7Package : EmailPackage :=
  answering [("Content-Type", "text/plain; charset=utf-7",
      "text/plain; charset=\"utf-7\"")]
    [.surrogate 0] (ascii "+2AA-")
    [1, 211, 148, 187, 37, 153, 37, 227, 222, 2, 60, 221, 198, 240, 134, 154,
      170, 53, 137, 153, 175, 223, 213, 72, 165, 92, 251, 237, 31, 126, 25, 85]

def rentRaw : Bytes := ascii "Subject: Rent\r\n\r\ndue"

def rentPackage : EmailPackage :=
  answering [("Subject", "Rent", "Rent")] (text "due") (ascii "due")
    [2, 186, 48, 62, 147, 234, 219, 39, 5, 245, 7, 104, 249, 143, 204, 4,
      30, 167, 124, 97, 51, 207, 224, 44, 93, 228, 207, 159, 97, 22, 10, 239]

theorem rent_textsStorable : rentPackage.TextsStorable () where
  messageId := nofun
  inReplyTo := nofun
  refs := nofun
  subject value hvalue := by
    cases hvalue
    exact encodable_text "Rent"
  sender _ _ _ _ hraw hne := absurd (Except.ok.inj hraw).symm hne
  toAddrs _ _ hraw hne := absurd (Except.ok.inj hraw).symm hne
  ccAddrs _ _ hraw hne := absurd (Except.ok.inj hraw).symm hne
  bccAddrs _ _ hraw hne := absurd (Except.ok.inj hraw).symm hne
  headerNames := by decide
  plain part _ value hvalue := by
    cases hvalue
    exact encodable_text "due"
  html := nofun
  attachments parts hparts part hpart := by
    cases hparts
    cases hpart

end MailWitness

open MailWitness in
theorem parse_binds_surrogate :
    ¬ ∀ parsed, utf7Package.parseMessage utf7Raw = .ok parsed →
      ∀ outcome, ∀ value ∈ parsed.boundTexts outcome, Storable value := by
  intro hclaim
  have hstorable := hclaim _ rfl .inserted [.surrogate 0] (by decide)
  exact absurd hstorable (by decide)

open MailWitness EmailPackage in
theorem bound_texts_storable_iff_rent :
    ∃ parsed, rentPackage.parseMessage rentRaw = .ok parsed ∧
      ∀ outcome, ∀ value ∈ parsed.boundTexts outcome, Storable value := by
  refine ⟨_, rfl, (bound_texts_storable_iff rentPackage rfl).mpr ?_⟩
  intro msg _
  exact rent_textsStorable

end Localmail
