/-
A download resumed as HTTP has it: the client keeps the entity tag with the
bytes it has, asks for the rest under `If-Range`, appends what a partial answer
brings and starts over with a full one.  Whichever blobs it is answered with and
wherever each transfer breaks off, it never joins the bytes of two of them.  A
blob is named by the digest of its bytes, so that its name decides them.
-/
import Localmail.BlobResponse
import Localmail.FilterTokens

namespace Localmail

namespace Download

/-! ### The client -/

/-- What a client has of a blob. -/
structure PartialCopy where
  etag : Text
  held : Bytes
deriving Repr, DecidableEq

/-- Ask for the whole, or for what comes after the bytes it has. -/
def resumeRequest : Option PartialCopy → BlobRequest
  | none => ⟨none, none, none⟩
  | some copy =>
      ⟨none, some (text "bytes=" ++ decimal copy.held.length ++ text "-"),
        some copy.etag⟩

/-- What it makes of an answer and the bytes that reached it. -/
def receive {size : Nat} (copy : Option PartialCopy) (answer : BlobAnswer size)
    (received : Bytes) : Option PartialCopy :=
  if answer.status = 200 then
    (answer.headers.lookup (text "ETag")).map fun etag => ⟨etag, received⟩
  else if answer.status = 206 then
    copy.map fun copy => { copy with held := copy.held ++ received }
  else copy

/-- One request: the blob that answers it, the reads that fail, and the number
of bytes that arrive before the connection is lost.  The database keeps no text
that UTF-8 has no bytes for. -/
structure Transfer where
  blob : ServedBlob
  named : Encodable blob.sha256
  storable : ∀ name ∈ blob.filename, Encodable name
  fails : Nat → Bool
  arrives : Nat

def transferStep (content : Text → Bytes) (copy : Option PartialCopy)
    (transfer : Transfer) : Option PartialCopy :=
  let blob := transfer.blob
  match serveBlob (resumeRequest copy) blob with
  | none => copy
  | some answer =>
      let sent :=
        (answer.body.stream transfer.fails (content blob.sha256)).chunks.flatten
      receive copy answer (sent.take transfer.arrives)

def transferRun (content : Text → Bytes) (transfers : List Transfer) :
    Option PartialCopy :=
  transfers.foldl (transferStep content) none

/-- Nothing goes wrong, and the table has the file's size. -/
structure Undisturbed (content : Text → Bytes) (transfer : Transfer) : Prop where
  reads : ∀ read, transfer.fails read = false
  recorded : (content transfer.blob.sha256).length = transfer.blob.size
  arrives : transfer.blob.size ≤ transfer.arrives

/-! ### What it asks -/

section Ask

variable (copy : PartialCopy) (size : Nat)

theorem rangeSides_resume :
    rangeSides (text "bytes=" ++ decimal copy.held.length ++ text "-") =
      some (decimal copy.held.length, []) := by
  have hdigits : ∀ char ∈ decimal copy.held.length,
      char.isAsciiDigit = true := isAsciiDigit_of_mem_decimal
  have hother {char : CodePoint} (hchar : char.isAsciiDigit = false) :
      char ∉ decimal copy.held.length :=
    fun hmem => ne_of_isAsciiDigit (hdigits char hmem) hchar rfl
  have hplain : strip (decimal copy.held.length) = decimal copy.held.length :=
    strip_of_plain fun char hmem => by
      obtain ⟨digit, rfl, hlow, hhigh⟩ :=
        scalar_of_isAsciiDigit (hdigits char hmem)
      simp only [CodePoint.isSpace]
      simp
      omega
  have hsides := @rangeSides_of_split (decimal copy.held.length) []
    (hother rfl) (hother rfl) List.not_mem_nil (by
      rintro ⟨hnil, -⟩
      exact decimal_ne_nil _ (hplain.symm.trans hnil))
  rw [hplain] at hsides
  rw [List.append_assoc]
  exact hsides

/-- The rest of a resource is served from where the bytes end, refused where
there is none, and not looked at when the number has too many digits. -/
theorem parseByteRange_resume :
    (∃ range : ByteRange size,
      parseByteRange (some (text "bytes=" ++ decimal copy.held.length ++
        text "-")) size = .ok (some range) ∧
      range.start = copy.held.length ∧ range.stop = size - 1) ∨
    (size ≤ copy.held.length ∧ ∃ problem,
      parseByteRange (some (text "bytes=" ++ decimal copy.held.length ++
        text "-")) size = .error problem) ∨
    parseByteRange (some (text "bytes=" ++ decimal copy.held.length ++
      text "-")) size = .ok none := by
  have hdigits : IsDigits (decimal copy.held.length) :=
    ⟨decimal_ne_nil _, isAsciiDigit_of_mem_decimal⟩
  have hvalue : digitsValue (decimal copy.held.length) = copy.held.length :=
    digitsValue_decimal _
  have hnegative : ¬ (copy.held.length : Int) < 0 := by omega
  unfold parseByteRange
  simp only [Option.bind_some, rangeSides_resume]
  split
  · rename_i hsize
    exact Or.inr (Or.inl ⟨by omega, _, rfl⟩)
  · rename_i hsize
    simp only [if_neg (decimal_ne_nil copy.held.length), ↓reduceIte,
      openEndedRange, rangeInt, intOfText_digits hdigits, hvalue]
    by_cases hlong : (decimal copy.held.length).length ≤ intMaxStrDigits
    · by_cases hpast : (size : Int) ≤ (copy.held.length : Int)
      · refine Or.inr (Or.inl ⟨by omega,
          .startPastEnd copy.held.length size, ?_⟩)
        simp [settleRange, bind, Except.bind, hlong, hnegative, hpast]
      · refine Or.inl ⟨⟨copy.held.length, size - 1, by omega, by omega⟩, ?_,
          rfl, rfl⟩
        simp [settleRange, bind, Except.bind, hlong, hnegative, hpast]
    · refine Or.inr (Or.inr ?_)
      simp [settleRange, bind, Except.bind, hlong]

end Ask

/-! ### What it is answered -/

theorem strip_etag (sha256 : Text) :
    strip (etagForSha256 sha256) = etagForSha256 sha256 := by
  have hsolid : doubleQuote.isSpace = false := rfl
  have hstrip := strip_append_cons hsolid [] (sha256 ++ [doubleQuote])
  rw [rstrip_append_cons hsolid sha256 []] at hstrip
  exact hstrip

theorem etagForSha256_injective {sha256 other : Text}
    (hsame : etagForSha256 sha256 = etagForSha256 other) : sha256 = other := by
  rw [etagForSha256, etagForSha256] at hsame
  exact List.append_cancel_left (List.append_cancel_right hsame)

theorem ifRangeAllowsPartial_etag {sha256 other : Text}
    (hallows : ifRangeAllowsPartial (some (etagForSha256 sha256))
      (etagForSha256 other) = true) : sha256 = other := by
  have hsame := (of_decide_eq_true hallows).2
  rw [strip_etag] at hsame
  exact etagForSha256_injective hsame

theorem encodable_of_forall_mem {value other : Text} (hother : Encodable other)
    (hinside : ∀ char ∈ value, char ∈ other) : Encodable value :=
  fun offset hmem => hother offset (hinside _ hmem)

theorem encodable_append {left right : Text} (hleft : Encodable left)
    (hright : Encodable right) : Encodable (left ++ right) :=
  fun offset hmem => (List.mem_append.mp hmem).elim (hleft offset)
    (hright offset)

theorem encodable_downloadName {blob : ServedBlob}
    (hnamed : Encodable blob.sha256)
    (hstorable : ∀ name ∈ blob.filename, Encodable name) :
    Encodable (downloadName blob) := by
  unfold downloadName
  dsimp only
  split
  · exact encodable_append (encodable_append (encodable_text _)
      (encodable_of_forall_mem hnamed fun _ => List.mem_of_mem_take))
      (encodable_text _)
  · cases hname : blob.filename with
    | none => exact Encodable.nil
    | some name =>
        refine encodable_of_forall_mem (hstorable name hname) ?_
        intro char hmem
        rw [Option.getD_some, strip] at hmem
        exact (List.dropWhile_sublist _).mem (List.mem_reverse.mp
          ((List.dropWhile_sublist _).mem (List.mem_reverse.mp hmem)))

section Step

variable {content : Text → Bytes} {copy : Option PartialCopy}
  {transfer : Transfer}

/-- The bytes of an answer that reach the client. -/
def Transfer.received (transfer : Transfer) (content : Text → Bytes)
    (body : BlobBody transfer.blob.size) : Bytes :=
  (body.stream transfer.fails
    (content transfer.blob.sha256)).chunks.flatten.take transfer.arrives

theorem received_prefix (content : Text → Bytes)
    (body : BlobBody transfer.blob.size) :
    transfer.received content body <+:
      (content transfer.blob.sha256).drop body.span.1 :=
  (List.take_prefix _ _).trans
    ((stream_streams body transfer.fails _).beginning.trans
      (List.take_prefix _ _))

theorem Undisturbed.received (hcalm : Undisturbed content transfer)
    (body : BlobBody transfer.blob.size) :
    transfer.received content body =
      ((content transfer.blob.sha256).drop body.span.1).take body.span.2 := by
  have hinside := span_inside body
  rw [Transfer.received, ((stream_streams body transfer.fails _).whole hcalm.reads
    (hcalm.recorded.symm ▸ hinside)).2]
  apply List.take_of_length_le
  rw [List.length_take]
  have harrives := hcalm.arrives
  omega

/-- It starts over, goes on where it was, or has nothing to ask for. -/
theorem transferStep_cases (content : Text → Bytes) (copy : Option PartialCopy)
    (transfer : Transfer) :
    transferStep content copy transfer =
        some ⟨etagForSha256 transfer.blob.sha256,
          transfer.received content .full⟩ ∨
    ∃ before, copy = some before ∧
      ifRangeAllowsPartial (some before.etag)
        (etagForSha256 transfer.blob.sha256) = true ∧
      ((∃ range : ByteRange transfer.blob.size,
        range.start = before.held.length ∧
        range.stop = transfer.blob.size - 1 ∧
        transferStep content copy transfer =
          some { before with
            held := before.held ++ transfer.received content (.slice range) }) ∨
      transfer.blob.size ≤ before.held.length ∧
        transferStep content copy transfer = some before) := by
  obtain ⟨disposition, hdisposition⟩ := Option.isSome_iff_exists.mp
    ((contentDisposition_round_trip (downloadName transfer.blob)).1.mpr
      (encodable_downloadName transfer.named transfer.storable))
  have hserve : serveBlob (resumeRequest copy) transfer.blob =
      blobResponse (resumeRequest copy) transfer.blob := by
    cases copy <;> rfl
  have hfull (hparse : parseByteRange
      (servedRange (resumeRequest copy) transfer.blob) transfer.blob.size =
        .ok none) :
      transferStep content copy transfer =
        some ⟨etagForSha256 transfer.blob.sha256,
          transfer.received content .full⟩ := by
    simp only [transferStep, hserve, blobResponse, hdisposition, hparse,
      Option.map_some]
    rfl
  cases copy with
  | none =>
      refine Or.inl (hfull ?_)
      unfold servedRange
      split <;> rfl
  | some before =>
      by_cases hallowed : ifRangeAllowsPartial (some before.etag)
          (etagForSha256 transfer.blob.sha256) = true
      · have hrange : servedRange (resumeRequest (some before)) transfer.blob =
            some (text "bytes=" ++ decimal before.held.length ++ text "-") :=
          if_pos hallowed
        rcases parseByteRange_resume before transfer.blob.size with
          ⟨range, hparse, hstart, hstop⟩ | ⟨hpast, problem, hparse⟩ | hparse
        · refine Or.inr ⟨before, rfl, hallowed, Or.inl
            ⟨range, hstart, hstop, ?_⟩⟩
          simp only [transferStep, hserve, blobResponse, hdisposition, hrange,
            hparse, Option.map_some]
          rfl
        · refine Or.inr ⟨before, rfl, hallowed, Or.inr ⟨hpast, ?_⟩⟩
          simp only [transferStep, hserve, blobResponse, hdisposition, hrange,
            hparse, Option.map_some]
          rfl
        · exact Or.inl (hfull (by rw [hrange]; exact hparse))
      · have hrange : servedRange (resumeRequest (some before)) transfer.blob =
            none := if_neg hallowed
        exact Or.inl (hfull (by rw [hrange]; rfl))

end Step

/-! ### Any number of transfers -/

/-- What is held is a beginning of the blob that its tag names. -/
def OneBlob (content : Text → Bytes) (copy : Option PartialCopy) : Prop :=
  ∀ held ∈ copy, ∃ sha256, held.etag = etagForSha256 sha256 ∧
    held.held <+: content sha256

theorem OneBlob.append {content : Text → Bytes} {before : PartialCopy}
    {transfer : Transfer} {range : ByteRange transfer.blob.size}
    (hbegins : before.held <+: content transfer.blob.sha256)
    (hstart : range.start = before.held.length) :
    before.held ++ transfer.received content (.slice range) <+:
      content transfer.blob.sha256 := by
  have hsplit : content transfer.blob.sha256 =
      before.held ++ (content transfer.blob.sha256).drop before.held.length := by
    conv_lhs => rw [← List.take_append_drop before.held.length
      (content transfer.blob.sha256)]
    rw [← List.prefix_iff_eq_take.mp hbegins]
  have hreceived := received_prefix content (BlobBody.slice range)
  rw [show (BlobBody.slice range).span.1 = before.held.length from hstart]
    at hreceived
  rw [hsplit]
  exact (List.prefix_append_right_inj before.held).mpr hreceived

/-- The tag it asks under and the blob it is answered with are one. -/
theorem OneBlob.same {content : Text → Bytes} {before : PartialCopy}
    (hone : OneBlob content (some before)) {sha256 : Text}
    (hallowed : ifRangeAllowsPartial (some before.etag) (etagForSha256 sha256) =
      true) :
    before.etag = etagForSha256 sha256 ∧ before.held <+: content sha256 := by
  obtain ⟨other, htag, hbegins⟩ := hone before rfl
  rw [htag] at hallowed
  obtain rfl := ifRangeAllowsPartial_etag hallowed
  exact ⟨htag, hbegins⟩

theorem OneBlob.step {content : Text → Bytes} {copy : Option PartialCopy}
    (hone : OneBlob content copy) (transfer : Transfer) :
    OneBlob content (transferStep content copy transfer) := by
  rcases transferStep_cases content copy transfer with hfull |
    ⟨before, rfl, hallowed, ⟨range, hstart, -, hmore⟩ | ⟨-, hsame⟩⟩
  · rw [hfull]
    rintro held ⟨⟩
    exact ⟨_, rfl, received_prefix content .full⟩
  · obtain ⟨htag, hbegins⟩ := hone.same hallowed
    rw [hmore]
    rintro held ⟨⟩
    exact ⟨_, htag, OneBlob.append hbegins hstart⟩
  · rw [hsame]
    exact hone

/-- After a transfer that nothing disturbs the client has the whole blob. -/
theorem OneBlob.step_calm {content : Text → Bytes} {copy : Option PartialCopy}
    (hone : OneBlob content copy) {transfer : Transfer}
    (hcalm : Undisturbed content transfer) :
    transferStep content copy transfer =
      some ⟨etagForSha256 transfer.blob.sha256,
        content transfer.blob.sha256⟩ := by
  have hsize := hcalm.recorded
  rcases transferStep_cases content copy transfer with hfull |
    ⟨before, rfl, hallowed, ⟨range, hstart, hstop, hmore⟩ | ⟨hpast, hsame⟩⟩
  · rw [hfull, hcalm.received]
    simp only [BlobBody.span, List.drop_zero]
    rw [List.take_of_length_le (Nat.le_of_eq hsize)]
  · obtain ⟨htag, hbegins⟩ := hone.same hallowed
    have hinside := range.inside
    have hordered := range.ordered
    rw [hmore, hcalm.received, htag]
    simp only [BlobBody.span]
    rw [List.take_of_length_le (by rw [List.length_drop]; omega), hstart]
    conv_lhs => rw [List.prefix_iff_eq_take.mp hbegins]
    rw [List.length_take, Nat.min_eq_left hbegins.length_le,
      List.take_append_drop]
  · obtain ⟨htag, hbegins⟩ := hone.same hallowed
    have hwhole : before.held = content transfer.blob.sha256 :=
      hbegins.eq_of_length_le (hsize.symm ▸ hpast)
    rw [hsame, ← hwhole, ← htag]

/-- Whatever blobs answer its requests, whichever reads fail and wherever the
connection is lost, what a resuming client holds is a beginning of the one blob
its tag names; and one transfer that nothing disturbs completes it. -/
theorem resumed_download_one_blob (content : Text → Bytes)
    (transfers : List Transfer) :
    (∀ copy ∈ transferRun content transfers, ∃ sha256,
      copy.etag = etagForSha256 sha256 ∧ copy.held <+: content sha256) ∧
    ∀ last, Undisturbed content last →
      transferRun content (transfers ++ [last]) =
        some ⟨etagForSha256 last.blob.sha256, content last.blob.sha256⟩ := by
  have hone (copy : Option PartialCopy) (hcopy : OneBlob content copy) :
      OneBlob content (transfers.foldl (transferStep content) copy) := by
    induction transfers generalizing copy with
    | nil => exact hcopy
    | cons transfer rest ih => exact ih _ (hcopy.step transfer)
  have hrun : OneBlob content (transferRun content transfers) := hone none nofun
  refine ⟨hrun, ?_⟩
  intro last hcalm
  rw [transferRun, List.foldl_append]
  exact hrun.step_calm hcalm

namespace Resumed

def content (sha256 : Text) : Bytes :=
  if sha256 = text "0a1b" then [5, 6, 7, 8] else []

/-- The connection is lost before the last byte. -/
def cut : Transfer where
  blob := ⟨text "0a1b", none, 4, some (text "a.bin")⟩
  named := encodable_text _
  storable := by
    rintro name ⟨⟩
    exact encodable_text _
  fails := fun _ => false
  arrives := 3

def whole : Transfer := { cut with arrives := 4 }

theorem whole_undisturbed : Undisturbed content whole where
  reads := fun _ => rfl
  recorded := by decide
  arrives := Nat.le_refl 4

end Resumed

open Resumed in
theorem resumed_download_one_blob_cut :
    transferRun content [cut] =
      some ⟨etagForSha256 (text "0a1b"), [5, 6, 7]⟩ ∧
    transferRun content ([cut] ++ [whole]) =
      some ⟨etagForSha256 (text "0a1b"), [5, 6, 7, 8]⟩ := by
  refine ⟨by decide +kernel, ?_⟩
  exact (resumed_download_one_blob content [cut]).2 whole whole_undisturbed

end Download

end Localmail
