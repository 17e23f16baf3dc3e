/-
How a blob is served: the conditional headers of a request, the four kinds of
answer, and the body, which is read from the open file in bounded pieces.  A
file may be shorter or longer than the table has it and any read may fail; the
headers have gone out by then, so what is sent is never more than they promise.
-/
import Localmail.ContentDisposition
import Localmail.RangeRequests
import Localmail.SearchRequest

namespace Localmail

namespace Download

/-! ### `api/conditional.py` -/

def etagForSha256 (sha256Hex : Text) : Text :=
  [doubleQuote] ++ sha256Hex ++ [doubleQuote]

def stripWeak (token : Text) : Text :=
  if (text "W/").isPrefixOf token then token.drop 2 else token

def splitEtagList (header : Text) : List Text :=
  ((header.splitOn (.scalar ',')).filter fun token => strip token ≠ []).map strip

def ifNoneMatchSatisfies (header : Option Text) (etag : Text) : Bool :=
  match header with
  | none => false
  | some given =>
      given ≠ [] ∧ (splitEtagList given).any fun token =>
        token = text "*" ∨ stripWeak token = stripWeak etag

def ifRangeAllowsPartial (header : Option Text) (etag : Text) : Bool :=
  match header with
  | none => true
  | some given =>
      let candidate := strip given
      candidate.head? = some doubleQuote ∧ candidate = etag

/-! ### The body -/

def chunkSize : Nat := 64 * 1024

/-- How the streaming of a slice ended, with the bytes sent by then. -/
inductive StreamEnd where
  | complete
  | truncated (sent : Nat)
  | readFailed (sent : Nat)
deriving Repr, DecidableEq

/-- `_stream_slice`: the pieces of the file, and how it ended.  The read with
number `reads` is the next one. -/
def streamSlice (fails : Nat → Bool) (file : Bytes) (start length sent reads : Nat) :
    List Bytes × StreamEnd :=
  if sent < length then
    if fails reads then ([], .readFailed sent)
    else
      let chunk := (file.drop (start + sent)).take (min chunkSize (length - sent))
      if chunk = [] then ([], .truncated sent)
      else
        let rest := streamSlice fails file start length (sent + chunk.length)
          (reads + 1)
        (chunk :: rest.1, rest.2)
  else ([], .complete)
termination_by length - sent
decreasing_by
  rename_i hmore _ hchunk
  have hpos := List.length_pos_iff.mpr hchunk
  change length - (sent + chunk.length) < length - sent
  omega

structure StreamReport where
  chunks : List Bytes
  ending : StreamEnd
  overran : Bool
deriving Repr, DecidableEq

/-- `_stream_full`, which looks for one byte more; where the file has ended
there is none. -/
def streamFull (fails : Nat → Bool) (file : Bytes) (expected : Nat) :
    StreamReport :=
  let slice := streamSlice fails file 0 expected 0 0
  { chunks := slice.1
    ending := slice.2
    overran := slice.2 = .complete ∧ fails slice.1.length = false ∧
      slice.1.flatten.length < file.length }

def streamRange {size : Nat} (fails : Nat → Bool) (file : Bytes)
    (range : ByteRange size) : StreamReport :=
  let slice := streamSlice fails file range.start (range.stop - range.start + 1)
    0 0
  ⟨slice.1, slice.2, false⟩

/-! ### The answer -/

def inlineRiskyMimes : List Text :=
  [text "text/html", text "application/xhtml+xml", text "image/svg+xml",
    text "text/xml", text "application/xml"]

/-- No character folds to a letter of these types but its capital. -/
def safeResponseMime (stored : Option Text) : Text :=
  match stored with
  | none => text "application/octet-stream"
  | some mime =>
      if mime = [] ∨ lowerAscii mime ∈ inlineRiskyMimes then
        text "application/octet-stream"
      else mime

def fallbackFilename (sha256Hex : Text) : Text :=
  text "attachment-" ++ sha256Hex.take 16 ++ text ".bin"

/-- What the caller of `blob_response` has of a blob it may see. -/
structure ServedBlob where
  sha256 : Text
  mime : Option Text
  size : Nat
  filename : Option Text
deriving Repr, DecidableEq

structure BlobRequest where
  ifNoneMatch : Option Text
  range : Option Text
  ifRange : Option Text
deriving Repr, DecidableEq

inductive BlobBody (size : Nat) where
  | nothing
  | full
  | slice (range : ByteRange size)
deriving Repr, DecidableEq

structure BlobAnswer (size : Nat) where
  status : Nat
  mediaType : Option Text
  headers : List (Text × Text)
  body : BlobBody size
deriving Repr, DecidableEq

def BlobBody.stream {size : Nat} (fails : Nat → Bool) (file : Bytes) :
    BlobBody size → StreamReport
  | .nothing => ⟨[], .complete, false⟩
  | .full => streamFull fails file size
  | .slice range => streamRange fails file range

def contentRangeHeader {size : Nat} (range : ByteRange size) : Text :=
  text "bytes " ++ decimal range.start ++ text "-" ++ decimal range.stop ++
    text "/" ++ decimal size

def unsatisfiableContentRange (size : Nat) : Text :=
  text "bytes */" ++ decimal size

def notModified (request : BlobRequest) (blob : ServedBlob) :
    Option (BlobAnswer blob.size) :=
  let etag := etagForSha256 blob.sha256
  if ifNoneMatchSatisfies request.ifNoneMatch etag then
    some ⟨304, none, [(text "ETag", etag)], .nothing⟩
  else none

def downloadName (blob : ServedBlob) : Text :=
  let name := strip (blob.filename.getD [])
  if name = [] then fallbackFilename blob.sha256 else name

/-- The range to serve: none where `If-Range` names another blob. -/
def servedRange (request : BlobRequest) (blob : ServedBlob) : Option Text :=
  if ifRangeAllowsPartial request.ifRange (etagForSha256 blob.sha256) then
    request.range
  else none

/-- What every answer with a blob's bytes or its size carries. -/
def blobHeaders (blob : ServedBlob) (disposition : Text) : List (Text × Text) :=
  [(text "Content-Disposition", disposition),
    (text "Accept-Ranges", text "bytes"),
    (text "ETag", etagForSha256 blob.sha256)]

def unsatisfiableAnswer (blob : ServedBlob) (disposition : Text) :
    BlobAnswer blob.size where
  status := 416
  mediaType := some (safeResponseMime blob.mime)
  headers := (text "Content-Range", unsatisfiableContentRange blob.size) ::
    blobHeaders blob disposition
  body := .nothing

def fullAnswer (blob : ServedBlob) (disposition : Text) :
    BlobAnswer blob.size where
  status := 200
  mediaType := some (safeResponseMime blob.mime)
  headers := (text "Content-Length", decimal blob.size) ::
    blobHeaders blob disposition
  body := .full

def sliceAnswer (blob : ServedBlob) (disposition : Text)
    (range : ByteRange blob.size) : BlobAnswer blob.size where
  status := 206
  mediaType := some (safeResponseMime blob.mime)
  headers :=
    (text "Content-Length", decimal (range.stop - range.start + 1)) ::
      (text "Content-Range", contentRangeHeader range) ::
      blobHeaders blob disposition
  body := .slice range

def blobResponse (request : BlobRequest) (blob : ServedBlob) :
    Option (BlobAnswer blob.size) :=
  (contentDisposition (downloadName blob)).map fun disposition =>
    match parseByteRange (servedRange request blob) blob.size with
    | .error _ => unsatisfiableAnswer blob disposition
    | .ok none => fullAnswer blob disposition
    | .ok (some range) => sliceAnswer blob disposition range

/-- What a route answers once the caller may see the blob. -/
def serveBlob (request : BlobRequest) (blob : ServedBlob) :
    Option (BlobAnswer blob.size) :=
  (notModified request blob).or (blobResponse request blob)

/-! ### What is sent -/

/-- What is sent of a slice: its beginning, in pieces of bounded size, whole
unless a read failed or the file ended, which the ending tells. -/
structure Streams (fails : Nat → Bool) (file : Bytes) (start length sent : Nat)
    (slice : List Bytes × StreamEnd) : Prop where
  beginning : slice.1.flatten <+: (file.drop (start + sent)).take (length - sent)
  pieces : ∀ chunk ∈ slice.1, chunk ≠ [] ∧ chunk.length ≤ chunkSize
  complete : slice.2 = .complete → slice.1.flatten.length = length - sent
  truncated : ∀ count, slice.2 = .truncated count →
    count = sent + slice.1.flatten.length ∧ count < length ∧
      file.length ≤ start + count
  failed : ∀ count, slice.2 = .readFailed count →
    count = sent + slice.1.flatten.length ∧ count < length ∧
      ∃ read, fails read = true

/-- A piece off the front of a list, and what is left of as many items. -/
theorem take_eq_piece_append {α : Type} {whole : List α} {piece total : Nat}
    (hpiece : piece ≤ total) :
    whole.take total = whole.take piece ++
      (whole.drop (whole.take piece).length).take
        (total - (whole.take piece).length) := by
  rcases Nat.le_total piece whole.length with hlong | hshort
  · rw [List.length_take, Nat.min_eq_left hlong, ← List.take_add,
      Nat.add_sub_cancel' hpiece]
  · rw [List.take_of_length_le hshort, List.drop_length, List.take_nil,
      List.append_nil, List.take_of_length_le (hshort.trans hpiece)]

theorem streamSlice_streams (fails : Nat → Bool) (file : Bytes)
    {start length sent : Nat} (reads : Nat) (hsent : sent ≤ length) :
    Streams fails file start length sent
      (streamSlice fails file start length sent reads) := by
  fun_induction streamSlice fails file start length sent reads with
  | case1 sent reads hmore hfails =>
      exact ⟨List.nil_prefix, nofun, nofun, nofun, by
        rintro count ⟨⟩
        exact ⟨rfl, hmore, reads, hfails⟩⟩
  | case2 sent reads hmore hfails chunk hchunk =>
      refine ⟨List.nil_prefix, nofun, nofun, ?_, nofun⟩
      rintro count ⟨⟩
      refine ⟨rfl, hmore, ?_⟩
      have hlength := congrArg List.length hchunk
      simp only [chunk, List.length_take, List.length_drop, List.length_nil,
        chunkSize] at hlength
      omega
  | case3 sent reads hmore hfails chunk hchunk rest ih =>
      have hlength : chunk.length ≤ min chunkSize (length - sent) :=
        List.length_take_le _ _
      have hstreams : Streams fails file start length (sent + chunk.length)
          rest := ih (by omega)
      have hsplit : (file.drop (start + sent)).take (length - sent) =
          chunk ++ (file.drop (start + (sent + chunk.length))).take
            (length - (sent + chunk.length)) := by
        have htail : file.drop (start + (sent + chunk.length)) =
            (file.drop (start + sent)).drop chunk.length := by
          rw [List.drop_drop, Nat.add_assoc]
        rw [htail, ← Nat.sub_sub]
        exact take_eq_piece_append (Nat.min_le_right _ _)
      refine ⟨?_, ?_, ?_, ?_, ?_⟩
      · rw [hsplit, List.flatten_cons]
        exact (List.prefix_append_right_inj chunk).mpr hstreams.beginning
      · intro piece hpiece
        rcases List.mem_cons.mp hpiece with rfl | hpiece
        · exact ⟨hchunk, by omega⟩
        · exact hstreams.pieces piece hpiece
      · intro hcomplete
        rw [List.flatten_cons, List.length_append, hstreams.complete hcomplete]
        omega
      · intro count htruncated
        obtain ⟨hcount, hless, hshort⟩ := hstreams.truncated count htruncated
        rw [List.flatten_cons, List.length_append]
        exact ⟨by omega, hless, hshort⟩
      · intro count hfailed
        obtain ⟨hcount, hless, hfails⟩ := hstreams.failed count hfailed
        rw [List.flatten_cons, List.length_append]
        exact ⟨by omega, hless, hfails⟩
  | case4 sent reads hmore =>
      refine ⟨List.nil_prefix, nofun, ?_, nofun, nofun⟩
      intro _
      simp only [List.flatten_nil, List.length_nil]
      omega

/-- A slice that the file has is sent whole when no read fails. -/
theorem Streams.whole {fails : Nat → Bool} {file : Bytes} {start length : Nat}
    {slice : List Bytes × StreamEnd}
    (hstreams : Streams fails file start length 0 slice)
    (hreads : ∀ read, fails read = false) (hinside : start + length ≤ file.length) :
    slice.2 = .complete ∧ slice.1.flatten = (file.drop start).take length := by
  have hcomplete : slice.2 = .complete := by
    cases hending : slice.2 with
    | complete => rfl
    | truncated count =>
        obtain ⟨-, hless, hshort⟩ := hstreams.truncated count hending
        omega
    | readFailed count =>
        obtain ⟨-, -, read, hfails⟩ := hstreams.failed count hending
        rw [hreads read] at hfails
        cases hfails
  refine ⟨hcomplete, hstreams.beginning.eq_of_length ?_⟩
  rw [hstreams.complete hcomplete, List.length_take, List.length_drop]
  omega

/-! ### What is promised -/

/-- The bytes an answer is about: where they start, and how many. -/
def BlobBody.span {size : Nat} : BlobBody size → Nat × Nat
  | .nothing => (0, 0)
  | .full => (0, size)
  | .slice range => (range.start, range.stop - range.start + 1)

/-- An answer keeps to what it promises, whatever the file and its reads. -/
structure ExactAnswer (request : BlobRequest) (blob : ServedBlob)
    (answer : BlobAnswer blob.size) (fails : Nat → Bool) (file : Bytes) :
    Prop where
  tagged : (text "ETag", etagForSha256 blob.sha256) ∈ answer.headers
  cached : answer.status = 304 ↔
    ifNoneMatchSatisfies request.ifNoneMatch (etagForSha256 blob.sha256) = true
  bare : answer.status = 304 ∨ answer.status = 416 ↔ answer.body = .nothing
  inert : ∀ mime ∈ answer.mediaType, lowerAscii mime ∉ inlineRiskyMimes
  attached : answer.status ≠ 304 → ∃ value,
    contentDisposition (downloadName blob) = some value ∧
      (text "Content-Disposition", value) ∈ answer.headers
  inside : answer.body.span.1 + answer.body.span.2 ≤ blob.size
  promised : answer.body ≠ .nothing →
    (text "Content-Length", decimal answer.body.span.2) ∈ answer.headers
  ranged : ∀ range, answer.body = .slice range →
    answer.status = 206 ∧
    (text "Content-Range", contentRangeHeader range) ∈ answer.headers ∧
    parseByteRange request.range blob.size = .ok (some range) ∧
    ifRangeAllowsPartial request.ifRange (etagForSha256 blob.sha256) = true
  sent : Streams fails file answer.body.span.1 answer.body.span.2 0
    ((answer.body.stream fails file).chunks,
      (answer.body.stream fails file).ending)
  overran : (answer.body.stream fails file).overran = true →
    blob.size < file.length

theorem stream_streams {size : Nat} (body : BlobBody size) (fails : Nat → Bool)
    (file : Bytes) :
    Streams fails file body.span.1 body.span.2 0
      ((body.stream fails file).chunks, (body.stream fails file).ending) := by
  cases body with
  | nothing => exact ⟨List.nil_prefix, nofun, fun _ => rfl, nofun, nofun⟩
  | full => exact streamSlice_streams fails file 0 (Nat.zero_le size)
  | slice range => exact streamSlice_streams fails file 0 (Nat.zero_le _)

theorem overran_longer {size : Nat} {body : BlobBody size} {fails : Nat → Bool}
    {file : Bytes} (hoverran : (body.stream fails file).overran = true) :
    size < file.length := by
  cases body with
  | nothing => cases hoverran
  | full =>
      obtain ⟨hcomplete, -, hless⟩ := of_decide_eq_true hoverran
      have hslice : Streams fails file 0 size 0
          (streamSlice fails file 0 size 0 0) :=
        streamSlice_streams fails file 0 (Nat.zero_le size)
      have hlength := hslice.complete hcomplete
      omega
  | slice range => cases hoverran

theorem span_inside {size : Nat} (body : BlobBody size) :
    body.span.1 + body.span.2 ≤ size := by
  cases body with
  | nothing => exact Nat.zero_le size
  | full => exact Nat.le_of_eq (Nat.zero_add size)
  | slice range =>
      have hordered := range.ordered
      have hinside := range.inside
      simp only [BlobBody.span]
      omega

theorem safeResponseMime_inert (stored : Option Text) :
    lowerAscii (safeResponseMime stored) ∉ inlineRiskyMimes := by
  unfold safeResponseMime
  split
  · decide
  · split
    · decide
    · rename_i hmime
      exact fun hrisky => hmime (Or.inr hrisky)

theorem blobResponse_cases {request : BlobRequest} {blob : ServedBlob}
    {answer : BlobAnswer blob.size}
    (hanswer : blobResponse request blob = some answer) :
    ∃ disposition, contentDisposition (downloadName blob) = some disposition ∧
      ((∃ problem,
        parseByteRange (servedRange request blob) blob.size = .error problem ∧
        answer = unsatisfiableAnswer blob disposition) ∨
      (parseByteRange (servedRange request blob) blob.size = .ok none ∧
        answer = fullAnswer blob disposition) ∨
      ∃ range,
        parseByteRange (servedRange request blob) blob.size = .ok (some range) ∧
        answer = sliceAnswer blob disposition range) := by
  obtain ⟨disposition, hdisposition, rfl⟩ := Option.map_eq_some_iff.mp hanswer
  refine ⟨disposition, hdisposition, ?_⟩
  split
  · rename_i problem hparse
    exact Or.inl ⟨problem, hparse, rfl⟩
  · rename_i hparse
    exact Or.inr (Or.inl ⟨hparse, rfl⟩)
  · rename_i range hparse
    exact Or.inr (Or.inr ⟨range, hparse, rfl⟩)

/-- A range is served only where `If-Range` lets it. -/
theorem servedRange_of_slice {request : BlobRequest} {blob : ServedBlob}
    {range : ByteRange blob.size}
    (hparse : parseByteRange (servedRange request blob) blob.size =
      .ok (some range)) :
    ifRangeAllowsPartial request.ifRange (etagForSha256 blob.sha256) = true ∧
      parseByteRange request.range blob.size = .ok (some range) := by
  unfold servedRange at hparse
  split at hparse
  · rename_i hallowed
    exact ⟨hallowed, hparse⟩
  · cases hparse

theorem etag_mem_blobHeaders (blob : ServedBlob) (disposition : Text) :
    (text "ETag", etagForSha256 blob.sha256) ∈ blobHeaders blob disposition :=
  List.mem_cons_of_mem _ (List.mem_cons_of_mem _ List.mem_cons_self)

/-- Whatever the conditional and range headers of a request, the file and its
reads: the answer names the blob, is about bytes the blob has, promises a length
it never sends more than, and what it sends are the file's own bytes from where
it says, all of them unless a read failed or the file ended too early. -/
theorem blob_answer_exact (request : BlobRequest) (blob : ServedBlob)
    (fails : Nat → Bool) (file : Bytes) :
    ∀ answer ∈ serveBlob request blob,
      ExactAnswer request blob answer fails file ∧
      ((∀ read, fails read = false) → file.length = blob.size →
        (answer.body.stream fails file).ending = .complete ∧
        (answer.body.stream fails file).chunks.flatten =
          (file.drop answer.body.span.1).take answer.body.span.2) := by
  intro answer hanswer
  have hinside := span_inside answer.body
  have hstreams := stream_streams answer.body fails file
  have hoverran : (answer.body.stream fails file).overran = true →
      blob.size < file.length := overran_longer
  refine ⟨?_, fun hreads hlength =>
    hstreams.whole hreads (hlength.symm ▸ hinside)⟩
  have hinert : ∀ mime, some (safeResponseMime blob.mime) = some mime →
      lowerAscii mime ∉ inlineRiskyMimes := by
    rintro mime ⟨⟩
    exact safeResponseMime_inert blob.mime
  rcases Option.or_eq_some_iff.mp hanswer with hcached | ⟨hfresh, hresponse⟩
  · unfold notModified at hcached
    dsimp only at hcached
    split at hcached
    · rename_i hmatch
      obtain rfl := Option.some.inj hcached
      exact {
        tagged := List.mem_singleton_self _
        cached := iff_of_true rfl hmatch
        bare := iff_of_true (Or.inl rfl) rfl
        inert := nofun
        attached := fun hother => absurd rfl hother
        inside := hinside
        promised := fun hbody => absurd rfl hbody
        ranged := nofun
        sent := hstreams
        overran := hoverran }
    · cases hcached
  · have hmiss : ¬ ifNoneMatchSatisfies request.ifNoneMatch
        (etagForSha256 blob.sha256) = true := by
      intro hmatch
      simp [notModified, hmatch] at hfresh
    obtain ⟨disposition, hdisposition, ⟨problem, -, rfl⟩ | ⟨-, rfl⟩ |
      ⟨range, hparse, rfl⟩⟩ := blobResponse_cases hresponse
    · exact {
        tagged := List.mem_cons_of_mem _ (etag_mem_blobHeaders blob disposition)
        cached := iff_of_false (show ¬ 416 = 304 by decide) hmiss
        bare := iff_of_true (Or.inr rfl) rfl
        inert := hinert
        attached := fun _ => ⟨disposition, hdisposition,
          List.mem_cons_of_mem _ List.mem_cons_self⟩
        inside := hinside
        promised := fun hbody => absurd rfl hbody
        ranged := nofun
        sent := hstreams
        overran := hoverran }
    · exact {
        tagged := List.mem_cons_of_mem _ (etag_mem_blobHeaders blob disposition)
        cached := iff_of_false (show ¬ 200 = 304 by decide) hmiss
        bare := iff_of_false
          (show ¬ (200 = 304 ∨ 200 = 416) by decide) nofun
        inert := hinert
        attached := fun _ => ⟨disposition, hdisposition,
          List.mem_cons_of_mem _ List.mem_cons_self⟩
        inside := hinside
        promised := fun _ => List.mem_cons_self
        ranged := nofun
        sent := hstreams
        overran := hoverran }
    · obtain ⟨hallowed, hrange⟩ := servedRange_of_slice hparse
      have hsame : ∀ other, BlobBody.slice range = .slice other →
          range = other := fun _ hother => BlobBody.slice.inj hother
      exact {
        tagged := List.mem_cons_of_mem _ (List.mem_cons_of_mem _
          (etag_mem_blobHeaders blob disposition))
        cached := iff_of_false (show ¬ 206 = 304 by decide) hmiss
        bare := iff_of_false
          (show ¬ (206 = 304 ∨ 206 = 416) by decide) nofun
        inert := hinert
        attached := fun _ => ⟨disposition, hdisposition,
          List.mem_cons_of_mem _ (List.mem_cons_of_mem _ List.mem_cons_self)⟩
        inside := hinside
        promised := fun _ => List.mem_cons_self
        ranged := by
          intro other hother
          obtain rfl := hsame other hother
          exact ⟨rfl, List.mem_cons_of_mem _ List.mem_cons_self, hrange,
            hallowed⟩
        sent := hstreams
        overran := hoverran }

namespace Sliced

def blob : ServedBlob where
  sha256 := List.replicate 64 (.scalar 'a')
  mime := some (text "text/HTML")
  size := 4
  filename := some (text "a\"b.html")

def request : BlobRequest where
  ifNoneMatch := some (text "\"other\"")
  range := some (text "bytes=1-2")
  ifRange := some (etagForSha256 blob.sha256)

end Sliced

open Sliced in
theorem blob_answer_exact_sliced :
    ∃ answer ∈ serveBlob request blob, answer.status = 206 ∧
      answer.mediaType = some (text "application/octet-stream") ∧
      (answer.body.stream (fun _ => false) [5, 6, 7, 8]).chunks.flatten =
        [6, 7] := by
  obtain ⟨answer, hanswer, hstatus, hspan⟩ : ∃ answer,
      serveBlob request blob = some answer ∧
        (answer.status = 206 ∧
          answer.mediaType = some (text "application/octet-stream")) ∧
        answer.body.span = (1, 2) := by
    refine ⟨_, rfl, ?_, ?_⟩ <;> decide +kernel
  have hsent := ((blob_answer_exact request blob (fun _ => false) [5, 6, 7, 8]
    answer hanswer).2 (fun _ => rfl) rfl).2
  rw [hspan] at hsent
  exact ⟨answer, hanswer, hstatus.1, hstatus.2, hsent⟩

end Download

end Localmail
