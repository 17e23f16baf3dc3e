/-
The reads tell a caller nothing of what its grants do not open.  Two histories
of the database that agree on the granted accounts, and on the blobs and files
that messages in them name, are answered alike, errors included, statement by
statement and whatever is committed in between.
-/
import Localmail.AccountReads
import Localmail.FilterTokens

namespace Localmail

namespace ReadApi

open Download (BlobRequest notModified serveBlob)
open Extract (hex)
open Reads (Blind)

/-! ### The view of a caller -/

/-- What the granted accounts have to do with at some time: messages, the
digests these name, and the files of the blobs. -/
structure Scope where
  messages : Nat → Prop
  digests : Bytes → Prop
  paths : Text → Prop

/-- The folders that carry a message. -/
def labelled (messageId : Nat) (db : ReadDb) : List MailboxRow :=
  (db.labels.filter fun label => label.messageId = messageId).filterMap
    fun label => db.mailboxes.find? fun mailbox =>
      mailbox.id = label.mailboxId

/-- Two databases agree on what is granted. -/
structure SameView (allowed : List Nat) (scope : Scope) (left right : ReadDb) :
    Prop where
  accounts : left.accounts.filter (fun account => account.id ∈ allowed) =
    right.accounts.filter fun account => account.id ∈ allowed
  mailboxes : left.mailboxes.filter (fun mailbox => mailbox.accountId ∈ allowed) =
    right.mailboxes.filter fun mailbox => mailbox.accountId ∈ allowed
  messages : left.messages.filter (fun message => message.accountId ∈ allowed) =
    right.messages.filter fun message => message.accountId ∈ allowed
  counted : ∀ mailbox ∈ left.mailboxes, mailbox.accountId ∈ allowed →
    left.labels.countP (fun label => label.mailboxId = mailbox.id) =
      right.labels.countP fun label => label.mailboxId = mailbox.id
  folders : ∀ messageId, scope.messages messageId →
    labelled messageId left = labelled messageId right
  blobs : ∀ digest, scope.digests digest → left.blobs digest = right.blobs digest
  texts : ∀ digest, scope.digests digest → left.texts digest = right.texts digest
  files : ∀ path, scope.paths path → left.files path = right.files path
  coversMessages : ∀ message ∈ left.messages, message.accountId ∈ allowed →
    scope.messages message.id
  coversDigests : ∀ message ∈ left.messages, message.accountId ∈ allowed →
    ∀ sha256 digest, message.attachments.carries sha256 = true →
      bytesFromHex sha256 = some digest → scope.digests digest
  coversPaths : ∀ digest, scope.digests digest → ∀ row ∈ left.blobs digest,
    scope.paths row.path

section View

variable {allowed : List Nat} {scope : Scope} {left right : ReadDb}

/-! ### What each statement reads -/

theorem grantedMessage_among (messageId : Nat) (db : ReadDb) :
    grantedMessage allowed messageId db =
      (db.messages.filter fun message => message.accountId ∈ allowed).find?
        fun message => message.id = messageId := by
  rw [grantedMessage, List.find?_filter]
  congr 1
  funext message
  refine decide_eq_decide.mpr ?_
  simp only [decide_eq_true_eq]
  exact And.comm

theorem grantedMessage_some {messageId : Nat} {db : ReadDb}
    {message : StoredMessage}
    (hmessage : grantedMessage allowed messageId db = some message) :
    message ∈ db.messages ∧ message.id = messageId ∧
      message.accountId ∈ allowed := by
  unfold grantedMessage at hmessage
  have hfound := List.find?_some hmessage
  exact ⟨List.mem_of_find?_eq_some hmessage, of_decide_eq_true hfound⟩

variable (hsame : SameView allowed scope left right)

include hsame

theorem SameView.grantedMessage_eq (messageId : Nat) :
    grantedMessage allowed messageId left =
      grantedMessage allowed messageId right := by
  rw [grantedMessage_among, grantedMessage_among, hsame.messages]

theorem SameView.account_eq {accountId : Nat} (hgranted : accountId ∈ allowed) :
    left.accounts.find? (fun account => account.id = accountId) =
      right.accounts.find? fun account => account.id = accountId := by
  have hfind (db : ReadDb) :
      db.accounts.find? (fun account => account.id = accountId) =
        (db.accounts.filter fun account => account.id ∈ allowed).find?
          fun account => account.id = accountId := by
    rw [List.find?_filter]
    congr 1
    funext account
    refine decide_eq_decide.mpr ?_
    simp only [decide_eq_true_eq]
    refine ⟨?_, And.right⟩
    rintro rfl
    exact ⟨hgranted, rfl⟩
  rw [hfind left, hfind right, hsame.accounts]

theorem SameView.grantedDetail_eq (messageId : Nat) :
    grantedDetail allowed messageId left =
      grantedDetail allowed messageId right := by
  unfold grantedDetail
  rw [← hsame.grantedMessage_eq messageId]
  cases hmessage : grantedMessage allowed messageId left with
  | none => rfl
  | some message =>
      rw [Option.bind_some, Option.bind_some,
        hsame.account_eq (grantedMessage_some hmessage).2.2]

/-- What is known of a message that is granted. -/
theorem SameView.granted {messageId : Nat} {message : StoredMessage}
    (hmessage : grantedMessage allowed messageId left = some message) :
    scope.messages messageId ∧
      ∀ sha256 digest, message.attachments.carries sha256 = true →
        bytesFromHex sha256 = some digest → scope.digests digest := by
  obtain ⟨hmem, rfl, hgranted⟩ := grantedMessage_some hmessage
  exact ⟨hsame.coversMessages message hmem hgranted,
    hsame.coversDigests message hmem hgranted⟩

theorem SameView.carrying (sha256 : Text) :
    left.messages.filter (carriedBy allowed sha256) =
      right.messages.filter (carriedBy allowed sha256) := by
  have hfilter (db : ReadDb) :
      db.messages.filter (carriedBy allowed sha256) =
        (db.messages.filter fun message => message.accountId ∈ allowed).filter
          fun message => message.attachments.carries sha256 := by
    rw [List.filter_filter]
    congr 1
    funext message
    simp [carriedBy, Bool.and_comm]
  rw [hfilter left, hfilter right, hsame.messages]

theorem SameView.readable (sha256 : Text) :
    left.messages.any (carriedBy allowed sha256) =
      right.messages.any (carriedBy allowed sha256) ∧
    (left.messages.any (carriedBy allowed sha256) = true →
      ∀ digest, bytesFromHex sha256 = some digest → scope.digests digest) := by
  have hany (messages : List StoredMessage) :
      messages.any (carriedBy allowed sha256) =
        (messages.filter (carriedBy allowed sha256)).any fun _ => true := by
    rw [List.any_filter]
    simp
  refine ⟨by rw [hany, hany, hsame.carrying sha256], ?_⟩
  intro hreadable digest hdigest
  obtain ⟨message, hmem, hcarried⟩ := List.any_eq_true.mp hreadable
  obtain ⟨hgranted, hcarries⟩ := of_decide_eq_true hcarried
  exact hsame.coversDigests message hmem hgranted sha256 digest hcarries hdigest

theorem SameView.carriedName_eq (sha256 : Text) :
    carriedName allowed sha256 left = carriedName allowed sha256 right := by
  rw [carriedName, carriedName, hsame.carrying sha256]

theorem SameView.accountSummary_eq (rules : ReadRules) (shared : Bool)
    {account : AccountRow} (hgranted : account.id ∈ allowed) :
    accountSummary rules left shared account =
      accountSummary rules right shared account := by
  have hmailboxes (db : ReadDb) :
      db.mailboxes.filter (fun mailbox => mailbox.accountId = account.id) =
        (db.mailboxes.filter fun mailbox => mailbox.accountId ∈ allowed).filter
          fun mailbox => mailbox.accountId = account.id := by
    rw [List.filter_filter]
    refine List.filter_congr fun mailbox _ => ?_
    rw [← Bool.decide_and]
    refine decide_eq_decide.mpr ⟨fun hequal => ⟨hequal, ?_⟩, And.left⟩
    rw [hequal]
    exact hgranted
  have hmessages (db : ReadDb) :
      db.messages.countP (fun message => message.accountId = account.id) =
        (db.messages.filter fun message => message.accountId ∈ allowed).countP
          fun message => message.accountId = account.id := by
    rw [List.countP_filter]
    refine List.countP_congr fun message _ => ?_
    simp only [decide_eq_true_eq, Bool.and_eq_true]
    refine ⟨fun hequal => ⟨hequal, ?_⟩, And.left⟩
    rw [hequal]
    exact hgranted
  unfold accountSummary
  rw [hmailboxes left, hmailboxes right, hsame.mailboxes, hmessages left,
    hmessages right, hsame.messages]

/-! ### What each accessor answers -/

omit hsame

theorem blind_listAccounts (rules : ReadRules) :
    Blind (SameView allowed scope) (fun _ => True)
      (listAccounts rules allowed) := by
  unfold listAccounts
  split
  · exact Reads.blind_pure trivial
  · refine Reads.blind_statement fun left right hsame => ⟨?_, trivial⟩
    rw [← hsame.accounts]
    refine List.map_congr_left fun account hmem => ?_
    have hfound := (List.mergeSort_perm _ _).mem_iff.mp hmem
    exact hsame.accountSummary_eq rules _
      (of_decide_eq_true (List.mem_filter.mp hfound).2)

theorem blind_listFolders (rules : ReadRules) (accountId : Nat) :
    Blind (SameView allowed scope) (fun _ => True)
      (listFolders rules allowed accountId) := by
  unfold listFolders
  split
  · exact Reads.blind_pure trivial
  · rename_i hgranted
    rw [not_not] at hgranted
    refine Reads.blind_statement fun left right hsame => ⟨?_, trivial⟩
    have hfilter (db : ReadDb) :
        db.mailboxes.filter (fun mailbox => mailbox.accountId = accountId) =
          (db.mailboxes.filter fun mailbox => mailbox.accountId ∈ allowed).filter
            fun mailbox => mailbox.accountId = accountId := by
      rw [List.filter_filter]
      refine List.filter_congr fun mailbox _ => ?_
      rw [← Bool.decide_and]
      refine decide_eq_decide.mpr ⟨fun hequal => ⟨hequal, ?_⟩, And.left⟩
      rw [hequal]
      exact hgranted
    rw [hfilter left, hfilter right, ← hsame.mailboxes]
    refine List.map_congr_left fun mailbox hmem => ?_
    have hfound := (List.mergeSort_perm _ _).mem_iff.mp hmem
    have hvisible := List.mem_filter.mp (List.mem_filter.mp hfound).1
    unfold folderSummary
    rw [hsame.counted mailbox hvisible.1 (of_decide_eq_true hvisible.2)]

theorem blind_getMessageRaw (messageId : Nat) :
    Blind (SameView allowed scope) (fun _ => True)
      (getMessageRaw allowed messageId) := by
  refine Reads.blind_refuseWhen.bind fun _ _ => ?_
  refine (Reads.blind_read fun left right hsame =>
    hsame.grantedMessage_eq messageId).bind fun _ _ => ?_
  exact Reads.blind_orFail fun _ _ => trivial

theorem blind_wantedHeaders (rules : ReadRules) (messageId : Nat) (mode : Text)
    (message : StoredMessage) :
    Blind (SameView allowed scope) (fun _ => True)
      (wantedHeaders rules allowed messageId mode message) := by
  unfold wantedHeaders
  split
  · exact Reads.blind_pure trivial
  · have hentries : Blind (SameView allowed scope) (fun _ => True)
        (headerEntries rules allowed messageId
          (message.rawBytes.take prefixReadBytes)) := by
      unfold headerEntries
      split
      · exact Reads.blind_pure trivial
      · exact (blind_getMessageRaw messageId).bind fun _ _ =>
          Reads.blind_pure trivial
    exact hentries.bind fun _ _ => Reads.blind_pure trivial

/-- The digests that are looked up are of texts that the entries carry. -/
theorem attachmentShas_carried {value : Jsonb} {entries : List Jsonb}
    {shas : List Bytes} (hentries : value.entries? = some entries)
    (hshas : attachmentShas entries = some shas) :
    ∀ digest ∈ shas, ∃ sha256, value.carries sha256 = true ∧
      bytesFromHex sha256 = some digest := by
  intro digest hdigest
  obtain ⟨texts, htexts, rfl⟩ := Option.map_eq_some_iff.mp hshas
  obtain ⟨sha256, hsha, hbytes⟩ := List.mem_filterMap.mp hdigest
  obtain ⟨stored, hstored, htext⟩ := exists_of_mem_mapM htexts hsha
  obtain ⟨entry, hentry, hgiven⟩ := List.mem_filterMap.mp hstored
  have hget := (Option.filter_eq_some_iff.mp hgiven).1
  refine ⟨sha256, ?_, hbytes⟩
  unfold Jsonb.entries? at hentries
  split at hentries
  · split at hentries
    · rename_i items shown
      split at hentries
      · obtain rfl := Option.some.inj hentries
        refine List.any_eq_true.mpr ⟨entry, hentry, decide_eq_true ?_⟩
        rw [hget, Option.bind_some, htext]
      · cases hentries
    · cases hentries
  · obtain rfl := Option.some.inj hentries
    cases hentry

theorem blind_loadAttachmentMeta {shas : List Bytes}
    (hscope : ∀ digest ∈ shas, scope.digests digest) :
    Blind (SameView allowed scope) (fun _ => True) (loadAttachmentMeta shas) := by
  unfold loadAttachmentMeta
  split
  · exact Reads.blind_pure trivial
  · refine Reads.blind_read fun left right hsame => ?_
    refine List.filterMap_congr fun digest hmem => ?_
    rw [hsame.blobs digest (hscope digest hmem)]

theorem blind_getMessage (rules : ReadRules) (messageId : Nat) (mode : Text)
    (externalImages : Bool) :
    Blind (SameView allowed scope) (fun _ => True)
      (getMessage rules allowed messageId mode externalImages) := by
  refine Reads.blind_refuseWhen.bind fun _ _ => ?_
  refine Reads.blind_refuseWhen.bind fun _ _ => ?_
  have hrow : Blind (SameView allowed scope)
      (fun row => ∀ found ∈ row, scope.messages messageId ∧
        ∀ sha256 digest, found.1.attachments.carries sha256 = true →
          bytesFromHex sha256 = some digest → scope.digests digest)
      (Reads.statement (grantedDetail allowed messageId) :
        Read (Option (StoredMessage × AccountRow))) := by
    refine Reads.blind_statement fun left right hsame =>
      ⟨hsame.grantedDetail_eq messageId, ?_⟩
    intro found hfound
    obtain ⟨message, hmessage, hrest⟩ := Option.bind_eq_some_iff.mp hfound
    obtain ⟨account, -, rfl⟩ := Option.map_eq_some_iff.mp hrest
    exact hsame.granted hmessage
  refine hrow.bind fun row hknown => ?_
  refine (Reads.blind_orFail fun found hfound => hknown found hfound).bind
    fun found hfound => ?_
  obtain ⟨hmessage, hdigests⟩ := hfound
  have hfolders : Blind (SameView allowed scope) (fun _ => True)
      (Reads.statement (foldersOf rules messageId) : Read (List MailboxRow)) :=
    Reads.blind_read fun left right hsame => by
      have hlabelled := hsame.folders messageId hmessage
      unfold labelled at hlabelled
      unfold foldersOf
      rw [hlabelled]
  refine hfolders.bind fun folders _ => ?_
  refine (Reads.blind_orFail fun entries hentries => hentries).bind
    fun entries hentries => ?_
  refine (Reads.blind_orFail fun _ _ => trivial).bind fun cids _ => ?_
  refine (Reads.blind_orFail fun shas hshas => hshas).bind fun shas hshas => ?_
  have hscope : ∀ digest ∈ shas, scope.digests digest := by
    intro digest hmem
    obtain ⟨sha256, hcarries, hbytes⟩ :=
      attachmentShas_carried hentries hshas digest hmem
    exact hdigests sha256 digest hcarries hbytes
  refine (blind_loadAttachmentMeta hscope).bind fun rows _ => ?_
  refine (Reads.blind_orFail fun _ _ => trivial).bind fun attachments _ => ?_
  refine (blind_wantedHeaders rules messageId mode found.1).bind
    fun headers _ => ?_
  exact Reads.blind_pure trivial

theorem blind_resolveMessageAttachment (messageId : Nat) (index : Int) :
    Blind (SameView allowed scope) (fun _ => True)
      (resolveMessageAttachment allowed messageId index) := by
  refine Reads.blind_refuseWhen.bind fun _ _ => ?_
  refine Reads.blind_refuseWhen.bind fun _ _ => ?_
  have hentry : Blind (SameView allowed scope) (fun _ => True)
      (Reads.statement (storedEntry allowed messageId index.toNat) :
        Read (Option Jsonb)) :=
    Reads.blind_read fun left right hsame => by
      unfold storedEntry
      rw [hsame.grantedMessage_eq messageId]
  exact hentry.bind fun _ _ => Reads.blind_orFail fun _ _ => trivial

/-- A caller who may read a blob has its digest in scope. -/
theorem blind_callerCanReadBlob (sha256 : Text) :
    Blind (SameView allowed scope)
      (fun readable => readable = true →
        ∀ digest, bytesFromHex sha256 = some digest → scope.digests digest)
      (callerCanReadBlob allowed sha256) := by
  unfold callerCanReadBlob
  split
  · exact Reads.blind_pure nofun
  · exact Reads.blind_statement fun left right hsame => hsame.readable sha256

theorem blind_parseSha256Hex (sha256 : Text) :
    Blind (SameView allowed scope)
      (fun digest => bytesFromHex sha256 = some digest)
      (Reads.ofExcept (parseSha256Hex sha256) : Read Bytes) := by
  apply Reads.blind_ofExcept
  intro digest hdigest
  unfold parseSha256Hex at hdigest
  split at hdigest
  · split at hdigest
    · rename_i found hfound
      obtain rfl := Except.ok.inj hdigest
      exact hfound
    · cases hdigest
  · cases hdigest

theorem blind_lookupBlobRow (sha256 : Text) :
    Blind (SameView allowed scope) (fun row => scope.paths row.path)
      (lookupBlobRow allowed sha256) := by
  refine (blind_parseSha256Hex sha256).bind fun digest hdigest => ?_
  refine (blind_callerCanReadBlob sha256).bind fun readable hreadable => ?_
  refine Reads.blind_refuseWhen.bind fun _ hread => ?_
  have hyes : readable = true := by simpa using hread
  have hscope := hreadable hyes digest hdigest
  have hrow : Blind (SameView allowed scope)
      (fun row => ∀ found ∈ row, scope.paths found.path)
      (Reads.statement (fun db => db.blobs digest) : Read (Option BlobRow)) :=
    Reads.blind_statement fun left right hsame =>
      ⟨hsame.blobs digest hscope, hsame.coversPaths digest hscope⟩
  exact hrow.bind fun row hpaths =>
    Reads.blind_orFail fun found hfound => hpaths found hfound

theorem blind_getAttachmentFilename (sha256 : Text) :
    Blind (SameView allowed scope) (fun _ => True)
      (getAttachmentFilename allowed sha256) := by
  refine (blind_parseSha256Hex sha256).bind fun _ _ => ?_
  split
  · exact Reads.blind_pure trivial
  · exact Reads.blind_read fun left right hsame => hsame.carriedName_eq sha256

theorem blind_openBlobFileAt {path : Text} (hpath : scope.paths path)
    (sha256 : Text) :
    Blind (SameView allowed scope) (fun _ => True)
      (openBlobFileAt path sha256) := by
  refine (Reads.blind_read fun left right hsame => hsame.files path hpath).bind
    fun _ _ => ?_
  exact Reads.blind_orFail fun _ _ => trivial

theorem blind_getAttachmentTextPage (sha256 : Text) (window : TextWindow) :
    Blind (SameView allowed scope) (fun _ => True)
      (getAttachmentTextPage allowed sha256 window) := by
  refine (blind_parseSha256Hex sha256).bind fun digest hdigest => ?_
  refine (blind_callerCanReadBlob sha256).bind fun readable hreadable => ?_
  refine Reads.blind_refuseWhen.bind fun _ hread => ?_
  have hyes : readable = true := by simpa using hread
  have hscope := hreadable hyes digest hdigest
  refine (Reads.blind_read fun left right hsame =>
    hsame.texts digest hscope).bind fun _ _ => ?_
  exact Reads.blind_ofExcept fun _ _ => trivial

theorem blind_replyWithBlob (request : BlobRequest) (sha256 : Text)
    {name : Read (Option Text)}
    (hname : Blind (SameView allowed scope) (fun _ => True) name) :
    Blind (SameView allowed scope) (fun _ => True)
      (replyWithBlob allowed request sha256 name) := by
  refine (blind_lookupBlobRow sha256).bind fun row hpath => ?_
  dsimp only
  split
  · exact Reads.blind_pure trivial
  · refine hname.bind fun filename _ => ?_
    refine (blind_openBlobFileAt hpath sha256).bind fun file _ => ?_
    refine (Reads.blind_orFail fun _ _ => trivial).bind fun answer _ => ?_
    exact Reads.blind_pure trivial

/-! ### What a route answers -/

theorem ok_of_bind {ε α β : Type} {first : Except ε α} {next : α → Except ε β}
    {result : β} (hok : first >>= next = .ok result) :
    ∃ value, first = .ok value ∧ next value = .ok result := by
  cases first with
  | error error => cases hok
  | ok value => exact ⟨value, rfl, hok⟩

/-- A route that was given well formed parameters. -/
theorem blind_readUnder {rules : ReadRules} {request : ReadRequest}
    {route : List Nat → Read ReadAnswer}
    (hroute : readUnder rules request = .ok route) (allowed : List Nat) :
    Blind (SameView allowed scope) (fun _ => True) (route allowed) := by
  cases request with
  | accounts =>
      obtain rfl := Except.ok.inj hroute
      exact (blind_listAccounts rules).map fun _ _ => trivial
  | folders accountId =>
      obtain ⟨id, -, hroute⟩ := ok_of_bind hroute
      obtain rfl := Except.ok.inj hroute
      exact (blind_listFolders rules id).map fun _ _ => trivial
  | detail messageId headers externalImages =>
      obtain ⟨id, -, hroute⟩ := ok_of_bind hroute
      obtain rfl := Except.ok.inj hroute
      exact (blind_getMessage rules id headers externalImages).map
        fun _ _ => trivial
  | raw messageId =>
      obtain ⟨id, -, hroute⟩ := ok_of_bind hroute
      obtain rfl := Except.ok.inj hroute
      exact (blind_getMessageRaw id).map fun _ _ => trivial
  | blob sha256 request =>
      obtain rfl := Except.ok.inj hroute
      exact (blind_replyWithBlob request sha256
        (blind_getAttachmentFilename sha256)).map fun _ _ => trivial
  | blobText sha256 offset limit =>
      obtain ⟨window, -, hroute⟩ := ok_of_bind hroute
      obtain rfl := Except.ok.inj hroute
      exact (blind_getAttachmentTextPage sha256 window).map fun _ _ => trivial
  | attachment messageId index request =>
      obtain ⟨id, -, hroute⟩ := ok_of_bind hroute
      obtain ⟨position, -, hroute⟩ := ok_of_bind hroute
      obtain rfl := Except.ok.inj hroute
      refine (blind_resolveMessageAttachment id position).bind fun entry _ => ?_
      exact (blind_replyWithBlob request entry.sha256
        (Reads.blind_pure trivial)).map fun _ _ => trivial
  | attachmentText messageId index offset limit =>
      obtain ⟨id, -, hroute⟩ := ok_of_bind hroute
      obtain ⟨position, -, hroute⟩ := ok_of_bind hroute
      obtain ⟨window, -, hroute⟩ := ok_of_bind hroute
      obtain rfl := Except.ok.inj hroute
      refine (blind_resolveMessageAttachment id position).bind fun entry _ => ?_
      exact (blind_getAttachmentTextPage entry.sha256 window).map
        fun _ _ => trivial

/-- Two histories of the database that agree on the grants of a user when its
request reads them, and from then on agree on what these open, are answered
alike.  In particular a message, a blob or a text that no grant opens is not
told from one that is not there. -/
theorem reads_see_only_the_granted (rules : ReadRules) (userId : Nat)
    (request : ReadRequest) (scope : Scope) (left right : Nat → ReadDb)
    (hgrants : allowedAccountIds (left 0) userId =
      allowedAccountIds (right 0) userId)
    (hagree : ∀ time, SameView (allowedAccountIds (left 0) userId) scope
      (left (time + 1)) (right (time + 1))) :
    (serveRead rules userId request).answer left =
      (serveRead rules userId request).answer right := by
  cases hroute : readUnder rules request with
  | error error => simp only [serveRead, hroute]; rfl
  | ok route =>
      have hanswer (snapshots : Nat → ReadDb) :
          (serveRead rules userId request).answer snapshots =
            (route (allowedAccountIds (snapshots 0) userId)).answer
              fun time => snapshots (time + 1) := by
        simp only [serveRead, hroute]
        rfl
      rw [hanswer left, hanswer right, ← hgrants]
      exact (blind_readUnder hroute _).answer_eq hagree

end View

namespace OtherAccount

def rules : ReadRules where
  sanitizeHtml := fun html _ _ => html
  parseHeaderBlock := fun _ => []
  nameLe := fun _ _ => true
  now := 0

def message (id accountId : Nat) (attachments : List Jsonb) : StoredMessage where
  id := id
  accountId := accountId
  subject := none
  fromAddr := none
  fromName := none
  toAddrs := none
  ccAddrs := none
  bccAddrs := none
  bodyText := none
  bodyHtml := none
  attachments := .array attachments []
  dateSent := none
  rawBytes := [1]

/-- Without the account that is not granted. -/
def alone : ReadDb where
  grants := [(7, 1)]
  accounts := [⟨1, text "a", text "a@x"⟩]
  mailboxes := []
  labels := []
  messages := [message 3 1 []]
  blobs := fun _ => none
  texts := fun _ => none
  files := fun _ => none

/-- With a second account, its message and the blob of its attachment. -/
def beside : ReadDb where
  grants := [(7, 1), (8, 2)]
  accounts := [⟨1, text "a", text "a@x"⟩, ⟨2, text "b", text "b@x"⟩]
  mailboxes := [⟨4, 2, text "INBOX", none, none, some 0⟩]
  labels := [⟨5, 4⟩]
  messages := [message 3 1 [], message 5 2 [.object
    [(text "sha256", .text (List.replicate 64 (.scalar 'a')))] []]]
  blobs := fun digest =>
    if digest = List.replicate 32 170 then some ⟨none, 1, text "f"⟩ else none
  texts := fun _ => some (text "secret")
  files := fun _ => some [9]

def scope : Scope where
  messages := fun id => id = 3
  digests := fun _ => False
  paths := fun _ => False

theorem sameView : SameView [1] scope beside alone where
  accounts := rfl
  mailboxes := rfl
  messages := rfl
  counted := by
    intro mailbox hmem hgranted
    obtain rfl := List.mem_singleton.mp hmem
    exact absurd hgranted (by decide)
  folders := by
    rintro _ rfl
    rfl
  blobs := nofun
  texts := nofun
  files := nofun
  coversMessages := by
    intro found hmem hgranted
    rcases List.mem_pair.mp hmem with rfl | rfl
    · rfl
    · exact absurd hgranted (by decide)
  coversDigests := by
    intro found hmem hgranted sha256 digest hcarries
    rcases List.mem_pair.mp hmem with rfl | rfl
    · cases hcarries
    · exact absurd hgranted (by decide)
  coversPaths := nofun

end OtherAccount

open OtherAccount in
theorem reads_see_only_the_granted_beside :
    (serveRead rules 7 (.attachment (text "5") (text "0")
        ⟨none, none, none⟩)).answer (fun _ => beside) =
      (serveRead rules 7 (.attachment (text "5") (text "0")
        ⟨none, none, none⟩)).answer fun _ => alone := by
  have hbeside : allowedAccountIds beside 7 = [1] := by
    simp [allowedAccountIds, beside]
  have halone : allowedAccountIds alone 7 = [1] := by
    simp [allowedAccountIds, alone]
  exact reads_see_only_the_granted rules 7 _ scope (fun _ => beside)
    (fun _ => alone) (hbeside.trans halone.symm) fun _ => hbeside ▸ sameView

end ReadApi

end Localmail
