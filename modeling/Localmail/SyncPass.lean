/-
`sync_mailbox` against an IMAP server, one round trip or one loop iteration at
a time.  The server may change between any two steps of a pass, the connection
may drop or the process die before any of them, and only what a pass commits
survives it.
-/
import Localmail.LabelledRun
import Localmail.OrderLimit
import Localmail.SyncStore
import Mathlib.Order.Lattice

namespace Localmail

/-- `sync.BATCH_SIZE`. -/
def batchSize : Nat := 50

/-! ### The IMAP server -/

structure ServerMessage where
  uid : Nat
  body : Bytes
deriving Repr, DecidableEq

/-- One mailbox on the server.  `uidnext` bounds every UID assigned so far
under the current `uidvalidity`. -/
structure ImapServer where
  uidvalidity : Nat
  uidnext : Nat
  messages : List ServerMessage
deriving Repr, DecidableEq

namespace ImapServer

def uids (server : ImapServer) : List Nat :=
  server.messages.map ServerMessage.uid

def highestUid (server : ImapServer) : Nat :=
  maxOrZero server.uids

/-- `SEARCH ALL`. -/
def searchAll (server : ImapServer) : List Nat := server.uids

/-- `SEARCH UID n:*`.  The star is the highest UID, and a range may run
backwards, so a non-empty mailbox always answers with at least one UID. -/
def searchFrom (server : ImapServer) (first : Nat) : List Nat :=
  server.uids.filter fun uid =>
    min first server.highestUid ≤ uid ∧ uid ≤ max first server.highestUid

end ImapServer

/-! ### The pure parts of `sync_mailbox` -/

def sortUids (uids : List Nat) : List Nat :=
  uids.insertionSort (· ≤ ·)

def filterNewUids (uids : List Nat) (knownUidnext : Option Nat) : List Nat :=
  match knownUidnext with
  | none => sortUids uids
  | some known => sortUids (uids.filter fun uid => known ≤ uid)

/-- The slice `xs[:stop]` for an integer `stop`; a negative one counts from the
end. -/
def sliceTo {α : Type} (items : List α) (stop : Int) : List α :=
  if 0 ≤ stop then items.take stop.toNat
  else items.take (items.length - (-stop).toNat)

def capUids (uids : List Nat) (maxMessages : Option Int) : List Nat :=
  match maxMessages with
  | none => uids
  | some cap => if cap < uids.length then sliceTo uids cap else uids

/-- Consecutive slices of `size`; the fuel bounds their number. -/
def batchesFuel (size : Nat) : Nat → List Nat → List (List Nat)
  | 0, _ => []
  | _ + 1, [] => []
  | fuel + 1, item :: rest =>
      (item :: rest).take size :: batchesFuel size fuel ((item :: rest).drop size)

/-- `_batches`. -/
def batches (size : Nat) (items : List Nat) : List (List Nat) :=
  batchesFuel size items.length items

/-- `mailbox.uidnext or 1`. -/
def resumeFrom (row : MailboxRow) : Nat :=
  match row.uidnext with
  | none => 1
  | some 0 => 1
  | some uidnext => uidnext

/-- One FETCH response item. -/
structure FetchData where
  uid : Nat
  body : Bytes
  flags : List String
  internalDate : Option Micros
deriving Repr, DecidableEq

/-! ### The state of a pass -/

/-- The arguments of one `sync_mailbox` call that decide what it does. -/
structure PassArgs where
  maxMessages : Option Int
  maxBodyFetchHold : Micros
deriving Repr, DecidableEq

/-- After SELECT: the stored row the pass works from, and what the server
reported (zero when it reported no `UIDNEXT`). -/
structure Selected where
  args : PassArgs
  row : MailboxRow
  serverUidvalidity : Nat
  serverUidnext : Nat
deriving Repr, DecidableEq

def Selected.fullSync (selected : Selected) : Bool :=
  selected.row.uidvalidity ≠ some selected.serverUidvalidity

/-- The local variables of the fetch loop.  `work` is what the open
transaction sees. -/
structure Pass where
  args : PassArgs
  serverUidvalidity : Nat
  now : Micros
  work : SyncDb
  /-- The chunks not yet fetched. -/
  batches : List (List Nat)
  highestSeen : Nat
  holdAt : Option Nat
  serverEmptyingBodies : Bool
  heldAttempts : List Nat
  inserted : Nat
deriving Repr, DecidableEq

inductive Phase where
  | idle
  | selected (selected : Selected)
  | betweenBatches (pass : Pass)
  | inBatch (pass : Pass) (chunk : List Nat) (fetched : List FetchData)
deriving Repr, DecidableEq

structure SyncState where
  server : ImapServer
  /-- The committed tables. -/
  db : SyncDb
  phase : Phase
  /-- The `(uidvalidity, uid)` pairs a probe answered "gone" for. -/
  reportedAbsent : List (Nat × Nat)
deriving Repr, DecidableEq

/-- What can happen next: the mailbox changes on the server, the pass takes
its next step with the given answers, or the pass dies. -/
inductive SyncEvent where
  | deliver (message : ServerMessage)
  | expunge (uid : Nat)
  | renumber (uidvalidity : Nat)
  | select (args : PassArgs) (reportsUidnext : Bool)
  | search (now : Micros)
  | fetch (answer : List FetchData)
  | handle (stillOnServer : Bool) (fault : Option Fault) (txNow : Micros)
  | checkpoint
  | crash
deriving Repr, DecidableEq

/-! ### The steps -/

/-- SELECT, and on a changed UIDVALIDITY the committed reset. -/
def selectMailbox (server : ImapServer) (db : SyncDb) (args : PassArgs)
    (reportsUidnext : Bool) : SyncDb × Selected :=
  let selected : Selected :=
    ⟨args, db.mailbox, server.uidvalidity,
      if reportsUidnext then server.uidnext else 0⟩
  (if selected.fullSync ∧ db.mailbox.uidvalidity.isSome then
      clearMailboxHolds (clearMailboxLabels db)
    else db,
    selected)

/-- The UIDs this run will fetch, before the cap. -/
def candidateUids (server : ImapServer) (selected : Selected) : List Nat :=
  if selected.fullSync then sortUids server.searchAll
  else
    let last := resumeFrom selected.row
    filterNewUids (server.searchFrom last) (some last)

/-- Nothing to fetch: advance to the reported `UIDNEXT`, or stay. -/
def emptyUidnext (selected : Selected) : Nat :=
  if selected.serverUidnext = 0 then resumeFrom selected.row
  else selected.serverUidnext

def finishEmpty (db : SyncDb) (selected : Selected) : SyncDb :=
  updateMailboxProgress db selected.serverUidvalidity (emptyUidnext selected)

def startPass (db : SyncDb) (selected : Selected) (uids : List Nat)
    (now : Micros) : Pass where
  args := selected.args
  serverUidvalidity := selected.serverUidvalidity
  now := now
  work := db
  batches := batches batchSize uids
  highestSeen := resumeFrom selected.row - 1
  holdAt := none
  serverEmptyingBodies := false
  heldAttempts := loadAttempts db
  inserted := 0

/-- The body the FETCH returned for a UID; a missing or empty one is
`none`. -/
def fetchedBody (fetched : List FetchData) (uid : Nat) : Option FetchData :=
  match fetched.find? fun data => data.uid = uid with
  | some data => if data.body = [] then none else some data
  | none => none

/-- The branch for a UID that came back without a body but is still on the
server: hold it, or give up on it once its window is over. -/
def holdOrGiveUp (pass : Pass) (uid : Nat) (txNow : Micros) : Pass :=
  let recorded := recordAttempt pass.work uid txNow
  if holdExpired recorded.2 pass.now pass.args.maxBodyFetchHold then
    { pass with
      work := markGaveUp recorded.1 uid txNow
      serverEmptyingBodies := true
      highestSeen := max pass.highestSeen uid }
  else
    { pass with
      work := recorded.1
      serverEmptyingBodies := true
      heldAttempts := uid :: pass.heldAttempts
      holdAt := some ((pass.holdAt.map fun held => min held uid).getD uid) }

/-- The branch for a UID whose body arrived.  `none` is the re-raised
contention error that ends the pass. -/
def storeBody (parse : Parser) (pass : Pass) (uid : Nat) (data : FetchData)
    (fault : Option Fault) : Option Pass :=
  let cleared :=
    if uid ∈ pass.heldAttempts then
      { pass with
        work := clearAttempts pass.work uid
        heldAttempts := pass.heldAttempts.filter fun held => held ≠ uid }
    else pass
  match processOneMessage parse cleared.work uid data.body data.flags
      data.internalDate fault with
  | .ok (linked, didInsert) =>
      some { cleared with
        work := linked
        inserted := cleared.inserted + (if didInsert then 1 else 0)
        highestSeen := max cleared.highestSeen uid }
  | .error .contention => none
  | .error .other =>
      some { cleared with
        work := recordFailedMessage cleared.work uid data.body
        highestSeen := max cleared.highestSeen uid }

/-- End of a chunk: store the resume point and drop dead hold history. -/
def checkpointPass (pass : Pass) : SyncDb :=
  let resumeAt := checkpointUidnext pass.highestSeen pass.holdAt
  reclaimBelow
    (updateMailboxProgress pass.work pass.serverUidvalidity resumeAt) resumeAt

/-- One step.  A pass talks to the mailbox it selected: once the server has
renumbered, it gets no further answer and can only finish what it already
fetched, or die. -/
def syncStep (parse : Parser) (state : SyncState) :
    SyncEvent → Option SyncState
  | .deliver message =>
      if state.server.uidnext ≤ message.uid then
        some { state with
          server := { state.server with
            uidnext := message.uid + 1
            messages := state.server.messages ++ [message] } }
      else none
  | .expunge uid =>
      some { state with
        server := { state.server with
          messages := state.server.messages.filter
            fun message => message.uid ≠ uid } }
  | .renumber uidvalidity =>
      if state.server.uidvalidity < uidvalidity then
        some { state with server := ⟨uidvalidity, 1, []⟩ }
      else none
  | .select args reportsUidnext =>
      match state.phase with
      | .idle =>
          let outcome := selectMailbox state.server state.db args reportsUidnext
          some { state with db := outcome.1, phase := .selected outcome.2 }
      | _ => none
  | .search now =>
      match state.phase with
      | .selected selected =>
          if state.server.uidvalidity = selected.serverUidvalidity then
            let uids := capUids (candidateUids state.server selected)
              selected.args.maxMessages
            if uids = [] then
              some { state with
                db := finishEmpty state.db selected, phase := .idle }
            else
              some { state with
                phase := .betweenBatches
                  (startPass state.db selected uids now) }
          else none
      | _ => none
  | .fetch answer =>
      match state.phase with
      | .betweenBatches pass =>
          match pass.batches with
          | chunk :: rest =>
              if state.server.uidvalidity = pass.serverUidvalidity ∧
                  ∀ data ∈ answer, data.body ≠ [] →
                    ⟨data.uid, data.body⟩ ∈ state.server.messages then
                some { state with
                  phase := .inBatch { pass with batches := rest } chunk answer }
              else none
          | [] => none
      | _ => none
  | .handle stillOnServer fault txNow =>
      match state.phase with
      | .inBatch pass (uid :: chunk) fetched =>
          match fetchedBody fetched uid with
          | some data =>
              match storeBody parse pass uid data fault with
              | some next =>
                  some { state with phase := .inBatch next chunk fetched }
              | none => some { state with phase := .idle }
          | none =>
              if pass.serverEmptyingBodies ∨ stillOnServer then
                some { state with
                  phase := .inBatch (holdOrGiveUp pass uid txNow) chunk fetched }
              else if state.server.uidvalidity = pass.serverUidvalidity ∧
                  uid ∉ state.server.uids then
                some { state with
                  phase := .inBatch
                    { pass with highestSeen := max pass.highestSeen uid }
                    chunk fetched
                  reportedAbsent :=
                    (pass.serverUidvalidity, uid) :: state.reportedAbsent }
              else none
      | _ => none
  | .checkpoint =>
      match state.phase with
      | .inBatch pass [] _ =>
          let committed := checkpointPass pass
          some { state with
            db := committed
            phase :=
              if pass.batches = [] then .idle
              else .betweenBatches { pass with work := committed } }
      | _ => none
  | .crash => some { state with phase := .idle }

/-! ### Facts about the pure parts -/

@[simp]
theorem mem_sortUids (uids : List Nat) (uid : Nat) :
    uid ∈ sortUids uids ↔ uid ∈ uids :=
  (List.perm_insertionSort (· ≤ ·) uids).mem_iff

theorem sortUids_strict {uids : List Nat} (hnodup : uids.Nodup) :
    (sortUids uids).Pairwise (· < ·) := by
  have hsorted : (sortUids uids).Pairwise (· ≤ ·) :=
    List.pairwise_insertionSort (· ≤ ·) uids
  have hdistinct : (sortUids uids).Pairwise (· ≠ ·) :=
    (List.perm_insertionSort (· ≤ ·) uids).nodup_iff.mpr hnodup
  exact (hsorted.and hdistinct).imp fun h => Nat.lt_of_le_of_ne h.1 h.2

/-- The cap keeps a prefix. -/
theorem capUids_eq_take (uids : List Nat) (maxMessages : Option Int) :
    ∃ count, capUids uids maxMessages = uids.take count := by
  unfold capUids sliceTo
  split
  · exact ⟨uids.length, by simp⟩
  · split
    · split
      · exact ⟨_, rfl⟩
      · exact ⟨_, rfl⟩
    · exact ⟨uids.length, by simp⟩

theorem exists_top_of_strict {uids : List Nat}
    (hsorted : uids.Pairwise (· < ·)) (hnonempty : uids ≠ []) :
    ∃ top ∈ uids, ∀ uid ∈ uids, uid ≤ top := by
  refine ⟨uids.getLast hnonempty, List.getLast_mem hnonempty, ?_⟩
  intro uid huid
  exact (hsorted.imp Nat.le_of_lt).rel_getLast huid

theorem batchesFuel_flatten {size : Nat} (hsize : 0 < size) (fuel : Nat)
    (items : List Nat) (hfuel : items.length ≤ fuel) :
    (batchesFuel size fuel items).flatten = items := by
  induction fuel generalizing items with
  | zero =>
      have hnil : items = [] := List.length_eq_zero_iff.mp (by omega)
      simp [batchesFuel, hnil]
  | succ fuel ih =>
      cases items with
      | nil => simp [batchesFuel]
      | cons item rest =>
          have hshort : ((item :: rest).drop size).length ≤ fuel := by
            simp only [List.length_drop, List.length_cons] at hfuel ⊢
            omega
          simp only [batchesFuel, List.flatten_cons, ih _ hshort,
            List.take_append_drop]

theorem batches_flatten {size : Nat} (hsize : 0 < size) (items : List Nat) :
    (batches size items).flatten = items :=
  batchesFuel_flatten hsize items.length items (Nat.le_refl _)

theorem batches_tail_flatten {size : Nat} (hsize : 0 < size)
    (items : List Nat) :
    (batches size items).tail.flatten = items.drop size := by
  cases items with
  | nil => simp [batches, batchesFuel]
  | cons item rest =>
      simp only [batches, List.length_cons, batchesFuel, List.tail_cons]
      apply batchesFuel_flatten hsize
      simp only [List.length_drop, List.length_cons]
      omega

theorem mem_flatten_of_tail {chunks : List (List Nat)} {uid : Nat}
    (huid : uid ∈ chunks.tail.flatten) : uid ∈ chunks.flatten := by
  obtain ⟨chunk, hchunk, hmem⟩ := List.mem_flatten.mp huid
  exact List.mem_flatten.mpr ⟨chunk, List.mem_of_mem_tail hchunk, hmem⟩

theorem checkpointUidnext_le (highestSeen : Nat) (holdAt : Option Nat) :
    checkpointUidnext highestSeen holdAt ≤ highestSeen + 1 := by
  cases holdAt with
  | none => exact Nat.le_refl _
  | some held => exact Nat.min_le_left _ _

theorem checkpointUidnext_le_held (highestSeen : Nat) {holdAt : Option Nat}
    {held : Nat} (hheld : held ∈ holdAt) :
    checkpointUidnext highestSeen holdAt ≤ held := by
  cases hheld
  exact Nat.min_le_right _ _

namespace ImapServer

/-- Whatever is at or above `first` answers `SEARCH UID first:*`. -/
theorem mem_searchFrom (server : ImapServer) {first uid : Nat}
    (huid : uid ∈ server.uids) (hfirst : first ≤ uid) :
    uid ∈ server.searchFrom first := by
  have htop : uid ≤ server.highestUid := le_maxOrZero huid
  simp only [searchFrom, List.mem_filter, decide_eq_true_eq]
  exact ⟨huid, Nat.le_trans (Nat.min_le_left _ _) hfirst,
    Nat.le_trans htop (Nat.le_max_right _ _)⟩

end ImapServer

/-- A missing or zero `uidnext` resumes at one, any other at itself. -/
theorem resumeFrom_cases (row : MailboxRow) :
    resumeFrom row = 1 ∨
      0 < resumeFrom row ∧ row.uidnext = some (resumeFrom row) := by
  rcases row with ⟨uidvalidity, _ | _ | uidnext⟩
  · exact Or.inl rfl
  · exact Or.inl rfl
  · exact Or.inr ⟨Nat.succ_pos uidnext, rfl⟩

theorem resumeFrom_pos (row : MailboxRow) : 0 < resumeFrom row := by
  rcases resumeFrom_cases row with hone | hstored
  · omega
  · exact hstored.1

/-- Whenever a real UID lies below the resume point, the resume point is the
stored `uidnext`. -/
theorem resumeFrom_eq_of_lt {row : MailboxRow} {uid : Nat} (hpos : 0 < uid)
    (hlt : uid < resumeFrom row) : row.uidnext = some (resumeFrom row) := by
  rcases resumeFrom_cases row with hone | hstored
  · omega
  · exact hstored.2

theorem resumeFrom_le {row : MailboxRow} {bound : Nat} (hbound : 0 < bound)
    (hstored : ∀ uidnext ∈ row.uidnext, uidnext ≤ bound) :
    resumeFrom row ≤ bound := by
  rcases resumeFrom_cases row with hone | hrow
  · omega
  · exact hstored _ hrow.2

/-- A stored watermark is positive only as a resume point, so it is bounded
like one. -/
theorem le_resumeFrom {row : MailboxRow} {uidnext : Nat}
    (hrow : uidnext ∈ row.uidnext) : uidnext ≤ resumeFrom row := by
  rcases row with ⟨uidvalidity, _ | _ | stored⟩
  · cases hrow
  · cases hrow
    exact Nat.zero_le 1
  · cases hrow
    exact Nat.le_refl (stored + 1)

theorem candidateUids_strict {server : ImapServer} (selected : Selected)
    (hnodup : server.uids.Nodup) :
    (candidateUids server selected).Pairwise (· < ·) := by
  unfold candidateUids
  split
  · exact sortUids_strict hnodup
  · exact sortUids_strict ((hnodup.filter _).filter _)

/-- SEARCH is truthful: a present UID is a candidate unless it lies below the
resume point of an incremental pass. -/
theorem mem_candidateUids {server : ImapServer} {selected : Selected}
    {uid : Nat} (huid : uid ∈ server.uids)
    (hreach : selected.fullSync = false → resumeFrom selected.row ≤ uid) :
    uid ∈ candidateUids server selected := by
  unfold candidateUids
  split
  · simpa [ImapServer.searchAll] using huid
  · rename_i hfull
    have hle := hreach (by simpa using hfull)
    simp only [filterNewUids, mem_sortUids, List.mem_filter,
      decide_eq_true_eq]
    exact ⟨server.mem_searchFrom huid hle, hle⟩

theorem mem_uids_of_candidate {server : ImapServer} {selected : Selected}
    {uid : Nat} (huid : uid ∈ candidateUids server selected) :
    uid ∈ server.uids := by
  unfold candidateUids at huid
  split at huid
  · simpa [ImapServer.searchAll] using huid
  · simp only [filterNewUids, mem_sortUids] at huid
    exact List.mem_of_mem_filter (List.mem_of_mem_filter huid)

theorem le_of_mem_candidateUids {server : ImapServer} {selected : Selected}
    {uid : Nat} (hfull : selected.fullSync = false)
    (huid : uid ∈ candidateUids server selected) :
    resumeFrom selected.row ≤ uid := by
  unfold candidateUids at huid
  simp only [hfull, Bool.false_eq_true, ↓reduceIte, filterNewUids,
    mem_sortUids, List.mem_filter, decide_eq_true_eq] at huid
  exact huid.2

end Localmail
