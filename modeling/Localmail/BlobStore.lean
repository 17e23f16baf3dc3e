/-
`write_attachments` in any number of writers at once over one tree of files,
beside any number of sweeps: every file operation is a step of its own, a
payload is written a byte at a time, and a writer may be killed between any two
of them.  Losing the power, which drops what was never flushed, is not modelled.
-/
import Localmail.BlobTemps
import Localmail.ConcurrentIngest
import Localmail.FileTree

namespace Localmail

namespace Blobs

open Extract (hex)
open Ingest (AttachmentEntry attachmentEntry)

/-! ### The tree and the table -/

structure BlobFile where
  bytes : Bytes
  mtime : Int
deriving Repr, DecidableEq

abbrev BlobTree := FileTree DiskPath BlobFile

/-- A row of `attachment_blobs`. -/
structure BlobRecord where
  sha256 : Bytes
  path : DiskPath
  mimeType : Text
  sizeBytes : Nat
deriving Repr, DecidableEq

/-- What the writers share, with every temp name minted so far. -/
structure BlobShared where
  tree : BlobTree
  records : List BlobRecord
  minted : List DiskPath
deriving Repr, DecidableEq

/-- `INSERT INTO attachment_blobs … ON CONFLICT (sha256) DO NOTHING`. -/
def insertRecord (records : List BlobRecord) (record : BlobRecord) :
    List BlobRecord :=
  if records.any fun other => other.sha256 = record.sha256 then records
  else records ++ [record]

/-! ### Writers -/

/-- The temp a payload is staged under, and the node that is open. -/
structure Stage where
  temp : DiskPath
  node : Nat
deriving Repr, DecidableEq

/-- Where a call of `write_attachments` is. -/
inductive WriterPoint where
  | checking
  | staging (current : Attachment)
  | writing (current : Attachment) (stage : Stage) (unwritten : Bytes)
  | replacing (current : Attachment) (stage : Stage)
  | recording (current : Attachment)
  | unwinding (temp : DiskPath)
  | returned
  | raised
  | killed
deriving Repr, DecidableEq

structure BlobWriter where
  attachments : List Attachment
  rows : List AttachmentEntry
  point : WriterPoint
deriving Repr, DecidableEq

inductive WriterMove where
  | advance
  | mint (pid : Nat) (token : Text)
  | raise
  | kill
deriving Repr, DecidableEq

def BlobWriter.goto (writer : BlobWriter) (point : WriterPoint) : BlobWriter :=
  { writer with point := point }

section Writer

variable (digest : Bytes → Bytes) (root : DiskPath)

def canonical (current : Attachment) : DiskPath :=
  blobPath root (hex (digest current.payload))

def recordOf (current : Attachment) : BlobRecord where
  sha256 := digest current.payload
  path := canonical digest root current
  mimeType := current.mimeType
  sizeBytes := current.payload.length

/-- The next operation of a writer that no exception interrupts. -/
def advanceWriter (now : Int) (shared : BlobShared) (writer : BlobWriter) :
    WriterPoint → Option (BlobShared × BlobWriter)
  | .checking =>
      match writer.attachments[writer.rows.length]? with
      | none => some (shared, writer.goto .returned)
      | some current =>
          if (shared.tree.lookup (canonical digest root current)).isSome then
            some (shared, writer.goto (.recording current))
          else some (shared, writer.goto (.staging current))
  | .writing current stage (byte :: rest) =>
      some ({ shared with
          tree := shared.tree.modify stage.node fun file =>
            ⟨file.bytes ++ [byte], now⟩ },
        writer.goto (.writing current stage rest))
  | .writing current stage [] =>
      some (shared, writer.goto (.replacing current stage))
  | .replacing current stage =>
      match shared.tree.rename stage.temp (canonical digest root current) with
      | some tree => some ({ shared with tree := tree },
          writer.goto (.recording current))
      | none => some (shared, writer.goto (.unwinding stage.temp))
  | .recording current =>
      some ({ shared with
          records := insertRecord shared.records (recordOf digest root current) },
        ⟨writer.attachments, writer.rows ++ [attachmentEntry digest current],
          .checking⟩)
  | .unwinding temp =>
      some ({ shared with tree := shared.tree.unlink temp },
        writer.goto .raised)
  | .staging _ | .returned | .raised | .killed => none

/-- `new_temp_path`, and opening it. -/
def openTemp (now : Int) (shared : BlobShared) (writer : BlobWriter)
    (current : Attachment) (pid : Nat) (token : Text) :
    BlobShared × BlobWriter :=
  let temp := newTempPath (canonical digest root current) pid token
  let opened := shared.tree.create temp ⟨[], now⟩
  ({ shared with tree := opened.1, minted := temp :: shared.minted },
    writer.goto (.writing current ⟨temp, opened.2⟩ current.payload))

/-- An exception: past the open it goes through the cleanup. -/
def raiseWriter (writer : BlobWriter) : Option BlobWriter :=
  match writer.point with
  | .writing _ stage _ | .replacing _ stage =>
      some (writer.goto (.unwinding stage.temp))
  | .checking | .staging _ | .recording _ | .unwinding _ =>
      some (writer.goto .raised)
  | .returned | .raised | .killed => none

def killWriter (writer : BlobWriter) : Option BlobWriter :=
  match writer.point with
  | .returned | .raised | .killed => none
  | _ => some (writer.goto .killed)

def writerStep (now : Int) (shared : BlobShared) (writer : BlobWriter) :
    WriterMove → Option (BlobShared × BlobWriter)
  | .advance => advanceWriter digest root now shared writer writer.point
  | .mint pid token =>
      match writer.point with
      | .staging current =>
          some (openTemp digest root now shared writer current pid token)
      | _ => none
  | .raise => (raiseWriter writer).map fun writer => (shared, writer)
  | .kill => (killWriter writer).map fun writer => (shared, writer)

end Writer

/-! ### The sweep -/

structure SweepResult where
  walked : Nat
  scanned : Nat
  removed : Nat
  bytesReclaimed : Nat
  errors : Nat
deriving Repr, DecidableEq

/-- A call of `sweep_blob_temps`: the files of the directory it goes through,
and the one it has judged expired, with the size it read. -/
structure Sweeper where
  maxAge : Int
  now : Int
  dryRun : Bool
  pending : List DiskPath
  judged : Option (DiskPath × Nat)
  result : SweepResult
  finished : Bool
deriving Repr, DecidableEq

inductive SweepMove where
  | list (directory : DiskPath)
  | advance
  | osError
  | finish
deriving Repr, DecidableEq

def isExpired (mtime now maxAge : Int) : Bool :=
  maxAge < now - mtime

/-- The files that `os.walk` reports of one directory. -/
def filesIn (tree : BlobTree) (directory : DiskPath) : List DiskPath :=
  (tree.links.map Prod.fst).filter fun path =>
    path ≠ [] ∧ path.dropLast = directory

def SweepResult.countRemoved (result : SweepResult) (size : Nat) :
    SweepResult :=
  { result with
    removed := result.removed + 1
    bytesReclaimed := result.bytesReclaimed + size }

def SweepResult.countScanned (result : SweepResult) : SweepResult :=
  { result with scanned := result.scanned + 1 }

def SweepResult.countError (result : SweepResult) : SweepResult :=
  { result with errors := result.errors + 1 }

/-- Judge one file: recognise it, read its age, and decide. -/
def judgeFile (tree : BlobTree) (sweeper : Sweeper) (path : DiskPath)
    (rest : List DiskPath) : Sweeper :=
  let passed := { sweeper with pending := rest }
  if isWriterTemp (path.getLastD []) then
    let scanned := { passed with result := sweeper.result.countScanned }
    match tree.read path with
    | none => scanned
    | some file =>
        if isExpired file.mtime sweeper.now sweeper.maxAge then
          if sweeper.dryRun then
            { scanned with
              result := scanned.result.countRemoved file.bytes.length }
          else { scanned with judged := some (path, file.bytes.length) }
        else scanned
  else passed

/-- Unlink what was judged; that it has gone already is no error. -/
def unlinkJudged (tree : BlobTree) (sweeper : Sweeper) (path : DiskPath)
    (size : Nat) : BlobTree × Sweeper :=
  match tree.lookup path with
  | none =>
      (tree, { sweeper with
        judged := none, result := sweeper.result.countRemoved 0 })
  | some _ =>
      (tree.unlink path, { sweeper with
        judged := none, result := sweeper.result.countRemoved size })

def advanceSweeper (tree : BlobTree) (sweeper : Sweeper) :
    Option (BlobTree × Sweeper) :=
  match sweeper.judged, sweeper.pending with
  | some (path, size), _ => some (unlinkJudged tree sweeper path size)
  | none, path :: rest => some (tree, judgeFile tree sweeper path rest)
  | none, [] => none

/-- An `OSError` of the `stat` or of the `unlink` is counted. -/
def failSweeper (sweeper : Sweeper) : Option Sweeper :=
  match sweeper.judged, sweeper.pending with
  | some _, _ =>
      some { sweeper with judged := none, result := sweeper.result.countError }
  | none, path :: rest =>
      if isWriterTemp (path.getLastD []) then
        some { sweeper with
          pending := rest, result := sweeper.result.countScanned.countError }
      else none
  | none, [] => none

def Sweeper.betweenFiles (sweeper : Sweeper) : Bool :=
  sweeper.pending = [] ∧ sweeper.judged = none ∧ sweeper.finished = false

def sweeperStep (root : DiskPath) (tree : BlobTree) (sweeper : Sweeper) :
    SweepMove → Option (BlobTree × Sweeper)
  | .list directory =>
      if sweeper.betweenFiles ∧ (root ++ [text "blobs"]) <+: directory then
        let files := filesIn tree directory
        some (tree, { sweeper with
          pending := files
          result := { sweeper.result with
            walked := sweeper.result.walked + files.length } })
      else none
  | .advance => advanceSweeper tree sweeper
  | .osError => (failSweeper sweeper).map fun sweeper => (tree, sweeper)
  | .finish =>
      if sweeper.betweenFiles then
        some (tree, { sweeper with finished := true })
      else none

def newSweeper (maxAge now : Int) (dryRun : Bool) : Sweeper where
  maxAge := maxAge
  now := now
  dryRun := dryRun
  pending := []
  judged := none
  result := ⟨0, 0, 0, 0, 0⟩
  finished := false

/-! ### The whole -/

structure BlobWorld where
  shared : BlobShared
  writers : List BlobWriter
  sweepers : List Sweeper
  clock : Int
deriving Repr, DecidableEq

inductive BlobEvent where
  | call (attachments : List Attachment)
  | writer (id : Nat) (move : WriterMove)
  | rollback (gone : List Bytes)
  | sweep (maxAge : Int) (dryRun : Bool)
  | sweeper (id : Nat) (move : SweepMove)
  | tick (passed : Nat)
deriving Repr, DecidableEq

def blobStep (digest : Bytes → Bytes) (root : DiskPath) (world : BlobWorld) :
    BlobEvent → Option BlobWorld
  | .call attachments =>
      some { world with
        writers := world.writers ++ [⟨attachments, [], .checking⟩] }
  | .writer id move =>
      (world.writers[id]?).bind fun writer =>
        (writerStep digest root world.clock world.shared writer move).map
          fun (shared, writer) =>
            { world with
              shared := shared, writers := world.writers.set id writer }
  | .rollback gone =>
      some { world with
        shared := { world.shared with
          records := world.shared.records.filter fun record =>
            record.sha256 ∉ gone } }
  | .sweep maxAge dryRun =>
      some { world with
        sweepers := world.sweepers ++ [newSweeper maxAge world.clock dryRun] }
  | .sweeper id move =>
      (world.sweepers[id]?).bind fun sweeper =>
        (sweeperStep root world.shared.tree sweeper move).map
          fun (tree, sweeper) =>
            { world with
              shared := { world.shared with tree := tree }
              sweepers := world.sweepers.set id sweeper }
  | .tick passed => some { world with clock := world.clock + passed }

/-- A `uuid4` is 32 hexadecimal digits, and none is drawn twice. -/
def freshToken (digest : Bytes → Bytes) (root : DiskPath) (world : BlobWorld) :
    BlobEvent → Bool
  | .writer id (.mint pid token) =>
      match world.writers[id]?.map BlobWriter.point with
      | some (.staging current) =>
          let temp := newTempPath (canonical digest root current) pid token
          IsHexOf 32 token && temp ∉ world.shared.minted &&
            (world.shared.tree.lookup temp).isNone
      | _ => true
  | _ => true

def FreshToken (digest : Bytes → Bytes) (root : DiskPath) (world : BlobWorld)
    (event : BlobEvent) : Prop :=
  freshToken digest root world event = true

instance decideFreshToken (digest : Bytes → Bytes) (root : DiskPath)
    (world : BlobWorld) (event : BlobEvent) :
    Decidable (FreshToken digest root world event) :=
  inferInstanceAs (Decidable (_ = true))

end Blobs

end Localmail
