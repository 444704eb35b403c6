import Eeemail.Blobs
import Eeemail.Housekeeping
import Eeemail.Threading

/-! # Retained original messages

`core/src/email/rawmime.rs` and `remove_unused_files` of `core/src/sql.rs`.  The
original bytes of a message are a blob named after its contents, so messages
share it, and a row of `raw_mime` says which blob belongs to a message and until
when.  A blob is collected once no row and no other column names it. -/

set_option autoImplicit false

namespace Eeemail.RawMime

open Lib.Texts Lib.Interrupts Lib.Tables Store Trash Housekeeping Threading Blobs

inductive Retention where
  | disabled
  | days (count : Nat)
  | forever
  deriving DecidableEq, Repr

def Retention.fromDays (days : Int) : Retention :=
  if days = 0 then .disabled else if days < 0 then .forever else .days days.natAbs

/-- When something stored now expires; `none` is never. -/
def Retention.expiresAt (now : Int) : Retention → Option Int
  | .disabled => some now
  | .forever => none
  | .days count => some (saturatingAdd now (saturatingMul count secondsPerDay))

/-! ## The tables and the files -/

structure RawMimeRow where
  msgId : MsgId
  blobname : Text
  size : Nat
  storedAt : Int
  expiresAt : Option Int
  deriving DecidableEq, Repr

/-- A profile: the database with the tables that are modelled on their own, and
the files beside it. -/
structure Profile where
  rawMimeRetentionDays : Int := 30
  db : Db := {}
  threads : ThreadTables := {}
  rawMime : List RawMimeRow := []
  blobs : Account := {}
  /-- `blobs-backup`, a directory of the blobdir. -/
  backup : Dir := ∅

def Profile.retention (profile : Profile) : Retention :=
  Retention.fromDays (configInt profile.rawMimeRetentionDays)

abbrev ProfileAction (α : Type) := Steps Text Profile α

def onBlobs {α : Type} (x : BlobAction α) : ProfileAction α := fun process =>
  match x.run ⟨process.state.blobs, process.left⟩ with
  | .ok a after => .ok a ⟨{ process.state with blobs := after.state }, after.left⟩
  | .error stop after => .error stop ⟨{ process.state with blobs := after.state }, after.left⟩

/-- How a column names a file of the blobdir. -/
def blobdirMark : Text := "$BLOBDIR/".toList

def stripBlobdir (value : Text) : Option Name :=
  if startsWith blobdirMark value then some (value.drop blobdirMark.length) else none

section

variable [Aead] [Digest] [Unicode] [Sanitizer]

def storeWithRetention (chance : Chance) (faults : Faults) (msgId : MsgId) (raw : Bytes)
    (retention : Retention) (now : Int) : ProfileAction Unit := do
  let name ← onBlobs (createAndDeduplicateFromBytes chance faults raw "raw.eml".toList)
  atomic fun profile =>
    .ok ((), { profile with
      rawMime := upsert (·.msgId)
        { msgId
          blobname := blobdirMark ++ name
          size := min raw.length (2 ^ 63 - 1)
          storedAt := now
          expiresAt := retention.expiresAt now }
        profile.rawMime })

def store (chance : Chance) (faults : Faults) (msgId : MsgId) (raw : Bytes) (now : Int) :
    ProfileAction Unit := do
  let retention ← inspect fun profile => .ok profile.retention
  if retention = .disabled then pure ()
  else storeWithRetention chance faults msgId raw retention now

end

section

variable [Aead]

/-- `load`: the original bytes of a message, if they are still retained.  A row
that outlived its blob is dropped. -/
def load (msgId : MsgId) (profile : Profile) : Except Text (Option Bytes) × Profile :=
  match profile.rawMime.find? fun row => row.msgId == msgId with
  | none => (.ok none, profile)
  | some row =>
    match readBlob ((stripBlobdir row.blobname).getD row.blobname) profile.blobs with
    | .ok raw => (.ok (some raw), profile)
    | .error e =>
      if e = notFound then
        (.ok none, { profile with
          rawMime := deleteWhere (fun row => row.msgId == msgId) profile.rawMime })
      else (.error e, profile)

end

def dropExpired (now : Int) (rows : List RawMimeRow) : List RawMimeRow :=
  deleteWhere (fun row => row.expiresAt.any fun expiresAt => decide (expiresAt ≤ now)) rows

def dropOrphaned (db : Db) (rows : List RawMimeRow) : List RawMimeRow :=
  rows.filter fun row => hasLiveMsg row.msgId db

def expire (now : Int) (profile : Profile) : Profile :=
  { profile with rawMime := dropOrphaned profile.db (dropExpired now profile.rawMime) }

/-! ## Collecting unused files -/

structure FileStats where
  created : Option Int
  modified : Option Int
  accessed : Option Int
  deriving DecidableEq, Repr

/-- The files as a pass over them finds them: there may be no metadata, and a
file may not be deletable. -/
structure Disk where
  stats : Name → Option FileStats
  deletable : Name → Bool

def filesInUse (values : List Text) : List Name := values.filterMap stripBlobdir

def stripSuffix (suffix name : Text) : Option Text :=
  if suffix.isSuffixOf name then some (name.take (name.length - suffix.length)) else none

def isFileInUse (used : List Name) (suffix : Option Text) (name : Name) : Bool :=
  match suffix with
  | none => used.contains name
  | some suffix => (stripSuffix suffix name).any used.contains

def FileStats.isRecent (now : Int) (stats : FileStats) : Bool :=
  [stats.created, stats.modified, stats.accessed].any fun time =>
    time.any fun time => decide (now - 60 * 60 < time)

def isCollected (disk : Disk) (now : Int) (used : List Name) (name : Name) : Bool :=
  !(isFileInUse used none name || isFileInUse used (some ".waveform".toList) name ||
      isFileInUse used (some "-preview.jpg".toList) name) &&
    (disk.stats name).any (fun stats => !stats.isRecent now) && disk.deletable name

def deleteFiles (test : Name → Bool) (dir : Dir) : Dir :=
  (dir.keys.filter test).foldl (fun dir name => dir.erase name) dir

/-- `remove_unused_files`.  `cited` is what the other columns hold that may name a
file: attachments, profile images, settings and cached pages. -/
def removeUnusedFiles (disk : Disk) (now : Int) (cited : List Text) (profile : Profile) :
    Profile :=
  let used := filesInUse (cited ++ profile.rawMime.map (·.blobname))
  { profile with
    blobs := { profile.blobs with
      blobdir := deleteFiles (isCollected disk now used) profile.blobs.blobdir }
    backup := deleteFiles (fun name => (disk.stats name).isSome && disk.deletable name)
      profile.backup }

end Eeemail.RawMime
