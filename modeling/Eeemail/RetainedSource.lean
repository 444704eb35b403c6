import Eeemail.BlobStore
import Eeemail.RawMime

/-! # Retained source survives garbage collection

In a run of stores, expiries, deletions and collections of unused files, a
message that is still there reads back the bytes that were last stored for it
until they expire.  The ledger says what is to be retained; the tables and the
blobdir follow it: every row of `raw_mime` names a file that holds the bytes it
is named after, whichever messages share it, and a file that a row names is in
use. -/

set_option autoImplicit false

namespace Eeemail.RetainedSource

open Lib.Texts Lib.Actions Lib.Interrupts Lib.Tables Lib.Runs Store Trash Housekeeping Blobs
open BlobFiles BlobPasses BlobReads BlobStore RawMime

variable {name : Name} {msgId : MsgId} {profile : Profile} {chance : Chance} {raw : Bytes}
variable {faults : Faults}

/-! ## Runs -/

inductive Call where
  | setRetention (days : Int)
  | store (msgId : MsgId) (raw : Bytes) (now : Int)
  | expire (now : Int)
  | trash (msgs : List MsgId) (onServer : Bool)
  | removeUnusedFiles (disk : Disk) (now : Int) (cited : List Text)

/-- A call with what is drawn at random in it, the files that fail it, and the
steps the process gets. -/
structure Event where
  call : Call
  chance : Chance
  faults : Faults := {}
  steps : Nat

section

variable [Aead] [Digest] [Unicode] [Sanitizer]

def Event.perform (event : Event) : ProfileAction Unit :=
  match event.call with
  | .setRetention days =>
    atomic fun profile => .ok ((), { profile with rawMimeRetentionDays := days })
  | .store msgId raw now => store event.chance event.faults msgId raw now
  | .expire now => atomic fun profile => .ok ((), expire now profile)
  | .trash msgs onServer =>
    atomic fun profile => .ok ((), { profile with db := trashRows msgs onServer profile.db })
  | .removeUnusedFiles disk now cited =>
    atomic fun profile => .ok ((), removeUnusedFiles disk now cited profile)

def step (profile : Profile) (event : Event) : Profile :=
  (stateAfter event.perform ⟨profile, event.steps⟩).state

def Completes (profile : Profile) (event : Event) : Prop :=
  Succeeds event.perform ⟨profile, event.steps⟩

end

/-- What is to be retained: the bytes last stored for a message and when they
expire. -/
structure Ledger where
  retention : Retention
  sources : MsgId → Option (Bytes × Option Int) := fun _ => none

variable {ledger : Ledger}

def outlives (now : Int) (entry : Bytes × Option Int) : Bool :=
  !entry.2.any fun expiresAt => decide (expiresAt ≤ now)

def Ledger.note (ledger : Ledger) : Call → Ledger
  | .setRetention days => { ledger with retention := Retention.fromDays (configInt days) }
  | .store msgId raw now =>
    if ledger.retention = .disabled then ledger
    else { ledger with
      sources := Function.update ledger.sources msgId
        (some (raw, ledger.retention.expiresAt now)) }
  | .expire now =>
    { ledger with sources := fun msgId => (ledger.sources msgId).filter (outlives now) }
  | .trash _ _ => ledger
  | .removeUnusedFiles _ _ _ => ledger

/-! ## Files that are deleted -/

theorem lookup_foldl_erase {names : List Name} (kept : name ∉ names) (dir : Dir) :
    (names.foldl (fun dir gone => dir.erase gone) dir).lookup name = dir.lookup name := by
  induction names generalizing dir with
  | nil => rfl
  | cons gone rest ih =>
    obtain ⟨different, others⟩ := List.ne_and_not_mem_of_not_mem_cons kept
    rw [List.foldl_cons, ih others, AList.lookup_erase_ne different]

theorem lookup_deleteFiles {test : Name → Bool} (spared : test name = false) (dir : Dir) :
    (deleteFiles test dir).lookup name = dir.lookup name := by
  refine lookup_foldl_erase (fun member => ?_) dir
  rw [(List.mem_filter.mp member).2] at spared
  cases spared

theorem stripBlobdir_mark (name : Name) : stripBlobdir (blobdirMark ++ name) = some name := by
  have marked : startsWith blobdirMark (blobdirMark ++ name) = true :=
    List.isPrefixOf_iff_prefix.mpr (List.prefix_append _ _)
  rw [stripBlobdir, if_pos marked, List.drop_left]

theorem not_collected {disk : Disk} {now : Int} {values : List Text}
    (cited : blobdirMark ++ name ∈ values) :
    isCollected disk now (filesInUse values) name = false := by
  have used : (filesInUse values).contains name = true := by
    rw [List.contains_iff_mem]
    exact List.mem_filterMap.mpr ⟨_, cited, stripBlobdir_mark name⟩
  rw [isCollected, isFileInUse, used, Bool.true_or, Bool.true_or, Bool.not_true, Bool.false_and,
    Bool.false_and]

theorem hasLiveMsg_of_trashRows {msgs : List MsgId} {onServer : Bool} {db : Db}
    (live : hasLiveMsg msgId (trashRows msgs onServer db) = true) : hasLiveMsg msgId db = true := by
  obtain ⟨msg, member, facts⟩ := List.any_eq_true.mp live
  obtain ⟨old, isOld, rfl⟩ := mem_updateWhere.mp member
  refine List.any_eq_true.mpr ⟨old, isOld, ?_⟩
  split at facts
  · rw [show (tombstone onServer old).isLive = false from rfl, Bool.and_false] at facts
    cases facts
  · exact facts

/-! ## Rows, files and the ledger -/

section

variable [Digest] [Unicode] [Sanitizer]

def sourceName (raw : Bytes) : Name := blobName raw "raw.eml".toList

theorem sourceName_injective : Function.Injective sourceName :=
  fun _ _ same => eq_of_blobName_eq same

theorem sourceName_ne_temp (raw : Bytes) (chance : Chance) :
    sourceName raw ≠ storeTempName chance := by
  intro same
  refine stem_storeTempName_ne chance raw ?_
  rw [← same]
  exact stem_blobName raw _

/-- The row names the file of these bytes, and the file holds them. -/
def Holds (row : RawMimeRow) (raw : Bytes) (dir : Dir) : Prop :=
  row.blobname = blobdirMark ++ sourceName raw ∧ dir.lookup (sourceName raw) = some raw

/-- The tables and the blobdir follow the ledger. -/
structure Follows (ledger : Ledger) (profile : Profile) : Prop where
  off : profile.blobs.blobEncryption = false
  retention : profile.retention = ledger.retention
  unique : (profile.rawMime.map (·.msgId)).Nodup
  holds : ∀ row ∈ profile.rawMime, ∃ raw, Holds row raw profile.blobs.blobdir
  noted : ∀ msgId raw expiresAt, hasLiveMsg msgId profile.db = true →
    ledger.sources msgId = some (raw, expiresAt) →
    ∃ row ∈ profile.rawMime, row.msgId = msgId ∧ row.expiresAt = expiresAt ∧
      Holds row raw profile.blobs.blobdir

section

variable (follows : Follows ledger profile)

include follows

theorem Follows.setRetention (days : Int) :
    Follows (ledger.note (.setRetention days)) { profile with rawMimeRetentionDays := days } :=
  ⟨follows.off, rfl, follows.unique, follows.holds, follows.noted⟩

theorem Follows.trash (msgs : List MsgId)
    (onServer : Bool) : Follows ledger { profile with db := trashRows msgs onServer profile.db } :=
  ⟨follows.off, follows.retention, follows.unique, follows.holds,
    fun msgId raw expiresAt live entry =>
      follows.noted msgId raw expiresAt (hasLiveMsg_of_trashRows live) entry⟩

theorem Follows.expire (now : Int) : Follows (ledger.note (.expire now)) (expire now profile) := by
  have older : ∀ row ∈ (RawMime.expire now profile).rawMime, row ∈ profile.rawMime :=
    fun row member => (mem_deleteWhere.mp (List.mem_filter.mp member).1).1
  refine ⟨follows.off, follows.retention, ?_,
    fun row member => follows.holds row (older row member),
    fun msgId raw expiresAt live entry => ?_⟩
  · exact (nodup_map_deleteWhere follows.unique).sublist (List.filter_sublist.map _)
  · obtain ⟨entered, outlasts⟩ := Option.filter_eq_some_iff.mp entry
    obtain ⟨row, member, rfl, rfl, holds⟩ := follows.noted msgId raw expiresAt live entered
    refine ⟨row, List.mem_filter.mpr ⟨mem_deleteWhere.mpr ⟨member, ?_⟩, live⟩, rfl, rfl, holds⟩
    simpa only [outlives, Bool.not_eq_true'] using outlasts

theorem Follows.removeUnusedFiles (disk : Disk) (now : Int) (cited : List Text) :
    Follows ledger (removeUnusedFiles disk now cited profile) := by
  have kept : ∀ row ∈ profile.rawMime, ∀ raw, Holds row raw profile.blobs.blobdir →
      Holds row raw (RawMime.removeUnusedFiles disk now cited profile).blobs.blobdir := by
    rintro row member raw ⟨named, found⟩
    refine ⟨named, ?_⟩
    have inUse : blobdirMark ++ sourceName raw ∈ cited ++ profile.rawMime.map (·.blobname) :=
      List.mem_append_right _ (List.mem_map.mpr ⟨row, member, named⟩)
    exact (lookup_deleteFiles (not_collected inUse) _).trans found
  refine ⟨follows.off, follows.retention, follows.unique, fun row member => ?_,
    fun msgId raw expiresAt live entry => ?_⟩
  · obtain ⟨raw, holds⟩ := follows.holds row member
    exact ⟨raw, kept row member raw holds⟩
  · obtain ⟨row, member, isMsg, expires, holds⟩ := follows.noted msgId raw expiresAt live entry
    exact ⟨row, member, isMsg, expires, kept row member raw holds⟩

end

theorem lookup_stored {other : Bytes} {account : Account}
    (found : account.blobdir.lookup (sourceName other) = some other) :
    (moved (storeTempName chance) (sourceName raw) raw (staged chance raw account)).blobdir.lookup
      (sourceName other) = some other := by
  by_cases same : other = raw
  · rw [same]
    exact lookup_moved_self _ _
  · have different : sourceName other ≠ sourceName raw :=
      fun equal => same (sourceName_injective equal)
    rw [moved, renamed, AList.lookup_insert_ne different,
      AList.lookup_erase_ne (sourceName_ne_temp other chance), staged,
      AList.lookup_insert_ne (sourceName_ne_temp other chance), found]

def withSource (chance : Chance) (msgId : MsgId) (raw : Bytes) (now : Int) (profile : Profile) :
    Profile :=
  { profile with
    blobs := moved (storeTempName chance) (sourceName raw) raw (staged chance raw profile.blobs)
    rawMime := upsert (·.msgId)
      { msgId
        blobname := blobdirMark ++ sourceName raw
        size := min raw.length (2 ^ 63 - 1)
        storedAt := now
        expiresAt := profile.retention.expiresAt now }
      profile.rawMime }

theorem Follows.withSource (follows : Follows ledger profile) (chance : Chance)
    (msgId : MsgId) (raw : Bytes) (now : Int) (enabled : ledger.retention ≠ .disabled) :
    Follows (ledger.note (.store msgId raw now)) (withSource chance msgId raw now profile) := by
  have kept : ∀ row other, Holds row other profile.blobs.blobdir →
      Holds row other (RetainedSource.withSource chance msgId raw now profile).blobs.blobdir :=
    fun row other holds => ⟨holds.1, lookup_stored holds.2⟩
  rw [Ledger.note, if_neg enabled]
  refine ⟨follows.off, follows.retention, nodup_map_upsert follows.unique, fun row member => ?_,
    fun other source expiresAt live entry => ?_⟩
  · rcases eq_or_mem_of_mem_upsert member with rfl | older
    · exact ⟨raw, rfl, lookup_moved_self _ _⟩
    · obtain ⟨other, holds⟩ := follows.holds row older
      exact ⟨other, kept row other holds⟩
  · by_cases same : other = msgId
    · subst same
      simp only [Function.update_self, Option.some.injEq, Prod.mk.injEq] at entry
      obtain ⟨rfl, rfl⟩ := entry
      refine ⟨_, mem_upsert_self, rfl, ?_, rfl, lookup_moved_self _ _⟩
      exact congrArg (Retention.expiresAt now) follows.retention
    · simp only [Function.update_of_ne same] at entry
      obtain ⟨row, member, isMsg, expires, holds⟩ := follows.noted other source expiresAt live entry
      refine ⟨row, mem_upsert_of_ne member ?_, isMsg, expires, kept row source holds⟩
      rw [isMsg]
      exact same

end

/-! ## Runs follow the ledger -/

section

variable [Aead] [Digest] [Unicode] [Sanitizer]

omit [Digest] [Unicode] [Sanitizer] in
theorem protect_off {process : Process Account} (off : process.state.blobEncryption = false) :
    (protect chance faults name).run process = .ok () process := by
  unfold protect
  exact bind_eq_ok.mpr ⟨false, process, inspect_run_of_ok (congrArg Except.ok off), rfl⟩

theorem blobs_of_createFromBytes {account : Account} {left : Nat} {after : Process Account}
    (off : account.blobEncryption = false)
    (stored : (createAndDeduplicateFromBytes chance faults raw "raw.eml".toList).run
      ⟨account, left⟩ = .ok name after) :
    name = sourceName raw ∧
      after.state = moved (storeTempName chance) (sourceName raw) raw
        (staged chance raw account) := by
  obtain ⟨placed, result, rfl, isPlaced, guarded⟩ := createFromBytes_eq_ok stored
  have stillOff : placed.state.blobEncryption = false := by
    rw [isPlaced]
    exact off
  have done : (attempt (protect chance faults (sourceName raw))).run placed =
    .ok (some ()) placed :=
    attempt_eq_ok.mpr (Or.inl ⟨(), rfl, protect_off stillOff⟩)
  have same : placed = after := by
    have both := done.symm.trans guarded
    injection both
  exact ⟨rfl, same ▸ isPlaced⟩

theorem store_eq_ok {now : Int} {left : Nat} {u : Unit} {after : Process Profile}
    (off : profile.blobs.blobEncryption = false)
    (stored : (store chance faults msgId raw now).run ⟨profile, left⟩ = .ok u after) :
    after.state = if profile.retention = .disabled then profile
      else withSource chance msgId raw now profile := by
  unfold store at stored
  obtain ⟨retention, isRetention, stored⟩ := inspect_bind_eq_ok.mp stored
  cases isRetention
  split at stored
  next disabled =>
    obtain ⟨_, rfl⟩ := pure_eq_ok.mp stored
    rw [if_pos disabled]
  next enabled =>
    rw [if_neg enabled]
    unfold storeWithRetention at stored
    obtain ⟨name, middle, placed, recorded⟩ := bind_eq_ok.mp stored
    obtain ⟨_, _, _, written, rfl⟩ := atomic_eq_ok.mp recorded
    cases written
    simp only [onBlobs, EStateM.run] at placed
    split at placed
    next found afterBlobs created =>
      injection placed with isName isMiddle
      obtain ⟨isSource, blobs⟩ := blobs_of_createFromBytes off created
      subst isName isMiddle
      rw [isSource, blobs]
      rfl
    next => cases placed

theorem step_of_atomic {event : Event} (g : Profile → Profile)
    (isAtomic : event.perform = atomic fun profile => .ok ((), g profile))
    (completes : Completes profile event) : step profile event = g profile := by
  obtain ⟨u, after, success⟩ := completes
  rw [step, stateAfter_of_ok success]
  rw [isAtomic] at success
  obtain ⟨_, _, _, written, rfl⟩ := atomic_eq_ok.mp success
  cases written
  rfl

theorem Follows.step {event : Event} (follows : Follows ledger profile)
    (completes : Completes profile event) :
    Follows (ledger.note event.call) (step profile event) := by
  obtain ⟨call, chance, faults, steps⟩ := event
  cases call with
  | setRetention days =>
    rw [step_of_atomic (fun profile => { profile with rawMimeRetentionDays := days }) rfl completes]
    exact follows.setRetention days
  | store msgId raw now =>
    obtain ⟨u, after, success⟩ := completes
    rw [RetainedSource.step, stateAfter_of_ok success, store_eq_ok follows.off success,
      follows.retention]
    split
    next disabled =>
      rw [Ledger.note, if_pos disabled]
      exact follows
    next enabled => exact follows.withSource chance msgId raw now enabled
  | expire now =>
    rw [step_of_atomic (RawMime.expire now) rfl completes]
    exact follows.expire now
  | trash msgs onServer =>
    rw [step_of_atomic (fun profile => { profile with db := trashRows msgs onServer profile.db })
      rfl completes]
    exact follows.trash msgs onServer
  | removeUnusedFiles disk now cited =>
    rw [step_of_atomic (RawMime.removeUnusedFiles disk now cited) rfl completes]
    exact follows.removeUnusedFiles disk now cited

def ledgerOf (profile : Profile) (events : List Event) : Ledger :=
  (events.map (·.call)).foldl Ledger.note { retention := profile.retention }

theorem follows_run {events : List Event} (follows : Follows ledger profile)
    (complete : MeetsAll step Completes profile events) :
    Follows ((events.map (·.call)).foldl Ledger.note ledger) (runAll step profile events) := by
  induction events generalizing ledger profile with
  | nil => exact follows
  | cons event rest ih => exact ih (follows.step complete.1) complete.2

omit [Digest] [Unicode] [Sanitizer] in
theorem decode_eq_self_iff {key : Option Key} :
    decode key raw = .ok raw ↔ isEncrypted raw = false := by
  cases clear : isEncrypted raw with
  | false => simp [decode, clear]
  | true => simpa using decode_ne_of_isEncrypted clear

omit [Digest] [Unicode] [Sanitizer] in
theorem load_of_row {row : RawMimeRow} (unique : (profile.rawMime.map (·.msgId)).Nodup)
    (member : row ∈ profile.rawMime) (isMsg : row.msgId = msgId)
    (named : row.blobname = blobdirMark ++ name)
    (found : profile.blobs.blobdir.lookup name = some raw) :
    (load msgId profile).1 = .ok (some raw) ↔ isEncrypted raw = false := by
  subst isMsg
  have isRow : (profile.rawMime.find? fun other => other.msgId == row.msgId) = some row :=
    find?_of_nodup unique member
  simp only [load, isRow, named, stripBlobdir_mark, Option.getD_some, readBlob_of_lookup found]
  rw [← decode_eq_self_iff]
  cases decode profile.blobs.key raw with
  | ok other => simp
  | error e =>
    simp only [reduceCtorEq, iff_false]
    split <;> simp

/-- In every run, a message that is not a tombstone and whose last store has not
expired loads what was stored for it, unless that looks encrypted. -/
theorem retained_source_loads_iff {profile : Profile} {events : List Event} {msgId : MsgId}
    {raw : Bytes} {expiresAt : Option Int} (off : profile.blobs.blobEncryption = false)
    (fresh : profile.rawMime = []) (complete : MeetsAll step Completes profile events)
    (live : hasLiveMsg msgId (runAll step profile events).db = true)
    (retained : (ledgerOf profile events).sources msgId = some (raw, expiresAt)) :
    (load msgId (runAll step profile events)).1 = .ok (some raw) ↔ isEncrypted raw = false := by
  have start : Follows { retention := profile.retention } profile := by
    refine ⟨off, rfl, ?_, ?_, ?_⟩
    · rw [fresh]
      exact List.nodup_nil
    · rw [fresh]
      exact List.forall_mem_nil _
    · rintro _ _ _ _ ⟨⟩
  have follows := follows_run start complete
  obtain ⟨row, member, isMsg, _, named, found⟩ := follows.noted msgId raw expiresAt live retained
  exact load_of_row follows.unique member isMsg named found

end

section

local instance : Aead := transparentCipher

local instance : Digest := hexDigest

local instance : Sanitizer := plainNames

local instance : Unicode := asciiTables

def mailbox : Profile :=
  { db := { msgs := [{ id := 10, chatId := 10 }, { id := 11, chatId := 10 }] } }

def oldDisk : Disk where
  stats _ := some { created := none, modified := some 0, accessed := none }
  deletable _ := true

def event (call : Call) : Event := { call, chance := someChance, steps := 3 }

/-- The same bytes are stored for both messages; those of the first expire, and
unused files are collected. -/
def sharedRun : List Event :=
  [event (.store 10 [104, 105] 0), event (.store 11 [104, 105] 100), event (.expire 2592000),
    event (.removeUnusedFiles oldDisk 2600000 [])]

theorem completes_of_returns {call : Call}
    (returned : returns (event call).perform ⟨profile, 3⟩ () = true) :
    Completes profile (event call) := ⟨_, _, run_of_returns returned⟩

theorem shared_source_survives : (load 10 (runAll step mailbox sharedRun)).1 = .ok none ∧
      (load 11 (runAll step mailbox sharedRun)).1 = .ok (some [104, 105]) := by
  have complete : MeetsAll step Completes mailbox sharedRun :=
    ⟨completes_of_returns (by decide +kernel), completes_of_returns (by decide +kernel),
      completes_of_returns (by decide +kernel), completes_of_returns (by decide +kernel), trivial⟩
  have retained : (ledgerOf mailbox sharedRun).sources 11 = some ([104, 105], some 2592100) := by
    decide +kernel
  refine ⟨by decide +kernel, (retained_source_loads_iff rfl rfl complete ?_ retained).mpr ?_⟩
  · decide +kernel
  · decide

/-- A message that starts with the magic of an encrypted blob is stored, and does
not load. -/
theorem lookalike_source_does_not_load :
    Completes mailbox (event (.store 10 lookalike 0)) ∧
      (ledgerOf mailbox [event (.store 10 lookalike 0)]).sources 10 =
        some (lookalike, some 2592000) ∧
      hasLiveMsg 10 (step mailbox (event (.store 10 lookalike 0))).db = true ∧
      (load 10 (step mailbox (event (.store 10 lookalike 0)))).1 =
        .error "blob is encrypted but no key is available; unlock the database".toList :=
  ⟨completes_of_returns (by decide +kernel), by decide +kernel, by decide +kernel,
    by decide +kernel⟩

end

end Eeemail.RetainedSource
