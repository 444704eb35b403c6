import Eeemail.Labels

/-! # The trash

`core/src/email/ephemeral.rs`: throwing away, restoring, the deadline of a
trashed message, and the one place that destroys.  The `Trash` label is what
the user sees; `trashed_msgs` holds the deadlines, and `reconcile` brings them
back into line with the label. -/

set_option autoImplicit false

namespace Eeemail.Trash

open Lib.Texts Lib.Actions Lib.Tables Store Labels

def secondsPerDay : Int := 86400

def purgeDays (db : Db) : Int := configInt db.config.trashPurgeDays

def setPurgeDays (days : Int) (db : Db) : Db :=
  { db with config := { db.config with trashPurgeDays := max days 0 } }

def purgeSecs (db : Db) : Int := saturatingMul (purgeDays db) secondsPerDay

def deadline (now : Int) (db : Db) : Int := saturatingAdd now (purgeSecs db)

/-! ## Into the trash and out of it -/

def clearTimers (msgs : List MsgId) (db : Db) : Db :=
  { db with
    msgs := updateWhere (fun msg => msgs.contains msg.id)
      (fun msg => { msg with ephemeralTimestamp := 0 }) db.msgs }

def addDeadlines (msgs : List MsgId) (trashedAt purgeAt : Int) (reason : Reason)
    (rows : List TrashedMsg) : List TrashedMsg :=
  msgs.foldl (fun rows msgId => insertOrIgnore (·.msgId) { msgId, trashedAt, purgeAt, reason } rows)
    rows

def dropDeadlines (msgs : List MsgId) (rows : List TrashedMsg) : List TrashedMsg :=
  deleteWhere (fun row => msgs.contains row.msgId) rows

def syncFor : Reason → Sync
  | .deleted => .sync
  | .expired | .unaccepted | .blocked => .nosync

section

variable [Unicode]

def toTrash (msgs : List MsgId) (reason : Reason) (now : Int) : DbAction Unit :=
  if msgs.isEmpty then pure ()
  else do
    let trashLabel ← reserved trashName
    exec (setExt msgs trashLabel true (syncFor reason))
    exec fun db =>
      { db with trashedMsgs := addDeadlines msgs now (deadline now db) reason db.trashedMsgs }

def trash (msgs : List MsgId) (now : Int) : DbAction Unit := toTrash msgs .deleted now

def restore (msgs : List MsgId) : DbAction Unit :=
  if msgs.isEmpty then pure ()
  else do
    let trashLabel ← reserved trashName
    exec (setExt msgs trashLabel false .sync)
    exec fun db => { db with trashedMsgs := dropDeadlines msgs db.trashedMsgs }
    exec (clearTimers msgs)

def expired (now : Int) (db : Db) : List MsgId :=
  (db.msgs.filter fun msg =>
    msg.ephemeralTimestamp != 0 && msg.ephemeralTimestamp ≤ now && msg.isLive).map (·.id)

def divert (now : Int) : DbAction Nat := do
  if (← query purgeDays) ≤ 0 then pure 0
  else
    let fired ← query (expired now)
    if fired.isEmpty then pure 0
    else
      toTrash fired .expired now
      exec (clearTimers fired)
      pure fired.length

def setMessageTimer (msgId : MsgId) (duration : Nat) (now : Int) (db : Db) : Db :=
  let expiresAt := if duration = 0 then 0 else saturatingAdd now duration
  { db with
    msgs := updateWhere (fun msg => msg.id == msgId)
      (fun msg => { msg with ephemeralTimestamp := expiresAt }) db.msgs }

def inTrash : DbAction (List MsgId) := do
  let trashLabel ← reserved trashName
  query (msgsWith trashLabel.id)

/-! ## Reconciling and destroying -/

def labelled (labelId : LabelId) (db : Db) : List MsgId :=
  (db.msgLabels.filter fun row => row.labelId == labelId).map (·.msgId)

/-- Drops the deadlines of messages without the label, then gives a deadline to
messages that have the label only. -/
def reconcileRows (trashLabel : LabelId) (now : Int) (db : Db) : Db :=
  { db with
    trashedMsgs := addDeadlines (labelled trashLabel db) now (deadline now db) .deleted
      (db.trashedMsgs.filter fun row => (labelled trashLabel db).contains row.msgId) }

def reconcile (now : Int) : DbAction Unit := do
  let trashLabel ← reserved trashName
  exec (reconcileRows trashLabel.id now)

/-- What is left of a destroyed message: a row that only suppresses re-download. -/
def tombstone (onServer : Bool) (msg : Message) : Message :=
  { id := msg.id
    rfc724Mid := msg.rfc724Mid
    preRfc724Mid := msg.preRfc724Mid
    timestamp := msg.timestamp
    chatId := chatIdTrash
    deleted := onServer }

def trashRows (msgs : List MsgId) (onServer : Bool) (db : Db) : Db :=
  { db with msgs := updateWhere (fun msg => msgs.contains msg.id) (tombstone onServer) db.msgs }

/-- Destroys messages for real; whoever calls this has decided they are in the trash. -/
def destroy (msgs : List MsgId) (db : Db) : Nat × Db :=
  (msgs.length,
    { trashRows msgs true db with trashedMsgs := dropDeadlines msgs db.trashedMsgs })

def pruneDeadlines (db : Db) : Db :=
  { db with
    trashedMsgs := db.trashedMsgs.filter fun row =>
      db.msgs.any fun msg => msg.id == row.msgId && msg.isLive }

def due (now : Int) (db : Db) : List MsgId :=
  (db.trashedMsgs.filter fun row => row.purgeAt ≤ now).map (·.msgId)

/-- Destroys what is due; when nothing is, tidies up and reports the rows it dropped. -/
def purge (now : Int) : DbAction Nat := do
  reconcile now
  execReturning fun db =>
    if (due now db).isEmpty then
      (db.trashedMsgs.length - (pruneDeadlines db).trashedMsgs.length, pruneDeadlines db)
    else destroy (due now db) db

/-- Destroys messages the user picked; those not in the trash are skipped. -/
def destroyNow (msgs : List MsgId) (now : Int) : DbAction Nat :=
  if msgs.isEmpty then pure 0
  else do
    reconcile now
    execReturning fun db =>
      destroy (msgs.filter fun msgId => db.trashedMsgs.any (·.msgId == msgId)) db

/-- Destroys everything the user sees in the trash. -/
def empty (now : Int) : DbAction Nat := do
  reconcile now
  let ids ← inTrash
  execReturning (destroy ids)

end

end Eeemail.Trash
