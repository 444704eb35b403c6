import Eeemail.Gating

/-! # Background work

`delete_expired_messages`, `start_ephemeral_timers` and seen-marking of
`core/src/ephemeral.rs` and `core/src/message.rs`, and the housekeeping pass of
`core/src/sql.rs`, restricted to the steps that read or write the modelled
tables. -/

set_option autoImplicit false

namespace Eeemail.Housekeeping

open Lib.Texts Lib.Actions Lib.Tables Store Labels Trash Gating

def startEphemeralTimers (now : Int) (db : Db) : Db :=
  { db with
    msgs := updateWhere
      (fun msg =>
        0 < msg.ephemeralTimer && msg.ephemeralTimestamp == 0 &&
          !(msg.state == .inFresh || msg.state == .inNoticed || msg.state == .outDraft))
      (fun msg => { msg with ephemeralTimestamp := now + msg.ephemeralTimer }) db.msgs }

def startEphemeralTimersMsgids (ids : List MsgId) (now : Int) (db : Db) : Db :=
  { db with
    msgs := updateWhere
      (fun msg =>
        ids.contains msg.id && 0 < msg.ephemeralTimer &&
          (msg.ephemeralTimestamp == 0 || now + msg.ephemeralTimer < msg.ephemeralTimestamp))
      (fun msg => { msg with ephemeralTimestamp := now + msg.ephemeralTimer }) db.msgs }

/-- `markseen_msgs`, without the receipts it queues. -/
def markseenMsgs (ids : List MsgId) (now : Int) (db : Db) : Db :=
  let shown (msg : Message) : Bool := ids.contains msg.id && chatIdLastSpecial < msg.chatId
  let db :=
    if db.msgs.any fun msg => shown msg && msg.ephemeralTimer != 0 then
      startEphemeralTimersMsgids ids now db
    else db
  { db with
    msgs := updateWhere
      (fun msg => shown msg && (msg.state == .inFresh || msg.state == .inNoticed))
      (fun msg => { msg with state := .inSeen }) db.msgs }

/-! ## Expiry -/

/-- The single chat with a contact: `ChatIdBlocked::lookup_by_contact`. -/
def chatWith (contactId : ContactId) (db : Db) : Option Chat :=
  db.chats.find? fun chat => chatIdLastSpecial < chat.id && chat.contactId == contactId

def expiredByAge (now : Int) (db : Db) : List MsgId :=
  let age := configInt db.config.deleteDeviceAfter
  if age = 0 then []
  else
    let threshold := saturatingSub now age
    let spared := [ContactId.self, ContactId.device].map fun contactId =>
      ((chatWith contactId db).map (·.id)).getD 0
    (db.msgs.filter fun msg =>
      msg.timestamp < threshold && msg.timestampRcvd < threshold &&
        chatIdLastSpecial < msg.chatId && !spared.contains msg.chatId).map (·.id)

def selectExpiredMessages (now : Int) (db : Db) : List MsgId :=
  expired now db ++ expiredByAge now db

/-- `ephemeral::prune` and its kind: keeps the rows of live messages. -/
def hasLiveMsg (msgId : MsgId) (db : Db) : Bool :=
  db.msgs.any fun msg => msg.id == msgId && msg.isLive

def pruneRecipients (db : Db) : Db :=
  { db with msgRecipients := db.msgRecipients.filter fun row => hasLiveMsg row.msgId db }

def pruneUndelivered (db : Db) : Db :=
  { db with msgUndelivered := db.msgUndelivered.filter fun row => hasLiveMsg row.msgId db }

/-- `receipts::prune`. -/
def pruneContactPolicy (db : Db) : Db :=
  { db with
    contactPolicy := db.contactPolicy.filter fun row =>
      db.contacts.any fun contact => contact.id == row.contactId }

def pruneStructured (db : Db) : Db :=
  { db with
    structuredData := db.structuredData.filter fun row =>
      db.msgs.any fun msg => msg.id == row.msgId }

/-- `prune_tombstones`: old tombstones go, unless the server still lists the message. -/
def pruneTombstones (listed : List Text) (now : Int) (db : Db) : Db :=
  { db with
    msgs := deleteWhere
      (fun msg => !msg.isLive && msg.timestamp ≤ saturatingSub now (2 * 24 * 3600) &&
        !listed.contains msg.rfc724Mid) db.msgs }

section

variable [Unicode]

/-- Locally deletes expired messages; those whose timer fired are diverted first. -/
def deleteExpiredMessages (now : Int) : DbAction Unit := do
  bestEffort (divert now)
  exec fun db => trashRows (selectExpiredMessages now db) false db

/-- One housekeeping pass.  A step that fails is logged, and the next one runs. -/
def housekeeping (listed : List Text) (now : Int) : DbAction Unit := do
  exec pruneRecipients
  exec (Labels.prune now)
  exec pruneUndelivered
  exec pruneContactPolicy
  bestEffort (sweep now)
  bestEffort (purge now)
  exec pruneStructured
  exec (startEphemeralTimers now)
  exec (pruneTombstones listed now)

end

end Eeemail.Housekeeping
