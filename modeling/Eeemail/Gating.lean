import Eeemail.Contacts
import Eeemail.Trash

/-! # The gate

`core/src/email/gating.rs`, which holds mail from senders who are neither
verified nor known, and `core/src/email/blocklist.rs`, which trashes mail from
senders the user blocked. -/

set_option autoImplicit false

namespace Eeemail.Gating

open Lib.Texts Lib.Actions Lib.Tables Store Labels Contacts Trash

def samePerson (contact : Contact) (db : Db) : List ContactId :=
  if contact.addr.isEmpty then []
  else
    (db.contacts.filter fun other =>
      nocaseEq other.addr contact.addr && other.id != contact.id &&
        ContactId.lastSpecial < other.id && !other.blocked).map (·.id)

def isKnownRow (id : ContactId) (db : Db) : Bool :=
  (db.contactById id).any fun contact => contact.origin.isKnown

/-- Whether a correspondent's mail reaches the inbox.  Being known carries over
from one row of a person to another, being verified does not. -/
def isTrusted (id : ContactId) (db : Db) : Bool :=
  id == ContactId.self ||
    match db.contactById id with
    | none => false
    | some contact =>
      contact.origin.isKnown || isVerified contact ||
        (samePerson contact db).any fun other => isKnownRow other db

/-! ## Holding and releasing -/

def holdDays (db : Db) : Int := configInt db.config.unverifiedTrashDays

def setHoldDays (days : Int) (db : Db) : Db :=
  { db with config := { db.config with unverifiedTrashDays := max days 0 } }

def senderOf (msgId : MsgId) (db : Db) : Option (ContactId × Bool) :=
  (db.msgById msgId).map fun msg => (msg.fromId, msg.toId == ContactId.self)

def holds (msgId : MsgId) (db : Db) : Bool :=
  db.config.inboxGating &&
    (senderOf msgId db).any fun (fromId, isIncoming) =>
      isIncoming && fromId != ContactId.self && !isTrusted fromId db

def heldFrom (fromId : ContactId) (db : Db) : List MsgId :=
  (db.heldMsgs.filter fun held =>
    db.msgs.any fun msg => msg.id == held.msgId && msg.fromId == fromId).map (·.msgId)

def senderRows (id : ContactId) (db : Db) : List ContactId :=
  id ::
    match db.contactById id with
    | some contact => samePerson contact db
    | none => []

def pruneHeld (db : Db) : Db :=
  { db with
    heldMsgs := db.heldMsgs.filter fun held =>
      db.msgs.any fun msg => msg.id == held.msgId && msg.isLive }

section

variable [Unicode]

def apply (msgId : MsgId) (now : Int) : DbAction Unit := do
  if ← query (holds msgId) then
    let unverified ← reserved unverifiedName
    exec (setExt [msgId] unverified true .nosync)
    exec fun db =>
      { db with heldMsgs := insertOrIgnore (·.msgId) { msgId, heldAt := now } db.heldMsgs }
  else pure ()

def unhold (msgs : List MsgId) : DbAction Nat :=
  if msgs.isEmpty then pure 0
  else do
    let unverified ← reserved unverifiedName
    exec (setExt msgs unverified false .nosync)
    exec fun db =>
      { db with heldMsgs := deleteWhere (fun held => msgs.contains held.msgId) db.heldMsgs }
    pure msgs.length

def releaseSenders : List ContactId → DbAction Nat
  | [] => pure 0
  | fromId :: rest => do
    let msgs ← query (heldFrom fromId)
    let released ← unhold msgs
    let more ← releaseSenders rest
    pure (released + more)

def releaseTrusted (id : ContactId) : DbAction Nat := do
  let trusted ← query (isTrusted id)
  let senders ← query (senderRows id)
  if id != ContactId.self && trusted then releaseSenders senders else pure 0

def release : List ContactId → DbAction Nat
  | [] => pure 0
  | id :: rest => do
    let released ← releaseTrusted id
    let more ← release rest
    pure (released + more)

def releaseAll : DbAction Nat := do
  let msgs ← query fun db => db.heldMsgs.map (·.msgId)
  unhold msgs

def setEnabled (enabled : Bool) : DbAction Unit := do
  exec fun db => { db with config := { db.config with inboxGating := enabled } }
  if enabled then pure ()
  else do
    let _ ← releaseAll
    pure ()

def elapsed (now : Int) (db : Db) : List MsgId :=
  (db.heldMsgs.filter fun held =>
    held.heldAt ≤ saturatingSub now (saturatingMul (holdDays db) secondsPerDay)).map (·.msgId)

def sweep (now : Int) : DbAction Nat := do
  let days ← query holdDays
  let swept ← query (elapsed now)
  if days ≤ 0 || swept.isEmpty then do
    exec pruneHeld
    pure 0
  else do
    toTrash swept .unaccepted now
    unhold swept

/-- `ContactId::scaleup_origin`: raises the origin of contacts, and releases
their held mail when that made them trusted. -/
def scaleupOrigin (ids : List ContactId) (origin : Origin) : DbAction Unit := do
  exec fun db =>
    { db with
      contacts := updateWhere
        (fun contact => ids.contains contact.id && contact.origin.value < origin.value)
        (fun contact => { contact with origin }) db.contacts }
  bestEffort (release ids)

/-! ## The blocklist -/

def normalizePattern (pattern : Text) : Text := lowercase (trim pattern)

def domainOf (addr : Text) : Option Text :=
  if addr.contains '@' then some ((addr.dropWhile (· != '@')).tail) else none

def blocklistMatches (addr : Text) (db : Db) : Bool :=
  match domainOf (normalizePattern addr) with
  | none => false
  | some domain =>
    db.blocklist.any fun entry =>
      entry.patternNorm == normalizePattern addr || entry.patternNorm == '@' :: domain

def isBlocklisted (msgId : MsgId) (db : Db) : Bool :=
  (senderOf msgId db).any fun (fromId, isIncoming) =>
    isIncoming && fromId != ContactId.self &&
      (db.contactById fromId).any fun contact => blocklistMatches contact.addr db

/-- `blocklist::apply`: trashes a just-received message if its sender is blocked. -/
def applyBlocklist (msgId : MsgId) (now : Int) : DbAction Bool := do
  if ← query (isBlocklisted msgId) then do
    toTrash [msgId] .blocked now
    pure true
  else pure false

end

end Eeemail.Gating
