import Eeemail.Store

/-! # The addressees of a message

`core/src/email/recipients.rs`, the full set of `To`, `Cc` and `Bcc` of a
message, and the per-message importance of `core/src/email/importance.rs`. -/

set_option autoImplicit false

namespace Eeemail.Recipients

open Lib.Texts Lib.Tables Store

/-- `compose::RecipientSet`: who a message is addressed to, as typed. -/
structure RecipientSet where
  toAddrs : List Text := []
  ccAddrs : List Text := []
  bccAddrs : List Text := []
  deriving DecidableEq, Repr

def RecipientSet.isEmpty (recipients : RecipientSet) : Bool :=
  recipients.toAddrs.isEmpty && recipients.ccAddrs.isEmpty && recipients.bccAddrs.isEmpty

/-- The rows `store` inserts, numbered from `ord`.  A repeated address keeps its
first row. -/
def insertRows (msgId : MsgId) (recipients : List Recipient) (ord : Nat)
    (rows : List MsgRecipient) : List MsgRecipient :=
  match recipients with
  | [] => rows
  | recipient :: rest =>
    insertRows msgId rest (ord + 1)
      (insertOrIgnore (fun row => (row.msgId, row.kind, row.addr))
        { msgId, kind := recipient.kind, addr := recipient.addr, name := recipient.name, ord }
        rows)

def store (msgId : MsgId) (recipients : List Recipient) (db : Db) : Db :=
  { db with
    msgRecipients := insertRows msgId recipients 0
      (deleteWhere (fun row => row.msgId == msgId) db.msgRecipients) }

/-- The recipients of one kind, in header order: `recipients::load_kind`. -/
def loadKind (msgId : MsgId) (kind : RecipientKind) (db : Db) : List Recipient :=
  ((db.msgRecipients.filter fun row => row.msgId == msgId && row.kind == kind).insertionSort
      fun a b => a.ord ≤ b.ord).map
    fun row => { kind := row.kind, addr := row.addr, name := row.name }

/-- `recipients::load`: `To`, then `Cc`, then `Bcc`, each in header order. -/
def load (msgId : MsgId) (db : Db) : List Recipient :=
  loadKind msgId .to db ++ loadKind msgId .cc db ++ loadKind msgId .bcc db

def setImportance (msgId : MsgId) (importance : Importance) (db : Db) : Db :=
  match importance with
  | .normal =>
    { db with msgImportance := deleteWhere (fun row => row.msgId == msgId) db.msgImportance }
  | .low | .high =>
    { db with msgImportance := upsert (·.msgId) { msgId, importance } db.msgImportance }

def importanceOf (msgId : MsgId) (db : Db) : Importance :=
  ((db.msgImportance.find? fun row => row.msgId == msgId).map (·.importance)).getD .normal

end Eeemail.Recipients
