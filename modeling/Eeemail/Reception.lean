import Eeemail.Housekeeping
import Eeemail.Recipients

/-! # Receiving a message

`core/src/receive_imf.rs` from the parsed message on: the contact of the
sender, the contacts of the other addressees, the chat, the row in `msgs`, the
hooks of `core/src/email/` that run on the stored message, and
`core/src/email/autocrypt.rs`, which learns an advertised key. -/

set_option autoImplicit false

namespace Eeemail.Reception

open Lib.Texts Lib.Actions Lib.Tables Addr Store Labels Contacts Gating Housekeeping

/-- One addressee that reception turns into a contact: by the key that was
gossiped for it, or by its address. -/
structure Lookup where
  name : Text := []
  addr : Text
  fingerprint : Text := []
  /-- Listed as a past member. -/
  past : Bool := false
  deriving DecidableEq, Repr

/-- What the MIME parser hands to `receive_imf_inner`.  Which addressees are
looked up by key, and whether the message goes to the chat with its sender, is
decided from group headers that are not modelled, so any choice is allowed. -/
structure Incoming where
  rfc724Mid : Text
  fromAddr : Text
  displayName : Text := []
  preventRename : Bool := false
  /-- Fingerprint of the key that signed the encrypted message. -/
  signature : Option Text := none
  /-- The key of the `Autocrypt` header. -/
  autocryptKey : Option PublicKey := none
  gossipedKeys : List PublicKey := []
  /-- Fingerprints of gossiped keys the sender vouches for. -/
  vouched : List Text := []
  lookups : List Lookup := []
  /-- `In-Reply-To`, then `References`. -/
  parents : List Text := []
  /-- The chat it is assigned to, if that is not the chat with the sender. -/
  chat : Option ChatId := none
  seen : Bool := false
  timestampSent : Int := 0
  ephemeralTimer : Nat := 0
  headerRecipients : List Recipient := []
  importance : Importance := .normal
  structured : List (Nat × Text × StructuredSource) := []
  deriving DecidableEq, Repr

def importKeys (keys : List PublicKey) (db : Db) : Db :=
  { db with
    publicKeys := keys.foldl (fun rows key => upsert (·.fingerprint) key rows) db.publicKeys }

/-- `structured::is_trusted`: encrypted and signed, which `message_crypto` reads
off the padlock, by a sender the gate trusts. -/
def structuredIsTrusted (msgId : MsgId) (db : Db) : Bool :=
  (db.msgById msgId).any fun msg => msg.param.guaranteeE2ee && isTrusted msg.fromId db

def insertObject (msgId : MsgId) (trusted : Bool) (rows : List StructuredRow) :
    Nat × Text × StructuredSource → List StructuredRow
  | (seq, json, source) =>
    insertOrIgnore (fun row => (row.msgId, row.seq)) { msgId, seq, json, trusted, source } rows

def storeStructured (msgId : MsgId) (found : List (Nat × Text × StructuredSource))
    (db : Db) : Db :=
  { db with
    structuredData :=
      found.foldl (insertObject msgId (structuredIsTrusted msgId db)) db.structuredData }

section

variable [Unicode]

/-- `MimeMessage::incoming`: a signed message is our own by its key, any other by its address. -/
def isIncoming (mail : Incoming) (db : Db) : Bool :=
  match mail.signature with
  | some fingerprint => fingerprint != db.config.selfKey.fingerprint
  | none => !isSelfAddr mail.fromAddr db

/-! ## Contacts -/

/-- `from_field_to_contact_id`: the sender, and the origin it has by now. -/
def fromFieldToContactId (mail : Incoming) : DbAction (Option (ContactId × Origin)) :=
  match contactAddress mail.fromAddr with
  | .error _ => pure none
  | .ok fromAddr => do
    let (fromId, _) ← addOrLookupExt (if mail.preventRename then [] else mail.displayName)
      fromAddr (mail.signature.getD []) .incomingUnknownFrom
    if fromId = ContactId.self then pure (some (ContactId.self, .outgoingBcc))
    else
      let contact ← getById fromId
      exec fun db =>
        { db with
          contacts := updateWhere (fun contact => contact.id == fromId)
            (fun contact => { contact with addr := fromAddr }) db.contacts }
      pure (some (fromId, contact.origin))

def lookupOrigin (incoming : Bool) (senderOrigin : Origin) (lookup : Lookup) : Origin :=
  if lookup.past || !lookup.fingerprint.isEmpty then .hidden
  else if !incoming then .outgoingTo
  else if senderOrigin.isKnown then .incomingTo
  else .incomingUnknownTo

/-- `add_or_lookup_key_contacts` and `add_or_lookup_contacts_by_address_list`:
an address that cannot be one is passed over. -/
def lookupContact (incoming : Bool) (senderOrigin : Origin) (lookup : Lookup) :
    DbAction Unit :=
  if !mayBeValidAddr lookup.addr then pure ()
  else
    match contactAddress lookup.addr with
    | .error _ => pure ()
    | .ok addr => do
      let _ ← addOrLookupExt lookup.name addr lookup.fingerprint
        (lookupOrigin incoming senderOrigin lookup)
      pure ()

/-- `mark_contact_id_as_verified` by a contact that is itself verified. -/
def markVerifiedBy (verifier : ContactId) (id : ContactId) (db : Db) : Db :=
  let chained := (db.contactById verifier).any fun contact => contact.verifier == verifier
  let verifier := if chained then id else verifier
  { db with
    contacts := updateWhere
      (fun contact => contact.id == id && (contact.verifier == 0 || contact.verifier == id))
      (fun contact => { contact with verifier }) db.contacts }

def hasVerifiedEncryption (mail : Incoming) (fromId : ContactId) (db : Db) : Bool :=
  mail.signature.isSome &&
    (fromId == ContactId.self ||
      (db.contactById fromId).any fun contact =>
        contact.isKeyContact && contact.verifier != 0 &&
          mail.signature == some contact.fingerprint)

/-- `mark_recipients_as_verified` for one gossiped key; the own device's word
has no verifier to record, so the contact stands for itself. -/
def markRecipientAsVerified (fromId : ContactId) (fingerprint : Text) : DbAction Unit := do
  let found ← query fun db => db.contacts.find? fun contact =>
    !fingerprint.isEmpty && contact.fingerprint == fingerprint
  match found with
  | none => pure ()
  | some contact =>
    if contact.id = ContactId.self ∨ contact.id = fromId then pure ()
    else do
      exec (markVerifiedBy (if fromId = ContactId.self then contact.id else fromId) contact.id)
      bestEffort (release [contact.id])

/-- `autocrypt::adopt`: makes a key-contact for the key an unsigned message advertises. -/
def adopt (mail : Incoming) : DbAction Unit := do
  match mail.signature, mail.autocryptKey with
  | none, some key =>
    if (trim mail.fromAddr).isEmpty || (← query (isSelfAddr (trim mail.fromAddr))) then pure ()
    else do
      let _ ← addOrLookupExt mail.displayName (trim mail.fromAddr) key.fingerprint
        .incomingUnknownFrom
      pure ()
  | _, _ => pure ()

/-! ## The chat and the row -/

/-- `get_parent_message`: a tombstone is none. -/
def hasParent (mail : Incoming) (db : Db) : Bool :=
  mail.parents.any fun mid => ((rfc724MidExists mid db).bind db.msgById).any (·.isLive)

def createBlocked (fromId : ContactId) (db : Db) : Blocked :=
  if (db.contactById fromId).any (·.blocked) then .yes
  else if db.config.bot then .not
  else .request

def singleChat (fromId : ContactId) (db : Db) : Chat × Db :=
  match chatWith fromId db with
  | some chat => (chat, db)
  | none =>
    let chat : Chat :=
      { id := db.nextChatId, contactId := fromId, blocked := createBlocked fromId db }
    (chat, { db with chats := db.chats ++ [chat], nextChatId := db.nextChatId + 1 })

/-- `do_chat_assignment` of incoming mail to the chat with its sender.  A reply
to a message we know marks the sender as known. -/
def assignToSender (mail : Incoming) (fromId : ContactId) : DbAction ChatId := do
  let isReply ← query (hasParent mail)
  let chat ← execReturning (singleChat fromId)
  let status ← query (createBlocked fromId)
  if chat.blocked = .not then pure chat.id
  else do
    exec fun db =>
      { db with
        chats := updateWhere (fun row => row.id == chat.id)
          (fun row => { row with blocked := status }) db.chats }
    onlyIf (status == .request && isReply) (scaleupOrigin [fromId] .incomingReplyTo)
    pure chat.id

def insertMsg (mail : Incoming) (fromId : ContactId) (chatId : ChatId) (now : Int) (db : Db) :
    MsgId × Db :=
  let incoming := isIncoming mail db
  let state : MessageState :=
    if !incoming then .outDelivered else if mail.seen then .inSeen else .inFresh
  let row : Message :=
    if chatId = chatIdTrash then
      { id := db.nextMsgId, rfc724Mid := mail.rfc724Mid, chatId,
        timestamp := mail.timestampSent, timestampSent := mail.timestampSent,
        timestampRcvd := now }
    else
      { id := db.nextMsgId
        rfc724Mid := mail.rfc724Mid
        chatId
        fromId
        toId := if incoming then ContactId.self else 0
        timestamp := mail.timestampSent
        timestampSent := mail.timestampSent
        timestampRcvd := now
        viewtype := .text
        state
        param := { guaranteeE2ee := mail.signature.isSome }
        ephemeralTimer := mail.ephemeralTimer
        ephemeralTimestamp :=
          if state = .inFresh ∨ mail.ephemeralTimer = 0 then 0
          else saturatingAdd now mail.ephemeralTimer }
  (db.nextMsgId, { db with msgs := db.msgs ++ [row], nextMsgId := db.nextMsgId + 1 })

/-! ## The whole of it -/

/-- With the sender known: the contacts of the addressees, and the chat. -/
def place (mail : Incoming) (fromId : ContactId) (senderOrigin : Origin) : DbAction ChatId := do
  let incoming ← query (isIncoming mail)
  forEach (lookupContact incoming senderOrigin) mail.lookups
  let verified ← query (hasVerifiedEncryption mail fromId)
  onlyIf verified (forEach (markRecipientAsVerified fromId) mail.vouched)
  match mail.chat with
  | some chatId => pure chatId
  | none =>
    if incoming then assignToSender mail fromId
    else do
      let chat ← execReturning (singleChat ContactId.self)
      pure chat.id

/-- The part of reception that makes the contacts and finds the chat. -/
def prepare (mail : Incoming) : DbAction (Option (ContactId × ChatId)) := do
  exec (importKeys (mail.gossipedKeys ++ mail.autocryptKey.toList))
  match ← fromFieldToContactId mail with
  | none => pure none
  | some (fromId, senderOrigin) => do
    let chatId ← place mail fromId senderOrigin
    pure (some (fromId, chatId))

/-- What runs on the stored message before its structured data is looked at.
Each step is best-effort. -/
def hooks (mail : Incoming) (msgId : MsgId) (now : Int) : DbAction Unit := do
  exec (Recipients.store msgId mail.headerRecipients)
  exec (drainPending msgId)
  bestEffort (Gating.apply msgId now)
  exec (Recipients.setImportance msgId mail.importance)
  bestEffort (applyBlocklist msgId now)

/-- Stores the message and runs the hooks; the sender and the message, unless
it was dropped. -/
def storeMessage (mail : Incoming) (now : Int) : DbAction (Option (ContactId × MsgId)) := do
  if (← query (rfc724MidExists mail.rfc724Mid)).isSome then pure none
  else
    match ← prepare mail with
    | none => pure none
    | some (fromId, chatId) =>
      let msgId ← execReturning (insertMsg mail fromId chatId now)
      onlyIf (!isSpecial fromId) (updateLastSeen fromId mail.timestampSent)
      hooks mail msgId now
      pure (some (fromId, msgId))

def receive (mail : Incoming) (now : Int) : DbAction (Option MsgId) := do
  match ← storeMessage mail now with
  | none => pure none
  | some (_, msgId) =>
    exec (storeStructured msgId mail.structured)
    bestEffort (adopt mail)
    pure (some msgId)

end

end Eeemail.Reception
