import Eeemail.Housekeeping
import Eeemail.Policy

/-! # Single chats

The parts of `core/src/chat.rs` a composed message passes through before it is
rendered: the chat with its addressee, the draft, the checks and the row that
is updated, and the default timer of `core/src/email/receipts.rs`.  Groups,
channels and mailing lists are not modelled: `compose::send` only ever writes to
the single chat of the first `To` address. -/

set_option autoImplicit false

namespace Eeemail.Chats

open Lib.Texts Lib.Actions Lib.Tables Store Contacts Gating Housekeeping

/-! ## Loading -/

def loadChat (chatId : ChatId) : DbAction Chat :=
  querySome (fun db => db.chatById chatId)
    ("Failed loading chat ".toList ++ displayChatId chatId ++ " from database".toList)

def isSelfTalk (chat : Chat) : Bool := chat.contactId == ContactId.self

def isDeviceTalk (chat : Chat) : Bool := chat.contactId == ContactId.device

def isEncrypted (chat : Chat) (db : Db) : Bool :=
  isSelfTalk chat || isDeviceTalk chat || (db.contactById chat.contactId).any (·.isKeyContact)

/-- `get_ephemeral_timer`; 0 is `Disabled`. -/
def ephemeralTimer (chatId : ChatId) (db : Db) : Nat :=
  ((db.chatById chatId).map (·.ephemeralTimer)).getD 0

/-! ## The chat with a contact -/

def addInfoMsg (chatId : ChatId) (cmd : SystemMessage) (mid text : Text) (sort sent : Int)
    (db : Db) : Db :=
  { db with
    msgs := db.msgs ++
      [{ id := db.nextMsgId
         rfc724Mid := mid
         chatId
         fromId := ContactId.info
         toId := ContactId.info
         timestamp := sort
         timestampSent := sent
         timestampRcvd := sent
         viewtype := .text
         state := .inNoticed
         text
         param := { cmd }
         ephemeralTimer := ephemeralTimer chatId db }]
    nextMsgId := db.nextMsgId + 1 }

def e2eeInfoMsg : Text := "Messages are end-to-end encrypted.".toList

def insertChat (contactId : ContactId) (db : Db) : Chat × Db :=
  let chat : Chat := { id := db.nextChatId, contactId }
  (chat, { db with chats := db.chats ++ [chat], nextChatId := db.nextChatId + 1 })

/-- `ChatIdBlocked::get_for_contact` for a contact without a chat. -/
def getForContact (contactId : ContactId) (noticeMid : Text) (now : Int) : DbAction ChatId := do
  let chat ← execReturning (insertChat contactId)
  let encrypted ← query (isEncrypted chat)
  onlyIf (encrypted && !isDeviceTalk chat && !isSelfTalk chat)
    (exec (addInfoMsg chat.id .chatE2ee noticeMid e2eeInfoMsg 0 now))
  pure chat.id

section

variable [Unicode]

/-- `ChatId::create_for_contact`: the unblocked single chat with a contact. -/
def createForContact (contactId : ContactId) (noticeMid : Text) (now : Int) :
    DbAction ChatId := do
  match ← query (chatWith contactId) with
  | some chat => do
    exec fun db =>
      { db with
        chats := updateWhere (fun row => row.id == chat.id)
          (fun row => { row with blocked := .not }) db.chats }
    pure chat.id
  | none => do
    let real ← query (realExistsById contactId)
    ensure (real || contactId == ContactId.self)
      "Can not create chat for non-existing contact".toList
    let chatId ← getForContact contactId noticeMid now
    scaleupOrigin [contactId] .createChat
    pure chatId

end

def insertDraft (chatId : ChatId) (msg : Message) (now : Int) (db : Db) : Message × Db :=
  let row : Message :=
    { id := db.nextMsgId
      rfc724Mid := msg.rfc724Mid
      chatId
      fromId := ContactId.self
      timestamp := now
      viewtype := msg.viewtype
      state := .outDraft
      hidden := true
      text := msg.text
      param := msg.param
      mimeInReplyTo := msg.mimeInReplyTo }
  ({ msg with id := db.nextMsgId, chatId, state := .outDraft },
    { db with
      msgs := deleteWhere (fun msg => msg.chatId == chatId && msg.state == .outDraft) db.msgs ++
        [row]
      nextMsgId := db.nextMsgId + 1 })

def setDraft (chatId : ChatId) (msg : Message) (now : Int) : DbAction Message :=
  if chatId ≤ chatIdLastSpecial then pure msg
  else do
    ensure (msg.viewtype != .unknown) "Can not set draft of unknown type.".toList
    ensure (!(msg.viewtype == .text && msg.text.isEmpty && msg.mimeInReplyTo.isEmpty))
      "No text and no quote in draft".toList
    execReturning (insertDraft chatId msg now)

/-! ## Checks and the row -/

inductive CantSendReason where
  | specialChat
  | deviceChat
  | contactRequest
  | missingKey
  deriving DecidableEq, Repr

def CantSendReason.text : CantSendReason → Text
  | specialChat => "the chat is a special chat".toList
  | deviceChat => "the chat is a device chat".toList
  | contactRequest => "contact request chat should be accepted before sending messages".toList
  | missingKey => "key is missing".toList

def lacksKey (chat : Chat) (db : Db) : Bool :=
  (db.contactById chat.contactId).any fun contact =>
    contact.isKeyContact && (publicKey contact db).isNone

/-- `why_cant_send_ext`; a message in the clear needs no key. -/
def whyCantSend (chat : Chat) (plaintext : Bool) (db : Db) : Option CantSendReason :=
  if chat.id ≤ chatIdLastSpecial then some .specialChat
  else if isDeviceTalk chat then some .deviceChat
  else if chat.blocked = .request then some .contactRequest
  else if !plaintext && lacksKey chat db then some .missingKey
  else none

def isParentState : MessageState → Bool
  | .inFresh | .inNoticed | .inSeen => true
  | .outPending | .outFailed | .outDelivered | .outMdnRcvd => true
  | .undefined | .outDraft => false

def parentOf (chatId : ChatId) (db : Db) : Option Message :=
  (db.msgs.filter fun msg =>
      msg.chatId == chatId && isParentState msg.state && !msg.hidden && msg.downloadDone &&
        msg.fromId != ContactId.info).foldl
    (fun best msg =>
      match best with
      | none => some msg
      | some latest =>
        if latest.timestamp < msg.timestamp ||
            (latest.timestamp == msg.timestamp && latest.id < msg.id) then some msg
        else best)
    none

def replyHeaders (chat : Chat) (mid : Text) (db : Db) : Text × Text :=
  if isSelfTalk chat then ([], [])
  else
    match parentOf chat.id db with
    | none => ([], mid)
    | some parent =>
      let earlier :=
        if parent.mimeReferences.isEmpty then parent.mimeInReplyTo else parent.mimeReferences
      let recent := ((split ' ' earlier).reverse.take 2).reverse
      let references :=
        if !parent.rfc724Mid.isEmpty && !recent.contains parent.rfc724Mid then
          recent ++ [parent.rfc724Mid]
        else recent
      (parent.rfc724Mid, if references.isEmpty then mid else join " ".toList references)

/-- `prepare_msg_raw` for a draft: the message as it is sent and its row. -/
def prepareMsgRaw (chat : Chat) (msg : Message) (now : Int) (db : Db) : Message × Db :=
  let reply := replyHeaders chat msg.rfc724Mid db
  let timer := ephemeralTimer chat.id db
  let sent : Message :=
    { msg with
      chatId := chat.id
      fromId := ContactId.self
      toId := chat.contactId
      param := { msg.param with bot := db.config.bot }
      mimeInReplyTo := if msg.mimeInReplyTo.isEmpty then reply.1 else msg.mimeInReplyTo
      mimeReferences := reply.2
      ephemeralTimer := timer
      ephemeralTimestamp := if timer = 0 then 0 else saturatingAdd now timer }
  (sent,
    { db with
      msgs := updateWhere (fun row => row.id == msg.id)
        (fun row => { sent with id := row.id, preRfc724Mid := row.preRfc724Mid,
                                timestampSent := row.timestampSent,
                                timestampRcvd := row.timestampRcvd, error := row.error,
                                downloadDone := row.downloadDone, deleted := row.deleted })
        db.msgs })

/-! ## The default timer -/

/-- `timer_from_secs`; 0 is `Disabled`. -/
def timerFromSecs (secs : Int) : Nat := if 0 < secs ∧ secs < 2 ^ 32 then secs.toNat else 0

def shorter (a b : Nat) : Nat := if a = 0 then b else if b = 0 then a else min a b

def timerForContact (id : ContactId) (db : Db) : Option Nat :=
  ((db.contactPolicy.find? fun row => row.contactId == id).bind (·.ephemeralSecs)).map
    timerFromSecs

def effectiveDefaultTimer (contacts : List ContactId) (db : Db) : Nat :=
  contacts.foldl
    (fun timer id =>
      if id = ContactId.self then timer
      else
        match timerForContact id db with
        | some overrideTimer => shorter timer overrideTimer
        | none => timer)
    (timerFromSecs (configInt db.config.ephemeralDefaultSeconds))

/-- `apply_default_timer`: only in a chat that has no timer and was never written to. -/
def applyDefaultTimer (chatId : ChatId) (msgId : MsgId) (contacts : List ContactId) (db : Db) :
    Db :=
  let timer := effectiveDefaultTimer contacts db
  let sentBefore := db.msgs.any fun msg =>
    msg.chatId == chatId && msg.fromId == ContactId.self && msg.id < msgId && !msg.hidden
  if ephemeralTimer chatId db ≠ 0 ∨ timer = 0 ∨ sentBefore = true then db
  else
    { db with
      chats := updateWhere (fun chat => chat.id == chatId)
        (fun chat => { chat with ephemeralTimer := timer }) db.chats }

end Eeemail.Chats
