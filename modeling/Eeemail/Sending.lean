import Eeemail.MimeFactory

/-! # Sending a composed message

`compose::send` of `core/src/email/compose.rs` and what it calls in
`core/src/chat.rs`: the message is stored as a draft, its addressees are
recorded, and `create_send_msg_jobs` renders it and puts it into the `smtp`
queue. -/

set_option autoImplicit false

namespace Eeemail.Sending

open Lib.Texts Lib.Actions Lib.Tables Addr Store Contacts Recipients Policy Chats MimeFactory

structure Composition where
  recipients : RecipientSet
  subject : Text := []
  text : Text := []
  attachment : Option Attachment := none
  html : Option Text := none
  importance : Importance := .normal
  options : SendOptions := {}
  deriving DecidableEq, Repr

/-- What is drawn at random while a message is sent: message ids, and how far
the date in the clear is moved back. -/
structure Draws where
  noticeMid : Text := []
  mid : Text
  preMid : Text := []
  failureMid : Text := []
  dateOffset : Int := 0
  preDateOffset : Int := 0
  deriving DecidableEq, Repr

/-! ## The queue -/

def setMsgFailed (msg : Message) (error : Text) (db : Db) : Db :=
  { db with
    msgs := updateWhere (fun row => row.id == msg.id)
      (fun row => { row with
        state := if msg.state = .outPending ∨ msg.state = .outDelivered ∨ msg.state = .outMdnRcvd
          then .outFailed else msg.state
        error })
      db.msgs }

def preMsgAttachmentSizeThreshold : Nat := 140000

def needsPreMessage (factory : Factory) : Bool :=
  factory.willBeEncrypted &&
    factory.msg.param.file.any fun file => preMsgAttachmentSizeThreshold < file.bytes

structure Rendered where
  pre : Option RenderedEmail
  main : RenderedEmail
  subject : Text
  deriving DecidableEq, Repr

section

variable [Unicode]

def renderMessages (factory : Factory) (draws : Draws) (now : Int) : DbAction Rendered :=
  let date := saturatingSub now draws.dateOffset
  if needsPreMessage factory then do
    let (subject, main) ← render { factory with preMessageMode := .post }
      factory.msg.rfc724Mid date now
    let (_, pre) ← render { factory with preMessageMode := .pre main.rfc724Mid } draws.preMid
      (saturatingSub now draws.preDateOffset) now
    pure { pre := some pre, main, subject }
  else do
    let (subject, main) ← render factory factory.msg.rfc724Mid date now
    pure { pre := none, main, subject }

def envelope (recipients : List Text) (encrypted : Bool) (db : Db) : List Text :=
  if db.config.bccSelf then
    recipients ++ (if encrypted then publishedSecondarySelfAddrs db else []) ++
      db.config.configuredAddr.toList
  else recipients

/-- The stock text for a provider that does not take mail in the clear. -/
def unencryptedEmailText (db : Db) : Text :=
  let domain := ((split '@' (db.config.configuredAddr.getD []))[1]?).getD []
  "⚠️ Your email provider ".toList ++ domain ++
    " requires end-to-end encryption which is not setup yet.".toList

def sorts : MessageState → Bool
  | .inFresh | .inNoticed | .inSeen | .outPending | .outFailed | .outDelivered => true
  | .undefined | .outDraft | .outMdnRcvd => false

def bottomTimestamp (chatId : ChatId) (msgId : MsgId) (db : Db) : Int :=
  ((db.msgs.filter fun msg => sorts msg.state && msg.chatId == chatId && msg.id ≤ msgId).map
    (·.timestamp)).max?.getD 0

def updateSent (msg : Message) (rendered : Rendered) (db : Db) : Db :=
  let timestamp := bottomTimestamp msg.chatId msg.id db
  { db with
    msgs := updateWhere (fun row => row.id == msg.id)
      (fun row => { row with
        timestamp
        preRfc724Mid := (rendered.pre.map (·.rfc724Mid)).getD row.preRfc724Mid
        subject := rendered.subject
        param := { msg.param with guaranteeE2ee := rendered.main.isEncrypted } })
      db.msgs }

def setSelfavatarTimestamp (chat : Chat) (now : Int) (db : Db) : Db :=
  { db with
    contacts := updateWhere (fun contact => contact.id == chat.contactId)
      (fun contact => { contact with selfavatarSent := now }) db.contacts }

def storeSentRecipients (msgId : MsgId) (addressing : Addressing) (db : Db) : Db :=
  let header (kind : RecipientKind) (list : List (Text × Text)) : List Recipient :=
    list.map fun (name, addr) => { kind, addr, name }
  Recipients.store msgId
    (header .to addressing.toHeader ++ header .cc addressing.ccHeader ++
      loadKind msgId .bcc db) db

def enqueue (msgId : MsgId) (rendered : Rendered) (recipients : List Text) (db : Db) : Db :=
  let row (mime : RenderedEmail) : SmtpRow :=
    { rfc724Mid := mime.rfc724Mid, recipients, mime, msgId }
  if recipients.isEmpty then db
  else { db with smtp := db.smtp ++ (rendered.pre.toList.map row ++ [row rendered.main]) }

/-- What follows a message that is rendered as its policy asks. -/
def queueRendered (factory : Factory) (rendered : Rendered) (now : Int) : DbAction Unit := do
  let recipients ← query (envelope factory.addressing.recipients rendered.main.isEncrypted)
  onlyIf factory.attachSelfavatar (exec (setSelfavatarTimestamp factory.chat now))
  exec (updateSent factory.msg rendered)
  exec (storeSentRecipients factory.msg.id factory.addressing)
  exec (recordUndelivered factory.msg.id
    ((factory.addressing.toHeader ++ factory.addressing.ccHeader).map (·.2)) recipients)
  exec (enqueue factory.msg.id rendered recipients)

def refuseCleartext (msg : Message) (failureMid : Text) : DbAction Unit := do
  let text ← query unencryptedEmailText
  exec (setMsgFailed msg text)
  exec (addInfoMsg msg.chatId .invalidUnencryptedMail failureMid text msg.timestamp
    msg.timestamp)
  fail ("e2e encryption unavailable Msg#".toList ++ (toString msg.id).toList ++ " - true".toList)

def skipSending (msg : Message) (db : Db) : Db :=
  { db with
    msgs := updateWhere (fun row => row.id == msg.id)
      (fun row => { row with
        param := { msg.param with guaranteeE2ee := true }
        state := if row.state = .outPending then .outDelivered else row.state
        error := if row.state = .outPending then [] else row.error })
      db.msgs }

def renderAndQueue (factory : Factory) (needsEncryption : Bool) (draws : Draws) (now : Int) :
    DbAction Unit := do
  let bccSelf ← query fun db => db.config.bccSelf
  if !bccSelf && factory.addressing.recipients.isEmpty then exec (skipSending factory.msg)
  else do
    let rendered ← onError (renderMessages factory draws now) (setMsgFailed factory.msg) id
    if needsEncryption && !rendered.main.isEncrypted then
      refuseCleartext factory.msg draws.failureMid
    else queueRendered factory rendered now

def createSendMsgJobs (msg : Message) (draws : Draws) (now : Int) : DbAction Unit := do
  let contacts ← query fun db => (db.chatById msg.chatId).toList.map (·.contactId)
  let msg ← prepareSend msg contacts
  exec (applyDefaultTimer msg.chatId msg.id contacts)
  let needsEncryption ← query fun db =>
    msg.param.guaranteeE2ee || (!msg.param.forcePlaintext && db.config.forceEncryption)
  let factory ← onError (fromMsg msg now) (setMsgFailed msg) id
  renderAndQueue factory needsEncryption draws now

def sendMsg (chatId : ChatId) (msg : Message) (draws : Draws) (now : Int) : DbAction Unit := do
  ensure (chatIdLastSpecial < chatId)
    ("chat_id cannot be a special chat: ".toList ++ displayChatId chatId)
  let chat ← loadChat chatId
  let reason ← query (whyCantSend chat false)
  match reason with
  | some reason =>
    fail ("Cannot send to ".toList ++ displayChatId chatId ++ ": ".toList ++ reason.text)
  | none => do
    let msg ← execReturning (prepareMsgRaw chat
      { msg with
        hidden := false
        state := .outPending
        timestamp := now
        param := { msg.param with guaranteeE2ee := false, forcePlaintext := false } }
      now)
    onError (createSendMsgJobs msg draws now) (fun _ db => db)
      ("Failed to create send jobs: ".toList ++ ·)

/-! ## Addressing -/

/-- One typed entry of `set_recipients`: its contact and the row it becomes. -/
def resolveRecipient (typed : RecipientKind × Text) : DbAction (List Recipient) :=
  if (trim typed.2).isEmpty then pure []
  else
    let (name, addr) := splitAddr (trim typed.2)
    match contactAddress addr with
    | .error e => fail e
    | .ok contactAddr => do
      let _ ← addOrLookup name contactAddr .outgoingCc
      pure [{ kind := typed.1, addr := addrNormalize addr, name }]

def typedEntries (recipients : RecipientSet) : List (RecipientKind × Text) :=
  recipients.toAddrs.map (RecipientKind.to, ·) ++ recipients.ccAddrs.map (RecipientKind.cc, ·) ++
    recipients.bccAddrs.map (RecipientKind.bcc, ·)

def setRecipients (msgId : MsgId) (recipients : RecipientSet) : DbAction Unit := do
  let rows ← collect resolveRecipient (typedEntries recipients)
  exec (Recipients.store msgId rows.flatten)

/-- The contact of the first `To` address, with a key if we hold one. -/
def resolvePrimary (primary : Text) : DbAction ContactId := do
  let found ← query (keyContactFor (addrNormalize (splitAddr (trim primary)).2))
  match found with
  | some contactId => pure contactId
  | none =>
    match contactAddress (splitAddr (trim primary)).2 with
    | .error e => fail e
    | .ok contactAddr => do
      let (contactId, _) ← addOrLookup (splitAddr (trim primary)).1 contactAddr .outgoingTo
      pure contactId

def bodyOf (mail : Composition) : Text × Option Text :=
  if mail.options.signatureInBody then splitSignature mail.text else (mail.text, none)

def newMessage (mail : Composition) (mid : Text) : Message :=
  let html := mail.html.bind fun html => if (trim html).isEmpty then none else some (trim html)
  { id := 0
    rfc724Mid := mid
    viewtype := if mail.attachment.isSome then .file else .text
    text := (bodyOf mail).1
    subject := if (trim mail.subject).isEmpty then [] else mail.subject
    param := { file := mail.attachment, sendHtml := html } }

def composeDraft (mail : Composition) (primary : Text) (draws : Draws) (now : Int) :
    DbAction (ChatId × Message) := do
  let contactId ← resolvePrimary primary
  let chatId ← createForContact contactId draws.noticeMid now
  let msg ← setDraft chatId (newMessage mail draws.mid) now
  ensure (msg.id != 0) "draft was not persisted".toList
  setRecipients msg.id mail.recipients
  exec (setImportance msg.id mail.importance)
  exec (setOptions msg.id mail.options (bodyOf mail).2)
  pure (chatId, msg)

def send (mail : Composition) (draws : Draws) (now : Int) : DbAction MsgId := do
  ensure (!mail.recipients.isEmpty) "a message needs a recipient".toList
  match mail.recipients.toAddrs with
  | [] => fail "a message needs at least one To: address".toList
  | primary :: _ => do
    check mail.recipients mail.options
    let (chatId, msg) ← composeDraft mail primary draws now
    sendMsg chatId msg draws now
    pure msg.id

end

end Eeemail.Sending
