import Eeemail.Chats

/-! # Rendering a message

`core/src/mimefactory.rs` for a message to a single chat: who is in the
envelope, which keys it is encrypted to, and every header that is written, in
the clear or inside the encrypted part; and `extra_recipients` of
`core/src/email/compose.rs`, the addressees the chat does not cover.  Bodies,
and the headers that only a group, a call or a recording has, are left out. -/

set_option autoImplicit false

namespace Eeemail.MimeFactory

open Lib.Texts Lib.Actions Lib.Tables Addr Store Contacts Gating Chats

/-! ## Addressees beyond the chat -/

structure ExtraRecipient where
  name : Text
  addr : Text
  key : Option PublicKey
  deriving DecidableEq, Repr

structure ExtraRecipients where
  cc : List ExtraRecipient
  bcc : List ExtraRecipient
  deriving DecidableEq, Repr

def ExtraRecipients.all (extra : ExtraRecipients) : List ExtraRecipient := extra.cc ++ extra.bcc

section

variable [Unicode]

/-- The stored recipients that `extra_recipients` keeps, normalized: no `To`,
nobody who is covered already, nobody twice. -/
def pickExtra (already seen : List Text) : List Recipient → List Recipient
  | [] => []
  | recipient :: rest =>
    let addr := addrNormalize recipient.addr
    if recipient.kind = .to ∨ already.contains addr ∨ seen.contains addr then
      pickExtra already seen rest
    else { recipient with addr } :: pickExtra already (addr :: seen) rest

def extraRecipients (msgId : MsgId) (already : List Text) (db : Db) : ExtraRecipients :=
  let picked := pickExtra (already.map addrNormalize) [] (Recipients.load msgId db)
  let entry (recipient : Recipient) : ExtraRecipient :=
    { name := recipient.name, addr := recipient.addr, key := lookupKey recipient.addr db }
  { cc := (picked.filter fun recipient => recipient.kind == .cc).map entry
    bcc := (picked.filter fun recipient => recipient.kind == .bcc).map entry }

/-! ## Envelope and keys -/

def maxRelays : Nat := 5

def addressesFromPublicKey (key : PublicKey) : Option (List Text) :=
  key.relays.map fun value => ((split ',' value).filter mayBeValidAddr).take maxRelays

structure Member where
  contact : Contact
  key : Option PublicKey
  deriving DecidableEq, Repr

/-- Where mail for the member goes: the relays its key names, else its address. -/
def Member.relays (member : Member) : List Text :=
  (member.key.bind addressesFromPublicKey).getD [member.contact.addr]

def loadMember (chat : Chat) : DbAction (Option Member) :=
  queryExcept fun db =>
    if chat.contactId ≤ ContactId.lastSpecial then .ok none
    else
      match db.contactById chat.contactId with
      | some contact => .ok (some { contact, key := db.publicKeyFor contact.fingerprint })
      | none => .error "Invalid column type Null at index: 0, name: authname".toList

structure Addressing where
  recipients : List Text
  encryption : Encryption
  toHeader : List (Text × Text)
  ccHeader : List (Text × Text) := []
  importance : Importance := .normal
  deriving DecidableEq, Repr

def selfAddressing (displayname fromAddr : Text) : Addressing :=
  { recipients := [], encryption := .asymmetric [], toHeader := [(displayname, fromAddr)] }

def memberKeys (member : Option Member) : List (Text × PublicKey) :=
  member.toList.filterMap fun member => member.key.map fun key => (member.contact.addr, key)

def extraKeys (extra : List ExtraRecipient) : List (Text × PublicKey) :=
  extra.filterMap fun entry => entry.key.map fun key => (entry.addr, key)

def missingKeyAddresses (member : Option Member) (extra : List ExtraRecipient) : List Text :=
  (member.toList.filter fun member => member.key.isNone).map (·.contact.addr) ++
    (extra.filter fun entry => entry.key.isNone).map (·.addr)

/-- What `from_msg` makes of the member and the extra addressees. -/
def addressTo (encrypted : Bool) (member : Option Member) (extra : ExtraRecipients)
    (importance : Importance) : Except Text Addressing :=
  let recipients := member.toList.flatMap Member.relays ++ extra.all.map (·.addr)
  let keys := memberKeys member ++ extraKeys extra.all
  let missing := missingKeyAddresses member extra.all
  let toHeader := member.toList.map fun member => (member.contact.authname, member.contact.addr)
  let ccHeader := extra.cc.map fun entry => (entry.name, entry.addr)
  if !encrypted then
    .ok { recipients, encryption := .no, toHeader, ccHeader, importance }
  else if keys.isEmpty && !recipients.isEmpty then
    .error ("No recipient keys are available, cannot encrypt to ".toList ++
      debugList recipients ++ ".".toList)
  else
    .ok
      { recipients := recipients.filter fun addr => !missing.contains addr
        encryption := .asymmetric keys
        toHeader
        ccHeader
        importance }

def encrypts (msg : Message) (chat : Chat) (db : Db) : Bool :=
  !msg.param.forcePlaintext && (msg.param.guaranteeE2ee || isEncrypted chat db)

def memberAddressing (msg : Message) (chat : Chat) : DbAction Addressing := do
  let encrypted ← query (encrypts msg chat)
  let member ← loadMember chat
  scaleupOrigin (member.toList.map (·.contact.id)) .outgoingTo
  let extra ← query (extraRecipients msg.id (member.toList.flatMap Member.relays))
  let importance ← query (Recipients.importanceOf msg.id)
  queryExcept fun _ => addressTo encrypted member extra importance

/-- Whom the message is for: nobody but ourselves, or the member and all others. -/
def addressingOf (msg : Message) (chat : Chat) (displayname fromAddr : Text) :
    DbAction Addressing :=
  if isSelfTalk chat then pure (selfAddressing displayname fromAddr)
  else memberAddressing msg chat

/-! ## The factory -/

inductive PreMessageMode where
  | none
  | post
  | pre (postMsgRfc724Mid : Text)
  deriving DecidableEq, Repr

structure Factory where
  fromAddr : Text
  fromDisplayname : Text
  addressing : Addressing
  msg : Message
  chat : Chat
  inReplyTo : Text
  references : List Text
  reqMdn : Bool
  attachSelfavatar : Bool
  preMessageMode : PreMessageMode := .none
  deriving DecidableEq, Repr

def Factory.willBeEncrypted (factory : Factory) : Bool := factory.addressing.encryption != .no

def shouldRequestMdns (db : Db) : Bool := db.config.mdnsEnabled.getD !db.config.bot

def isSystemMessage (msg : Message) : Bool := msg.param.cmd != .unknown

/-- `DC_RESEND_USER_AVATAR_DAYS`, in seconds. -/
def resendUserAvatarSeconds : Int := 14 * 24 * 60 * 60

def shallAttachSelfavatar (chat : Chat) (now : Int) (db : Db) : Bool :=
  chat.contactId != ContactId.self &&
    (db.contactById chat.contactId).any fun contact =>
      contact.selfavatarSent < now - resendUserAvatarSeconds

def splitAsciiWhitespace (s : Text) : List Text :=
  (split ' ' (s.map fun c => if " \t\n\x0c\r".toList.contains c then ' ' else c)).filter
    (!·.isEmpty)

def parseReferences (references : Text) : List Text :=
  (splitAsciiWhitespace (trim references)).map
    fun id => trimEndBy (· == '>') (trimStartBy (· == '<') id)

def fromMsg (msg : Message) (now : Int) : DbAction Factory := do
  let chat ← loadChat msg.chatId
  let fromAddr ← primarySelfAddr
  let fromDisplayname ← query fun db => db.config.displayname.getD []
  let requests ← query shouldRequestMdns
  let addressing ← addressingOf msg chat fromDisplayname fromAddr
  let row ← querySome (fun db => db.msgById msg.id) "Query returned no rows".toList
  let attach ← query (shallAttachSelfavatar chat now)
  pure
    { fromAddr
      fromDisplayname
      addressing
      msg
      chat
      inReplyTo := row.mimeInReplyTo
      references := parseReferences row.mimeReferences
      reqMdn := !isSelfTalk chat && !isSystemMessage msg && requests
      attachSelfavatar := attach && addressing.encryption != .no }

/-! ## Headers -/

def removeSubjectPrefix (lastSubject : Text) : Text :=
  let start :=
    if startsWith "Chat:".toList lastSubject || !(lastSubject.take 5).contains ':' then 0
    else ((lastSubject.take 5).takeWhile (· != ':')).length + 1
  trim (lastSubject.drop start)

def subjectStr (factory : Factory) (db : Db) : Text :=
  if !factory.msg.subject.isEmpty then factory.msg.subject
  else
    match factory.chat.lastSubject with
    | some lastSubject => "Re: ".toList ++ removeSubjectPrefix lastSubject
    | none =>
      "Message from ".toList ++ (db.config.displayname.getD (db.config.addr.getD []))

def headerIf (condition : Bool) (name : HeaderName) (value : HeaderValue) : List Header :=
  if condition then [(name, value)] else []

def namedAddress (name addr : Text) : Text × Text := (if name == addr then [] else name, addr)

def importanceHeaders : Importance → List Header
  | .normal => []
  | .high => [(.importance, .text "high".toList), (.xPriority, .text "1 (Highest)".toList)]
  | .low => [(.importance, .text "low".toList), (.xPriority, .text "5 (Lowest)".toList)]

def preMessageHeaders : PreMessageMode → List Header
  | .none => []
  | .post => [(.chatIsPostMessage, .text "1".toList)]
  | .pre postMid => [(.chatPostMessageId, .messageIds [postMid])]

def renderHeaders (factory : Factory) (subject : Text) (db : Db) : List Header :=
  let addressing := factory.addressing
  let timer := ephemeralTimer factory.chat.id db
  [(.date, .date factory.msg.timestamp),
    (.to, if addressing.toHeader.isEmpty then .hiddenRecipients
      else .addresses addressing.toHeader)] ++
  headerIf (!addressing.ccHeader.isEmpty) .cc
    (.addresses (addressing.ccHeader.map fun (name, addr) => namedAddress name addr)) ++
  importanceHeaders addressing.importance ++
  [(.subject, .text subject)] ++
  headerIf (!factory.inReplyTo.isEmpty) .inReplyTo (.messageIds [factory.inReplyTo]) ++
  headerIf (!factory.references.isEmpty) .references (.messageIds factory.references) ++
  headerIf db.config.bot .autoSubmitted (.text "auto-generated".toList) ++
  [(.chatVersion, .text "1.0".toList)] ++
  headerIf factory.reqMdn .chatDispositionNotificationTo (.text factory.fromAddr) ++
  preMessageHeaders factory.preMessageMode ++
  headerIf (timer != 0) .ephemeralTimer (.seconds timer)

def showsVerified (chat : Chat) (db : Db) : Bool :=
  (db.chatById chat.id).any (·.isProtected) &&
    !(ContactId.lastSpecial < chat.contactId &&
      (db.contactById chat.contactId).any fun contact => contact.verifier == 0)

def avatarIsAttached (factory : Factory) : Bool :=
  factory.attachSelfavatar && factory.preMessageMode != .post

def metadataHeaders (factory : Factory) : List Header :=
  match factory.preMessageMode, factory.msg.param.file with
  | .pre _, some file => [(.chatPostMessageMetadata, .attachment file)]
  | _, _ => []

def messageHeaders (factory : Factory) (db : Db) : List Header :=
  headerIf (showsVerified factory.chat db) .chatVerified (.text "1".toList) ++
  metadataHeaders factory ++
  headerIf (avatarIsAttached factory) .chatUserAvatar
    (.text (match db.config.selfavatar with
      | some avatar => "base64:".toList ++ avatar
      | none => "0".toList))

def gossipIsDue (chatId : ChatId) (key : PublicKey) (now : Int) (db : Db) : Bool :=
  db.config.gossipPeriod == 0 ||
    match db.gossipTimestamps.find? fun row =>
        row.chatId == chatId && row.fingerprint == key.fingerprint with
    | none => true
    | some row => row.timestamp + db.config.gossipPeriod ≤ now || now < row.timestamp

def gossipKey (chatId : ChatId) (now : Int) (key : Text × PublicKey) : DbAction (List Header) := do
  let due ← query (gossipIsDue chatId key.2 now)
  if due then do
    exec fun db =>
      { db with
        gossipTimestamps := upsert (fun row => (row.chatId, row.fingerprint))
          { chatId, fingerprint := key.2.fingerprint, timestamp := now } db.gossipTimestamps }
    pure [(.autocryptGossip, .autocrypt (lowercase key.1) false key.2)]
  else pure []

/-- The gossip headers: every key the message is encrypted to, if there are
several or a copy goes to ourselves. -/
def gossipHeaders (factory : Factory) (now : Int) : DbAction (List Header) :=
  match factory.addressing.encryption with
  | .no => pure []
  | .asymmetric keys => do
    let bccSelf ← query fun db => db.config.bccSelf
    if factory.preMessageMode ≠ .post ∧ (1 < keys.length ∨ bccSelf = true) then do
      let headers ← collect (gossipKey factory.chat.id now) keys
      pure headers.flatten
    else pure []

/-- A header that stays readable outside the encrypted part, as it shows there. -/
def unprotected : Header → Option Header
  | (.chatVersion, value) => some (.chatVersion, value)
  | (.chatIsPostMessage, value) => some (.chatIsPostMessage, value)
  | (.subject, _) => some (.subject, .text "[...]".toList)
  | (.to, _) => some (.to, .hiddenRecipients)
  | _ => none

/-- `render_queued_mail`.  `outerDate` is the randomized date in the clear. -/
def renderQueuedMail (mid fromAddr displayName : Text) (headers : List Header)
    (encryption : Encryption) (selfKey : PublicKey) (outerDate : Int) : RenderedEmail :=
  let named : HeaderValue := .addresses [namedAddress displayName fromAddr]
  let bare : HeaderValue := .addresses [([], fromAddr)]
  let autocrypt : Header := (.autocrypt, .autocrypt (lowercase fromAddr) true selfKey)
  let shown := headers.filterMap unprotected
  match encryption with
  | .no =>
    { rfc724Mid := mid
      outerHeaders :=
        [(.fromHeader, named), (.messageId, .messageIds [mid]),
          (.mimeVersion, .text "1.0".toList), autocrypt] ++ headers
      innerHeaders := []
      encryption }
  | .asymmetric _ =>
    { rfc724Mid := mid
      outerHeaders :=
        [(.fromHeader, bare), (.date, .date outerDate), (.messageId, .messageIds [mid]),
          (.mimeVersion, .text "1.0".toList)] ++ shown
      innerHeaders :=
        [(.fromHeader, named), (.hpOuter .fromHeader, bare),
          (.hpOuter .date, .date outerDate), (.messageId, .messageIds [mid]),
          (.hpOuter .messageId, .messageIds [mid]), autocrypt] ++
        shown.map (fun (name, value) => (.hpOuter name, value)) ++ headers
      encryption }

/-- `into_queued_mail` and `render_queued_mail`, and the subject that was used. -/
def render (factory : Factory) (mid : Text) (outerDate now : Int) :
    DbAction (Text × RenderedEmail) := do
  let subject ← query (subjectStr factory)
  let headers ← query fun db => renderHeaders factory subject db ++ messageHeaders factory db
  let gossip ← gossipHeaders factory now
  let selfKey ← query fun db => db.config.selfKey
  pure (subject, renderQueuedMail mid factory.fromAddr factory.fromDisplayname (headers ++ gossip)
    factory.addressing.encryption selfKey outerDate)

end

end Eeemail.MimeFactory
