import Eeemail.Addr
import Eeemail.Lib.Actions
import Eeemail.Lib.Tables

/-! # The account database

The tables and settings that the modelled code reads or writes
(`core/src/sql/tables.sql`, `core/src/sql/migrations.rs`), one list of rows a
table, in rowid order.  A row has the columns some modelled function uses.
Timestamps are `Int`, as the `i64` of the source may be negative; row ids are
handed out by `AUTOINCREMENT` counters and never reused. -/

set_option autoImplicit false

namespace Eeemail.Store

open Lib.Texts Lib.Actions

abbrev ContactId := Nat
abbrev ChatId := Nat
abbrev MsgId := Nat
abbrev LabelId := Nat

/-! ## Fixed identifiers -/

namespace ContactId

def self : ContactId := 1
def info : ContactId := 2
def device : ContactId := 5
def lastSpecial : ContactId := 9

def display (id : ContactId) : Text :=
  if id = 0 then "Contact#Undefined".toList
  else if id = self then "Contact#Self".toList
  else if id = info then "Contact#Info".toList
  else if id = device then "Contact#Device".toList
  else if id ≤ lastSpecial then "Contact#Special".toList ++ (toString id).toList
  else "Contact#".toList ++ (toString id).toList

end ContactId

/-- `DC_CHAT_ID_TRASH`: the chat of tombstones. -/
def chatIdTrash : ChatId := 3

def chatIdLastSpecial : ChatId := 9

/-- How error texts name a chat; 6 is the link to the archive, 7 the hint below it. -/
def displayChatId (id : ChatId) : Text :=
  if id = chatIdTrash then "Chat#Trash".toList
  else if id = 6 then "Chat#ArchivedLink".toList
  else if id = 7 then "Chat#AlldoneHint".toList
  else if id ≤ chatIdLastSpecial then "Chat#Special".toList ++ (toString id).toList
  else "Chat#".toList ++ (toString id).toList

/-! ## Machine integers -/

def i64Max : Int := 2 ^ 63 - 1

def i64Min : Int := -2 ^ 63

def fitsI64 (value : Int) : Prop := i64Min ≤ value ∧ value ≤ i64Max

instance (value : Int) : Decidable (fitsI64 value) :=
  inferInstanceAs (Decidable (_ ∧ _))

def saturate (value : Int) : Int := max i64Min (min i64Max value)

theorem saturate_eq_self {value : Int} (fits : fitsI64 value) : saturate value = value := by
  obtain ⟨low, high⟩ := fits
  unfold saturate
  omega

def saturatingAdd (a b : Int) : Int := saturate (a + b)

def saturatingSub (a b : Int) : Int := saturate (a - b)

theorem saturatingSub_mono {a b : Int} (le : a ≤ b) (c : Int) :
    saturatingSub a c ≤ saturatingSub b c := by
  unfold saturatingSub saturate
  omega

def saturatingMul (a b : Int) : Int := saturate (a * b)

/-- A setting read with `get_config_int`: what does not parse as an `i32` reads as 0. -/
def configInt (stored : Int) : Int := if -2 ^ 31 ≤ stored ∧ stored < 2 ^ 31 then stored else 0

/-! ## Contacts and keys -/

inductive Origin where
  | unknown
  | mailinglistAddress
  | hidden
  | incomingUnknownFrom
  | incomingUnknownCc
  | incomingUnknownTo
  | unhandledQrScan
  | unhandledSecurejoinQrScan
  | incomingReplyTo
  | incomingCc
  | incomingTo
  | createChat
  | outgoingBcc
  | outgoingCc
  | outgoingTo
  | internal
  | addressBook
  | securejoinInvited
  | securejoinJoined
  | manuallyCreated
  deriving DecidableEq, Repr

namespace Origin

def value : Origin → Nat
  | unknown => 0
  | mailinglistAddress => 0x2
  | hidden => 0x8
  | incomingUnknownFrom => 0x10
  | incomingUnknownCc => 0x20
  | incomingUnknownTo => 0x40
  | unhandledQrScan => 0x80
  | unhandledSecurejoinQrScan => 0x81
  | incomingReplyTo => 0x100
  | incomingCc => 0x200
  | incomingTo => 0x400
  | createChat => 0x800
  | outgoingBcc => 0x1000
  | outgoingCc => 0x2000
  | outgoingTo => 0x4000
  | internal => 0x40000
  | addressBook => 0x80000
  | securejoinInvited => 0x1000000
  | securejoinJoined => 0x2000000
  | manuallyCreated => 0x4000000

def isKnown (origin : Origin) : Bool := incomingReplyTo.value ≤ origin.value

end Origin

/-- A row of `contacts`.  An empty fingerprint makes it an address-contact, any
other a key-contact. -/
structure Contact where
  id : ContactId
  name : Text := []
  addr : Text := []
  origin : Origin := .unknown
  authname : Text := []
  blocked : Bool := false
  lastSeen : Int := 0
  selfavatarSent : Int := 0
  fingerprint : Text := []
  verifier : ContactId := 0
  deriving DecidableEq, Repr

def Contact.isKeyContact (contact : Contact) : Bool := !contact.fingerprint.isEmpty

/-- A row of `public_keys`: the key by its fingerprint, and the value of the
`relays@chatmail.at` notation of its direct key signature. -/
structure PublicKey where
  fingerprint : Text
  relays : Option Text := none
  fingerprint_ne_nil : fingerprint ≠ []
  deriving DecidableEq, Repr

structure ContactPolicy where
  contactId : ContactId
  encryptionMode : Option Int := none
  ephemeralSecs : Option Int := none
  deriving DecidableEq, Repr

/-! ## Chats and messages -/

inductive Blocked where
  | not
  | yes
  | request
  deriving DecidableEq, Repr

/-- The types of chats other than `Single`. -/
inductive Chattype where
  | group
  | mailinglist
  | outBroadcast
  | inBroadcast
  deriving DecidableEq, Repr

/-- A chat of one of these types with its members. -/
structure GroupChat where
  id : ChatId
  typ : Chattype
  grpid : Text := []
  name : Text := []
  blocked : Blocked := .not
  members : List ContactId := []
  deriving DecidableEq, Repr

/-- A chat of type `Single` with its one member. -/
structure Chat where
  id : ChatId
  contactId : ContactId
  blocked : Blocked := .not
  ephemeralTimer : Nat := 0
  isProtected : Bool := false
  lastSubject : Option Text := none
  deriving DecidableEq, Repr

inductive MessageState where
  | undefined
  | inFresh
  | inNoticed
  | inSeen
  | outDraft
  | outPending
  | outFailed
  | outDelivered
  | outMdnRcvd
  deriving DecidableEq, Repr

inductive Viewtype where
  | unknown
  | text
  | file
  deriving DecidableEq, Repr

/-- The values of `SystemMessage` that the modelled code writes or tests. -/
inductive SystemMessage where
  | unknown
  | chatE2ee
  | invalidUnencryptedMail
  | ephemeralTimerChanged
  deriving DecidableEq, Repr

structure Attachment where
  name : Text
  bytes : Nat
  deriving DecidableEq, Repr

structure Param where
  cmd : SystemMessage := .unknown
  guaranteeE2ee : Bool := false
  forcePlaintext : Bool := false
  bot : Bool := false
  file : Option Attachment := none
  sendHtml : Option Text := none
  deriving DecidableEq, Repr

structure Message where
  id : MsgId
  rfc724Mid : Text := []
  preRfc724Mid : Text := []
  chatId : ChatId := 0
  fromId : ContactId := 0
  toId : ContactId := 0
  timestamp : Int := 0
  timestampSent : Int := 0
  timestampRcvd : Int := 0
  viewtype : Viewtype := .unknown
  state : MessageState := .undefined
  hidden : Bool := false
  text : Text := []
  subject : Text := []
  param : Param := {}
  error : Text := []
  mimeInReplyTo : Text := []
  mimeReferences : Text := []
  downloadDone : Bool := true
  ephemeralTimer : Nat := 0
  ephemeralTimestamp : Int := 0
  deleted : Bool := false
  deriving DecidableEq, Repr

/-- Neither gone nor a tombstone: `chat_id != DC_CHAT_ID_TRASH`. -/
def Message.isLive (msg : Message) : Bool := msg.chatId != chatIdTrash

/-! ## Labels, trash and hold -/

structure Label where
  id : LabelId
  name : Text
  nameNorm : Text
  color : Option Nat := none
  system : Bool := false
  created : Int := 0
  deriving DecidableEq, Repr

structure MsgLabel where
  msgId : MsgId
  labelId : LabelId
  deriving DecidableEq, Repr

structure PendingMsgLabel where
  rfc724Mid : Text
  labelId : LabelId
  apply : Bool
  timestamp : Int
  deriving DecidableEq, Repr

inductive Reason where
  | deleted
  | expired
  | unaccepted
  | blocked
  deriving DecidableEq, Repr

structure TrashedMsg where
  msgId : MsgId
  trashedAt : Int
  purgeAt : Int
  reason : Reason
  deriving DecidableEq, Repr

structure HeldMsg where
  msgId : MsgId
  heldAt : Int
  deriving DecidableEq, Repr

structure BlocklistEntry where
  id : Nat
  pattern : Text
  patternNorm : Text
  added : Int
  reason : Text := []
  deriving DecidableEq, Repr

inductive StructuredSource where
  | alternative
  | related
  | mixed
  | htmlScript
  deriving DecidableEq, Repr

structure StructuredRow where
  msgId : MsgId
  seq : Nat
  json : Text
  trusted : Bool
  source : StructuredSource
  deriving DecidableEq, Repr

inductive LabelSyncItem where
  | create (name : Text) (color : Option Nat)
  | rename (source : Text) (target : Text)
  | delete (name : Text)
  | setColor (name : Text) (color : Option Nat)
  | apply (msgs : List Text) (label : Text)
  | unapply (msgs : List Text) (label : Text)
  deriving DecidableEq, Repr

/-! ## Addressees and mail on its way out -/

inductive RecipientKind where
  | to
  | cc
  | bcc
  deriving DecidableEq, Repr

structure Recipient where
  kind : RecipientKind
  addr : Text
  name : Text
  deriving DecidableEq, Repr

structure MsgRecipient where
  msgId : MsgId
  kind : RecipientKind
  addr : Text
  name : Text
  ord : Nat
  deriving DecidableEq, Repr

structure MsgUndelivered where
  msgId : MsgId
  addr : Text
  deriving DecidableEq, Repr

/-- `email::sendopts::EncryptionChoice`, the composer's padlock. -/
inductive EncryptionChoice where
  | auto
  | required
  | plaintext
  deriving DecidableEq, Repr

structure MsgSendOptions where
  msgId : MsgId
  encryption : EncryptionChoice
  signatureInBody : Bool
  signature : Option Text
  deriving DecidableEq, Repr

inductive Importance where
  | low
  | normal
  | high
  deriving DecidableEq, Repr

structure MsgImportance where
  msgId : MsgId
  importance : Importance
  deriving DecidableEq, Repr

structure GossipTimestamp where
  chatId : ChatId
  fingerprint : Text
  timestamp : Int
  deriving DecidableEq, Repr

/-- The headers a composed message can carry.  `hpOuter` names a header that
was left unprotected. -/
inductive HeaderName where
  | fromHeader
  | date
  | to
  | cc
  | importance
  | xPriority
  | subject
  | inReplyTo
  | references
  | autoSubmitted
  | chatVersion
  | chatDispositionNotificationTo
  | chatIsPostMessage
  | chatPostMessageId
  | chatPostMessageMetadata
  | ephemeralTimer
  | chatVerified
  | chatUserAvatar
  | autocryptGossip
  | autocrypt
  | messageId
  | mimeVersion
  | hpOuter (name : HeaderName)
  deriving DecidableEq, Repr

/-- What a header says, before it is folded and encoded for the wire. -/
inductive HeaderValue where
  | text (value : Text)
  | date (timestamp : Int)
  | addresses (list : List (Text × Text))
  | hiddenRecipients
  | messageIds (ids : List Text)
  | attachment (metadata : Attachment)
  | seconds (duration : Nat)
  | autocrypt (addr : Text) (preferMutual : Bool) (key : PublicKey)
  deriving DecidableEq, Repr

abbrev Header := HeaderName × HeaderValue

/-- `mimefactory::Encryption`; a composed message is never encrypted symmetrically. -/
inductive Encryption where
  | no
  | asymmetric (encryptionPubkeys : List (Text × PublicKey))
  deriving DecidableEq, Repr

/-- `mimefactory::RenderedEmail`: the headers in the clear, the headers in the
encrypted part, and the keys it is encrypted to. -/
structure RenderedEmail where
  rfc724Mid : Text
  outerHeaders : List Header
  innerHeaders : List Header
  encryption : Encryption
  deriving DecidableEq, Repr

def RenderedEmail.isEncrypted (email : RenderedEmail) : Bool := email.encryption != .no

structure SmtpRow where
  rfc724Mid : Text
  recipients : List Text
  mime : RenderedEmail
  msgId : MsgId
  deriving DecidableEq, Repr

/-! ## Settings and the database -/

structure Transport where
  addr : Text
  isPublished : Bool := true
  deriving DecidableEq, Repr

theorem self_ne_nil : "SELF".toList ≠ [] := by decide

/-- The settings the modelled code reads.  `transports` is newest first. -/
structure Config where
  addr : Option Text := none
  configuredAddr : Option Text := none
  transports : List Transport := []
  /-- The account's own key. -/
  selfKey : PublicKey := { fingerprint := "SELF".toList, fingerprint_ne_nil := self_ne_nil }
  displayname : Option Text := none
  selfavatar : Option Text := none
  bot : Bool := false
  mdnsEnabled : Option Bool := none
  bccSelf : Bool := false
  syncMsgs : Bool := true
  gossipPeriod : Int := 2 * 24 * 60 * 60
  forceEncryption : Bool := true
  encryptionMode : Int := 1
  ephemeralDefaultSeconds : Int := 0
  trashPurgeDays : Int := 0
  unverifiedTrashDays : Int := 0
  inboxGating : Bool := false
  deleteDeviceAfter : Int := 0
  deriving DecidableEq, Repr

structure Db where
  config : Config := {}
  contacts : List Contact := []
  nextContactId : ContactId := 10
  publicKeys : List PublicKey := []
  contactPolicy : List ContactPolicy := []
  chats : List Chat := []
  groups : List GroupChat := []
  nextChatId : ChatId := 10
  msgs : List Message := []
  nextMsgId : MsgId := 10
  labels : List Label := []
  nextLabelId : LabelId := 1
  msgLabels : List MsgLabel := []
  pendingMsgLabels : List PendingMsgLabel := []
  trashedMsgs : List TrashedMsg := []
  heldMsgs : List HeldMsg := []
  blocklist : List BlocklistEntry := []
  nextBlocklistId : Nat := 1
  structuredData : List StructuredRow := []
  syncItems : List LabelSyncItem := []
  msgRecipients : List MsgRecipient := []
  msgUndelivered : List MsgUndelivered := []
  msgSendOptions : List MsgSendOptions := []
  msgImportance : List MsgImportance := []
  gossipTimestamps : List GossipTimestamp := []
  smtp : List SmtpRow := []
  deriving DecidableEq, Repr

namespace Db

def contactById (db : Db) (id : ContactId) : Option Contact :=
  db.contacts.find? (fun contact => contact.id == id)

def chatById (db : Db) (id : ChatId) : Option Chat :=
  db.chats.find? (fun chat => chat.id == id)

def msgById (db : Db) (id : MsgId) : Option Message :=
  db.msgs.find? (fun msg => msg.id == id)

def publicKeyFor (db : Db) (fingerprint : Text) : Option PublicKey :=
  db.publicKeys.find? (fun key => key.fingerprint == fingerprint)

end Db

abbrev DbAction (α : Type) := Action Text Db α

end Eeemail.Store
