import Eeemail.Contacts
import Eeemail.Recipients

/-! # The encryption policy and the composer's padlock

`core/src/email/policy.rs`: the global encryption mode, the overrides of single
contacts and what they make of a message about to be sent.
`core/src/email/sendopts.rs`: what the composer's padlock says about one
message, and which choices the policy refuses. -/

set_option autoImplicit false

namespace Eeemail.Policy

open Lib.Texts Lib.Actions Lib.Tables Addr Store Contacts Recipients

/-! ## Modes -/

inductive EncryptionMode where
  | strict
  | opportunistic
  | lenient
  deriving DecidableEq, Repr

namespace EncryptionMode

def value : EncryptionMode → Nat
  | strict => 0
  | opportunistic => 1
  | lenient => 2

/-- `Ord::min`. -/
def stricter (a b : EncryptionMode) : EncryptionMode := if b.value < a.value then b else a

def fromI64 (value : Int) : EncryptionMode :=
  if value = 0 then strict else if value = 2 then lenient else opportunistic

def load (db : Db) : EncryptionMode :=
  if db.config.forceEncryption then strict
  else
    match fromI64 (configInt db.config.encryptionMode) with
    | strict => opportunistic
    | opportunistic => opportunistic
    | lenient => lenient

def forContact (id : ContactId) (db : Db) : Option EncryptionMode :=
  ((db.contactPolicy.find? fun row => row.contactId == id).bind (·.encryptionMode)).map fromI64

def tighten (db : Db) (mode : EncryptionMode) (id : ContactId) : EncryptionMode :=
  match forContact id db with
  | some overrideMode => mode.stricter overrideMode
  | none => mode

def effective (contacts : List ContactId) (db : Db) : EncryptionMode :=
  contacts.foldl (tighten db) (load db)

variable {db : Db} {mode : EncryptionMode} {contacts : List ContactId}

theorem tighten_eq_strict_iff {id : ContactId} :
    tighten db mode id = strict ↔ mode = strict ∨ forContact id db = some strict := by
  unfold tighten
  cases forContact id db with
  | none => simp
  | some overrideMode => cases mode <;> cases overrideMode <;> simp [stricter, value]

theorem foldl_tighten_eq_strict_iff :
    contacts.foldl (tighten db) mode = strict ↔
      mode = strict ∨ ∃ id ∈ contacts, forContact id db = some strict := by
  induction contacts generalizing mode with
  | nil => simp
  | cons id rest ih =>
    rw [List.foldl_cons, ih, tighten_eq_strict_iff, List.exists_mem_cons_iff, or_assoc]

theorem effective_eq_strict_iff :
    effective contacts db = strict ↔
      load db = strict ∨ ∃ id ∈ contacts, forContact id db = some strict :=
  foldl_tighten_eq_strict_iff

end EncryptionMode

def missingKeys (contacts : List ContactId) (db : Db) : List Text :=
  contacts.filterMap fun id =>
    if id = ContactId.self then none
    else
      match db.contactById id with
      | some contact => if contact.isKeyContact then none else some contact.addr
      | none => none

/-! ## The padlock -/

structure SendOptions where
  encryption : EncryptionChoice := .auto
  signatureInBody : Bool := false
  deriving DecidableEq, Repr

/-- `sendopts::set`: the default is stored as no row. -/
def setOptions (msgId : MsgId) (options : SendOptions) (signature : Option Text) (db : Db) : Db :=
  if options = {} then
    { db with msgSendOptions := deleteWhere (fun row => row.msgId == msgId) db.msgSendOptions }
  else
    { db with
      msgSendOptions := upsert (·.msgId)
        { msgId, encryption := options.encryption, signatureInBody := options.signatureInBody,
          signature := if options.signatureInBody then signature else none }
        db.msgSendOptions }

def loadOptions (msgId : MsgId) (db : Db) : SendOptions :=
  match db.msgSendOptions.find? fun row => row.msgId == msgId with
  | some row => { encryption := row.encryption, signatureInBody := row.signatureInBody }
  | none => {}

section

variable [Unicode]

def splitSignature (text : Text) : Text × Option Text :=
  let lines := split '\n' text
  let isSeparator := fun line => trimEnd line == "--".toList
  if lines.any isSeparator then
    -- `rposition`: what follows the last separator, and what precedes it.
    let below := (lines.reverse.takeWhile fun line => !isSeparator line).reverse
    let above := lines.take (lines.length - below.length - 1)
    let signature := trimEnd (join ['\n'] below)
    (trimEnd (join ['\n'] above), if (trim signature).isEmpty then none else some signature)
  else (text, none)

structure Readiness where
  mode : EncryptionMode
  missing : List Text
  locked : Bool
  deriving DecidableEq, Repr

def typedAddrs (recipients : RecipientSet) : List Text :=
  ((recipients.toAddrs ++ recipients.ccAddrs ++ recipients.bccAddrs).map trim).filter (!·.isEmpty)

def readiness (recipients : RecipientSet) (db : Db) : Readiness :=
  let typed := typedAddrs recipients
  let ids := typed.flatMap fun addr => contactsFor (addrNormalize (splitAddr addr).2) db
  let mode := EncryptionMode.effective ids db
  { mode
    missing := typed.filter fun addr => (keyContactFor (addrNormalize (splitAddr addr).2) db).isNone
    locked := mode == .strict }

/-- Refuses options the policy does not allow for `recipients`. -/
def check (recipients : RecipientSet) (options : SendOptions) : DbAction Unit :=
  queryExcept fun db =>
    let ready := readiness recipients db
    match options.encryption with
    | .auto => .ok ()
    | .required =>
      if ready.missing.isEmpty then .ok ()
      else .error ("cannot send encrypted: no key for ".toList ++
        join ", ".toList ready.missing)
    | .plaintext =>
      if ready.locked then
        .error ("cannot send unencrypted: encryption is set to end-to-end only for " ++
          "this message's recipients").toList
      else .ok ()

/-- Applies the effective encryption mode to a message about to be sent. -/
def prepareSend (msg : Message) (contacts : List ContactId) : DbAction Message :=
  queryExcept fun db =>
    let mode := EncryptionMode.effective contacts db
    let encrypted := { msg with param := { msg.param with guaranteeE2ee := true } }
    let plain := { msg with param := { msg.param with forcePlaintext := true } }
    match (loadOptions msg.id db).encryption with
    | .plaintext =>
      if mode = .strict then
        .error "cannot send unencrypted: this conversation is set to end-to-end only".toList
      else .ok plain
    | .required => .ok encrypted
    | .auto =>
      match mode with
      | .strict =>
        if EncryptionMode.load db = .strict then .ok msg
        else if (missingKeys contacts db).isEmpty then .ok encrypted
        else .error ("cannot send: ".toList ++ debugList (missingKeys contacts db) ++
          " have no key, and this conversation is set to end-to-end only".toList)
      | .opportunistic => .ok msg
      | .lenient =>
        if msg.param.cmd = .unknown ∧ missingKeys contacts db ≠ [] then .ok plain
        else .ok msg

def recordUndelivered (msgId : MsgId) (addressed sentTo : List Text) (db : Db) : Db :=
  let dropped := addressed.filter fun addr => !(sentTo.map lowercase).contains (lowercase addr)
  { db with
    msgUndelivered := dropped.foldl
      (fun rows addr => insertOrIgnore (fun row => (row.msgId, row.addr)) { msgId, addr } rows)
      db.msgUndelivered }

end

end Eeemail.Policy
