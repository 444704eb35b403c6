import Eeemail.Chats

/-! # Getting acquainted

What the user does to contacts on purpose: creating, blocking and unblocking
them (`core/src/contact.rs`) and accepting a chat with one or with many of them
(`core/src/chat.rs`); and what the steps of SecureJoin
(`core/src/securejoin.rs`, `core/src/securejoin/bob.rs`) do to the contact once
the handshake message was checked.  The handshake messages themselves, and
invitations to groups, are not modelled. -/

set_option autoImplicit false

namespace Eeemail.Acquaintance

open Lib.Texts Lib.Actions Lib.Tables Addr Store Contacts Gating Chats

def markNoticed (id : ContactId) (db : Db) : Db :=
  { db with
    msgs := updateWhere (fun msg => msg.fromId == id && msg.state == .inFresh)
      (fun msg => { msg with state := .inNoticed }) db.msgs }

/-- The chat that `get_chat_id_by_grpid` finds is not blocked any more. -/
def unblockGroup (grpid : Text) (groups : List GroupChat) : List GroupChat :=
  match groups.find? fun chat => chat.grpid == grpid with
  | some found => updateWhere (fun chat => chat.id == found.id)
      (fun chat => { chat with blocked := .not }) groups
  | none => groups

/-- The writes of `contact::set_blocked`: the contact, its single chats, its messages, and
the mailing list that it stands for. -/
def writeBlocked (contact : Contact) (newBlocking : Bool) (db : Db) : Db :=
  markNoticed contact.id
    { db with
      contacts := updateWhere (fun row => row.id == contact.id)
        (fun row => { row with blocked := newBlocking }) db.contacts
      chats := updateWhere (fun chat => chat.contactId == contact.id)
        (fun chat => { chat with blocked := if newBlocking then .yes else .not }) db.chats
      groups :=
        if !newBlocking && contact.origin == .mailinglistAddress then
          unblockGroup contact.addr db.groups
        else db.groups }

def setBlocked (id : ContactId) (newBlocking : Bool) : DbAction Unit := do
  ensure (!isSpecial id) ("Can't block special contact ".toList ++ ContactId.display id)
  let contact ← getById id
  onlyIf (contact.blocked != newBlocking) (exec (writeBlocked contact newBlocking))

def block (id : ContactId) : DbAction Unit := setBlocked id true

def unblock (id : ContactId) : DbAction Unit := setBlocked id false

theorem setBlocked_eq_ok {id : ContactId} {newBlocking : Bool} {db db' : Db} {u : Unit}
    (success : (setBlocked id newBlocking).run db = .ok u db') :
    isSpecial id = false ∧ ∃ contact, db.contactById id = some contact ∧
      ((contact.blocked = newBlocking ∧ db' = db) ∨
        (contact.blocked ≠ newBlocking ∧ db' = writeBlocked contact newBlocking db)) := by
  unfold setBlocked at success
  obtain ⟨isReal, rest⟩ := ensure_bind_eq_ok.mp success
  obtain ⟨contact, found, rest⟩ := querySome_bind_eq_ok.mp rest
  refine ⟨by simpa using isReal, contact, found, ?_⟩
  unfold onlyIf at rest
  split at rest
  next differs =>
    cases rest
    exact Or.inr ⟨by simpa using differs, rfl⟩
  next same =>
    obtain ⟨_, rfl⟩ := pure_eq_ok.mp rest
    exact Or.inl ⟨by simpa using same, rfl⟩

theorem setBlocked_run {id : ContactId} {contact : Contact} {db : Db} (newBlocking : Bool)
    (real : ContactId.lastSpecial < id) (found : db.contactById id = some contact) :
    (setBlocked id newBlocking).run db =
      .ok () (if contact.blocked = newBlocking then db
        else writeBlocked contact newBlocking db) := by
  have notSpecial : isSpecial id = false := by
    rw [isSpecial, decide_eq_false_iff_not]
    exact Nat.not_le.mpr real
  unfold setBlocked
  refine bind_eq_ok.mpr ⟨(), db, (ensure_eq_ok _ _ _).mpr ⟨by rw [notSpecial]; rfl, rfl⟩, ?_⟩
  refine bind_eq_ok.mpr ⟨contact, db, (querySome_eq_ok _ _).mpr ⟨found, rfl⟩, ?_⟩
  by_cases same : contact.blocked = newBlocking
  · simp [onlyIf, same]
  · simp [onlyIf, same]

/-- What `(.*)<(.*)>` captures in a line. -/
def angleParts (line : Text) : Option (Text × Text) :=
  (rsplitOnce '>' line).bind fun (inside, _) => rsplitOnce '<' inside

section

variable [Unicode]

def sanitizeNameAndAddr (name addr : Text) : Text × Text :=
  let (name, addr) :=
    match (split '\n' addr).findSome? angleParts with
    | some (captured, bare) => (if name.isEmpty then captured else name, bare)
    | none => (name, addr)
  (if sanitizeName name = addr then [] else sanitizeName name, addr)

def create (name addr : Text) : DbAction ContactId :=
  match contactAddress (sanitizeNameAndAddr name addr).2 with
  | .error e => fail e
  | .ok contactAddr => do
    let (id, _) ← addOrLookup (sanitizeNameAndAddr name addr).1 contactAddr .manuallyCreated
    let contact ← querySome (fun db => db.contactById id) "Query returned no rows".toList
    onlyIf contact.blocked (setBlocked id false)
    pure id

def createAndRelease (name addr : Text) : DbAction Unit := do
  let id ← create name addr
  let _ ← release [id]
  pure ()

/-- `get_chat_contacts`: ourselves last, and the latest seen first. -/
def getChatContacts (chat : GroupChat) (db : Db) : List ContactId :=
  let lastSeen (id : ContactId) : Int := ((db.contactById id).map (·.lastSeen)).getD 0
  chat.members.insertionSort fun a b =>
    a ≠ ContactId.self ∧ (b = ContactId.self ∨ lastSeen b < lastSeen a ∨
      (lastSeen a = lastSeen b ∧ b ≤ a))

/-- Whom accepting a chat makes known, and as what. -/
def acceptedContacts (chatId : ChatId) (db : Db) : Option (List ContactId × Origin) :=
  match db.chatById chatId with
  | some chat => some ([chat.contactId], .createChat)
  | none => (db.groups.find? fun chat => chat.id == chatId).map fun chat =>
    match chat.typ with
    | .group => (getChatContacts chat db, .incomingTo)
    | .outBroadcast | .inBroadcast => (getChatContacts chat db, .createChat)
    | .mailinglist => ([], .createChat)

def accept (chatId : ChatId) : DbAction Unit := do
  let (contacts, origin) ← querySome (acceptedContacts chatId)
    ("Failed loading chat ".toList ++ displayChatId chatId ++ " from database".toList)
  forEach (fun id => onlyIf (id != ContactId.self) (scaleupOrigin [id] origin)) contacts
  ensure (chatIdLastSpecial < chatId)
    ("ignoring setting of Block-status for ".toList ++ displayChatId chatId)
  exec fun db =>
    { db with
      chats := updateWhere (fun chat => chat.id == chatId)
        (fun chat => { chat with blocked := .not }) db.chats
      groups := updateWhere (fun chat => chat.id == chatId)
        (fun chat => { chat with blocked := .not }) db.groups }

def insertGroup (chat : GroupChat) (db : Db) : Db :=
  { db with
    groups := db.groups ++ [{ chat with id := db.nextChatId }]
    nextChatId := db.nextChatId + 1 }

/-! ## SecureJoin -/

def markContactIdAsVerified (id : ContactId) : DbAction Unit := do
  ensure (id != ContactId.self) "Condition failed: `left_val != right_val`".toList
  let contact ← querySome (fun db => db.contactById id) "Query returned no rows".toList
  ensure contact.isKeyContact
    ("Non-key-contact ".toList ++ ContactId.display id ++ " cannot be verified".toList)
  exec fun db =>
    { db with
      contacts := updateWhere (fun contact => contact.id == id)
        (fun contact => { contact with verifier := ContactId.self }) db.contacts }
  bestEffort (release [id])

def hasFingerprint (fingerprint : Text) (contact : Contact) : Bool :=
  contact.isKeyContact && contact.fingerprint == fingerprint

def verifySenderByFingerprint (fingerprint : Text) (id : ContactId) : DbAction Bool := do
  match ← query fun db => db.contactById id with
  | none => pure false
  | some contact => do
    onlyIf (hasFingerprint fingerprint contact) (markContactIdAsVerified id)
    pure (hasFingerprint fingerprint contact)

/-- `bob::start_protocol` for a contact whose code was scanned. -/
def startProtocol (id : ContactId) (noticeMid : Text) (now : Int) : DbAction Unit := do
  let _ ← createForContact id noticeMid now
  scaleupOrigin [id] .securejoinJoined

/-- The inviter's side of `request-with-auth` for a setup of contacts; `recent`
says that the code in it is not too old to verify by. -/
def requestWithAuth (fingerprint : Text) (id : ContactId) (recent : Bool) (noticeMid : Text)
    (now : Int) : DbAction Unit := do
  let contact ← getById id
  if !hasFingerprint fingerprint contact then pure ()
  else do
    onlyIf recent (markContactIdAsVerified id)
    if contact.blocked then pure ()
    else do
      let _ ← createForContact id noticeMid now
      pure ()

end

section

local instance : Unicode := asciiTables

example : sanitizeNameAndAddr [] "Bob <bob@example.net>".toList =
    ("Bob".toList, "bob@example.net".toList) := by decide +kernel

end

end Eeemail.Acquaintance
