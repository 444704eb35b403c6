import Eeemail.Store

/-! # Contacts

`core/src/contact.rs`, the own addresses of `core/src/config.rs`, and the two
ways `core/src/email/compose.rs` finds a key for an address. -/

set_option autoImplicit false

namespace Eeemail.Contacts

open Lib.Texts Lib.Actions Lib.Tables Addr Store

def isConfigured (db : Db) : Bool := !db.config.transports.isEmpty

/-- `get_all_self_addrs`, newest first. -/
def allSelfAddrs (db : Db) : List Text := db.config.transports.map (·.addr)

def publishedSecondarySelfAddrs (db : Db) : List Text :=
  (db.config.transports.filter fun transport =>
    transport.isPublished && !(db.config.configuredAddr == some transport.addr)).map (·.addr)

def primarySelfAddr : DbAction Text :=
  querySome (fun db => db.config.configuredAddr) "No self addr configured".toList

/-! ## Loading -/

def isSpecial (id : ContactId) : Bool := id ≤ ContactId.lastSpecial

def getById (id : ContactId) : DbAction Contact :=
  querySome (fun db => db.contactById id)
    ("contact ".toList ++ ContactId.display id ++ " not found".toList)

def isVerified (contact : Contact) : Bool :=
  contact.id == ContactId.self || contact.verifier != 0

def realExistsById (id : ContactId) (db : Db) : Bool :=
  !isSpecial id && (db.contactById id).isSome

def publicKey (contact : Contact) (db : Db) : Option PublicKey :=
  if contact.id == ContactId.self then some db.config.selfKey
  else if contact.isKeyContact then db.publicKeyFor contact.fingerprint
  else none

def updateLastSeen (id : ContactId) (timestamp : Int) : DbAction Unit := do
  ensure (!isSpecial id) "Can not update special contact last seen timestamp".toList
  exec fun db =>
    { db with
      contacts := updateWhere (fun contact => contact.lastSeen < timestamp && contact.id == id)
        (fun contact => { contact with lastSeen := timestamp }) db.contacts }

/-- `compose::key_contact_for`: of the unblocked key-contacts with this address,
the one seen most recently. -/
def keyContactFor (addr : Text) (db : Db) : Option ContactId :=
  (latest (·.lastSeen) (db.contacts.filter fun contact =>
      nocaseEq contact.addr addr && contact.isKeyContact &&
        ContactId.lastSpecial < contact.id && !contact.blocked)).map (·.id)

/-- `compose::lookup_key`: the stored key of the first key-contact with this
address.  The column `contacts.addr` is declared `COLLATE NOCASE`, so the
comparison folds case here too. -/
def lookupKey (addr : Text) (db : Db) : Option PublicKey :=
  (db.contacts.find? fun contact => nocaseEq contact.addr addr && contact.isKeyContact).bind
    fun contact => db.publicKeyFor contact.fingerprint

def contactsFor (addr : Text) (db : Db) : List ContactId :=
  (db.contacts.filter fun contact =>
    nocaseEq contact.addr addr && ContactId.lastSpecial < contact.id).map (·.id)

section

variable [Unicode]

def isSelfAddr (addr : Text) (db : Db) : Bool :=
  (!addr.isEmpty && addrCmp addr (db.config.configuredAddr.getD [])) ||
    (allSelfAddrs db).any (addrCmp addr)

/-! ## Adding -/

inductive Modifier where
  | none
  | modified
  | created
  deriving DecidableEq, Repr

/-- Addresses whose contact is hidden and whose display name is not believed. -/
def hidesContact (addr : Text) : Bool :=
  contains "noreply".toList addr || contains "no-reply".toList addr ||
    startsWith "notifications@".toList addr ||
    (50 < (addr.map Char.utf8Size).sum && addr.contains '+')

def isManual (origin : Origin) : Bool :=
  origin == .manuallyCreated || origin == .addressBook || origin == .unhandledQrScan

def rowFor (addr fingerprint : Text) (db : Db) : Option Contact :=
  db.contacts.find? fun contact =>
    contact.fingerprint == fingerprint && (!fingerprint.isEmpty || nocaseEq contact.addr addr)

def updatesName (name : Text) (origin : Origin) (row : Contact) : Bool :=
  isManual origin && name != row.name

def updatesAuthname (name : Text) (origin : Origin) (row : Contact) : Bool :=
  !isManual origin && name != row.authname && !name.isEmpty &&
    (row.origin.value ≤ origin.value || origin == .incomingUnknownFrom || row.authname.isEmpty)

def updatesAddr (addr : Text) (origin : Origin) (row : Contact) : Bool :=
  row.origin.value ≤ origin.value && addr != row.addr

def mergeRow (name addr : Text) (origin : Origin) (row : Contact) : Contact :=
  { row with
    name := if updatesName name origin row then name else row.name
    authname := if updatesAuthname name origin row then name else row.authname
    addr := if updatesAddr addr origin row then addr else row.addr
    origin := if row.origin.value < origin.value then origin else row.origin }

/-- The transaction of `add_or_lookup_ext`, with name and origin already adjusted. -/
def insertOrMerge (name addr fingerprint : Text) (origin : Origin) (db : Db) :
    (ContactId × Modifier) × Db :=
  match rowFor addr fingerprint db with
  | some row =>
    -- A row that nothing updates merges to itself.
    let changes := updatesName name origin row || updatesAuthname name origin row ||
      updatesAddr addr origin row || row.origin.value < origin.value
    ((row.id, if changes then .modified else .none),
      { db with
        contacts := updateWhere (fun contact => contact.id == row.id)
          (mergeRow name addr origin) db.contacts })
  | none =>
    ((db.nextContactId, .created),
      { db with
        contacts := db.contacts ++
          [{ id := db.nextContactId
             name := if isManual origin then name else []
             addr
             fingerprint
             origin
             authname := if isManual origin then [] else name }]
        nextContactId := db.nextContactId + 1 })

def isSelf (addr fingerprint : Text) (db : Db) : Bool :=
  isConfigured db &&
    (isSelfAddr addr db ||
      (!fingerprint.isEmpty && fingerprint == db.config.selfKey.fingerprint))

/-- The origin and the name that are stored: a "noreply" address is hidden. -/
def adjusted (name addr : Text) (origin : Origin) : Text × Origin :=
  if origin.value ≤ Origin.outgoingTo.value && hidesContact addr then ([], .hidden)
  else (sanitizeName name, origin)

def addOrLookupExt (name addr fingerprint : Text) (origin : Origin) :
    DbAction (ContactId × Modifier) := do
  ensure (!addr.isEmpty || !fingerprint.isEmpty) "Can not add_or_lookup empty address".toList
  ensure (origin != .unknown) "Missing valid origin".toList
  if ← query (isSelf addr fingerprint) then pure (ContactId.self, .none)
  else
    execReturning
      (insertOrMerge (adjusted name addr origin).1 addr fingerprint (adjusted name addr origin).2)

def addOrLookup (name addr : Text) (origin : Origin) : DbAction (ContactId × Modifier) :=
  addOrLookupExt name addr [] origin

end

end Eeemail.Contacts
