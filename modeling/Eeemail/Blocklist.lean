import Eeemail.Acquaintance

/-! # The blocklist

`core/src/email/blocklist.rs`: patterns are checked and stored, removing one
unblocks the contacts it covers, and a person is blocked and unblocked together
with the pattern of their address.  These calls write to two tables, one statement
after the other, and each has a form in which the database fails in between.  What
an arriving message makes of the list is in `Gating`. -/

set_option autoImplicit false

namespace Eeemail.Blocklist

open Lib.Texts Lib.Actions Lib.Tables Store Contacts Gating Acquaintance

def isBlockedList (chat : GroupChat) : Bool :=
  (chat.typ == .mailinglist || chat.typ == .inBroadcast) && chat.blocked == .yes

/-- A blocked list or channel is blocked as a contact, which is made up if need be. -/
def upsertList (db : Db) (chat : GroupChat) : Db :=
  let added :=
    if db.contacts.any fun contact => nocaseEq contact.addr chat.grpid then db
    else
      { db with
        contacts := db.contacts ++ [{ id := db.nextContactId, addr := chat.grpid }]
        nextContactId := db.nextContactId + 1 }
  { added with
    contacts := updateWhere (fun contact => nocaseEq contact.addr chat.grpid)
      (fun contact => { contact with
        name := chat.name
        origin := .mailinglistAddress
        blocked := true
        fingerprint := if chat.typ = .inBroadcast then "Blocked_broadcast".toList else [] })
      added.contacts }

def updateBlockedMailinglistContacts (db : Db) : Db :=
  (db.groups.filter isBlockedList).foldl upsertList db

/-- The query of `Contact::get_all_blocked`: the latest seen first. -/
def getAllBlocked (db : Db) : List ContactId :=
  ((db.contacts.filter fun contact =>
      decide (ContactId.lastSpecial < contact.id) && contact.blocked).insertionSort fun a b =>
    b.lastSeen < a.lastSeen ∨ (a.lastSeen = b.lastSeen ∧ b.id ≤ a.id)).map (·.id)

def patternCovers (patternNorm addrNorm : Text) : Bool :=
  match patternNorm with
  | '@' :: domain => (domainOf addrNorm).any (· == domain)
  | _ => patternNorm == addrNorm

section

variable [Unicode]

def validate (pattern : Text) : Except Text Text :=
  match normalizePattern pattern with
  | [] => .error "a blocklist entry needs an address or a domain".toList
  | '@' :: domain =>
    if domain.isEmpty || !domain.contains '.' || domain.contains '@' then
      .error ("`".toList ++ pattern ++ "` is not a domain; write it as `@example.com`".toList)
    else .ok ('@' :: domain)
  | norm =>
    let halves := split '@' norm
    let localPart := halves[0]?.getD []
    let domain := halves[1]?.getD []
    if localPart.isEmpty || domain.isEmpty || halves[2]?.isSome || !domain.contains '.' then
      .error ("`".toList ++ pattern ++
        "` is neither an address nor a domain; a domain is written `@example.com`".toList)
    else .ok norm

/-- `INSERT … ON CONFLICT(pattern_norm) DO NOTHING`. -/
def insertEntry (pattern patternNorm reason : Text) (now : Int) (db : Db) : Db :=
  if db.blocklist.any (fun entry => entry.patternNorm == patternNorm) then db
  else
    { db with
      blocklist := db.blocklist ++
        [{ id := db.nextBlocklistId, pattern := trim pattern, patternNorm, added := now, reason }]
      nextBlocklistId := db.nextBlocklistId + 1 }

def add (pattern reason : Text) (now : Int) : DbAction Unit :=
  match validate pattern with
  | .error e => fail e
  | .ok norm => exec (insertEntry pattern norm reason now)

def unblockCovered (patternNorm : Text) (id : ContactId) : DbAction Unit := do
  match ← query fun db => db.contactById id with
  | none => pure ()
  | some contact =>
    onlyIf (patternCovers patternNorm (normalizePattern contact.addr)) (unblock id)

def deletePattern (pattern : Text) (db : Db) : Db :=
  { db with
    blocklist :=
      deleteWhere (fun entry => entry.patternNorm == normalizePattern pattern) db.blocklist }

def remove (pattern : Text) : DbAction Unit := do
  exec (deletePattern pattern)
  exec updateBlockedMailinglistContacts
  let blockedIds ← query getAllBlocked
  forEach (unblockCovered (normalizePattern pattern)) blockedIds

def blockContact (id : ContactId) (now : Int) : DbAction Unit := do
  let contact ← getById id
  block id
  onlyIf (!contact.addr.isEmpty) (add contact.addr [] now)

def unblockContact (id : ContactId) : DbAction Unit := do
  let contact ← getById id
  unblock id
  onlyIf (!contact.addr.isEmpty) (remove contact.addr)

def databaseError : Text := "disk I/O error".toList

/-- `remove` fails once the pattern is deleted, or when it has looked at so many contacts. -/
def removeCut (pattern : Text) (looked : Option Nat) : DbAction Unit := do
  exec (deletePattern pattern)
  match looked with
  | none => fail databaseError
  | some count => do
    exec updateBlockedMailinglistContacts
    let blockedIds ← query getAllBlocked
    forEach (unblockCovered (normalizePattern pattern)) (blockedIds.take count)
    fail databaseError

def blockCut (id : ContactId) : DbAction Unit := do
  let _ ← getById id
  block id
  fail databaseError

/-- `unblock_contact` fails once the contact is unblocked, or in `remove`. -/
def unblockCut (id : ContactId) (removing : Option (Option Nat)) : DbAction Unit := do
  let contact ← getById id
  unblock id
  match removing with
  | none => fail databaseError
  | some looked => onlyIf (!contact.addr.isEmpty) (removeCut contact.addr looked)

end

section

local instance : Unicode := asciiTables

example : validate " Spam@Example.com".toList = .ok "spam@example.com".toList := by rfl

example : validate "@nodot".toList =
    .error "`@nodot` is not a domain; write it as `@example.com`".toList := by rfl

end

end Eeemail.Blocklist
