import Eeemail.ContactTable

/-! # The key-contacts while a message is sent

Looking up an addressee by address touches address-contacts only, and raising an
origin touches no column that a key is found by.  So every key lookup gives the
same answer throughout a send as it gave before it. -/

set_option autoImplicit false

namespace Eeemail.KeyRows

open Lib.Texts Lib.Tables Store Contacts ContactTable

def keyPart (contact : Contact) : Contact :=
  { contact with name := [], authname := [], origin := .unknown, selfavatarSent := 0 }

def keyRows (db : Db) : List Contact := (db.contacts.filter (·.isKeyContact)).map keyPart

theorem lookupKey_eq (addr : Text) (db : Db) :
    lookupKey addr db =
      ((keyRows db).find? fun contact => nocaseEq contact.addr addr).bind fun contact =>
        db.publicKeyFor contact.fingerprint := by
  unfold lookupKey keyRows
  rw [List.find?_map, List.find?_filter, Option.bind_map]
  congr 1
  refine congrArg (db.contacts.find? ·) (funext fun contact => ?_)
  rw [Bool.eq_iff_iff]
  simp only [keyPart, Function.comp_apply, Bool.and_eq_true]
  exact and_comm.trans decide_eq_true_iff.symm

/-! ## Writes that leave them alone -/

def KeysAre (rows : List Contact) (db : Db) : Prop := ContactsOk db ∧ keyRows db = rows

variable {rows : List Contact} {db db' : Db}

theorem KeysAre.of_contactsView (keys : KeysAre rows db)
    (same : contactsView db' = contactsView db) : KeysAre rows db' := by
  refine ⟨keys.1.of_contactsView same, ?_⟩
  rw [← keys.2, keyRows, (Prod.mk.inj same).1]
  rfl

theorem keyRows_update {p : Contact → Bool} {f : Contact → Contact}
    (updated : db'.contacts = updateWhere p f db.contacts)
    (same : ∀ contact ∈ db.contacts, p contact = true →
      (f contact).isKeyContact = contact.isKeyContact ∧
        (contact.isKeyContact = true → keyPart (f contact) = keyPart contact)) :
    keyRows db' = keyRows db := by
  unfold keyRows
  rw [updated]
  unfold updateWhere
  generalize db.contacts = contacts at same
  induction contacts with
  | nil => rfl
  | cons contact rest ih =>
    have tail := ih fun other member => same other (List.mem_cons_of_mem _ member)
    rw [List.map_cons, List.filter_cons, List.filter_cons]
    by_cases touched : p contact = true
    · obtain ⟨sameKind, samePart⟩ := same contact List.mem_cons_self touched
      rw [if_pos touched, sameKind]
      split
      next isKey => rw [List.map_cons, List.map_cons, samePart isKey, tail]
      next => exact tail
    · rw [if_neg touched]
      split
      next => rw [List.map_cons, List.map_cons, tail]
      next => exact tail

theorem KeysAre.update (keys : KeysAre rows db) {p : Contact → Bool} {f : Contact → Contact}
    (keepsId : ∀ contact, (f contact).id = contact.id)
    (same : ∀ contact ∈ db.contacts, p contact = true →
      (f contact).isKeyContact = contact.isKeyContact ∧
        (contact.isKeyContact = true → keyPart (f contact) = keyPart contact)) :
    KeysAre rows { db with contacts := updateWhere p f db.contacts } :=
  ⟨keys.1.update keepsId, (keyRows_update rfl same).trans keys.2⟩

theorem KeysAre.append (keys : KeysAre rows db) {row : Contact} (next : row.id = db.nextContactId)
    (noKey : row.fingerprint = []) :
    KeysAre rows
      { db with contacts := db.contacts ++ [row], nextContactId := db.nextContactId + 1 } := by
  refine ⟨keys.1.append next, ?_⟩
  rw [← keys.2]
  unfold keyRows
  rw [List.filter_append]
  simp [Contact.isKeyContact, noKey]

theorem KeysAre.insertOrMerge (keys : KeysAre rows db) (name addr : Text) (origin : Origin) :
    KeysAre rows (insertOrMerge name addr [] origin db).2 := by
  unfold Contacts.insertOrMerge
  split
  next row found =>
    obtain ⟨rowMember, noKey⟩ := rowFor_eq_some found
    refine keys.update (fun _ => rfl) fun contact member touched => ⟨rfl, fun isKey => ?_⟩
    have same : contact = row := keys.1.unique member rowMember (by simpa using touched)
    rw [same, Contact.isKeyContact, noKey] at isKey
    cases isKey
  next => exact keys.append rfl rfl

end Eeemail.KeyRows
