import Eeemail.Frames

/-! # The contact table

Rows of `contacts` are never renumbered, never change their fingerprint and are
only ever added at the end.  `ContactsOk` is the shape of the table; the only
writes are an update of rows that keeps their ids and the insertion of a row
with the next id. -/

set_option autoImplicit false

namespace Eeemail.ContactTable

open Lib.Texts Lib.Actions Lib.Tables Addr Store Labels Contacts Trash Gating Reception Frames

variable {db db' : Db} {row : Contact} {addr name : Text} {origin : Origin} {fingerprint : Text}

def contactsView (db : Db) : List Contact × ContactId := (db.contacts, db.nextContactId)

structure ContactsOk (db : Db) : Prop where
  ids_nodup : (db.contacts.map (·.id)).Nodup
  ids_lt : ∀ contact ∈ db.contacts, contact.id < db.nextContactId
  next_real : ContactId.lastSpecial < db.nextContactId

theorem ContactsOk.of_contactsView (same : contactsView db' = contactsView db)
    (ok : ContactsOk db) : ContactsOk db' := by
  obtain ⟨contacts, next⟩ := Prod.mk.inj same
  constructor
  · rw [contacts]
    exact ok.ids_nodup
  · rw [contacts, next]
    exact ok.ids_lt
  · rw [next]
    exact ok.next_real

theorem ContactsOk.unique (ok : ContactsOk db) {a b : Contact} (first : a ∈ db.contacts)
    (second : b ∈ db.contacts) (same : a.id = b.id) : a = b :=
  eq_of_key_eq ok.ids_nodup first second same

theorem ContactsOk.update (ok : ContactsOk db) {p : Contact → Bool} {f : Contact → Contact}
    (keepsId : ∀ contact, (f contact).id = contact.id) :
    ContactsOk { db with contacts := updateWhere p f db.contacts } := by
  refine ⟨?_, ?_, ok.next_real⟩
  · rw [map_updateWhere keepsId]
    exact ok.ids_nodup
  · intro contact member
    obtain ⟨old, oldMember, rfl⟩ := mem_updateWhere.mp member
    have below := ok.ids_lt old oldMember
    split
    · rw [keepsId]
      exact below
    · exact below

theorem ContactsOk.updated {p : Contact → Bool} {f : Contact → Contact} (ok : ContactsOk db)
    (contacts : db'.contacts = updateWhere p f db.contacts)
    (keepsId : ∀ contact, (f contact).id = contact.id)
    (next : db'.nextContactId = db.nextContactId) : ContactsOk db' := by
  refine (ok.update (p := p) keepsId).of_contactsView ?_
  rw [contactsView, contacts, next]
  rfl

theorem ContactsOk.append (ok : ContactsOk db) (next : row.id = db.nextContactId) :
    ContactsOk
      { db with contacts := db.contacts ++ [row], nextContactId := db.nextContactId + 1 } := by
  refine ⟨?_, ?_, Nat.lt_succ_of_lt ok.next_real⟩
  · refine nodup_map_append ok.ids_nodup ?_
    intro contact member
    rw [next]
    exact Nat.ne_of_lt (ok.ids_lt contact member)
  · intro contact member
    rcases List.mem_append.mp member with old | new
    · exact Nat.lt_succ_of_lt (ok.ids_lt contact old)
    · rw [List.mem_singleton.mp new, next]
      exact Nat.lt_succ_self _

theorem contactById_eq_some {id : ContactId} {contact : Contact}
    (found : db.contactById id = some contact) : contact ∈ db.contacts ∧ contact.id = id :=
  ⟨List.mem_of_find?_eq_some found, by simpa using List.find?_some found⟩

theorem ContactsOk.contactById (ok : ContactsOk db) {contact : Contact}
    (member : contact ∈ db.contacts) : db.contactById contact.id = some contact :=
  find?_of_nodup ok.ids_nodup member

/-! ## Looking up and adding -/

theorem rowFor_eq_some (found : rowFor addr fingerprint db = some row) :
    row ∈ db.contacts ∧ row.fingerprint = fingerprint := by
  refine ⟨List.mem_of_find?_eq_some found, ?_⟩
  have checks := List.find?_some found
  simp only [Bool.and_eq_true, beq_iff_eq] at checks
  exact checks.1

theorem rowFor_nocaseEq (found : rowFor addr [] db = some row) : nocaseEq row.addr addr = true := by
  have checks := List.find?_some found
  simp only [List.isEmpty_nil, Bool.not_true, Bool.false_or, Bool.and_eq_true] at checks
  exact checks.2

theorem nocaseEq_mergeRow (same : nocaseEq row.addr addr = true) :
    nocaseEq (mergeRow name addr origin row).addr addr = true := by
  simp only [mergeRow]
  split
  · exact nocaseEq_iff.mpr rfl
  · exact same

theorem ContactsOk.insertOrMerge (ok : ContactsOk db) (name addr fingerprint : Text)
    (origin : Origin) : ContactsOk (insertOrMerge name addr fingerprint origin db).2 := by
  unfold Contacts.insertOrMerge
  split
  · exact ok.update fun _ => rfl
  · exact ok.append rfl

theorem mem_insertOrMerge (name addr fingerprint : Text) (origin : Origin) (db : Db) :
    ∃ row ∈ (insertOrMerge name addr fingerprint origin db).2.contacts,
      row.id = (insertOrMerge name addr fingerprint origin db).1.1 ∧
        row.fingerprint = fingerprint := by
  unfold Contacts.insertOrMerge
  split
  next row found =>
    obtain ⟨member, same⟩ := rowFor_eq_some found
    refine ⟨mergeRow name addr origin row, mem_updateWhere.mpr ⟨row, member, ?_⟩, rfl, same⟩
    simp
  next =>
    exact ⟨_, List.mem_append_right _ (List.mem_singleton_self _), rfl, rfl⟩

theorem exists_row_insertOrMerge (ok : ContactsOk db) (member : row ∈ db.contacts)
    (name addr : Text) (origin : Origin) :
    ∃ later ∈ (insertOrMerge name addr [] origin db).2.contacts, later.id = row.id ∧
      later.fingerprint = row.fingerprint ∧ nocaseEq later.addr row.addr = true := by
  unfold Contacts.insertOrMerge
  split
  next found isFound =>
    by_cases same : row.id = found.id
    · have isRow : row = found := ok.unique member (rowFor_eq_some isFound).1 same
      subst isRow
      refine ⟨mergeRow name addr origin row, mem_updateWhere.mpr ⟨row, member, ?_⟩, rfl, rfl, ?_⟩
      · simp
      · have typed := rowFor_nocaseEq isFound
        have merged : nocaseEq (mergeRow name addr origin row).addr addr = true :=
          nocaseEq_mergeRow typed
        rw [nocaseEq_iff] at *
        rw [merged, typed]
    · refine ⟨row, mem_updateWhere.mpr ⟨row, member, ?_⟩, rfl, rfl, nocaseEq_iff.mpr rfl⟩
      simp [same]
  next => exact ⟨row, List.mem_append_left _ member, rfl, rfl, nocaseEq_iff.mpr rfl⟩

section

variable [Unicode]

theorem addOrLookupExt_eq_ok {found : ContactId × Modifier}
    (success : (addOrLookupExt name addr fingerprint origin).run db = .ok found db') :
    (isSelf addr fingerprint db = true ∧ found.1 = ContactId.self ∧ db' = db) ∨
      (isSelf addr fingerprint db = false ∧
        (found, db') = insertOrMerge (adjusted name addr origin).1 addr fingerprint
          (adjusted name addr origin).2 db) := by
  unfold addOrLookupExt at success
  obtain ⟨_, success⟩ := ensure_bind_eq_ok.mp success
  obtain ⟨_, success⟩ := ensure_bind_eq_ok.mp success
  have success := query_bind_eq_ok.mp success
  split at success
  next own =>
    obtain ⟨rfl, rfl⟩ := pure_eq_ok.mp success
    exact Or.inl ⟨own, rfl, rfl⟩
  next other =>
    simp only [execReturning_run, EStateM.Result.ok.injEq] at success
    obtain ⟨rfl, rfl⟩ := success
    exact Or.inr ⟨by simpa using other, rfl⟩

theorem addOrLookupExt_found {found : ContactId × Modifier}
    (success : (addOrLookupExt name addr fingerprint origin).run db = .ok found db') :
    found.1 = ContactId.self ∨
      ∃ row ∈ db'.contacts, row.id = found.1 ∧ row.fingerprint = fingerprint := by
  rcases addOrLookupExt_eq_ok success with ⟨_, self, _⟩ | ⟨_, merged⟩
  · exact Or.inl self
  · obtain ⟨rfl, rfl⟩ := Prod.mk.inj merged
    exact Or.inr (mem_insertOrMerge _ _ _ _ _)

end

/-! ## What runs after the message is stored leaves contacts alone -/

def outsideFiling (db : Db) : Db :=
  { outsideHold db with pendingMsgLabels := [], msgImportance := [], trashedMsgs := [] }

def outsideHooks (db : Db) : Db :=
  { outsideHold db with
    msgRecipients := [], pendingMsgLabels := [], msgImportance := [], trashedMsgs := [] }

section

variable [Unicode]

theorem keeps_toTrash (msgs : List MsgId) (reason : Reason) (now : Int) :
    Keeps outsideFiling (toTrash msgs reason now) := by
  refine Keeps.ite (Keeps.pure _) ?_
  refine Keeps.bind (Keeps.queryExcept _) fun label => ?_
  refine Keeps.bind ((keeps_setExt msgs label true _).coarser outsideFiling) fun _ => ?_
  exact Keeps.exec fun _ => rfl

def fileStored (mail : Incoming) (msgId : MsgId) (now : Int) : DbAction Unit := do
  exec (drainPending msgId)
  bestEffort (Gating.apply msgId now)
  exec (Recipients.setImportance msgId mail.importance)
  bestEffort (applyBlocklist msgId now)

theorem keeps_fileStored (mail : Incoming) (msgId : MsgId) (now : Int) :
    Keeps outsideFiling (fileStored mail msgId now) := by
  refine Keeps.bind (Keeps.exec fun db => ?_) fun _ => ?_
  · unfold drainPending
    split
    · rfl
    · split <;> rfl
  refine Keeps.bind ((keeps_gate msgId now).coarser outsideFiling) fun _ => ?_
  refine Keeps.bind (Keeps.exec fun db => ?_) fun _ => ?_
  · cases mail.importance <;> rfl
  refine Keeps.bestEffort (Keeps.bind (Keeps.query _) fun listed => ?_)
  refine Keeps.ite ?_ (Keeps.pure _)
  exact Keeps.bind (keeps_toTrash [msgId] .blocked now) fun _ => Keeps.pure _

theorem keeps_hooks (mail : Incoming) (msgId : MsgId) (now : Int) :
    Keeps outsideHooks (hooks mail msgId now) :=
  Keeps.bind (Keeps.exec fun _ => rfl) fun _ =>
    (keeps_fileStored mail msgId now).coarser outsideHooks

end

/-! ## Invariants of contacts through reception -/

section

variable [Unicode] {mail : Incoming} {Inv : Db → Prop}

/-- A property of the contact table that survives what the reception of `mail` does with
the sender known: lookups of addressees, which change an address only from an origin
as low as `Hidden` or in an address-contact, raised origins and verifications. -/
structure ContactInvariant (mail : Incoming) (Inv : Db → Prop) : Prop where
  ofView : ∀ {db db' : Db}, contactsView db' = contactsView db → Inv db → Inv db'
  lookup : ∀ {db : Db} (name : Text) (lookup : Lookup) (origin : Origin), lookup ∈ mail.lookups →
    (lookup.fingerprint ≠ [] → origin.value ≤ Origin.hidden.value) → Inv db →
      Inv (insertOrMerge name (addrNormalize lookup.addr) lookup.fingerprint origin db).2
  raise : ∀ {db : Db} (ids : List ContactId) (origin : Origin), Inv db →
    Inv { db with
      contacts := updateWhere
        (fun contact => ids.contains contact.id && contact.origin.value < origin.value)
        (fun contact => { contact with origin }) db.contacts }
  verify : ∀ {db : Db} (verifier id : ContactId), Inv db → Inv (markVerifiedBy verifier id db)

section

variable (invariant : ContactInvariant mail Inv)

include invariant

theorem ContactInvariant.of_keeps {α : Type} {x : DbAction α}
    (keeps : Keeps contactsView x) : Preserves Inv x :=
  Preserves.of_keeps (fun _ _ same good => invariant.ofView same good) keeps

omit invariant in
theorem contactInvariant_contactsOk : ContactInvariant mail ContactsOk where
  ofView same ok := ok.of_contactsView same
  lookup _ _ _ _ _ ok := ok.insertOrMerge _ _ _ _
  raise _ _ ok := ok.update fun _ => rfl
  verify _ _ ok := ok.update fun _ => rfl

theorem ContactInvariant.preserves_lookupContact
    (incoming : Bool) (senderOrigin : Origin) {lookup : Lookup} (member : lookup ∈ mail.lookups) :
    Preserves Inv (lookupContact incoming senderOrigin lookup) := by
  unfold lookupContact
  refine Preserves.ite (Preserves.pure _) ?_
  split
  · exact Preserves.pure _
  next valid =>
    obtain ⟨rfl, _⟩ := contactAddress_eq_ok valid
    refine Preserves.bind (fun db good => ?_) fun _ => Preserves.pure _
    refine stateAfter_addOrLookupExt good fun _ =>
      invariant.lookup _ lookup _ member (fun keyed => ?_) good
    unfold adjusted
    split
    · exact le_refl _
    · simp [lookupOrigin, keyed]

theorem ContactInvariant.preserves_markRecipientAsVerified
    (fromId : ContactId) (fingerprint : Text) :
    Preserves Inv (markRecipientAsVerified fromId fingerprint) := by
  refine Preserves.bind (Preserves.query _) fun found => ?_
  cases found with
  | none => exact Preserves.pure _
  | some contact =>
    refine Preserves.ite (Preserves.pure _) ?_
    refine Preserves.bind (Preserves.exec fun db good => invariant.verify _ _ good) fun _ => ?_
    exact invariant.of_keeps ((keeps_release [contact.id]).coarser contactsView)

theorem ContactInvariant.preserves_scaleupOrigin
    (ids : List ContactId) (origin : Origin) : Preserves Inv (scaleupOrigin ids origin) :=
  Preserves.bind (Preserves.exec fun _ good => invariant.raise ids origin good) fun _ =>
    invariant.of_keeps ((keeps_release ids).coarser contactsView)

theorem ContactInvariant.preserves_singleChat (fromId : ContactId) :
    Preserves Inv (execReturning (singleChat fromId) : DbAction Chat) := by
  refine invariant.of_keeps (Keeps.execReturning fun db => ?_)
  unfold singleChat
  split <;> rfl

theorem ContactInvariant.preserves_place (fromId : ContactId) (senderOrigin : Origin) :
    Preserves Inv (place mail fromId senderOrigin) :=
  Frames.preserves_place (fun _ _ _ member => invariant.preserves_lookupContact _ _ member)
    (invariant.preserves_markRecipientAsVerified fromId) invariant.preserves_singleChat
    (fun _ _ _ => invariant.ofView rfl) fun _ _ _ => invariant.preserves_scaleupOrigin _ _

theorem ContactInvariant.preserves_insertMsg (fromId : ContactId) (chatId : ChatId) (now : Int) :
    Preserves Inv (execReturning (insertMsg mail fromId chatId now) : DbAction MsgId) :=
  invariant.of_keeps (Keeps.execReturning fun _ => rfl)

theorem ContactInvariant.preserves_hooks (msgId : MsgId) (now : Int) :
    Preserves Inv (hooks mail msgId now) :=
  invariant.of_keeps ((keeps_hooks mail msgId now).coarser contactsView)

end

end

/-! ## Reception, step by step -/

section Steps

variable [Unicode] {mail : Incoming} {now : Int}

def fromAddrOf (mail : Incoming) : Text := addrNormalize mail.fromAddr

def senderName (mail : Incoming) : Text := if mail.preventRename then [] else mail.displayName

def readdressed (mail : Incoming) (id : ContactId) (db : Db) : Db :=
  { db with
    contacts := updateWhere (fun contact => contact.id == id)
      (fun contact => { contact with addr := fromAddrOf mail }) db.contacts }

theorem fromField_eq_ok {found : ContactId × Origin}
    (success : (fromFieldToContactId mail).run db = .ok (some found) db') :
    fromAddrOf mail ≠ [] ∧ ∃ entry looked,
      (addOrLookupExt (senderName mail) (fromAddrOf mail) (mail.signature.getD [])
        .incomingUnknownFrom).run db = .ok entry looked ∧
      ((entry.1 = ContactId.self ∧ found.1 = ContactId.self ∧ db' = looked) ∨
        (entry.1 ≠ ContactId.self ∧ ∃ contact, looked.contactById entry.1 = some contact ∧
          found = (entry.1, contact.origin) ∧ db' = readdressed mail entry.1 looked)) := by
  unfold fromFieldToContactId at success
  cases valid : contactAddress mail.fromAddr with
  | error e =>
    simp only [valid] at success
    obtain ⟨impossible, _⟩ := pure_eq_ok.mp success
    cases impossible
  | ok addr =>
    simp only [valid] at success
    obtain ⟨rfl, maybeValid⟩ := contactAddress_eq_ok valid
    refine ⟨?_, ?_⟩
    · intro blank
      rw [fromAddrOf] at blank
      rw [blank] at maybeValid
      cases maybeValid
    · obtain ⟨entry, looked, added, rest⟩ := bind_eq_ok.mp success
      refine ⟨entry, looked, added, ?_⟩
      split at rest
      next self =>
        obtain ⟨isFound, rfl⟩ := pure_eq_ok.mp rest
        cases isFound
        exact Or.inl ⟨self, rfl, rfl⟩
      next other =>
        obtain ⟨contact, isContact, rest⟩ := querySome_bind_eq_ok.mp rest
        obtain ⟨_, _, written, rest⟩ := bind_eq_ok.mp rest
        simp only [exec_run, EStateM.Result.ok.injEq, true_and] at written
        obtain ⟨isFound, rfl⟩ := pure_eq_ok.mp rest
        cases isFound
        exact Or.inr ⟨other, contact, isContact, rfl, written.symm⟩

theorem fromField_eq_none (success : (fromFieldToContactId mail).run db = .ok none db') :
    db' = db := by
  unfold fromFieldToContactId at success
  cases valid : contactAddress mail.fromAddr with
  | error e =>
    simp only [valid] at success
    exact (pure_eq_ok.mp success).2.symm
  | ok addr =>
    simp only [valid] at success
    obtain ⟨entry, _, _, rest⟩ := bind_eq_ok.mp success
    split at rest
    · cases (pure_eq_ok.mp rest).1
    · obtain ⟨_, _, _, rest⟩ := bind_eq_ok.mp rest
      obtain ⟨_, _, _, rest⟩ := bind_eq_ok.mp rest
      cases (pure_eq_ok.mp rest).1

theorem prepare_eq_ok {target : Option (ContactId × ChatId)}
    (success : (prepare mail).run db = .ok target db') :
    ∃ found looked, (fromFieldToContactId mail).run
        (importKeys (mail.gossipedKeys ++ mail.autocryptKey.toList) db) = .ok found looked ∧
      ((found = none ∧ target = none ∧ db' = looked) ∨
        ∃ fromId senderOrigin chatId, found = some (fromId, senderOrigin) ∧
          target = some (fromId, chatId) ∧
          (place mail fromId senderOrigin).run looked = .ok chatId db') := by
  have success := exec_bind_eq_ok.mp success
  obtain ⟨found, looked, fromField, success⟩ := bind_eq_ok.mp success
  refine ⟨found, looked, fromField, ?_⟩
  cases found with
  | none =>
    obtain ⟨rfl, rfl⟩ := pure_eq_ok.mp success
    exact Or.inl ⟨rfl, rfl, rfl⟩
  | some sender =>
    obtain ⟨chatId, _, placed, success⟩ := bind_eq_ok.mp success
    obtain ⟨rfl, rfl⟩ := pure_eq_ok.mp success
    exact Or.inr ⟨_, _, chatId, rfl, rfl, placed⟩

theorem storeMessage_eq_ok {target : Option (ContactId × MsgId)}
    (success : (storeMessage mail now).run db = .ok target db') :
    (target = none ∧ (db' = db ∨ (prepare mail).run db = .ok none db')) ∨
      ((rfc724MidExists mail.rfc724Mid db).isSome ≠ true ∧ ∃ fromId chatId placed seen,
        target = some (fromId, placed.nextMsgId) ∧
        (prepare mail).run db = .ok (some (fromId, chatId)) placed ∧
        (onlyIf (!isSpecial fromId) (updateLastSeen fromId mail.timestampSent)).run
          (insertMsg mail fromId chatId now placed).2 = .ok () seen ∧
        (hooks mail placed.nextMsgId now).run seen = .ok () db') := by
  have success := query_bind_eq_ok.mp success
  split at success
  next =>
    obtain ⟨rfl, rfl⟩ := pure_eq_ok.mp success
    exact Or.inl ⟨rfl, Or.inl rfl⟩
  next unknown =>
    obtain ⟨prepared, placed, prepares, success⟩ := bind_eq_ok.mp success
    cases prepared with
    | none =>
      obtain ⟨rfl, rfl⟩ := pure_eq_ok.mp success
      exact Or.inl ⟨rfl, Or.inr prepares⟩
    | some sender =>
      have success := execReturning_bind_eq_ok.mp success
      obtain ⟨_, seen, sees, success⟩ := bind_eq_ok.mp success
      obtain ⟨_, _, hooked, success⟩ := bind_eq_ok.mp success
      obtain ⟨rfl, rfl⟩ := pure_eq_ok.mp success
      exact Or.inr ⟨unknown, _, _, placed, seen, rfl, prepares, sees, hooked⟩

end Steps

end Eeemail.ContactTable
