import Eeemail.ContactTable

/-! # Whose structured data is trusted

`structured::is_trusted` asks for a padlock and for a sender the gate trusts.
The gate trusts a row also when another row of the same address is known, so a
key that was never seen borrows the standing of the correspondent whose address
it claims.  The verdict follows the signing key exactly as long as nothing is
borrowed from an address that already has another key. -/

set_option autoImplicit false

namespace Eeemail.StructuredTrust

open Lib.Texts Lib.Actions Lib.Tables Store Contacts Gating Reception Frames ContactTable

variable {db before : Db} {mail : Incoming} {fromId : ContactId} {now : Int} {msgId : MsgId}
variable {contact : Contact} {objects : List (Nat × Text × StructuredSource)}

/-! ## The sender's row -/

def HasRow (id : ContactId) (fingerprint : Text) (db : Db) : Prop :=
  ∃ contact ∈ db.contacts, contact.id = id ∧ contact.fingerprint = fingerprint

theorem HasRow.update {id : ContactId} {fingerprint : Text} {p : Contact → Bool}
    {f : Contact → Contact} (row : HasRow id fingerprint db)
    (keeps : ∀ contact, (f contact).id = contact.id ∧
      (f contact).fingerprint = contact.fingerprint) :
    HasRow id fingerprint { db with contacts := updateWhere p f db.contacts } := by
  obtain ⟨contact, member, isIt, same⟩ := row
  refine ⟨_, mem_updateWhere.mpr ⟨contact, member, rfl⟩, ?_⟩
  split
  · rw [(keeps contact).1, (keeps contact).2]
    exact ⟨isIt, same⟩
  · exact ⟨isIt, same⟩

theorem HasRow.insertOrMerge {id : ContactId} {fingerprint : Text} (row : HasRow id fingerprint db)
    (name addr asked : Text) (origin : Origin) :
    HasRow id fingerprint (insertOrMerge name addr asked origin db).2 := by
  unfold Contacts.insertOrMerge
  split
  · exact row.update fun _ => ⟨rfl, rfl⟩
  · obtain ⟨contact, member, found⟩ := row
    exact ⟨contact, List.mem_append_left _ member, found⟩

theorem contactInvariant_hasRow [Unicode] (mail : Incoming) (id : ContactId) (fingerprint : Text) :
    ContactInvariant mail (HasRow id fingerprint) where
  ofView same row := by
    unfold HasRow
    rw [(Prod.mk.inj same).1]
    exact row
  lookup _ _ _ _ _ row := row.insertOrMerge _ _ _ _
  raise _ _ row := row.update fun _ => ⟨rfl, rfl⟩
  verify _ _ row := row.update fun _ => ⟨rfl, rfl⟩

section

variable [Unicode] {found : Db}

/-- The sender is the account itself, or the row of the key that signed. -/
def SignedBy (mail : Incoming) (fromId : ContactId) (db : Db) : Prop :=
  ContactsOk db ∧ (fromId = ContactId.self ∨ HasRow fromId (mail.signature.getD []) db)

theorem preserves_signedBy {α : Type} {x : DbAction α} (mail : Incoming) (fromId : ContactId)
    (preserves : ∀ {Inv : Db → Prop}, ContactInvariant mail Inv → Preserves Inv x) :
    Preserves (SignedBy mail fromId) x := by
  rintro db ⟨ok, self | row⟩
  · exact ⟨preserves contactInvariant_contactsOk db ok, Or.inl self⟩
  · exact ⟨preserves contactInvariant_contactsOk db ok,
      Or.inr (preserves (contactInvariant_hasRow mail _ _) db row)⟩

theorem signedBy_of_fromField {found : ContactId × Origin} (ok : ContactsOk before)
    (success : (fromFieldToContactId mail).run before = .ok (some found) db) :
    SignedBy mail found.1 db := by
  obtain ⟨_, entry, looked, added, rest⟩ := fromField_eq_ok success
  have okLooked : ContactsOk looked := by
    rw [← stateAfter_of_ok added]
    exact stateAfter_addOrLookupExt ok fun _ => ok.insertOrMerge _ _ _ _
  rcases rest with ⟨_, isSelf, rfl⟩ | ⟨other, _, _, rfl, rfl⟩
  · exact ⟨okLooked, Or.inl isSelf⟩
  · have row : HasRow entry.1 (mail.signature.getD []) looked :=
      (addOrLookupExt_found added).resolve_left other
    exact ⟨okLooked.update fun _ => rfl, Or.inr (row.update fun _ => ⟨rfl, rfl⟩)⟩

theorem signedBy_of_prepare {chatId : ChatId} (ok : ContactsOk before)
    (success : (prepare mail).run before = .ok (some (fromId, chatId)) db) :
    SignedBy mail fromId db := by
  obtain ⟨_, looked, fromField, ⟨_, impossible, _⟩ | ⟨_, senderOrigin, _, rfl, isTarget, placed⟩⟩ :=
    prepare_eq_ok success
  · cases impossible
  · cases isTarget
    have signed := signedBy_of_fromField (ok.of_contactsView (by rfl)) fromField
    exact (preserves_signedBy mail fromId fun invariant =>
      invariant.preserves_place fromId senderOrigin).of_ok signed placed

theorem preserves_seen (timestamp : Int) :
    Preserves (SignedBy mail fromId)
      (onlyIf (!isSpecial fromId) (updateLastSeen fromId timestamp)) := by
  refine Preserves.onlyIf _ (Preserves.bind (preserves_signedBy mail fromId
    fun invariant => invariant.of_keeps (Keeps.ensure _ _)) fun _ => ?_)
  refine Preserves.exec ?_
  rintro db ⟨ok, self | row⟩
  · exact ⟨ok.update fun _ => rfl, Or.inl self⟩
  · exact ⟨ok.update fun _ => rfl, Or.inr (row.update fun _ => ⟨rfl, rfl⟩)⟩

/-! ## The stored message -/

def mailView (db : Db) : List Message × MsgId × List StructuredRow :=
  (db.msgs, db.nextMsgId, db.structuredData)

/-- What is known of a message once it is stored and its hooks have run. -/
structure Stored (mail : Incoming) (fromId : ContactId) (msgId : MsgId) (before found : Db) :
    Prop where
  signedBy : SignedBy mail fromId found
  msgId_eq : msgId = before.nextMsgId
  row : ∃ msg, found.msgs = before.msgs ++ [msg] ∧ msg.id = msgId ∧
    (msg.param.guaranteeE2ee = true → msg.fromId = fromId ∧ mail.signature.isSome = true)
  structuredData : found.structuredData = before.structuredData

theorem insertMsg_row (mail : Incoming) (fromId : ContactId) (chatId : ChatId) (now : Int)
    (db : Db) :
    ∃ msg, (insertMsg mail fromId chatId now db).2.msgs = db.msgs ++ [msg] ∧
      msg.id = db.nextMsgId ∧
        (msg.param.guaranteeE2ee = true → msg.fromId = fromId ∧ mail.signature.isSome = true) := by
  unfold insertMsg
  refine ⟨_, rfl, ?_⟩
  split
  · exact ⟨rfl, fun padlock => by cases padlock⟩
  · exact ⟨rfl, fun padlock => ⟨rfl, padlock⟩⟩

theorem stored_of_hooked {placed seen : Db} {chatId : ChatId} (signed : SignedBy mail fromId placed)
    (sees : (onlyIf (!isSpecial fromId) (updateLastSeen fromId mail.timestampSent)).run
      (insertMsg mail fromId chatId now placed).2 = .ok () seen)
    (hooked : (hooks mail placed.nextMsgId now).run seen = .ok () found) :
    Stored mail fromId placed.nextMsgId placed found := by
  have signedInserted := (preserves_signedBy mail fromId fun invariant =>
    invariant.preserves_insertMsg fromId chatId now) placed signed
  have signedSeen := preserves_seen mail.timestampSent _ signedInserted
  rw [stateAfter_execReturning, stateAfter_of_ok sees] at signedSeen
  have signedFound := (preserves_signedBy mail fromId fun invariant =>
    invariant.preserves_hooks placed.nextMsgId now) seen signedSeen
  have keepsSeen : Keeps mailView
      (onlyIf (!isSpecial fromId) (updateLastSeen fromId mail.timestampSent)) :=
    (keeps_seen fromId mail.timestampSent).coarser mailView
  have keepsHooks : Keeps mailView (hooks mail placed.nextMsgId now) :=
    (keeps_hooks mail placed.nextMsgId now).coarser mailView
  have viewSeen := keepsSeen (insertMsg mail fromId chatId now placed).2
  have viewFound := keepsHooks seen
  rw [stateAfter_of_ok sees] at viewSeen
  rw [stateAfter_of_ok hooked, viewSeen] at viewFound
  rw [stateAfter_of_ok hooked] at signedFound
  obtain ⟨msg, appended, isIt, padlock⟩ := insertMsg_row mail fromId chatId now placed
  simp only [mailView, Prod.mk.injEq] at viewFound
  exact ⟨signedFound, rfl, ⟨msg, viewFound.1.trans appended, isIt, padlock⟩, viewFound.2.2⟩

theorem storeMessage_stored (ok : ContactsOk before)
    (success : (storeMessage mail now).run before = .ok (some (fromId, msgId)) found) :
    Stored mail fromId msgId before found := by
  obtain ⟨impossible, _⟩ | ⟨_, sender, chatId, placed, seen, isTarget, prepares, sees, hooked⟩ :=
    storeMessage_eq_ok success
  · cases impossible
  · cases isTarget
    have keeps : Keeps mailView (prepare mail) := (keeps_prepare mail).coarser mailView
    have view := keeps.of_ok prepares
    simp only [mailView, Prod.mk.injEq] at view
    have stored := stored_of_hooked (signedBy_of_prepare ok prepares) sees hooked
    obtain ⟨msg, appended, isIt, padlock⟩ := stored.row
    rw [view.1] at appended
    exact ⟨stored.signedBy, view.2.1, ⟨msg, appended, isIt, padlock⟩,
      stored.structuredData.trans view.2.2⟩

/-! ## The verdict -/

/-- Some other row of the same address belongs to somebody the user engaged with. -/
def Engaged (contact : Contact) (db : Db) : Prop :=
  contact.addr ≠ [] ∧ ∃ other ∈ db.contacts,
    nocaseEq other.addr contact.addr = true ∧ other.id ≠ contact.id ∧
      ContactId.lastSpecial < other.id ∧ other.blocked = false ∧ other.origin.isKnown = true

instance (contact : Contact) (db : Db) : Decidable (Engaged contact db) :=
  inferInstanceAs (Decidable (_ ∧ _))

def KeyHeld (contact : Contact) (db : Db) : Prop :=
  ∃ other ∈ db.contacts, other.id ≠ contact.id ∧ other.isKeyContact = true ∧
    nocaseEq other.addr contact.addr = true

instance (contact : Contact) (db : Db) : Decidable (KeyHeld contact db) :=
  inferInstanceAs (Decidable (∃ other ∈ db.contacts, _))

omit [Unicode] in
theorem samePerson_known_iff (ok : ContactsOk db) :
    ((samePerson contact db).any fun other => isKnownRow other db) = true ↔
      Engaged contact db := by
  unfold samePerson Engaged
  split
  next blank =>
    rw [List.isEmpty_iff] at blank
    simp [blank]
  next filled =>
    rw [List.isEmpty_iff] at filled
    simp only [List.any_map, List.any_eq_true, List.mem_filter, Bool.and_eq_true,
      decide_eq_true_eq, bne_iff_ne, Bool.not_eq_true', Function.comp_apply]
    constructor
    · rintro ⟨other, ⟨member, ⟨⟨addressed, differs⟩, real⟩, unblocked⟩, known⟩
      rw [isKnownRow, ok.contactById member] at known
      exact ⟨filled, other, member, addressed, differs, real, unblocked, known⟩
    · rintro ⟨_, other, member, addressed, differs, real, unblocked, known⟩
      refine ⟨other, ⟨member, ⟨⟨addressed, differs⟩, real⟩, unblocked⟩, ?_⟩
      rw [isKnownRow, ok.contactById member]
      exact known

omit [Unicode] in
theorem isTrusted_iff (ok : ContactsOk db) (member : contact ∈ db.contacts)
    (notSelf : contact.id ≠ ContactId.self) :
    isTrusted contact.id db = true ↔
      contact.origin.isKnown = true ∨ isVerified contact = true ∨ Engaged contact db := by
  unfold isTrusted
  simp only [ok.contactById member, Bool.or_eq_true, beq_iff_eq, notSelf, false_or,
    samePerson_known_iff ok, or_assoc]

def StoredTrusted (msgId : MsgId) (db : Db) : Prop :=
  ∃ row ∈ db.structuredData, row.msgId = msgId ∧ row.trusted = true

instance (msgId : MsgId) (db : Db) : Decidable (StoredTrusted msgId db) :=
  inferInstanceAs (Decidable (∃ row ∈ db.structuredData, _))

def Padlocked (msgId : MsgId) (db : Db) : Prop :=
  (db.msgById msgId).any (·.param.guaranteeE2ee) = true

omit [Unicode] in
theorem mem_storeStructured_of_mem {verdict : Bool} {row : StructuredRow}
    {rows : List StructuredRow} (member : row ∈ rows) :
    row ∈ objects.foldl (insertObject msgId verdict) rows := by
  induction objects generalizing rows with
  | nil => exact member
  | cons object rest ih => exact ih (mem_insertOrIgnore_of_mem member)

omit [Unicode] in
theorem mem_storeStructured {verdict : Bool} {row : StructuredRow} {rows : List StructuredRow}
    (member : row ∈ objects.foldl (insertObject msgId verdict) rows) :
    row ∈ rows ∨ (objects ≠ [] ∧ row.trusted = verdict) := by
  induction objects generalizing rows with
  | nil => exact Or.inl member
  | cons object rest ih =>
    rcases ih member with old | ⟨_, told⟩
    · rcases mem_insertOrIgnore.mp old with older | ⟨rfl, _⟩
      · exact Or.inl older
      · exact Or.inr ⟨List.cons_ne_nil _ _, rfl⟩
    · exact Or.inr ⟨List.cons_ne_nil _ _, told⟩

omit [Unicode] in
theorem storedTrusted_storeStructured_iff (fresh : ∀ row ∈ db.structuredData, row.msgId ≠ msgId) :
    StoredTrusted msgId (storeStructured msgId objects db) ↔
      objects ≠ [] ∧ structuredIsTrusted msgId db = true := by
  constructor
  · rintro ⟨row, member, isIt, trusted⟩
    rcases mem_storeStructured member with old | ⟨some, told⟩
    · exact absurd isIt (fresh row old)
    · exact ⟨some, told ▸ trusted⟩
  · rintro ⟨some, trusted⟩
    cases objects with
    | nil => exact absurd rfl some
    | cons object rest =>
      obtain ⟨seq, json, source⟩ := object
      refine ⟨{ msgId, seq, json, trusted := structuredIsTrusted msgId db, source }, ?_, rfl,
        trusted⟩
      simp only [storeStructured, List.foldl_cons]
      refine mem_storeStructured_of_mem (mem_insertOrIgnore.mpr (Or.inr ⟨rfl, ?_⟩))
      intro old member same
      exact fresh old member (Prod.mk.inj same).1

theorem storedTrusted_receive_iff
    (success : (storeMessage mail now).run before = .ok (some (fromId, msgId)) found) :
    StoredTrusted msgId (stateAfter (receive mail now) before) ↔
      StoredTrusted msgId (storeStructured msgId mail.structured found) := by
  have adopted : Keeps Db.structuredData
      (do bestEffort (adopt mail); pure (some msgId) : DbAction (Option MsgId)) :=
    Keeps.bind (Keeps.bestEffort ((keeps_adopt mail).coarser Db.structuredData)) fun _ =>
      Keeps.pure _
  unfold receive
  rw [stateAfter_bind_of_ok success]
  simp only
  rw [stateAfter_exec_bind]
  unfold StoredTrusted
  rw [adopted (storeStructured msgId mail.structured found)]

/-! ## Whose key -/

def NewKey (mail : Incoming) (db : Db) : Prop :=
  ∀ contact ∈ db.contacts, mail.signature ≠ some contact.fingerprint

instance (mail : Incoming) (db : Db) : Decidable (NewKey mail db) :=
  inferInstanceAs (Decidable (∀ contact ∈ db.contacts, _))

/-- The signing key is our own, or its row is known or verified, or its address
is one the user engaged with and had no other key. -/
def EarnedByKey (mail : Incoming) (fromId : ContactId) (before found : Db) : Prop :=
  (fromId = ContactId.self ∧ mail.signature = some found.config.selfKey.fingerprint) ∨
    (fromId ≠ ContactId.self ∧ ∃ contact ∈ found.contacts, contact.id = fromId ∧
      mail.signature = some contact.fingerprint ∧
        (contact.origin.isKnown = true ∨ isVerified contact = true ∨
          (Engaged contact found ∧ ¬KeyHeld contact before)))

instance (mail : Incoming) (fromId : ContactId) (before found : Db) :
    Decidable (EarnedByKey mail fromId before found) :=
  inferInstanceAs (Decidable (_ ∨ (_ ∧ ∃ contact ∈ found.contacts, _)))

/-- A new key under the address of a known correspondent whose key is held. -/
def Impostor (mail : Incoming) (fromId : ContactId) (before found : Db) : Prop :=
  fromId ≠ ContactId.self ∧ NewKey mail before ∧ ∃ contact ∈ found.contacts,
    contact.id = fromId ∧ Engaged contact found ∧ KeyHeld contact before

instance (mail : Incoming) (fromId : ContactId) (before found : Db) :
    Decidable (Impostor mail fromId before found) :=
  inferInstanceAs (Decidable (_ ∧ _ ∧ ∃ contact ∈ found.contacts, _))

/-- The sender writes under our own address with a key that is not ours, or under
an address that already has another key: the user engaged with that address, and
the row of the signing key has no standing of its own or is new. -/
def BorrowsAddress (mail : Incoming) (fromId : ContactId) (before found : Db) : Prop :=
  (fromId = ContactId.self ∧ mail.signature ≠ some found.config.selfKey.fingerprint) ∨
    (fromId ≠ ContactId.self ∧ ∃ contact ∈ found.contacts, contact.id = fromId ∧
      Engaged contact found ∧ KeyHeld contact before ∧
        ((contact.origin.isKnown = false ∧ isVerified contact = false) ∨ NewKey mail before))

instance (mail : Incoming) (fromId : ContactId) (before found : Db) :
    Decidable (BorrowsAddress mail fromId before found) :=
  inferInstanceAs (Decidable (_ ∨ (_ ∧ ∃ contact ∈ found.contacts, _)))

section

omit [Unicode]

theorem Stored.msgById (stored : Stored mail fromId msgId before found)
    (fresh : ∀ msg ∈ before.msgs, msg.id ≠ msgId) :
    ∃ msg, found.msgById msgId = some msg ∧
      (msg.param.guaranteeE2ee = true → msg.fromId = fromId ∧ mail.signature.isSome = true) := by
  obtain ⟨msg, appended, isIt, padlock⟩ := stored.row
  refine ⟨msg, ?_, padlock⟩
  unfold Db.msgById
  rw [appended, List.find?_append, List.find?_eq_none.mpr]
  · simp [isIt]
  · intro old member
    simpa using fresh old member

theorem Stored.signed_of_padlocked (stored : Stored mail fromId msgId before found)
    (fresh : ∀ msg ∈ before.msgs, msg.id ≠ msgId) (locked : Padlocked msgId found) :
    mail.signature.isSome = true := by
  obtain ⟨msg, loaded, padlock⟩ := stored.msgById fresh
  rw [Padlocked, loaded] at locked
  exact (padlock locked).2

theorem structuredIsTrusted_iff (stored : Stored mail fromId msgId before found)
    (fresh : ∀ msg ∈ before.msgs, msg.id ≠ msgId) :
    structuredIsTrusted msgId found = true ↔
      Padlocked msgId found ∧ isTrusted fromId found = true := by
  obtain ⟨msg, loaded, padlock⟩ := stored.msgById fresh
  unfold structuredIsTrusted Padlocked
  rw [loaded]
  simp only [Option.any_some, Bool.and_eq_true]
  refine and_congr_right fun locked => ?_
  rw [(padlock locked).1]

theorem earned_self_iff :
    (EarnedByKey mail ContactId.self before found ∧ ¬Impostor mail ContactId.self before found) ↔
      ¬BorrowsAddress mail ContactId.self before found := by
  simp [EarnedByKey, Impostor, BorrowsAddress]

theorem earned_row_iff (ok : ContactsOk found) (member : contact ∈ found.contacts)
    (notSelf : contact.id ≠ ContactId.self) (signed : mail.signature = some contact.fingerprint) :
    (isTrusted contact.id found = true →
        EarnedByKey mail contact.id before found ∧ ¬Impostor mail contact.id before found) ↔
      ¬BorrowsAddress mail contact.id before found := by
  -- The id determines the row, so each property is one of `contact`.
  have only : ∀ {P : Contact → Prop},
      (∃ row ∈ found.contacts, row.id = contact.id ∧ P row) ↔ P contact := by
    intro P
    constructor
    · rintro ⟨row, rowMember, same, holds⟩
      rw [ok.unique rowMember member same] at holds
      exact holds
    · exact fun holds => ⟨contact, member, rfl, holds⟩
  have earned : EarnedByKey mail contact.id before found ↔
      (contact.origin.isKnown = true ∨ isVerified contact = true ∨
        (Engaged contact found ∧ ¬KeyHeld contact before)) := by
    simp only [EarnedByKey, notSelf, false_and, false_or, ne_eq, not_false_eq_true, true_and, only,
      signed]
  have impostor : Impostor mail contact.id before found ↔
      (NewKey mail before ∧ Engaged contact found ∧ KeyHeld contact before) := by
    simp only [Impostor, notSelf, ne_eq, not_false_eq_true, true_and, only]
  have borrows : BorrowsAddress mail contact.id before found ↔
      (Engaged contact found ∧ KeyHeld contact before ∧
        ((contact.origin.isKnown = false ∧ isVerified contact = false) ∨
          NewKey mail before)) := by
    simp only [BorrowsAddress, notSelf, false_and, false_or, ne_eq, not_false_eq_true, true_and,
      only]
  rw [earned, impostor, borrows, isTrusted_iff ok member notSelf, ← Bool.not_eq_true,
    ← Bool.not_eq_true]
  constructor
  · rintro fair ⟨engaged, held, nothing | new⟩
    · rcases (fair (Or.inr (Or.inr engaged))).1 with known | verified | ⟨_, none⟩
      · exact nothing.1 known
      · exact nothing.2 verified
      · exact none held
    · exact (fair (Or.inr (Or.inr engaged))).2 ⟨new, engaged, held⟩
  · intro fair trusted
    refine ⟨?_, fun ⟨new, engaged, held⟩ => fair ⟨engaged, held, Or.inr new⟩⟩
    by_cases known : contact.origin.isKnown = true
    · exact Or.inl known
    by_cases verified : isVerified contact = true
    · exact Or.inr (Or.inl verified)
    have engaged := (trusted.resolve_left known).resolve_left verified
    exact Or.inr (Or.inr ⟨engaged, fun held => fair ⟨engaged, held, Or.inl ⟨known, verified⟩⟩⟩)

end

/-- Structured data is stored as trusted for the sake of the signing key, and
never for a new key under the address of somebody whose key is held, exactly if
the message has none, has no padlock, or borrows no address. -/
theorem trusted_for_own_key_iff {mail : Incoming} {now : Int} {before found : Db}
    {fromId : ContactId} {msgId : MsgId} (ok : ContactsOk before)
    (freshMsgs : ∀ msg ∈ before.msgs, msg.id < before.nextMsgId)
    (freshRows : ∀ row ∈ before.structuredData, row.msgId < before.nextMsgId)
    (success : (storeMessage mail now).run before = .ok (some (fromId, msgId)) found) :
    (StoredTrusted msgId (stateAfter (receive mail now) before) →
        mail.signature.isSome = true ∧ EarnedByKey mail fromId before found ∧
          ¬Impostor mail fromId before found) ↔
      (mail.structured = [] ∨ ¬Padlocked msgId found ∨
        ¬BorrowsAddress mail fromId before found) := by
  have stored := storeMessage_stored ok success
  have freshMsg : ∀ msg ∈ before.msgs, msg.id ≠ msgId := by
    intro msg member
    rw [stored.msgId_eq]
    exact Nat.ne_of_lt (freshMsgs msg member)
  have freshRow : ∀ row ∈ found.structuredData, row.msgId ≠ msgId := by
    intro row member
    rw [stored.structuredData] at member
    rw [stored.msgId_eq]
    exact Nat.ne_of_lt (freshRows row member)
  rw [storedTrusted_receive_iff success, storedTrusted_storeStructured_iff freshRow,
    structuredIsTrusted_iff stored freshMsg]
  by_cases empty : mail.structured = []
  · simp [empty]
  by_cases locked : Padlocked msgId found
  · have signed := stored.signed_of_padlocked freshMsg locked
    obtain ⟨okFound, self | row⟩ := stored.signedBy
    · subst self
      simpa [empty, locked, signed, isTrusted] using earned_self_iff
    · by_cases self : fromId = ContactId.self
      · subst self
        simpa [empty, locked, signed, isTrusted] using earned_self_iff
      · obtain ⟨contact, member, rfl, fingerprint⟩ := row
        have signature : mail.signature = some contact.fingerprint := by
          rw [fingerprint, Option.getD_of_ne_none (Option.isSome_iff_ne_none.mp signed)]
        simpa [empty, locked, signed] using
          earned_row_iff okFound member self signature
  · simp [locked]

end

section

local instance : Unicode := asciiTables

def correspondent : Contact :=
  { id := 10, addr := "a@x.org".toList, origin := .outgoingTo, fingerprint := "K".toList }

def correspondentOnly : Db := { contacts := [correspondent], nextContactId := 11 }

def signedOffer (fingerprint : Text) : Incoming :=
  { rfc724Mid := "m1".toList, fromAddr := "a@x.org".toList, signature := some fingerprint,
    structured := [(0, "[]".toList, .mixed)] }

def atVerdict (fingerprint : Text) : Db :=
  stateAfter (storeMessage (signedOffer fingerprint) 1000) correspondentOnly

theorem trusted_for_own_key_of_correspondent :
    StoredTrusted 10 (stateAfter (receive (signedOffer "K".toList) 1000) correspondentOnly) ∧
      EarnedByKey (signedOffer "K".toList) 10 correspondentOnly (atVerdict "K".toList) := by
  have borrowsNothing : ¬BorrowsAddress (signedOffer "K".toList) 10 correspondentOnly
      (atVerdict "K".toList) := by
    decide
  have stored : StoredTrusted 10
      (stateAfter (receive (signedOffer "K".toList) 1000) correspondentOnly) := by
    decide
  have fair := trusted_for_own_key_iff (show ContactsOk correspondentOnly from
    ⟨by decide, by decide, by decide⟩) (by decide) (by decide)
    (show (storeMessage (signedOffer "K".toList) 1000).run correspondentOnly =
      .ok (some (10, 10)) (atVerdict "K".toList) from rfl)
  exact ⟨stored, (fair.mpr (Or.inr (Or.inr borrowsNothing)) stored).2.1⟩

/-- Anybody else's key gets the same verdict. -/
theorem new_key_stored_as_trusted :
    (storeMessage (signedOffer "M".toList) 1000).run correspondentOnly =
        .ok (some (11, 10)) (atVerdict "M".toList) ∧
      StoredTrusted 10 (stateAfter (receive (signedOffer "M".toList) 1000) correspondentOnly) ∧
      ¬EarnedByKey (signedOffer "M".toList) 11 correspondentOnly (atVerdict "M".toList) ∧
      Impostor (signedOffer "M".toList) 11 correspondentOnly (atVerdict "M".toList) :=
  ⟨rfl, by decide, by decide, by decide⟩

end

end Eeemail.StructuredTrust
