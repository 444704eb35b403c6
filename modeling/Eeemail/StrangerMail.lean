import Eeemail.Strangers

/-! # Mail and the trust it brings

Receiving a message can make others trusted than its sender: whoever a known
sender names as an addressee becomes known, and a key that comes with another
address than before takes its trust there.  Nobody trusted is held after a
message that does neither to somebody whose mail is held. -/

set_option autoImplicit false

namespace Eeemail.StrangerMail

open Lib.Texts Lib.Actions Lib.Tables Addr Store Labels ReservedLabels Contacts Trash Gating
open Reception Frames ContactTable Strangers

variable {origin senderOrigin : Origin} {row : Contact} {msgId : MsgId} {now : Int}

def WaitsAt (addr : Text) (db : Db) : Prop :=
  ∃ contact ∈ db.contacts, nocaseEq contact.addr addr = true ∧ Waits contact.id db

/-- Mail is held that came from this address, and its contact is blocked. -/
def WaitsBlocked (addr : Text) (db : Db) : Prop :=
  ∃ contact ∈ db.contacts, contact.blocked = true ∧ nocaseEq contact.addr addr = true ∧
    Waits contact.id db

/-- A contact with this key whose mail is held stays where it is when the key
comes with this address. -/
def StaysPut (fingerprint addr : Text) (origin : Origin) (db : Db) : Prop :=
  ∀ row ∈ db.contacts, row.fingerprint = fingerprint → Waits row.id db →
    updatesAddr addr origin row = true → nocaseEq row.addr addr = true

instance (addr : Text) (db : Db) : Decidable (WaitsAt addr db) :=
  inferInstanceAs (Decidable (∃ contact ∈ db.contacts, _))

instance (addr : Text) (db : Db) : Decidable (WaitsBlocked addr db) :=
  inferInstanceAs (Decidable (∃ contact ∈ db.contacts, _))

variable {fingerprint : Text}

section Waiting

variable {start : Db} {contact : Contact} {addr : Text}

theorem waitsAt_of_waitedIn (waited : WaitedIn start contact)
    (same : nocaseEq contact.addr addr = true) : WaitsAt addr start := by
  obtain ⟨old, member, waits, follows⟩ := waited
  exact ⟨old, member, nocaseEq_trans (nocaseEq_symm follows.addr) same, waits⟩

theorem unblocked_of_waitedIn (waited : WaitedIn start contact)
    (same : nocaseEq contact.addr addr = true) (none : ¬WaitsBlocked addr start) :
    contact.blocked = false := by
  obtain ⟨old, member, waits, follows⟩ := waited
  rw [follows.blocked]
  refine Bool.eq_false_iff.mpr fun blocked => none ?_
  exact ⟨old, member, blocked, nocaseEq_trans (nocaseEq_symm follows.addr) same, waits⟩

theorem stays_of_staysPut (put : StaysPut fingerprint addr origin start)
    (waited : WaitedIn start contact) (isKey : contact.fingerprint = fingerprint)
    (updates : updatesAddr addr origin contact = true) : nocaseEq contact.addr addr = true := by
  obtain ⟨old, member, waits, follows⟩ := waited
  simp only [updatesAddr, Bool.and_eq_true, decide_eq_true_eq, bne_iff_ne] at updates
  by_cases same : addr = old.addr
  · rw [same]
    exact follows.addr
  · refine nocaseEq_trans follows.addr
      (put old member (follows.fingerprint.symm.trans isKey) waits ?_)
    simp only [updatesAddr, Bool.and_eq_true, decide_eq_true_eq, bne_iff_ne]
    exact ⟨follows.origin.trans updates.1, same⟩

end Waiting

/-! ## What a message may name -/

section Conditions

variable [Unicode]

def namedAddrs (mail : Incoming) : List Text :=
  fromAddrOf mail :: mail.lookups.map fun lookup => addrNormalize lookup.addr

def senderKnown (mail : Incoming) (db : Db) : Bool :=
  isSelf (fromAddrOf mail) (mail.signature.getD []) db ||
    (rowFor (fromAddrOf mail) (mail.signature.getD []) db).any (·.origin.isKnown)

/-- A message that makes nobody trusted whose mail is held: neither somebody it
names with the word of a known sender, nor somebody whose address a key gets,
nor, as a reply, a blocked contact. -/
structure SparesWaiting (mail : Incoming) (db : Db) : Prop where
  signed : mail.signature.getD [] ≠ [] → ∀ row ∈ db.contacts,
    row.fingerprint = mail.signature.getD [] → nocaseEq row.addr (fromAddrOf mail) = true ∨
      (¬Waits row.id db ∧ (row.origin.isKnown = true → ¬WaitsAt (fromAddrOf mail) db))
  named : isIncoming mail db = false ∨ senderKnown mail db = true → ∀ lookup ∈ mail.lookups,
    lookup.past = false → lookup.fingerprint = [] → ¬WaitsAt (addrNormalize lookup.addr) db
  keyed : ∀ lookup ∈ mail.lookups, lookup.fingerprint ≠ [] →
    StaysPut lookup.fingerprint (addrNormalize lookup.addr) .hidden db
  advertised : ∀ key, mail.autocryptKey = some key →
    StaysPut key.fingerprint (trim mail.fromAddr) .incomingUnknownFrom db
  reply : hasParent mail db = true → ∀ addr ∈ namedAddrs mail, ¬WaitsBlocked addr db

/-- The contact of the sender has the key of the message and one of its addresses. -/
def SenderAt (mail : Incoming) (fromId : ContactId) (db : Db) : Prop :=
  fromId = ContactId.self ∨
    ∃ row ∈ db.contacts, row.id = fromId ∧ row.fingerprint = mail.signature.getD [] ∧
      row.addr ≠ [] ∧ ∃ addr ∈ namedAddrs mail, nocaseEq row.addr addr = true

structure Receiving (ids : Text → LabelId) (mail : Incoming) (start : Db) (fromId : ContactId)
    (db : Db) : Prop where
  fair : Fair ids (WaitedIn start) Nobody db
  sender : SenderAt mail fromId db
  outside : outsidePrepare db = outsidePrepare start

end Conditions

section Receive

variable [Unicode] {ids : Text → LabelId} {mail : Incoming} {start db db' : Db} {fromId : ContactId}

theorem SenderAt.of_contacts (sender : SenderAt mail fromId db)
    (same : db'.contacts = db.contacts) : SenderAt mail fromId db' := by
  unfold SenderAt
  rw [same]
  exact sender

theorem SenderAt.update (sender : SenderAt mail fromId db) {p : Contact → Bool}
    {f : Contact → Contact} (id : ∀ contact, (f contact).id = contact.id)
    (fingerprint : ∀ contact, (f contact).fingerprint = contact.fingerprint)
    (addr : ∀ contact ∈ db.contacts, p contact = true → contact.addr ≠ [] →
      (∃ addr ∈ namedAddrs mail, nocaseEq contact.addr addr = true) →
        (f contact).addr ≠ [] ∧ ∃ addr ∈ namedAddrs mail, nocaseEq (f contact).addr addr = true) :
    SenderAt mail fromId { db with contacts := updateWhere p f db.contacts } := by
  rcases sender with self | ⟨row, member, isId, isKey, filled, named⟩
  · exact Or.inl self
  · refine Or.inr ⟨_, mem_updateWhere.mpr ⟨row, member, rfl⟩, ?_⟩
    split
    next changed =>
      exact ⟨(id row).trans isId, (fingerprint row).trans isKey,
        addr row member changed filled named⟩
    next => exact ⟨isId, isKey, filled, named⟩

variable {addr : Text}

theorem SenderAt.insertOrMerge (sender : SenderAt mail fromId db) (filled : addr ≠ [])
    (named : addr ∈ namedAddrs mail) (name fingerprint : Text) (origin : Origin) :
    SenderAt mail fromId (insertOrMerge name addr fingerprint origin db).2 := by
  unfold Contacts.insertOrMerge
  split
  next row found =>
    refine sender.update (fun _ => rfl) (fun _ => rfl) ?_
    intro contact _ _ wasFilled wasNamed
    simp only [mergeRow]
    split
    · exact ⟨filled, addr, named, nocaseEq_refl _⟩
    · exact ⟨wasFilled, wasNamed⟩
  next =>
    rcases sender with self | ⟨row, member, rest⟩
    · exact Or.inl self
    · exact Or.inr ⟨row, List.mem_append_left _ member, rest⟩

/-! ## The sender -/

omit [Unicode] in
theorem insertOrMerge_row (ok : ContactsOk db) {name : Text}
    (member : row ∈ (insertOrMerge name addr fingerprint origin db).2.contacts)
    (isId : row.id = (insertOrMerge name addr fingerprint origin db).1.1) :
    (∃ old, rowFor addr fingerprint db = some old ∧ row = mergeRow name addr origin old) ∨
      (row.addr = addr ∧ row.origin = origin ∧ row.fingerprint = fingerprint) := by
  unfold Contacts.insertOrMerge at member isId
  split at member
  next old found =>
    simp only [found] at isId
    obtain ⟨before, isBefore, rfl⟩ := mem_updateWhere.mp member
    have same : before = old := by
      refine ok.unique isBefore (rowFor_eq_some found).1 ?_
      split at isId <;> exact isId
    rw [same]
    exact Or.inl ⟨old, found, by simp⟩
  next missing =>
    simp only [missing] at isId
    rcases List.mem_append.mp member with old | new
    · exact absurd isId (Nat.ne_of_lt (ok.ids_lt row old))
    · rw [List.mem_singleton.mp new]
      exact Or.inr ⟨rfl, rfl, rfl⟩

omit [Unicode] in
theorem rowFor_congr (same : db'.contacts = db.contacts) (addr fingerprint : Text) :
    rowFor addr fingerprint db' = rowFor addr fingerprint db := by
  rw [rowFor, same, rowFor]

omit [Unicode] in
theorem config_of_outsidePrepare (outside : outsidePrepare db = outsidePrepare start) :
    db.config = start.config := congrArg (·.config) outside

theorem isSelf_congr (same : db'.config = db.config) (addr fingerprint : Text) :
    isSelf addr fingerprint db' = isSelf addr fingerprint db := by
  simp only [isSelf, isConfigured, isSelfAddr, allSelfAddrs, same]

theorem isIncoming_congr (same : db'.config = db.config) :
    isIncoming mail db' = isIncoming mail db := by
  simp only [isIncoming, isSelfAddr, allSelfAddrs, same]

theorem senderKnown_congr (config : db'.config = db.config)
    (contacts : db'.contacts = db.contacts) :
    senderKnown mail db' = senderKnown mail db := by
  rw [senderKnown, senderKnown, isSelf_congr config, rowFor_congr contacts]

theorem adjusted_unknownFrom (name addr : Text) :
    (adjusted name addr .incomingUnknownFrom).2.isKnown = false := by
  rcases adjusted_origin name addr .incomingUnknownFrom with same | hidden
  · rw [same]
    decide
  · rw [hidden]
    decide

theorem known_of_merged {name shown : Text}
    (known : (mergeRow shown addr (adjusted name addr .incomingUnknownFrom).2 row).origin.isKnown =
      true) : row.origin.isKnown = true := by
  refine (isKnown_mergeRow known).resolve_right ?_
  rw [adjusted_unknownFrom]
  exact Bool.false_ne_true

omit [Unicode] in
theorem fairLookup_unknownFrom (filled : addr ≠ [])
    (stays : fingerprint ≠ [] → ∀ contact, WaitedIn start contact →
      contact.fingerprint = fingerprint → updatesAddr addr .incomingUnknownFrom contact = true →
        nocaseEq contact.addr addr = true) :
    FairLookup (WaitedIn start) Nobody addr fingerprint .incomingUnknownFrom := by
  have unknown : ¬Origin.incomingUnknownFrom.isKnown = true := by decide
  exact ⟨filled, fun known => absurd known unknown, fun known => absurd known unknown, stays⟩

/-- The row the lookup of the sender returns: one that was there, merged, or a new one. -/
def IsLooked (mail : Incoming) (db : Db) (row : Contact) : Prop :=
  (∃ old, rowFor (fromAddrOf mail) (mail.signature.getD []) db = some old ∧
    row = mergeRow (adjusted (senderName mail) (fromAddrOf mail) .incomingUnknownFrom).1
      (fromAddrOf mail) (adjusted (senderName mail) (fromAddrOf mail) .incomingUnknownFrom).2 old) ∨
    (row.addr = fromAddrOf mail ∧
      row.origin = (adjusted (senderName mail) (fromAddrOf mail) .incomingUnknownFrom).2 ∧
      row.fingerprint = mail.signature.getD [])

theorem IsLooked.senderKnown (looked : IsLooked mail db row) (known : row.origin.isKnown = true) :
    senderKnown mail db = true := by
  rw [StrangerMail.senderKnown, Bool.or_eq_true]
  rcases looked with ⟨old, found, rfl⟩ | ⟨_, isOrigin, _⟩
  · rw [found]
    exact Or.inr (known_of_merged known)
  · rw [isOrigin, adjusted_unknownFrom] at known
    cases known

theorem IsLooked.moves (looked : IsLooked mail db row) (spares : SparesWaiting mail start)
    (shape : Shape ids db) (same : db.contacts = start.contacts) :
    nocaseEq row.addr (fromAddrOf mail) = true ∨
      (ContactId.lastSpecial < row.id ∧ ¬Waits row.id start ∧
        (row.origin.isKnown = true → ∀ contact, WaitedIn start contact →
          nocaseEq contact.addr (fromAddrOf mail) = false)) := by
  rcases looked with ⟨old, found, rfl⟩ | ⟨new, _⟩
  · obtain ⟨member, isKey⟩ := rowFor_eq_some found
    by_cases keyed : mail.signature.getD [] = []
    · rw [keyed] at found
      exact Or.inl (nocaseEq_mergeRow (rowFor_nocaseEq found))
    · rcases spares.signed keyed old (same ▸ member) isKey with atAddr | ⟨calm, clear⟩
      · exact Or.inl (nocaseEq_mergeRow atAddr)
      · refine Or.inr ⟨?_, calm, ?_⟩
        · refine Nat.lt_of_not_le fun isSpecial => keyed ?_
          exact isKey.symm.trans (shape.special old member isSpecial).1
        · intro known contact waited
          refine Bool.eq_false_iff.mpr fun atAddr => ?_
          exact clear (known_of_merged known) (waitsAt_of_waitedIn waited atAddr)
  · exact Or.inl (new ▸ nocaseEq_refl _)

theorem receiving_fromField {found : ContactId × Origin} (spares : SparesWaiting mail start)
    (fair : Fair ids (WaitedIn start) Nobody db) (same : db.contacts = start.contacts)
    (outside : outsidePrepare db = outsidePrepare start)
    (success : (fromFieldToContactId mail).run db = .ok (some found) db') :
    Receiving ids mail start found.1 db' ∧
      (found.2.isKnown = true → senderKnown mail start = true) := by
  have config := config_of_outsidePrepare outside
  have sameKnown : senderKnown mail db = senderKnown mail start := senderKnown_congr config same
  have outside' : outsidePrepare db' = outsidePrepare start :=
    (((keeps_fromFieldToContactId mail).coarser outsideHold).of_ok success).trans outside
  obtain ⟨filled, entry, looked, added, rest⟩ := fromField_eq_ok success
  have fairLooked : Fair ids (WaitedIn start) Nobody looked := by
    rw [← stateAfter_of_ok added]
    refine fair.addOrLookupExt (stable_waitedIn start) stable_nobody _ (by decide) fun _ => ?_
    refine fairLookup_unknownFrom filled fun keyed contact waited isKey _ => ?_
    obtain ⟨old, member, waits, follows⟩ := waited
    rcases spares.signed keyed old member (follows.fingerprint.symm.trans isKey) with
      atAddr | ⟨calm, _⟩
    · exact nocaseEq_trans follows.addr atAddr
    · exact absurd waits calm
  rcases addOrLookupExt_eq_ok added with ⟨own, isSelf', rfl⟩ | ⟨_, merged⟩
  · obtain ⟨_, isFound, rfl⟩ := rest.resolve_right fun other => other.1 isSelf'
    refine ⟨⟨fairLooked, Or.inl isFound, outside'⟩, fun _ => ?_⟩
    rw [← sameKnown, senderKnown, own, Bool.true_or]
  · have isLooked : ∀ row ∈ looked.contacts, row.id = entry.1 → IsLooked mail db row := by
      intro row member isId
      apply insertOrMerge_row fair.shape.contacts
      · rw [← merged]
        exact member
      · rw [← merged]
        exact isId
    have known : ∀ row ∈ looked.contacts, row.id = entry.1 → row.origin.isKnown = true →
        senderKnown mail start = true := fun row member isId isKnown =>
      sameKnown ▸ (isLooked row member isId).senderKnown isKnown
    obtain ⟨row, member, isId, isKey⟩ := mem_insertOrMerge
      (adjusted (senderName mail) (fromAddrOf mail) .incomingUnknownFrom).1 (fromAddrOf mail)
      (mail.signature.getD [])
      (adjusted (senderName mail) (fromAddrOf mail) .incomingUnknownFrom).2 db
    rw [← merged] at member isId
    rcases rest with ⟨isSelf', isFound, rfl⟩ | ⟨other, contact, found, rfl, rfl⟩
    · refine ⟨⟨fairLooked, Or.inl isFound, outside'⟩, fun _ => known row member isId ?_⟩
      rcases (isLooked row member isId).moves spares fair.shape same with atAddr | ⟨real, _⟩
      · have isSpecial : row.id ≤ ContactId.lastSpecial := by
          rw [isId, isSelf']
          decide
        exact ((fairLooked.shape.special row member isSpecial).2.resolve_left
          (ne_nil_of_nocaseEq atAddr filled)).2
      · rw [isId, isSelf'] at real
        exact absurd real (by decide)
    · obtain ⟨isContact, contactId⟩ := contactById_eq_some found
      refine ⟨⟨?_, Or.inr ?_, outside'⟩, known contact isContact contactId⟩
      · refine fairLooked.setAddr (stable_waitedIn start) stable_nobody filled ?_
        intro row member isId
        rcases (isLooked row member isId).moves spares fair.shape same with
          atAddr | ⟨real, calm, clear⟩
        · exact Or.inl atAddr
        · refine Or.inr ⟨isId ▸ real, fun waits => ?_, clear⟩
          obtain ⟨old, _, waited, follows⟩ := fairLooked.waits row member (isId.symm ▸ waits)
          exact calm (follows.id ▸ waited)
      · refine ⟨_, mem_updateWhere.mpr ⟨row, member, rfl⟩, ?_⟩
        rw [if_pos (by simpa using isId)]
        exact ⟨isId, isKey, filled, fromAddrOf mail, List.mem_cons_self, nocaseEq_refl _⟩

/-! ## The addressees and the chat -/

omit [Unicode] in
theorem lookupOrigin_known {incoming : Bool} {lookup : Lookup}
    (known : (lookupOrigin incoming senderOrigin lookup).isKnown = true) :
    lookup.past = false ∧ lookup.fingerprint = [] ∧
      (incoming = false ∨ senderOrigin.isKnown = true) := by
  unfold lookupOrigin at known
  split at known
  next => exact absurd known (by decide)
  next shown =>
    simp only [Bool.or_eq_true, Bool.not_eq_true', List.isEmpty_eq_false_iff, not_or,
      Bool.not_eq_true, ne_eq, not_not] at shown
    refine ⟨shown.1, shown.2, ?_⟩
    split at known
    next outgoing => exact Or.inl (by simpa using outgoing)
    next =>
      split at known
      next isKnown => exact Or.inr isKnown
      next => exact absurd known (by decide)

omit [Unicode] in
theorem hidden_le_lookupOrigin (incoming : Bool) (senderOrigin : Origin) (lookup : Lookup) :
    Origin.hidden.value ≤ (lookupOrigin incoming senderOrigin lookup).value := by
  unfold lookupOrigin
  split
  · exact Nat.le_refl _
  · split
    · decide
    · split <;> decide

theorem fairLookup_addressee (spares : SparesWaiting mail start)
    (known : senderOrigin.isKnown = true → senderKnown mail start = true) {lookup : Lookup}
    (member : lookup ∈ mail.lookups) (filled : addrNormalize lookup.addr ≠ []) :
    FairLookup (WaitedIn start) Nobody (addrNormalize lookup.addr) lookup.fingerprint
      (lookupOrigin (isIncoming mail start) senderOrigin lookup) := by
  refine ⟨filled, fun looked => (lookupOrigin_known looked).2.1, ?_, ?_⟩
  · intro looked contact waited atAddr
    obtain ⟨shown, unkeyed, trusted⟩ := lookupOrigin_known looked
    exact spares.named (trusted.imp_right known) lookup member shown unkeyed
      (waitsAt_of_waitedIn waited atAddr)
  · intro keyed contact waited isKey updates
    refine stays_of_staysPut (spares.keyed lookup member keyed) waited isKey ?_
    simpa [lookupOrigin, keyed] using updates

theorem receiving_addOrLookupExt (name : Text)
    (le : Origin.hidden.value ≤ origin.value) (named : addr ∈ namedAddrs mail)
    (lookup : FairLookup (WaitedIn start) Nobody addr fingerprint origin) :
    Preserves (Receiving ids mail start fromId) (addOrLookupExt name addr fingerprint origin) := by
  intro db receiving
  refine ⟨?_, ?_, ?_⟩
  · exact receiving.fair.addOrLookupExt (stable_waitedIn start) stable_nobody name le
      fun _ => lookup
  · exact stateAfter_addOrLookupExt receiving.sender fun _ =>
      receiving.sender.insertOrMerge lookup.filled named _ _ _
  · exact ((keeps_addOrLookupExt name addr fingerprint origin).coarser
      (fun db => outsidePrepare db) db).trans receiving.outside

theorem receiving_lookupContact (spares : SparesWaiting mail start)
    (known : senderOrigin.isKnown = true → senderKnown mail start = true) {lookup : Lookup}
    (member : lookup ∈ mail.lookups) :
    Preserves (Receiving ids mail start fromId)
      (lookupContact (isIncoming mail start) senderOrigin lookup) := by
  refine Preserves.ite (Preserves.pure _) ?_
  cases valid : contactAddress lookup.addr with
  | error e => exact Preserves.pure _
  | ok addr =>
    obtain ⟨rfl, maybeValid⟩ := contactAddress_eq_ok valid
    have filled : addrNormalize lookup.addr ≠ [] := by
      intro blank
      rw [blank] at maybeValid
      cases maybeValid
    refine Preserves.bind ?_ fun _ => Preserves.pure _
    exact receiving_addOrLookupExt _ (hidden_le_lookupOrigin _ _ _)
      (List.mem_cons_of_mem _ (List.mem_map_of_mem member))
      (fairLookup_addressee spares known member filled)

theorem receiving_markRecipientAsVerified (fingerprint : Text) :
    Preserves (Receiving ids mail start fromId) (markRecipientAsVerified fromId fingerprint) := by
  intro db receiving
  have outside := (BlindToPrepare.markRecipientAsVerified (blindToPrepare_outside _) fromId
    fingerprint) db receiving.outside
  refine ⟨?_, ?_, outside⟩
  · unfold markRecipientAsVerified
    rw [stateAfter_query_bind]
    cases db.contacts.find? fun contact =>
        !fingerprint.isEmpty && contact.fingerprint == fingerprint with
    | none => exact receiving.fair
    | some contact =>
      simp only
      split
      next => exact receiving.fair
      next others =>
        rw [stateAfter_exec_bind, stateAfter_bestEffort]
        refine receiving.fair.verified (stable_waitedIn start) stable_nobody ?_
          fun self => others (Or.inl self)
        intro row marked
        simp only [Bool.and_eq_true, beq_iff_eq] at marked
        exact marked.1
  · have kept : Preserves (SenderAt mail fromId) (markRecipientAsVerified fromId fingerprint) := by
      refine Preserves.bind (Preserves.query _) fun found => ?_
      cases found with
      | none => exact Preserves.pure _
      | some contact =>
        refine Preserves.ite (Preserves.pure _) (Preserves.bind (Preserves.exec ?_) fun _ => ?_)
        · intro db sender
          exact sender.update (fun _ => rfl) (fun _ => rfl) fun _ _ _ filled named =>
            ⟨filled, named⟩
        · refine Preserves.bestEffort (Preserves.of_keeps (fun _ _ same sender => ?_)
            ((keeps_release [contact.id]).coarser Db.contacts))
          exact sender.of_contacts same
    exact kept db receiving.sender

theorem fair_singleChat {waiting exempt : Contact → Prop} (id : ContactId) :
    Preserves (Fair ids waiting exempt) (execReturning (singleChat id) : DbAction Chat) := by
  refine Preserves.execReturning fun db fair => ?_
  unfold singleChat
  split
  · exact fair
  · exact fair.addChat rfl

theorem receiving_of_chats {α : Type} {x : DbAction α}
    (fairKept : Preserves (Fair ids (WaitedIn start) Nobody) x)
    (contactsKept : Keeps Db.contacts x) (outsideKept : Keeps outsidePrepare x) :
    Preserves (Receiving ids mail start fromId) x := fun db receiving =>
  ⟨fairKept db receiving.fair, receiving.sender.of_contacts (contactsKept db),
    (outsideKept db).trans receiving.outside⟩

theorem receiving_singleChat (id : ContactId) :
    Preserves (Receiving ids mail start fromId)
      (execReturning (singleChat id) : DbAction Chat) := by
  refine receiving_of_chats (fair_singleChat id) (Keeps.execReturning fun db => ?_)
    ((keeps_singleChat id).coarser outsideHold)
  unfold singleChat
  split <;> rfl

theorem receiving_scaleupOrigin (spares : SparesWaiting mail start)
    (isReply : hasParent mail start = true) :
    Preserves (Receiving ids mail start fromId) (scaleupOrigin [fromId] .incomingReplyTo) := by
  intro db receiving
  refine ⟨?_, ?_, ?_⟩
  · refine receiving.fair.scaleupOrigin (stable_waitedIn start) stable_nobody (by decide) ?_
    intro notSelf row member isId contact waited sameAddr
    obtain ⟨sender, isSender, senderId, _, _, addr, named, atAddr⟩ :=
      receiving.sender.resolve_left notSelf
    have isRow := receiving.fair.shape.contacts.unique member isSender (isId.trans senderId.symm)
    exact unblocked_of_waitedIn waited (nocaseEq_trans sameAddr (isRow ▸ atAddr))
      (spares.reply isReply addr named)
  · have kept : Preserves (SenderAt mail fromId) (scaleupOrigin [fromId] .incomingReplyTo) := by
      refine Preserves.bind (Preserves.exec ?_) fun _ => Preserves.bestEffort (Preserves.of_keeps
        (fun _ _ same sender => sender.of_contacts same)
        ((keeps_release [fromId]).coarser Db.contacts))
      intro db sender
      exact sender.update (fun _ => rfl) (fun _ => rfl) fun _ _ _ filled named => ⟨filled, named⟩
    exact kept db receiving.sender
  · exact ((keeps_scaleupOrigin [fromId] .incomingReplyTo).coarser
      (fun db => outsidePrepare db) db).trans receiving.outside

theorem receiving_place (spares : SparesWaiting mail start)
    (known : senderOrigin.isKnown = true → senderKnown mail start = true) :
    Preserves (Receiving ids mail start fromId) (place mail fromId senderOrigin) := by
  refine preserves_place (fun db receiving lookup member => ?_) receiving_markRecipientAsVerified
    receiving_singleChat (fun db chat status receiving => ?_) (fun db receiving isReply => ?_)
  · rw [isIncoming_congr (config_of_outsidePrepare receiving.outside)]
    exact receiving_lookupContact spares known member
  · exact ⟨receiving.fair.updateChats fun _ => rfl, receiving.sender.of_contacts rfl,
      receiving.outside⟩
  · have sameParent : hasParent mail (outsidePrepare db) = hasParent mail (outsidePrepare start) :=
      congrArg (hasParent mail) receiving.outside
    exact receiving_scaleupOrigin spares (sameParent.symm.trans isReply)

/-! ## The stored message -/

/-- The new message is of the sender, unless it is a tombstone. -/
structure Stored (mail : Incoming) (fromId : ContactId) (msgId : MsgId) (db : Db) : Prop where
  sender : SenderAt mail fromId db
  unique : ∃ row : Message, (row.toId = ContactId.self → row.fromId = fromId) ∧
    ∀ msg ∈ db.msgs, msg.id = msgId → msg = row

theorem Stored.of_view (stored : Stored mail fromId msgId db) (same : fairView db' = fairView db) :
    Stored mail fromId msgId db' := by
  simp only [fairView, Prod.mk.injEq] at same
  obtain ⟨contacts, _, _, _, msgs, _⟩ := same
  refine ⟨stored.sender.of_contacts (Prod.mk.inj contacts).1, ?_⟩
  rw [msgs]
  exact stored.unique

theorem insertMsg_msgs (mail : Incoming) (fromId : ContactId) (chatId : ChatId) (now : Int)
    (db : Db) :
    ∃ row : Message, (insertMsg mail fromId chatId now db).2.msgs = db.msgs ++ [row] ∧
      (row.toId = ContactId.self → row.fromId = fromId) := by
  refine ⟨_, rfl, ?_⟩
  intro incoming
  split at incoming
  next => cases incoming
  next live => rw [if_neg live]

theorem stored_insertMsg (receiving : Receiving ids mail start fromId db) (chatId : ChatId)
    (now : Int) :
    Fair ids (WaitedIn start) Nobody (insertMsg mail fromId chatId now db).2 ∧
      Stored mail fromId db.nextMsgId (insertMsg mail fromId chatId now db).2 := by
  obtain ⟨row, added, ofSender⟩ := insertMsg_msgs mail fromId chatId now db
  refine ⟨receiving.fair.addMsg (by split <;> rfl), receiving.sender.of_contacts rfl, row,
    ofSender, ?_⟩
  intro msg member sameId
  rw [added] at member
  rcases List.mem_append.mp member with old | new
  · exact absurd sameId (Nat.ne_of_lt (receiving.fair.shape.rows.msgs_lt msg old))
  · exact List.mem_singleton.mp new

def WaitsNow (start : Db) (mail : Incoming) (fromId : ContactId) (contact : Contact) : Prop :=
  WaitedIn start contact ∨
    (contact.id = fromId ∧ contact.fingerprint = mail.signature.getD [])

omit [Unicode] in
theorem stable_waitsNow : Stable (WaitsNow start mail fromId) := by
  rintro old new follows (waited | ⟨isId, isKey⟩)
  · exact Or.inl (stable_waitedIn start old new follows waited)
  · exact Or.inr ⟨follows.id.trans isId, follows.fingerprint.trans isKey⟩

omit [Unicode] in
theorem waits_heldUp {unverified : LabelId} {items : List LabelSyncItem} {id : ContactId}
    (only : ∀ msg ∈ db.msgs, msg.id = msgId → msg.fromId = fromId)
    (waits : Waits id (HoldAgreement.heldUp unverified msgId now items db)) :
    Waits id db ∨ id = fromId := by
  obtain ⟨held, isHeld, msg, isMsg, same, isFrom⟩ := waits
  rcases mem_insertOrIgnore.mp isHeld with old | ⟨rfl, _⟩
  · exact Or.inl ⟨held, old, msg, isMsg, same, isFrom⟩
  · exact Or.inr (isFrom.symm.trans (only msg isMsg same))

theorem fair_heldUp (fair : Fair ids (WaitedIn start) Nobody db) (known : msgId < db.nextMsgId)
    (only : ∀ msg ∈ db.msgs, msg.id = msgId → msg.fromId = fromId)
    (sender : SenderAt mail fromId db) (untrusted : isTrusted fromId db = false)
    (unverified : LabelId) (now : Int) (items : List LabelSyncItem) :
    Fair ids (WaitsNow start mail fromId) Nobody
      (HoldAgreement.heldUp unverified msgId now items db) := by
  have notSelf : fromId ≠ ContactId.self := by
    rintro rfl
    cases untrusted
  obtain ⟨row, member, isId, isKey, filled, _⟩ := sender.resolve_left notSelf
  have rows := fair.shape.rows
  have real : ContactId.lastSpecial < fromId := by
    refine Nat.lt_of_not_le fun isSpecial => ?_
    have isKnown := ((fair.shape.special row member (isId ▸ isSpecial)).2.resolve_left filled).2
    have trusted := (isTrusted_iff fair.shape.contacts member).mpr
      (Or.inr (Or.inl (Or.inl isKnown)))
    rw [isId, untrusted] at trusted
    cases trusted
  have labels : labelView (HoldAgreement.heldUp unverified msgId now items db) = labelView db := rfl
  have contacts : contactsView (HoldAgreement.heldUp unverified msgId now items db) =
    contactsView db := rfl
  refine ⟨⟨fair.shape.labels.of_labelView labels, fair.shape.contacts.of_contactsView contacts,
    fair.shape.special, ⟨rows.chat_ids_nodup, rows.chat_ids_lt, rows.msgs_lt, ?_⟩, ?_⟩, ?_, ?_⟩
  · intro held isHeld
    rcases mem_insertOrIgnore.mp isHeld with old | ⟨rfl, _⟩
    · exact rows.held_lt held old
    · exact known
  · intro id waits
    rcases waits_heldUp only waits with old | rfl
    · exact fair.shape.waits id old
    · exact ⟨real, isId ▸ fair.shape.contacts.ids_lt row member⟩
  · intro contact isContact waits
    rcases waits_heldUp only waits with old | isFrom
    · exact Or.inl (fair.waits contact isContact old)
    · have isRow := fair.shape.contacts.unique isContact member (isFrom.trans isId.symm)
      exact Or.inr ⟨isFrom, isRow ▸ isKey⟩
  · intro contact isContact waits trusted
    rw [isTrusted_congr (congrArg Prod.fst contacts)] at trusted
    rcases waits_heldUp only waits with old | isFrom
    · exact fair.trusted contact isContact old trusted
    · rw [isFrom, untrusted] at trusted
      cases trusted

theorem fair_gate (fair : Fair ids (WaitedIn start) Nobody db)
    (stored : Stored mail fromId msgId db) (now : Int) :
    Fair ids (WaitsNow start mail fromId) Nobody (stateAfter (Gating.apply msgId now) db) := by
  unfold Gating.apply
  rw [stateAfter_query_bind]
  split
  next held =>
    obtain ⟨label, _, _, _, ident, read⟩ := fair.shape.labels.reserved_run unverifiedName_reserved
    obtain ⟨items, written⟩ := setExt_eq [msgId] label true .nosync db
    rw [stateAfter_bind_of_ok read, stateAfter_exec_bind, stateAfter_exec, written, ident]
    simp only [holds, senderOf, Bool.and_eq_true, Option.any_map, Option.any_eq_true,
      Bool.not_eq_true', beq_iff_eq] at held
    obtain ⟨_, msg, found, ⟨incoming, _⟩, untrusted⟩ := held
    have isMsg := List.mem_of_find?_eq_some found
    have sameId : msg.id = msgId := by simpa using List.find?_some found
    obtain ⟨row, fromSender, unique⟩ := stored.unique
    have isRow := unique msg isMsg sameId
    have isFrom : row.fromId = fromId := fromSender (isRow ▸ incoming)
    refine fair_heldUp fair (sameId ▸ fair.shape.rows.msgs_lt msg isMsg) ?_ stored.sender ?_ _ now
      items
    · intro other isOther otherId
      rw [unique other isOther otherId, isFrom]
    · rw [← isFrom, ← isRow]
      exact untrusted
  next => exact fair.weaken (fun _ => Or.inl) fun _ _ _ none => none

theorem keeps_fairView_toTrash (msgs : List MsgId) (reason : Reason) (now : Int) :
    Keeps fairView (toTrash msgs reason now) := by
  refine Keeps.ite (Keeps.pure _) ?_
  refine Keeps.bind (Keeps.queryExcept _) fun label => ?_
  refine Keeps.bind (fun db => ?_) fun _ => Keeps.exec fun _ => rfl
  obtain ⟨items, written⟩ := setExt_eq msgs label true (syncFor reason) db
  rw [stateAfter_exec, written]
  rfl

omit [Unicode] in
theorem fairView_drainPending (msgId : MsgId) (db : Db) :
    fairView (drainPending msgId db) = fairView db := by
  unfold drainPending
  split
  · rfl
  · split <;> rfl

theorem fair_hooks (fair : Fair ids (WaitedIn start) Nobody db)
    (stored : Stored mail fromId msgId db) (now : Int) :
    Fair ids (WaitsNow start mail fromId) Nobody (stateAfter (hooks mail msgId now) db) := by
  unfold hooks
  rw [stateAfter_exec_bind, stateAfter_exec_bind, stateAfter_bestEffort_bind]
  have same : fairView (drainPending msgId (Recipients.store msgId mail.headerRecipients db)) =
      fairView db := fairView_drainPending msgId _
  have gated := fair_gate (fair.of_fairView same) (stored.of_view same) now
  refine Preserves.bind (fair_of_keeps (Keeps.exec fun db => ?_)) (fun _ => ?_) _ gated
  · cases mail.importance <;> rfl
  · refine Preserves.bestEffort (fair_of_keeps (Keeps.bind (Keeps.query _) fun listed => ?_))
    refine Keeps.ite ?_ (Keeps.pure _)
    exact Keeps.bind (keeps_fairView_toTrash _ _ _) fun _ => Keeps.pure _

/-! ## The whole of it -/

theorem receiving_prepare {target : ContactId × ChatId} (spares : SparesWaiting mail start)
    (fair : Fair ids (WaitedIn start) Nobody start)
    (success : (prepare mail).run start = .ok (some target) db) :
    Receiving ids mail start target.1 db := by
  obtain ⟨_, looked, fromField, ⟨_, impossible, _⟩ | ⟨_, _, _, rfl, isTarget, placed⟩⟩ :=
    prepare_eq_ok success
  · cases impossible
  · cases isTarget
    obtain ⟨receiving, known⟩ := receiving_fromField spares (fair.of_fairView (by rfl)) (by rfl)
      (by rfl) fromField
    exact (receiving_place spares known).of_ok receiving placed

theorem fair_prepare_none (fair : Fair ids (WaitedIn start) Nobody start)
    (success : (prepare mail).run start = .ok none db) : Fair ids (WaitedIn start) Nobody db := by
  obtain ⟨_, looked, fromField, ⟨rfl, _, rfl⟩ | ⟨_, _, _, _, impossible, _⟩⟩ :=
    prepare_eq_ok success
  · rw [fromField_eq_none fromField]
    exact fair.of_fairView rfl
  · cases impossible

theorem stored_updateLastSeen (id : ContactId) (timestamp : Int) :
    Preserves (fun db => Fair ids (WaitedIn start) Nobody db ∧ Stored mail fromId msgId db)
      (updateLastSeen id timestamp) := by
  refine Preserves.bind (Preserves.ensure _ _) fun _ => Preserves.exec ?_
  rintro db ⟨fair, stored⟩
  refine ⟨fair.sameTrust (stable_waitedIn start) stable_nobody fun _ => rfl, ?_, stored.unique⟩
  exact stored.sender.update (fun _ => rfl) (fun _ => rfl) fun _ _ _ filled named => ⟨filled, named⟩

theorem fair_storeMessage {target : ContactId × MsgId} (spares : SparesWaiting mail start)
    (fair : Fair ids (WaitedIn start) Nobody start)
    (success : (storeMessage mail now).run start = .ok (some target) db) :
    Fair ids (WaitsNow start mail target.1) Nobody db := by
  obtain ⟨impossible, _⟩ | ⟨_, fromId, chatId, placed, seen, isTarget, prepared, sees, hooked⟩ :=
    storeMessage_eq_ok success
  · cases impossible
  · cases isTarget
    obtain ⟨fairInserted, stored⟩ :=
      stored_insertMsg (receiving_prepare spares fair prepared) chatId now
    obtain ⟨fairSeen, storedSeen⟩ := (Preserves.onlyIf _ (stored_updateLastSeen fromId
      mail.timestampSent)).of_ok ⟨fairInserted, stored⟩ sees
    rw [← stateAfter_of_ok hooked]
    exact fair_hooks fairSeen storedSeen now

theorem fair_storeMessage_none (fair : Fair ids (WaitedIn start) Nobody start)
    (success : (storeMessage mail now).run start = .ok none db) :
    Fair ids (WaitedIn start) Nobody db := by
  obtain ⟨_, rfl | prepared⟩ | ⟨_, _, _, _, _, impossible, _⟩ := storeMessage_eq_ok success
  · exact fair
  · exact fair_prepare_none fair prepared
  · cases impossible

theorem fair_adopt (spares : SparesWaiting mail start)
    (fair : Fair ids (WaitsNow start mail fromId) Nobody db) :
    Fair ids (WaitsNow start mail fromId) Nobody (stateAfter (adopt mail) db) := by
  unfold adopt
  split
  next key unsigned advertised =>
    rw [stateAfter_query_bind]
    split
    next => exact fair
    next foreign =>
      rw [Bool.or_eq_true, not_or] at foreign
      refine Preserves.bind (fun db fair => ?_) (fun _ => Preserves.pure _) db fair
      refine fair.addOrLookupExt stable_waitsNow stable_nobody _ (by decide) fun _ => ?_
      have unknown : ¬Origin.incomingUnknownFrom.isKnown = true := by decide
      refine ⟨by simpa using foreign.1, fun known => absurd known unknown,
        fun known => absurd known unknown, ?_⟩
      rintro _ contact (waited | ⟨_, isSender⟩) isKey updates
      · exact stays_of_staysPut (spares.advertised key advertised) waited isKey updates
      · rw [unsigned] at isSender
        exact absurd (isKey.symm.trans isSender) key.fingerprint_ne_nil
  next => exact fair

theorem fair_receive {result : Option MsgId} (spares : SparesWaiting mail start)
    (shape : Shape ids start) (none : NobodyTrusted start)
    (success : (Reception.receive mail now).run start = .ok result db) :
    Shape ids db ∧ NobodyTrusted db := by
  have fair := Fair.of_nobodyTrusted shape none
  unfold Reception.receive at success
  obtain ⟨stored, middle, run, rest⟩ := bind_eq_ok.mp success
  cases stored with
  | none =>
    obtain ⟨_, rfl⟩ := pure_eq_ok.mp rest
    have fairStored := fair_storeMessage_none fair run
    exact ⟨fairStored.shape, fairStored.nobodyTrusted⟩
  | some target =>
    have fairStored := fair_storeMessage spares fair run
    obtain ⟨_, _, structured, rest⟩ := bind_eq_ok.mp rest
    cases structured
    obtain ⟨_, _, adopted, rest⟩ := bind_eq_ok.mp rest
    cases adopted
    obtain ⟨_, rfl⟩ := pure_eq_ok.mp rest
    have fairStructured : Fair ids (WaitsNow start mail target.1) Nobody
        (storeStructured target.2 mail.structured middle) := fairStored.of_fairView rfl
    have fairAdopted := fair_adopt spares fairStructured
    exact ⟨fairAdopted.shape, fairAdopted.nobodyTrusted⟩

end Receive

end Eeemail.StrangerMail
