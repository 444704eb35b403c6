import Eeemail.HoldAgreement
import Eeemail.ContactTable

/-! # Held mail is mail of strangers

A person is trusted by what their own row says or because another row with the
same address vouches for it.  `Fair` says who may have held mail and which of
those may be trusted while a change of trust is still under way; once nobody
may, no held message has a trusted sender.  Here is what single writes to the
contacts, and a release, do to it. -/

set_option autoImplicit false

namespace Eeemail.Strangers

open Lib.Texts Lib.Actions Lib.Tables Store Labels ReservedLabels Contacts Gating Frames
open ContactTable

variable {a b addr : Text} {contact row : Contact} {id : ContactId} {p : Contact → Bool}
variable {f : Contact → Contact} {origin : Origin}

/-! ## Trust and waiting -/

def Waits (id : ContactId) (db : Db) : Prop :=
  ∃ held ∈ db.heldMsgs, ∃ msg ∈ db.msgs, msg.id = held.msgId ∧ msg.fromId = id

instance (id : ContactId) (db : Db) : Decidable (Waits id db) :=
  inferInstanceAs (Decidable (∃ held ∈ db.heldMsgs, ∃ msg ∈ db.msgs, _))

def NobodyTrusted (db : Db) : Prop :=
  ∀ held ∈ db.heldMsgs, ∀ msg ∈ db.msgs, msg.id = held.msgId → isTrusted msg.fromId db = false

instance (db : Db) : Decidable (NobodyTrusted db) :=
  inferInstanceAs (Decidable (∀ held ∈ db.heldMsgs, ∀ msg ∈ db.msgs, _))

structure Vouches (addr : Text) (contact : Contact) : Prop where
  addr : nocaseEq contact.addr addr = true
  real : ContactId.lastSpecial < contact.id
  unblocked : contact.blocked = false
  known : contact.origin.isKnown = true

def Earned (contact : Contact) : Prop := contact.origin.isKnown = true ∨ contact.verifier ≠ 0

theorem nocaseEq_refl (a : Text) : nocaseEq a a = true := nocaseEq_iff.mpr rfl

theorem nocaseEq_symm (same : nocaseEq a b = true) : nocaseEq b a = true :=
  nocaseEq_iff.mpr (nocaseEq_iff.mp same).symm

theorem nocaseEq_trans {c : Text} (left : nocaseEq a b = true) (right : nocaseEq b c = true) :
    nocaseEq a c = true := nocaseEq_iff.mpr ((nocaseEq_iff.mp left).trans (nocaseEq_iff.mp right))

theorem ne_nil_of_nocaseEq (same : nocaseEq a b = true) (filled : b ≠ []) : a ≠ [] := by
  rintro rfl
  exact filled (List.map_eq_nil_iff.mp (nocaseEq_iff.mp same).symm)

theorem Vouches.congr (vouches : Vouches a contact) (same : nocaseEq a b = true) :
    Vouches b contact :=
  ⟨nocaseEq_trans vouches.addr same, vouches.real, vouches.unblocked, vouches.known⟩

section Trust

variable {db : Db}

theorem mem_samePerson :
    id ∈ samePerson contact db ↔
      contact.addr ≠ [] ∧ ∃ other ∈ db.contacts, other.id = id ∧ other.id ≠ contact.id ∧
        nocaseEq other.addr contact.addr = true ∧ ContactId.lastSpecial < other.id ∧
        other.blocked = false := by
  unfold samePerson
  split
  next blank => simp [List.isEmpty_iff.mp blank]
  next filled =>
    rw [List.isEmpty_iff] at filled
    simp only [List.mem_map, List.mem_filter, Bool.and_eq_true, bne_iff_ne, decide_eq_true_eq,
      Bool.not_eq_true', ne_eq, filled, not_false_eq_true, true_and]
    constructor
    · rintro ⟨other, ⟨member, ⟨⟨addr, differs⟩, real⟩, unblocked⟩, isId⟩
      exact ⟨other, member, isId, differs, addr, real, unblocked⟩
    · rintro ⟨other, member, isId, differs, addr, real, unblocked⟩
      exact ⟨other, ⟨member, ⟨⟨addr, differs⟩, real⟩, unblocked⟩, isId⟩

theorem isTrusted_iff (ok : ContactsOk db) (member : contact ∈ db.contacts) :
    isTrusted contact.id db = true ↔
      contact.id = ContactId.self ∨ Earned contact ∨
        (contact.addr ≠ [] ∧ ∃ other ∈ db.contacts, other.id ≠ contact.id ∧
          Vouches contact.addr other) := by
  have vouched : ((samePerson contact db).any fun other => isKnownRow other db) = true ↔
      contact.addr ≠ [] ∧ ∃ other ∈ db.contacts, other.id ≠ contact.id ∧
        Vouches contact.addr other := by
    rw [List.any_eq_true]
    constructor
    · rintro ⟨id, isSame, known⟩
      obtain ⟨filled, other, otherMember, rfl, differs, addr, real, unblocked⟩ :=
        mem_samePerson.mp isSame
      rw [isKnownRow, ok.contactById otherMember] at known
      exact ⟨filled, other, otherMember, differs, addr, real, unblocked, known⟩
    · rintro ⟨filled, other, otherMember, differs, addr, real, unblocked, known⟩
      refine ⟨other.id, mem_samePerson.mpr
        ⟨filled, other, otherMember, rfl, differs, addr, real, unblocked⟩, ?_⟩
      rw [isKnownRow, ok.contactById otherMember]
      exact known
  unfold isTrusted
  rw [ok.contactById member]
  simp only [Bool.or_eq_true, beq_iff_eq, vouched, isVerified, bne_iff_ne, Earned]
  tauto

theorem isTrusted_congr {db' : Db} (same : db'.contacts = db.contacts) (id : ContactId) :
    isTrusted id db' = isTrusted id db := by
  simp only [isTrusted, isKnownRow, samePerson, Db.contactById, same]

end Trust

/-! ## The invariant -/

structure RowsOk (db : Db) : Prop where
  chat_ids_nodup : (db.chats.map (·.id)).Nodup
  chat_ids_lt : ∀ chat ∈ db.chats, chat.id < db.nextChatId
  msgs_lt : ∀ msg ∈ db.msgs, msg.id < db.nextMsgId
  held_lt : ∀ row ∈ db.heldMsgs, row.msgId < db.nextMsgId

def rowsView (db : Db) := (db.chats, db.nextChatId, db.msgs, db.nextMsgId)

theorem RowsOk.of_rowsView {db db' : Db} (rows : RowsOk db) (same : rowsView db' = rowsView db)
    (held : ∀ row ∈ db'.heldMsgs, row ∈ db.heldMsgs) : RowsOk db' := by
  simp only [rowsView, Prod.mk.injEq] at same
  obtain ⟨chats, nextChat, msgs, nextMsg⟩ := same
  refine ⟨?_, ?_, ?_, ?_⟩
  · rw [chats]
    exact rows.chat_ids_nodup
  · rw [chats, nextChat]
    exact rows.chat_ids_lt
  · rw [msgs, nextMsg]
    exact rows.msgs_lt
  · rw [nextMsg]
    exact fun row member => rows.held_lt row (held row member)

/-- Special contacts have no key, and no address either but for the device,
which is known. -/
def SpecialOk (contact : Contact) : Prop :=
  contact.id ≤ ContactId.lastSpecial → contact.fingerprint = [] ∧
    (contact.addr = [] ∨ (contact.id = ContactId.device ∧ contact.origin.isKnown = true))

section

variable [Unicode]

/-- What every account guarantees: the reserved labels are there, ids are in
order, and held mail is mail of contacts. -/
structure Shape (ids : Text → LabelId) (db : Db) : Prop where
  labels : LabelsOk ids db
  contacts : ContactsOk db
  special : ∀ contact ∈ db.contacts, SpecialOk contact
  rows : RowsOk db
  waits : ∀ id, Waits id db → ContactId.lastSpecial < id ∧ id < db.nextContactId

/-- Whose mail waits, and who of them may be trusted by now. -/
structure Fair (ids : Text → LabelId) (waiting exempt : Contact → Prop) (db : Db) : Prop where
  shape : Shape ids db
  waits : ∀ contact ∈ db.contacts, Waits contact.id db → waiting contact
  trusted : ∀ contact ∈ db.contacts, Waits contact.id db → isTrusted contact.id db = true →
    exempt contact

end

/-- The same row later: its address may be written in another case, its origin
may be higher. -/
structure Follows (old new : Contact) : Prop where
  id : new.id = old.id
  addr : nocaseEq new.addr old.addr = true
  blocked : new.blocked = old.blocked
  fingerprint : new.fingerprint = old.fingerprint
  origin : old.origin.value ≤ new.origin.value

theorem Follows.refl (contact : Contact) : Follows contact contact :=
  ⟨rfl, nocaseEq_refl _, rfl, rfl, Nat.le_refl _⟩

theorem Follows.trans {first second third : Contact} (left : Follows first second)
    (right : Follows second third) : Follows first third :=
  ⟨right.id.trans left.id, nocaseEq_trans right.addr left.addr, right.blocked.trans left.blocked,
    right.fingerprint.trans left.fingerprint, left.origin.trans right.origin⟩

def Stable (P : Contact → Prop) : Prop := ∀ old new, Follows old new → P old → P new

def Nobody : Contact → Prop := fun _ => False

theorem stable_nobody : Stable Nobody := fun _ _ _ none => none

/-- The contacts whose mail was held at the start, as they are now. -/
def WaitedIn (start : Db) (contact : Contact) : Prop :=
  ∃ old ∈ start.contacts, Waits old.id start ∧ Follows old contact

theorem stable_waitedIn (start : Db) : Stable (WaitedIn start) := by
  rintro old new follows ⟨first, member, waits, earlier⟩
  exact ⟨first, member, waits, earlier.trans follows⟩

section Fairness

variable [Unicode] {ids : Text → LabelId} {waiting exempt : Contact → Prop} {db db' : Db}

theorem Fair.of_nobodyTrusted (shape : Shape ids db) (none : NobodyTrusted db) :
    Fair ids (WaitedIn db) Nobody db := by
  refine ⟨shape, ?_, ?_⟩
  · intro contact member waits
    exact ⟨contact, member, waits, .refl contact⟩
  · rintro contact member ⟨held, isHeld, msg, isMsg, same, isFrom⟩ trusted
    have untrusted := none held isHeld msg isMsg same
    rw [isFrom, trusted] at untrusted
    cases untrusted

theorem Fair.nobodyTrusted (fair : Fair ids waiting Nobody db) : NobodyTrusted db := by
  intro held isHeld msg isMsg same
  have waits : Waits msg.fromId db := ⟨held, isHeld, msg, isMsg, same, rfl⟩
  cases found : db.contactById msg.fromId with
  | some contact =>
    obtain ⟨member, isFrom⟩ := contactById_eq_some found
    rw [← isFrom] at waits ⊢
    exact Bool.eq_false_iff.mpr fun trusted => fair.trusted contact member waits trusted
  | none =>
    have real := (fair.shape.waits _ waits).1
    have other : msg.fromId ≠ ContactId.self := by
      intro self
      rw [self] at real
      exact absurd real (by decide)
    simp [isTrusted, found, other]

theorem Fair.weaken {waiting' exempt' : Contact → Prop} (fair : Fair ids waiting exempt db)
    (wider : ∀ contact, waiting contact → waiting' contact)
    (spared : ∀ contact ∈ db.contacts, Waits contact.id db → exempt contact → exempt' contact) :
    Fair ids waiting' exempt' db :=
  ⟨fair.shape, fun contact member waits => wider contact (fair.waits contact member waits),
    fun contact member waits trusted =>
      spared contact member waits (fair.trusted contact member waits trusted)⟩

theorem Fair.of_calm (fair : Fair ids waiting exempt db)
    (contacts : contactsView db' = contactsView db) (labels : labelView db' = labelView db)
    (rows : RowsOk db') (calm : ∀ id, Waits id db' → Waits id db) :
    Fair ids waiting exempt db' := by
  obtain ⟨sameContacts, sameNext⟩ := Prod.mk.inj contacts
  refine ⟨⟨fair.shape.labels.of_labelView labels, fair.shape.contacts.of_contactsView contacts,
    ?_, rows, ?_⟩, ?_, ?_⟩
  · rw [sameContacts]
    exact fair.shape.special
  · intro id waits
    rw [sameNext]
    exact fair.shape.waits id (calm id waits)
  · intro contact member waits
    rw [sameContacts] at member
    exact fair.waits contact member (calm _ waits)
  · intro contact member waits trusted
    rw [sameContacts] at member
    rw [isTrusted_congr sameContacts] at trusted
    exact fair.trusted contact member (calm _ waits) trusted

def fairView (db : Db) :=
  (contactsView db, labelView db, db.chats, db.nextChatId, db.msgs, db.nextMsgId, db.heldMsgs)

omit [Unicode] in
theorem waits_congr (msgs : db'.msgs = db.msgs) (held : db'.heldMsgs = db.heldMsgs)
    (id : ContactId) : Waits id db' ↔ Waits id db := by
  unfold Waits
  rw [msgs, held]

section

variable (fair : Fair ids waiting exempt db)

include fair

theorem Fair.of_fairView (same : fairView db' = fairView db) : Fair ids waiting exempt db' := by
  simp only [fairView, Prod.mk.injEq] at same
  obtain ⟨contacts, labels, chats, nextChat, msgs, nextMsg, held⟩ := same
  refine fair.of_calm contacts labels (fair.shape.rows.of_rowsView ?_ fun row => held ▸ id)
    fun id => (waits_congr msgs held id).mp
  simp only [rowsView, chats, nextChat, msgs, nextMsg]

omit fair in
theorem fair_of_keeps {α : Type} {x : DbAction α} (keeps : Keeps fairView x) :
    Preserves (Fair ids waiting exempt) x :=
  Preserves.of_keeps (fun _ _ same fair => fair.of_fairView same) keeps

/-! ## Writes to chats and messages -/

theorem Fair.msgs {msgs : List Message} {next : MsgId} (grows : db.nextMsgId ≤ next)
    (old : ∀ msg ∈ msgs, (∃ old ∈ db.msgs, old.id = msg.id ∧ old.fromId = msg.fromId) ∨
      (msg.id < next ∧ ∀ row ∈ db.heldMsgs, row.msgId ≠ msg.id)) :
    Fair ids waiting exempt { db with msgs, nextMsgId := next } := by
  have rows := fair.shape.rows
  refine fair.of_calm rfl rfl ⟨rows.chat_ids_nodup, rows.chat_ids_lt, ?_, ?_⟩ ?_
  · intro msg member
    rcases old msg member with ⟨before, isBefore, same, _⟩ | ⟨below, _⟩
    · exact same ▸ Nat.lt_of_lt_of_le (rows.msgs_lt before isBefore) grows
    · exact below
  · exact fun row member => Nat.lt_of_lt_of_le (rows.held_lt row member) grows
  · rintro id ⟨held, isHeld, msg, isMsg, same, isFrom⟩
    rcases old msg isMsg with ⟨before, isBefore, sameId, sameFrom⟩ | ⟨_, unheld⟩
    · exact ⟨held, isHeld, before, isBefore, sameId.trans same, sameFrom.trans isFrom⟩
    · exact absurd same.symm (unheld held isHeld)

theorem Fair.addMsg {msg : Message} (next : msg.id = db.nextMsgId) :
    Fair ids waiting exempt
      { db with msgs := db.msgs ++ [msg], nextMsgId := db.nextMsgId + 1 } := by
  refine fair.msgs (Nat.le_succ _) fun added member => ?_
  rcases List.mem_append.mp member with old | new
  · exact Or.inl ⟨added, old, rfl, rfl⟩
  · rw [List.mem_singleton.mp new, next]
    exact Or.inr ⟨Nat.lt_succ_self _,
      fun row isRow => Nat.ne_of_lt (fair.shape.rows.held_lt row isRow)⟩

theorem Fair.updateMsgs {p : Message → Bool}
    {f : Message → Message} (keepsId : ∀ msg, (f msg).id = msg.id)
    (keepsFrom : ∀ msg, (f msg).fromId = msg.fromId) :
    Fair ids waiting exempt { db with msgs := updateWhere p f db.msgs } := by
  refine fair.msgs (Nat.le_refl _) fun msg member => ?_
  obtain ⟨old, isOld, rfl⟩ := mem_updateWhere.mp member
  refine Or.inl ⟨old, isOld, ?_⟩
  split
  · exact ⟨(keepsId old).symm, (keepsFrom old).symm⟩
  · exact ⟨rfl, rfl⟩

theorem Fair.updateChats {p : Chat → Bool} {f : Chat → Chat}
    (keepsId : ∀ chat, (f chat).id = chat.id) :
    Fair ids waiting exempt { db with chats := updateWhere p f db.chats } := by
  have rows := fair.shape.rows
  refine fair.of_calm rfl rfl ⟨?_, ?_, rows.msgs_lt, rows.held_lt⟩ fun _ waits => waits
  · rw [map_updateWhere keepsId]
    exact rows.chat_ids_nodup
  · intro chat member
    obtain ⟨old, isOld, rfl⟩ := mem_updateWhere.mp member
    have below := rows.chat_ids_lt old isOld
    split
    · exact (keepsId old).symm ▸ below
    · exact below

theorem Fair.addChat {chat : Chat} (next : chat.id = db.nextChatId) :
    Fair ids waiting exempt
      { db with chats := db.chats ++ [chat], nextChatId := db.nextChatId + 1 } := by
  have rows := fair.shape.rows
  refine fair.of_calm rfl rfl ⟨?_, ?_, rows.msgs_lt, rows.held_lt⟩ fun _ waits => waits
  · refine nodup_map_append rows.chat_ids_nodup ?_
    intro old member
    rw [next]
    exact Nat.ne_of_lt (rows.chat_ids_lt old member)
  · intro added member
    rcases List.mem_append.mp member with old | new
    · exact Nat.lt_succ_of_lt (rows.chat_ids_lt added old)
    · rw [List.mem_singleton.mp new, next]
      exact Nat.lt_succ_self _

end

theorem Shape.of_besidesContacts (shape : Shape ids db)
    (same : besidesContacts db' = besidesContacts db) (ok : ContactsOk db')
    (special : ∀ contact ∈ db'.contacts, SpecialOk contact)
    (next : db.nextContactId ≤ db'.nextContactId) : Shape ids db' := by
  have labels : labelView db' = labelView db :=
    congrArg (fun db => (db.labels, db.nextLabelId)) same
  have msgs : db'.msgs = db.msgs := congrArg (·.msgs) same
  have held : db'.heldMsgs = db.heldMsgs := congrArg (·.heldMsgs) same
  have rows := congrArg rowsView same
  refine ⟨shape.labels.of_labelView labels, ok, special,
    shape.rows.of_rowsView rows fun row => held ▸ id, fun id waits => ?_⟩
  obtain ⟨real, below⟩ := shape.waits id ((waits_congr msgs held id).mp waits)
  exact ⟨real, Nat.lt_of_lt_of_le below next⟩

/-- An update of contacts that moves nobody who waits, and by which only the
exempt become trusted. -/
structure Harmless (waiting exempt : Contact → Prop) (p : Contact → Bool) (f : Contact → Contact)
    (db : Db) : Prop where
  id : ∀ contact, (f contact).id = contact.id
  special : ∀ contact ∈ db.contacts, p contact = true → SpecialOk (f contact)
  stays : ∀ contact ∈ db.contacts, p contact = true → Waits contact.id db →
    nocaseEq (f contact).addr contact.addr = true ∧ (waiting contact → waiting (f contact)) ∧
      (exempt contact → exempt (f contact))
  earned : ∀ contact ∈ db.contacts, p contact = true → Waits contact.id db →
    Earned (f contact) → Earned contact ∨ exempt contact
  vouches : ∀ other ∈ db.contacts, p other = true → ∀ contact ∈ db.contacts,
    Waits contact.id db → contact.addr ≠ [] → Vouches contact.addr (f other) →
      Vouches contact.addr other ∨ exempt contact

theorem Fair.update (fair : Fair ids waiting exempt db)
    (harmless : Harmless waiting exempt p f db) :
    Fair ids waiting exempt { db with contacts := updateWhere p f db.contacts } := by
  have ok : ContactsOk { db with contacts := updateWhere p f db.contacts } :=
    fair.shape.contacts.update harmless.id
  have sameId : ∀ old : Contact, (if p old then f old else old).id = old.id := by
    intro old
    split
    · exact harmless.id old
    · rfl
  have stays : ∀ old ∈ db.contacts, Waits old.id db →
      nocaseEq (if p old then f old else old).addr old.addr = true ∧
        (waiting old → waiting (if p old then f old else old)) ∧
        (exempt old → exempt (if p old then f old else old)) := by
    intro old member waits
    split
    next changed => exact harmless.stays old member changed waits
    next => exact ⟨nocaseEq_refl _, id, id⟩
  refine ⟨fair.shape.of_besidesContacts rfl ok ?_ (Nat.le_refl _), ?_, ?_⟩
  · intro contact member
    obtain ⟨old, oldMember, rfl⟩ := mem_updateWhere.mp member
    split
    next changed => exact harmless.special old oldMember changed
    next => exact fair.shape.special old oldMember
  · intro contact member waits
    obtain ⟨old, oldMember, rfl⟩ := mem_updateWhere.mp member
    rw [sameId] at waits
    exact (stays old oldMember waits).2.1 (fair.waits old oldMember waits)
  · intro contact member waits trusted
    rw [isTrusted_iff ok member] at trusted
    obtain ⟨old, oldMember, rfl⟩ := mem_updateWhere.mp member
    rw [sameId] at waits trusted
    obtain ⟨sameAddr, _, stillExempt⟩ := stays old oldMember waits
    have before : isTrusted old.id db = true → exempt (if p old then f old else old) :=
      fun was => stillExempt (fair.trusted old oldMember waits was)
    rw [isTrusted_iff fair.shape.contacts oldMember] at before
    rcases trusted with self | earned | ⟨filled, other, otherMember, differs, vouches⟩
    · exact before (Or.inl self)
    · split at earned
      next changed =>
        rcases harmless.earned old oldMember changed waits earned with was | isExempt
        · exact before (Or.inr (Or.inl was))
        · exact stillExempt isExempt
      next => exact before (Or.inr (Or.inl earned))
    · obtain ⟨voucher, voucherMember, rfl⟩ := mem_updateWhere.mp otherMember
      rw [sameId] at differs
      have oldFilled := ne_nil_of_nocaseEq (nocaseEq_symm sameAddr) filled
      have vouchesOld := vouches.congr sameAddr
      split at vouchesOld
      next changed =>
        rcases harmless.vouches voucher voucherMember changed old oldMember waits oldFilled
          vouchesOld with did | isExempt
        · exact before (Or.inr (Or.inr ⟨oldFilled, voucher, voucherMember, differs, did⟩))
        · exact stillExempt isExempt
      next => exact before (Or.inr
        (Or.inr ⟨oldFilled, voucher, voucherMember, differs, vouchesOld⟩))

theorem Fair.append (fair : Fair ids waiting exempt db) (next : row.id = db.nextContactId)
    (vouches : ∀ contact ∈ db.contacts, Waits contact.id db → Vouches contact.addr row →
      exempt contact) :
    Fair ids waiting exempt
      { db with contacts := db.contacts ++ [row], nextContactId := db.nextContactId + 1 } := by
  have ok : ContactsOk
      { db with contacts := db.contacts ++ [row], nextContactId := db.nextContactId + 1 } :=
    fair.shape.contacts.append next
  have isOld : ∀ contact ∈ db.contacts ++ [row], Waits contact.id db → contact ∈ db.contacts := by
    intro contact member waits
    rcases List.mem_append.mp member with old | new
    · exact old
    · rw [List.mem_singleton.mp new, next] at waits
      exact absurd (fair.shape.waits _ waits).2 (lt_irrefl _)
  refine ⟨fair.shape.of_besidesContacts rfl ok ?_ (Nat.le_succ _), ?_, ?_⟩
  · intro contact member isSpecial
    rcases List.mem_append.mp member with old | new
    · exact fair.shape.special contact old isSpecial
    · rw [List.mem_singleton.mp new, next] at isSpecial
      exact absurd fair.shape.contacts.next_real (Nat.not_lt.mpr isSpecial)
  · exact fun contact member waits => fair.waits contact (isOld contact member waits) waits
  · intro contact member waits trusted
    have oldMember := isOld contact member waits
    rw [isTrusted_iff ok member] at trusted
    have before := fair.trusted contact oldMember waits
    rw [isTrusted_iff fair.shape.contacts oldMember] at before
    rcases trusted with self | earned | ⟨filled, other, otherMember, differs, vouch⟩
    · exact before (Or.inl self)
    · exact before (Or.inr (Or.inl earned))
    · rcases List.mem_append.mp otherMember with old | new
      · exact before (Or.inr (Or.inr ⟨filled, other, old, differs, vouch⟩))
      · rw [List.mem_singleton.mp new] at vouch
        exact vouches contact oldMember waits vouch

/-! ### Looking up and adding -/

omit [Unicode] in
theorem isKnown_mono {low high : Origin} (le : low.value ≤ high.value)
    (known : low.isKnown = true) : high.isKnown = true := by
  simp only [Origin.isKnown, decide_eq_true_eq] at known ⊢
  exact known.trans le

omit [Unicode] in
theorem isKnown_mergeRow {name : Text}
    (known : (mergeRow name addr origin row).origin.isKnown = true) :
    row.origin.isKnown = true ∨ origin.isKnown = true := by
  simp only [mergeRow] at known
  split at known
  · exact Or.inr known
  · exact Or.inl known

omit [Unicode] in
theorem origin_le_mergeRow (name addr : Text) (origin : Origin) (row : Contact) :
    row.origin.value ≤ (mergeRow name addr origin row).origin.value := by
  simp only [mergeRow]
  split
  next lower => exact Nat.le_of_lt lower
  next => exact Nat.le_refl _

omit [Unicode] in
theorem follows_mergeRow {name : Text}
    (stays : updatesAddr addr origin row = true → nocaseEq row.addr addr = true) :
    Follows row (mergeRow name addr origin row) := by
  refine ⟨rfl, ?_, rfl, rfl, origin_le_mergeRow name addr origin row⟩
  simp only [mergeRow]
  split
  next updates => exact nocaseEq_symm (stays updates)
  next => exact nocaseEq_refl _

/-- A lookup with an origin that makes the contact known is one by address, and
whoever waits at that address is exempt; a lookup by key does not move a row
whose mail waits. -/
structure FairLookup (waiting exempt : Contact → Prop) (addr fingerprint : Text)
    (origin : Origin) : Prop where
  filled : addr ≠ []
  byAddress : origin.isKnown = true → fingerprint = []
  spared : origin.isKnown = true → ∀ contact, waiting contact →
    nocaseEq contact.addr addr = true → exempt contact
  stays : fingerprint ≠ [] → ∀ contact, waiting contact → contact.fingerprint = fingerprint →
    updatesAddr addr origin contact = true → nocaseEq contact.addr addr = true

omit [Unicode] in
theorem updatesAddr_mono {low high : Origin} (le : low.value ≤ high.value)
    (updates : updatesAddr addr low row = true) : updatesAddr addr high row = true := by
  simp only [updatesAddr, Bool.and_eq_true, decide_eq_true_eq] at updates ⊢
  exact ⟨updates.1.trans le, updates.2⟩

theorem adjusted_origin (name addr : Text) (origin : Origin) :
    (adjusted name addr origin).2 = origin ∨ (adjusted name addr origin).2 = .hidden := by
  unfold adjusted
  split
  · exact Or.inr rfl
  · exact Or.inl rfl

variable {fingerprint : Text}

theorem FairLookup.adjusted
    (lookup : FairLookup waiting exempt addr fingerprint origin)
    (le : Origin.hidden.value ≤ origin.value) (name : Text) :
    FairLookup waiting exempt addr fingerprint (adjusted name addr origin).2 := by
  rcases adjusted_origin name addr origin with same | hidden
  · rw [same]
    exact lookup
  · rw [hidden]
    have unknown : ¬Origin.hidden.isKnown = true := by decide
    exact ⟨lookup.filled, fun known => absurd known unknown, fun known => absurd known unknown,
      fun keyed contact waits isKey updates =>
        lookup.stays keyed contact waits isKey (updatesAddr_mono le updates)⟩

def trustRow (contact : Contact) :=
  (contact.id, contact.addr, contact.blocked, contact.fingerprint, contact.origin, contact.verifier)

omit [Unicode] in
theorem harmless_of_trustRow (waitingStable : Stable waiting) (exemptStable : Stable exempt)
    (same : ∀ contact, trustRow (f contact) = trustRow contact)
    (special : ∀ contact ∈ db.contacts, SpecialOk contact) : Harmless waiting exempt p f db := by
  simp only [trustRow, Prod.mk.injEq] at same
  have follows : ∀ contact, Follows contact (f contact) := by
    intro contact
    obtain ⟨id, addr, blocked, fingerprint, origin, _⟩ := same contact
    exact ⟨id, addr ▸ nocaseEq_refl _, blocked, fingerprint, origin ▸ Nat.le_refl _⟩
  refine ⟨fun contact => (follows contact).id, ?_, ?_, ?_, ?_⟩
  · intro contact member _
    obtain ⟨id, addr, _, fingerprint, origin, _⟩ := same contact
    rw [SpecialOk, id, addr, fingerprint, origin]
    exact special contact member
  · intro contact _ _ _
    exact ⟨(follows contact).addr, waitingStable _ _ (follows contact),
      exemptStable _ _ (follows contact)⟩
  · intro contact _ _ _ earned
    obtain ⟨_, _, _, _, origin, verifier⟩ := same contact
    rw [Earned, origin, verifier] at earned
    exact Or.inl earned
  · intro other _ _ contact _ _ _ vouches
    obtain ⟨id, addr, blocked, _, origin, _⟩ := same other
    exact Or.inl ⟨addr ▸ vouches.addr, id ▸ vouches.real, blocked ▸ vouches.unblocked,
      origin ▸ vouches.known⟩

def raisedTo (id : ContactId) (origin : Origin) (db : Db) : Db :=
  { db with
    contacts := updateWhere
      (fun contact => [id].contains contact.id && contact.origin.value < origin.value)
      (fun contact => { contact with origin }) db.contacts }

omit [Unicode] in
theorem exists_raisedTo (member : row ∈ db.contacts) (isId : row.id = id)
    (known : origin.isKnown = true) :
    ∃ raised ∈ (raisedTo id origin db).contacts, raised.id = id ∧ raised.addr = row.addr ∧
      raised.origin.isKnown = true := by
  refine ⟨_, mem_updateWhere.mpr ⟨row, member, rfl⟩, ?_⟩
  split
  next => exact ⟨isId, rfl, known⟩
  next unraised =>
    simp only [isId, List.contains_cons, beq_self_eq_true, Bool.true_or, Bool.true_and,
      decide_eq_true_eq, Nat.not_lt] at unraised
    exact ⟨isId, rfl, isKnown_mono unraised known⟩

section Stable

variable (fair : Fair ids waiting exempt db) (waitingStable : Stable waiting)
  (exemptStable : Stable exempt)

include fair waitingStable exemptStable

theorem Fair.harmless_mergeRow (name : Text)
    (lookup : FairLookup waiting exempt addr fingerprint origin)
    (found : rowFor addr fingerprint db = some row) :
    Harmless waiting exempt (fun contact => contact.id == row.id)
      (mergeRow name addr origin) db := by
  obtain ⟨member, isFingerprint⟩ := rowFor_eq_some found
  have isRow : ∀ contact ∈ db.contacts, (contact.id == row.id) = true → contact = row := by
    intro contact isContact same
    exact fair.shape.contacts.unique isContact member (by simpa using same)
  have atAddr : fingerprint = [] → nocaseEq row.addr addr = true := by
    rintro rfl
    exact rowFor_nocaseEq found
  refine ⟨fun _ => rfl, ?_, ?_, ?_, ?_⟩
  · intro contact isContact same isSpecial
    rw [isRow contact isContact same] at isSpecial ⊢
    obtain ⟨unkeyed, blankOrKnown⟩ := fair.shape.special row member isSpecial
    have filled := ne_nil_of_nocaseEq (atAddr (isFingerprint.symm.trans unkeyed)) lookup.filled
    obtain ⟨device, known⟩ := blankOrKnown.resolve_left filled
    exact ⟨unkeyed, Or.inr
      ⟨device, isKnown_mono (origin_le_mergeRow name addr origin row) known⟩⟩
  · intro contact isContact same waits
    rw [isRow contact isContact same] at waits ⊢
    have follows : Follows row (mergeRow name addr origin row) := by
      refine follows_mergeRow fun updates => ?_
      by_cases keyed : fingerprint = []
      · exact atAddr keyed
      · exact lookup.stays keyed row (fair.waits row member waits) isFingerprint updates
    exact ⟨follows.addr, waitingStable _ _ follows, exemptStable _ _ follows⟩
  · intro contact isContact same waits earned
    rw [isRow contact isContact same] at waits earned ⊢
    rcases earned with known | verified
    · rcases isKnown_mergeRow known with was | looked
      · exact Or.inl (Or.inl was)
      · exact Or.inr (lookup.spared looked row (fair.waits row member waits)
          (atAddr (lookup.byAddress looked)))
    · exact Or.inl (Or.inr verified)
  · intro other isOther same contact isContact waits _ vouches
    rw [isRow other isOther same] at vouches ⊢
    by_cases looked : origin.isKnown = true
    · refine Or.inr (lookup.spared looked contact (fair.waits contact isContact waits) ?_)
      exact nocaseEq_trans (nocaseEq_symm vouches.addr)
        (nocaseEq_mergeRow (atAddr (lookup.byAddress looked)))
    · -- The origin is too low to move a row that is known.
      have known := (isKnown_mergeRow vouches.known).resolve_right looked
      have unmoved : updatesAddr addr origin row = false := by
        simp only [updatesAddr, Bool.and_eq_false_imp, decide_eq_true_eq]
        intro le
        exact absurd (isKnown_mono le known) looked
      have sameAddr : (mergeRow name addr origin row).addr = row.addr := by
        simp [mergeRow, unmoved]
      exact Or.inl ⟨sameAddr ▸ vouches.addr, vouches.real, vouches.unblocked, known⟩

theorem Fair.insertOrMerge (name : Text)
    (lookup : FairLookup waiting exempt addr fingerprint origin) :
    Fair ids waiting exempt (insertOrMerge name addr fingerprint origin db).2 := by
  unfold Contacts.insertOrMerge
  split
  next row found =>
    exact fair.update (fair.harmless_mergeRow waitingStable exemptStable name lookup found)
  next =>
    refine fair.append rfl ?_
    intro contact isContact waits vouches
    exact lookup.spared vouches.known contact (fair.waits contact isContact waits)
      (nocaseEq_symm vouches.addr)

theorem Fair.addOrLookupExt (name : Text)
    (le : Origin.hidden.value ≤ origin.value)
    (lookup : isSelf addr fingerprint db = false →
      FairLookup waiting exempt addr fingerprint origin) :
    Fair ids waiting exempt (stateAfter (addOrLookupExt name addr fingerprint origin) db) := by
  refine stateAfter_addOrLookupExt fair fun other => ?_
  exact fair.insertOrMerge waitingStable exemptStable _ ((lookup other).adjusted le name)

theorem Fair.sameTrust (same : ∀ contact, trustRow (f contact) = trustRow contact) :
    Fair ids waiting exempt { db with contacts := updateWhere p f db.contacts } :=
  fair.update (harmless_of_trustRow waitingStable exemptStable same fair.shape.special)

theorem Fair.setAddr (filled : addr ≠ [])
    (moves : ∀ row ∈ db.contacts, row.id = id → nocaseEq row.addr addr = true ∨
      (ContactId.lastSpecial < id ∧ ¬Waits id db ∧
        (row.origin.isKnown = true → ∀ contact, waiting contact →
          nocaseEq contact.addr addr = false))) :
    Fair ids waiting exempt
      { db with
        contacts := updateWhere (fun contact => contact.id == id)
          (fun contact => { contact with addr }) db.contacts } := by
  refine fair.update ⟨fun _ => rfl, ?_, ?_, ?_, ?_⟩
  · intro contact member isId isSpecial
    rw [beq_iff_eq] at isId
    obtain ⟨unkeyed, blankOrKnown⟩ := fair.shape.special contact member isSpecial
    refine ⟨unkeyed, Or.inr ?_⟩
    rcases moves contact member isId with same | ⟨real, _⟩
    · exact blankOrKnown.resolve_left (ne_nil_of_nocaseEq same filled)
    · exact absurd real (Nat.not_lt.mpr (isId ▸ isSpecial))
  · intro contact member isId waits
    rw [beq_iff_eq] at isId
    rcases moves contact member isId with same | ⟨_, calm, _⟩
    · have follows : Follows contact { contact with addr } :=
        ⟨rfl, nocaseEq_symm same, rfl, rfl, Nat.le_refl _⟩
      exact ⟨follows.addr, waitingStable _ _ follows, exemptStable _ _ follows⟩
    · exact absurd (isId ▸ waits) calm
  · intro contact _ _ _ earned
    exact Or.inl earned
  · intro other isOther isId contact member waits _ vouches
    rw [beq_iff_eq] at isId
    rcases moves other isOther isId with same | ⟨_, _, clear⟩
    · exact Or.inl ⟨nocaseEq_trans same vouches.addr, vouches.real, vouches.unblocked,
        vouches.known⟩
    · have apart := clear vouches.known contact (fair.waits contact member waits)
      rw [nocaseEq_symm vouches.addr] at apart
      cases apart

theorem Fair.raise (id : ContactId) (origin : Origin)
    (spared : ∀ row ∈ db.contacts, row.id = id → id ≠ ContactId.self → ∀ contact, waiting contact →
      contact.id = id ∨ (contact.addr ≠ [] ∧ nocaseEq contact.addr row.addr = true) →
        exempt contact) :
    Fair ids waiting exempt (raisedTo id origin db) := by
  have chosen : ∀ contact : Contact,
      ([id].contains contact.id && decide (contact.origin.value < origin.value)) = true →
        contact.id = id ∧ contact.origin.value < origin.value := by
    intro contact raised
    simpa using raised
  refine fair.update ⟨fun _ => rfl, ?_, ?_, ?_, ?_⟩
  · intro contact member raised isSpecial
    obtain ⟨unkeyed, blankOrKnown⟩ := fair.shape.special contact member isSpecial
    exact ⟨unkeyed, blankOrKnown.imp_right (And.imp_right
      (isKnown_mono (Nat.le_of_lt (chosen contact raised).2)))⟩
  · intro contact _ raised _
    have follows : Follows contact { contact with origin } :=
      ⟨rfl, nocaseEq_refl _, rfl, rfl, Nat.le_of_lt (chosen contact raised).2⟩
    exact ⟨follows.addr, waitingStable _ _ follows, exemptStable _ _ follows⟩
  · intro contact member raised waits _
    have isId := (chosen contact raised).1
    refine Or.inr (spared contact member isId ?_ contact (fair.waits contact member waits)
      (Or.inl isId))
    rintro rfl
    exact absurd (isId ▸ (fair.shape.waits _ waits).1) (by decide)
  · intro other isOther raised contact member waits filled vouches
    have isId := (chosen other raised).1
    refine Or.inr (spared other isOther isId ?_ contact (fair.waits contact member waits)
      (Or.inr ⟨filled, nocaseEq_symm vouches.addr⟩))
    rintro rfl
    exact absurd (isId ▸ vouches.real) (by decide)

theorem Fair.verify {verifier : ContactId} (only : ∀ contact, p contact = true → contact.id = id)
    (spared : ∀ contact, waiting contact → contact.id = id → exempt contact) :
    Fair ids waiting exempt
      { db with
        contacts := updateWhere p (fun contact => { contact with verifier }) db.contacts } := by
  refine fair.update ⟨fun _ => rfl, ?_, ?_, ?_, ?_⟩
  · intro contact member _ isSpecial
    exact fair.shape.special contact member isSpecial
  · intro contact _ _ _
    have follows : Follows contact { contact with verifier } :=
      ⟨rfl, nocaseEq_refl _, rfl, rfl, Nat.le_refl _⟩
    exact ⟨follows.addr, waitingStable _ _ follows, exemptStable _ _ follows⟩
  · intro contact member isId waits _
    exact Or.inr (spared contact (fair.waits contact member waits) (only contact isId))
  · intro other _ _ contact _ _ _ vouches
    exact Or.inl ⟨vouches.addr, vouches.real, vouches.unblocked, vouches.known⟩

end Stable

theorem Fair.setBlocked (fair : Fair ids waiting exempt db) {blocked : Bool}
    (stays : ∀ contact, contact.id = id →
      (waiting contact → waiting { contact with blocked }) ∧
        (exempt contact → exempt { contact with blocked }))
    (spared : blocked = false → ∀ row ∈ db.contacts, row.id = id → row.origin.isKnown = true →
      ∀ contact ∈ db.contacts, Waits contact.id db → nocaseEq contact.addr row.addr = true →
        exempt contact) :
    Fair ids waiting exempt
      { db with
        contacts := updateWhere (fun contact => contact.id == id)
          (fun contact => { contact with blocked }) db.contacts } := by
  refine fair.update ⟨fun _ => rfl, ?_, ?_, ?_, ?_⟩
  · intro contact member _ isSpecial
    exact fair.shape.special contact member isSpecial
  · intro contact _ isId _
    exact ⟨nocaseEq_refl _, stays contact (by simpa using isId)⟩
  · intro contact _ _ _ earned
    exact Or.inl earned
  · intro other isOther isId contact member waits _ vouches
    exact Or.inr (spared vouches.unblocked other isOther (by simpa using isId) vouches.known
      contact member waits (nocaseEq_symm vouches.addr))

/-! ## Releasing -/

structure Freed (before after : Db) : Prop where
  outside : outsideHold after = outsideHold before
  held : ∀ row ∈ after.heldMsgs, row ∈ before.heldMsgs

omit [Unicode] in
theorem Freed.refl (db : Db) : Freed db db := ⟨rfl, fun _ member => member⟩

omit [Unicode] in
theorem Freed.trans {db'' : Db} (first : Freed db db') (second : Freed db' db'') : Freed db db'' :=
  ⟨second.outside.trans first.outside, fun row member => first.held row (second.held row member)⟩

omit [Unicode] in
theorem Freed.waits (freed : Freed db db') (waits : Waits id db') : Waits id db := by
  obtain ⟨held, isHeld, msg, isMsg, same, isFrom⟩ := waits
  have msgs : db'.msgs = db.msgs := congrArg (·.msgs) freed.outside
  exact ⟨held, freed.held held isHeld, msg, msgs ▸ isMsg, same, isFrom⟩

theorem Freed.labels (freed : Freed db db') (ok : LabelsOk ids db) : LabelsOk ids db' := by
  have same : labelView db' = labelView db :=
    congrArg (fun db => (db.labels, db.nextLabelId)) freed.outside
  exact ok.of_labelView same

theorem Fair.freed (fair : Fair ids waiting exempt db) (freed : Freed db db') :
    Fair ids waiting exempt db' := by
  have labels : labelView db' = labelView db :=
    congrArg (fun db => (db.labels, db.nextLabelId)) freed.outside
  have contacts : contactsView db' = contactsView db :=
    congrArg (fun db => (db.contacts, db.nextContactId)) freed.outside
  have rows := congrArg rowsView freed.outside
  exact fair.of_calm contacts labels (fair.shape.rows.of_rowsView rows freed.held)
    fun id waits => freed.waits waits

theorem freed_unhold (ok : LabelsOk ids db) (id : ContactId) :
    Freed db (stateAfter (unhold (heldFrom id db)) db) ∧
      ¬Waits id (stateAfter (unhold (heldFrom id db)) db) := by
  obtain ⟨items, done⟩ := unhold_run ok (heldFrom id db)
  rw [stateAfter_of_ok done]
  refine ⟨⟨rfl, fun row member => (mem_deleteWhere.mp member).1⟩, ?_⟩
  rintro ⟨held, isHeld, msg, isMsg, same, isFrom⟩
  obtain ⟨wasHeld, unlisted⟩ := mem_deleteWhere.mp isHeld
  have listed : held.msgId ∈ heldFrom id db := by
    refine List.mem_map.mpr ⟨held, List.mem_filter.mpr ⟨wasHeld, ?_⟩, rfl⟩
    exact List.any_eq_true.mpr ⟨msg, isMsg, by simp [same, isFrom]⟩
  simp [listed] at unlisted

theorem freed_releaseSenders (senders : List ContactId) (ok : LabelsOk ids db) :
    Freed db (stateAfter (releaseSenders senders) db) ∧
      ∀ id ∈ senders, ¬Waits id (stateAfter (releaseSenders senders) db) := by
  induction senders generalizing db with
  | nil => exact ⟨.refl db, fun id member => by cases member⟩
  | cons first rest ih =>
    obtain ⟨freed, gone⟩ := freed_unhold ok first
    obtain ⟨items, done⟩ := unhold_run ok (heldFrom first db)
    rw [stateAfter_of_ok done] at freed gone
    obtain ⟨more, restGone⟩ := ih (freed.labels ok)
    have whole : stateAfter (releaseSenders (first :: rest)) db = stateAfter (releaseSenders rest)
        (released (ids unverifiedName) (heldFrom first db) items db) := by
      rw [releaseSenders, stateAfter_query_bind, stateAfter_bind_of_ok done, stateAfter_bind_pure]
    rw [whole]
    refine ⟨freed.trans more, ?_⟩
    intro id member
    rcases List.mem_cons.mp member with rfl | isRest
    · exact fun waits => gone (more.waits waits)
    · exact restGone id isRest

theorem stateAfter_release (id : ContactId) :
    stateAfter (release [id]) db =
      if id != ContactId.self && isTrusted id db then
        stateAfter (releaseSenders (senderRows id db)) db
      else db := by
  have inner : stateAfter (release [id]) db = stateAfter (releaseTrusted id) db :=
    stateAfter_bind_pure (· + 0)
  rw [inner, releaseTrusted, stateAfter_query_bind, stateAfter_query_bind]
  split <;> rfl

theorem Fair.release_any (fair : Fair ids waiting exempt db) (id : ContactId) :
    Fair ids waiting exempt (stateAfter (release [id]) db) := by
  rw [stateAfter_release]
  split
  · exact fair.freed (freed_releaseSenders _ fair.shape.labels).1
  · exact fair

theorem Fair.release {wider : Contact → Prop} (fair : Fair ids waiting wider db)
    (notSelf : id ≠ ContactId.self)
    (same : ∀ contact ∈ db.contacts, waiting contact → isTrusted contact.id db = true →
      wider contact → exempt contact ∨ contact.id = id ∨
        ∃ row ∈ db.contacts, row.id = id ∧ isTrusted id db = true ∧ contact.addr ≠ [] ∧
          nocaseEq contact.addr row.addr = true ∧ contact.blocked = false) :
    Fair ids waiting exempt (stateAfter (release [id]) db) := by
  have freed := fair.release_any id
  refine ⟨freed.shape, freed.waits, ?_⟩
  intro contact member waits trusted
  have isWider := freed.trusted contact member waits trusted
  rw [stateAfter_release] at member waits trusted
  split at member
  next asked =>
    rw [if_pos asked] at waits trusted
    obtain ⟨free, gone⟩ := freed_releaseSenders (senderRows id db) fair.shape.labels
    have contacts : (stateAfter (releaseSenders (senderRows id db)) db).contacts = db.contacts :=
      congrArg (·.contacts) free.outside
    rw [contacts] at member
    rw [isTrusted_congr contacts] at trusted
    rcases same contact member (fair.waits contact member (free.waits waits)) trusted isWider with
      isExempt | isId | ⟨row, isRow, isId, _, filled, sameAddr, unblocked⟩
    · exact isExempt
    · exact absurd waits (gone contact.id (isId ▸ List.mem_cons_self))
    · refine absurd waits (gone contact.id ?_)
      by_cases itself : contact.id = id
      · exact itself ▸ List.mem_cons_self
      · refine List.mem_cons_of_mem _ ?_
        rw [← isId, fair.shape.contacts.contactById isRow]
        exact mem_samePerson.mpr ⟨ne_nil_of_nocaseEq (nocaseEq_symm sameAddr) filled, contact,
          member, rfl, isId ▸ itself, sameAddr, (fair.shape.waits _ (free.waits waits)).1,
          unblocked⟩
  next refused =>
    rw [if_neg refused] at waits trusted
    have untrusted : isTrusted id db = false := by
      simpa [notSelf] using refused
    rcases same contact member (fair.waits contact member waits) trusted isWider with
      isExempt | isId | ⟨_, _, _, isTrusted, _⟩
    · exact isExempt
    · rw [isId, untrusted] at trusted
      cases trusted
    · rw [untrusted] at isTrusted
      cases isTrusted

/-! ## Gaining trust -/

/-- The rows that become trusted with one: itself and the others of its address. -/
def Beside (id : ContactId) (db : Db) (contact : Contact) : Prop :=
  contact.id = id ∨
    ∃ row ∈ db.contacts, row.id = id ∧ contact.addr ≠ [] ∧ nocaseEq contact.addr row.addr = true

omit [Unicode] in
theorem stable_beside (id : ContactId) (db : Db) : Stable (Beside id db) := by
  rintro old new follows (isId | ⟨row, isRow, isId, filled, sameAddr⟩)
  · exact Or.inl (follows.id.trans isId)
  · exact Or.inr ⟨row, isRow, isId, ne_nil_of_nocaseEq follows.addr filled,
      nocaseEq_trans follows.addr sameAddr⟩

omit [Unicode] in
theorem stable_isId (id : ContactId) : Stable fun contact => contact.id = id :=
  fun _ _ follows isId => follows.id.trans isId

omit [Unicode] in
theorem Stable.or {P Q : Contact → Prop} (left : Stable P) (right : Stable Q) :
    Stable fun contact => P contact ∨ Q contact :=
  fun old new follows => Or.imp (left old new follows) (right old new follows)

/-- `id` is known by now, so its mail and that of its other rows is let in, also
if these were trusted before. -/
theorem Fair.scaleupOrigin_beside
    (fair : Fair ids waiting (fun contact => exempt contact ∨ Beside id db contact) db)
    (waitingStable : Stable waiting) (exemptStable : Stable exempt) (known : origin.isKnown = true)
    (notSelf : id ≠ ContactId.self)
    (unblocked : ∀ row ∈ db.contacts, row.id = id → ∀ contact, waiting contact →
      nocaseEq contact.addr row.addr = true → contact.blocked = false) :
    Fair ids waiting exempt (stateAfter (scaleupOrigin [id] origin) db) := by
  unfold Gating.scaleupOrigin
  rw [stateAfter_exec_bind, stateAfter_bestEffort]
  have raised := fair.raise waitingStable (exemptStable.or (stable_beside id db)) id origin
    fun row isRow isId _ contact _ near => Or.inr (near.imp_right fun both =>
      ⟨row, isRow, isId, both.1, both.2⟩)
  refine raised.release notSelf ?_
  rintro contact _ waits _ (isExempt | isId | ⟨row, isRow, isId, filled, sameAddr⟩)
  · exact Or.inl isExempt
  · exact Or.inr (Or.inl isId)
  · obtain ⟨raisedRow, isRaised, raisedId, raisedAddr, isKnown⟩ := exists_raisedTo isRow isId known
    have trusted := (isTrusted_iff raised.shape.contacts isRaised).mpr
      (Or.inr (Or.inl (Or.inl isKnown)))
    exact Or.inr (Or.inr ⟨raisedRow, isRaised, raisedId, raisedId ▸ trusted, filled,
      raisedAddr ▸ sameAddr, unblocked row isRow isId contact waits sameAddr⟩)

theorem Fair.scaleupOrigin (fair : Fair ids waiting exempt db) (waitingStable : Stable waiting)
    (exemptStable : Stable exempt) (known : origin.isKnown = true)
    (unblocked : id ≠ ContactId.self → ∀ row ∈ db.contacts, row.id = id → ∀ contact,
      waiting contact → nocaseEq contact.addr row.addr = true → contact.blocked = false) :
    Fair ids waiting exempt (stateAfter (scaleupOrigin [id] origin) db) := by
  by_cases self : id = ContactId.self
  · exact (fair.raise waitingStable exemptStable id origin fun _ _ _ other =>
      absurd self other).release_any id
  · have wide : Fair ids waiting (fun contact => exempt contact ∨ Beside id db contact) db :=
      fair.weaken (fun _ same => same) fun _ _ _ => Or.inl
    exact wide.scaleupOrigin_beside waitingStable exemptStable known self (unblocked self)

theorem Fair.verified (fair : Fair ids waiting exempt db) (waitingStable : Stable waiting)
    (exemptStable : Stable exempt) {verifier : ContactId}
    (only : ∀ contact, p contact = true → contact.id = id) (notSelf : id ≠ ContactId.self) :
    Fair ids waiting exempt (stateAfter (Gating.release [id])
      { db with
        contacts := updateWhere p (fun contact => { contact with verifier }) db.contacts }) := by
  have wide : Fair ids waiting (fun contact => exempt contact ∨ contact.id = id) db :=
    fair.weaken (fun _ same => same) fun _ _ _ => Or.inl
  refine Fair.release (wide.verify waitingStable (exemptStable.or (stable_isId id)) only
    fun _ _ isId => Or.inr isId) notSelf ?_
  rintro contact _ _ _ (isExempt | isId)
  · exact Or.inl isExempt
  · exact Or.inr (Or.inl isId)

end Fairness

end Eeemail.Strangers
