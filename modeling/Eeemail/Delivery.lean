import Eeemail.Outcome

/-! # Where a message goes

The envelope, the keys and the record of who was left out, told by what was
typed and by the database before the message was sent. -/

set_option autoImplicit false

namespace Eeemail.Delivery

open Lib.Texts Lib.Tables Addr Store Contacts Recipients Policy MimeFactory Sending
open ContactTable Addressees Drafting Queueing Outcome

section

variable [Unicode] {p : Text → Prop} {msgId : MsgId}

/-! ## What was typed -/

def headerAddresses (typed : List Text) : List Text :=
  ((typed.map trim).filter (!·.isEmpty)).map fun text => addrNormalize (splitAddr text).2

def typedAddresses (recipients : RecipientSet) : List Text :=
  headerAddresses (recipients.toAddrs ++ recipients.ccAddrs ++ recipients.bccAddrs)

theorem mem_headerAddresses_append {first second : List Text} {addr : Text} :
    addr ∈ headerAddresses (first ++ second) ↔
      addr ∈ headerAddresses first ∨ addr ∈ headerAddresses second := by
  simp only [headerAddresses, List.map_append, List.filter_append, List.mem_append]

theorem mem_addressees (kind : RecipientKind) {typed : List Text} {addr : Text} :
    addr ∈ (addressees kind typed).map (·.addr) ↔ addr ∈ headerAddresses typed := by
  rw [addressees, mem_firstPerAddr, headerAddresses]
  simp only [List.mem_map, List.mem_filterMap, List.mem_filter, recipientFor]
  constructor
  · rintro ⟨row, ⟨text, member, found⟩, rfl⟩
    split at found
    · cases found
    next filled =>
      injection found with same
      exact ⟨trim text, ⟨⟨text, member, rfl⟩, by simpa using filled⟩, by rw [← same]⟩
  · rintro ⟨_, ⟨⟨text, member, rfl⟩, filled⟩, rfl⟩
    refine ⟨_, ⟨text, member, if_neg ?_⟩, rfl⟩
    simpa using filled

theorem exists_addressee (kind : RecipientKind) {typed : List Text} :
    (∃ recipient ∈ addressees kind typed, p recipient.addr) ↔
      ∃ entry ∈ headerAddresses typed, p entry := by
  constructor
  · rintro ⟨recipient, member, holds⟩
    exact ⟨_, (mem_addressees kind).mp (List.mem_map_of_mem member), holds⟩
  · rintro ⟨entry, member, holds⟩
    obtain ⟨recipient, found, rfl⟩ := List.mem_map.mp ((mem_addressees kind).mpr member)
    exact ⟨recipient, found, holds⟩

/-! ## Where it goes -/

def relaysFor (addr : Text) (db : Db) : List Text :=
  match keyContactFor addr db with
  | some id =>
    match db.contactById id with
    | some contact => (memberOf contact db).relays
    | none => []
  | none => [addr]

/-- An addressee from one of these headers whom the contact of `addr` does not cover. -/
def IsExtra (typed : List Text) (addr : Text) (db : Db) (extra : Text) : Prop :=
  (∃ entry ∈ headerAddresses typed, addrNormalize entry = extra) ∧
    extra ∉ (relaysFor addr db).map addrNormalize

def ownCopies (encrypted : Bool) (db : Db) : List Text := envelope [] encrypted db

/-- Where a message goes: to ourselves if copies are on, to the addresses of the
contact of the first address, and to Cc and Bcc.  An encrypted message does not
go to those of Cc and Bcc for whom `lookup_key` finds no key. -/
def Destination (mail : Composition) (db : Db) (addr : Text) : Prop :=
  let primary := primaryOf mail
  let encrypted := willEncrypt mail.options.encryption primary db
  let copied := mail.recipients.ccAddrs ++ mail.recipients.bccAddrs
  addr ∈ ownCopies encrypted db ∨
    (toOurselves primary db = false ∧
      (addr ∈ relaysFor primary db ∨ IsExtra copied primary db addr) ∧
      (encrypted = true → IsExtra copied primary db addr → lookupKey addr db ≠ none))

/-- Whom an encrypted message is encrypted to, besides ourselves. -/
def KeyHolder (mail : Composition) (db : Db) (addr : Text) : Prop :=
  let primary := primaryOf mail
  toOurselves primary db = false ∧
    (addr = primary ∨
      (IsExtra (mail.recipients.ccAddrs ++ mail.recipients.bccAddrs) primary db addr ∧
        (lookupKey addr db).isSome = true))

omit [Unicode] in
theorem envelope_eq (recipients : List Text) (encrypted : Bool) (db : Db) :
    envelope recipients encrypted db = recipients ++ ownCopies encrypted db := by
  unfold ownCopies envelope
  split
  · simp
  · simp

/-! ## The envelope of an accepted message -/

variable {mail : Composition} {addr : Text} {db db' : Db} {member : Member}
  {extra : ExtraRecipients} {addressing : Addressing}

theorem relays_of_keyed (ok : ContactsOk db) (isMember : MemberFor addr db member)
    (keyed : (keyContactFor addr db).isSome = true) :
    member.relays = relaysFor addr db ∧ member.key.isSome = true ∧
      nocaseEq member.contact.addr addr = true := by
  cases isMember with
  | unkeyed unkeyed _ _ =>
    rw [unkeyed.1] at keyed
    cases keyed
  | keyed contact found isContact sameAddr sameKey hasKey =>
    obtain ⟨other, otherMember, sameId, _, otherAddr, _⟩ := keyContactFor_eq_some found
    have same : other = contact := ok.unique otherMember isContact sameId
    refine ⟨?_, hasKey, by rw [sameAddr, ← same]; exact otherAddr⟩
    rw [relaysFor, found]
    simp only [ok.contactById isContact, Member.relays, memberOf, sameAddr, sameKey]

theorem relays_of_unkeyed (isMember : MemberFor addr db member)
    (noKey : keyContactFor addr db = none) :
    member.relays = [member.contact.addr] ∧ relaysFor addr db = [addr] ∧
      nocaseEq member.contact.addr addr = true := by
  cases isMember with
  | keyed contact found _ _ _ _ =>
    rw [noKey] at found
    cases found
  | unkeyed unkeyed sameAddr memberKey =>
    refine ⟨?_, ?_, sameAddr⟩
    · rw [Member.relays, memberKey]
      rfl
    · rw [relaysFor, noKey]

theorem map_addrNormalize_relays (ok : ContactsOk db) (isMember : MemberFor addr db member) :
    member.relays.map addrNormalize = (relaysFor addr db).map addrNormalize := by
  cases known : keyContactFor addr db with
  | some id => rw [(relays_of_keyed ok isMember (by rw [known]; rfl)).1]
  | none =>
    obtain ⟨single, only, sameAddr⟩ := relays_of_unkeyed isMember known
    rw [single, only, List.map_singleton, List.map_singleton,
      addrNormalize_eq_of_nocaseEq sameAddr]

theorem nocaseEq_of_memberFor (ok : ContactsOk db) (isMember : MemberFor addr db member) :
    nocaseEq member.contact.addr addr = true := by
  cases known : keyContactFor addr db with
  | some id => exact (relays_of_keyed ok isMember (by rw [known]; rfl)).2.2
  | none => exact (relays_of_unkeyed isMember known).2.2

theorem mem_extra_iff (ok : ContactsOk db) (isMember : MemberFor addr db member)
    {ccAddrs bccAddrs : List Text}
    (isExtra : ExtraOf member.relays (addressees .cc ccAddrs) (addressees .bcc bccAddrs) db extra)
    (entry : Text) :
    entry ∈ extra.all.map (·.addr) ↔ IsExtra (ccAddrs ++ bccAddrs) addr db entry := by
  rw [isExtra.mem_all, map_addrNormalize_relays ok isMember, IsExtra]
  refine and_congr_left fun _ => ?_
  simp only [List.mem_append, or_and_right, exists_or, mem_headerAddresses_append]
  exact or_congr (exists_addressee .cc (p := fun text => addrNormalize text = entry))
    (exists_addressee .bcc (p := fun text => addrNormalize text = entry))

theorem mem_cc_iff (ok : ContactsOk db) (isMember : MemberFor addr db member)
    {ccAddrs : List Text} {bcc : List Store.Recipient}
    (isExtra : ExtraOf member.relays (addressees .cc ccAddrs) bcc db extra) (entry : Text) :
    entry ∈ extra.cc.map (·.addr) ↔ IsExtra ccAddrs addr db entry := by
  rw [isExtra.mem_cc, map_addrNormalize_relays ok isMember, IsExtra]
  exact and_congr_left fun _ => exists_addressee .cc (p := fun text => addrNormalize text = entry)

/-! Addresses are compared as the send path compares them, so what is said about
the envelope holds up to spelling. -/

def UpToSpelling (p : Text → Prop) : Prop := ∀ ⦃a b : Text⦄, SameAddr a b → p a → p b

theorem exists_recipient_iff (spelling : UpToSpelling p) (ok : ContactsOk db)
    (other : toOurselves (primaryOf mail) db = false)
    (isMember : MemberFor (primaryOf mail) db member)
    (isExtra : ExtraOf member.relays (addressees .cc mail.recipients.ccAddrs)
      (addressees .bcc mail.recipients.bccAddrs) db extra)
    (made : addressTo (willEncrypt mail.options.encryption (primaryOf mail) db) (some member) extra
      mail.importance = .ok addressing) :
    (∃ r ∈ addressing.recipients ++
        ownCopies (willEncrypt mail.options.encryption (primaryOf mail) db) db, p r) ↔
      ∃ r, Destination mail db r ∧ p r := by
  have isExtraAddr := mem_extra_iff ok isMember isExtra
  have keyed : willEncrypt mail.options.encryption (primaryOf mail) db = true →
      (keyContactFor (primaryOf mail) db).isSome = true := by
    simp only [willEncrypt, other, Bool.false_or, Bool.and_eq_true]
    exact And.right
  have inRecipients := mem_recipients_of_addressTo made
    (fun encrypted => (relays_of_keyed ok isMember (keyed encrypted)).2.1) isExtra.key_eq
  simp only [isExtraAddr] at inRecipients
  simp only [List.mem_append, inRecipients, Destination, other, true_and]
  cases known : keyContactFor (primaryOf mail) db with
  | some id =>
    rw [(relays_of_keyed ok isMember (by rw [known]; rfl)).1]
    simp only [or_comm]
  | none =>
    obtain ⟨single, only, sameAddr⟩ := relays_of_unkeyed isMember known
    have clear : willEncrypt mail.options.encryption (primaryOf mail) db = false := by
      simp [willEncrypt, other, known]
    have same := SameAddr.of_nocaseEq sameAddr
    simp only [single, only, clear, List.mem_singleton, Bool.false_eq_true, false_implies,
      and_true]
    constructor
    · rintro ⟨r, (rfl | isExtraAddr) | own, holds⟩
      · exact ⟨primaryOf mail, Or.inr (Or.inl rfl), spelling same holds⟩
      · exact ⟨r, Or.inr (Or.inr isExtraAddr), holds⟩
      · exact ⟨r, Or.inl own, holds⟩
    · rintro ⟨r, own | rfl | isExtraAddr, holds⟩
      · exact ⟨r, Or.inr own, holds⟩
      · exact ⟨member.contact.addr, Or.inl (Or.inl rfl), spelling same.symm holds⟩
      · exact ⟨r, Or.inl (Or.inr isExtraAddr), holds⟩

theorem exists_key_iff (spelling : UpToSpelling p) (ok : ContactsOk db)
    (other : toOurselves (primaryOf mail) db = false)
    (isMember : MemberFor (primaryOf mail) db member)
    (isExtra : ExtraOf member.relays (addressees .cc mail.recipients.ccAddrs)
      (addressees .bcc mail.recipients.bccAddrs) db extra)
    (keyed : member.key.isSome = true) :
    (∃ key ∈ memberKeys (some member) ++ extraKeys extra.all, p key.1) ↔
      ∃ addr, KeyHolder mail db addr ∧ p addr := by
  have inKeys := mem_keys_of_addressTo keyed rfl isExtra.key_eq
  simp only [mem_extra_iff ok isMember isExtra] at inKeys
  have same := SameAddr.of_nocaseEq (nocaseEq_of_memberFor ok isMember)
  simp only [KeyHolder, other, true_and]
  constructor
  · rintro ⟨key, found, holds⟩
    rcases (inKeys key.1).mp (List.mem_map_of_mem found) with isPrimary | isCopy
    · exact ⟨primaryOf mail, Or.inl rfl, spelling same (isPrimary ▸ holds)⟩
    · exact ⟨key.1, Or.inr isCopy, holds⟩
  · rintro ⟨addr, rfl | isCopy, holds⟩
    · obtain ⟨key, found, isAddr⟩ :=
        List.mem_map.mp ((inKeys member.contact.addr).mpr (Or.inl rfl))
      exact ⟨key, found, isAddr ▸ spelling same.symm holds⟩
    · obtain ⟨key, found, rfl⟩ := List.mem_map.mp ((inKeys addr).mpr (Or.inr isCopy))
      exact ⟨key, found, holds⟩

def Recorded (msgId : MsgId) (db : Db) (addr : Text) : Prop :=
  ∃ row ∈ db.msgUndelivered, row.msgId = msgId ∧ row.addr = addr

omit [Unicode] in
theorem recorded_iff {db : Db} {addr : Text} :
    Recorded msgId db addr ↔
      (msgId, addr) ∈ db.msgUndelivered.map fun row => (row.msgId, row.addr) := by
  simp [Recorded]

theorem recorded_recordUndelivered {addressed sentTo : List Text} {db : Db}
    (fresh : ∀ row ∈ db.msgUndelivered, row.msgId ≠ msgId) (addr : Text) :
    Recorded msgId (recordUndelivered msgId addressed sentTo db) addr ↔
      addr ∈ addressed ∧ lowercase addr ∉ sentTo.map lowercase := by
  rw [recorded_iff, recordUndelivered, mem_map_foldl_insertOrIgnore (MsgUndelivered.mk msgId)]
  have before : (msgId, addr) ∉ db.msgUndelivered.map fun row => (row.msgId, row.addr) := by
    intro member
    obtain ⟨row, isRow, same⟩ := List.mem_map.mp member
    exact fresh row isRow (Prod.mk.inj same).1
  simp [before]

theorem reached_or_recorded_iff (addressed sentTo : List Text) {db : Db}
    (fresh : ∀ row ∈ db.msgUndelivered, row.msgId ≠ msgId) {q : Text → Prop}
    (spelling : UpToSpelling p) (weaker : ∀ addr, p addr → q addr) :
    ((∃ r ∈ sentTo, q r) ∨
        ∃ addr, Recorded msgId (recordUndelivered msgId addressed sentTo db) addr ∧ p addr) ↔
      (∃ r ∈ sentTo, q r) ∨ ∃ addr ∈ addressed, p addr := by
  simp only [recorded_recordUndelivered fresh]
  constructor
  · rintro (reached | ⟨addr, ⟨member, _⟩, holds⟩)
    · exact Or.inl reached
    · exact Or.inr ⟨addr, member, holds⟩
  · rintro (reached | ⟨addr, member, holds⟩)
    · exact Or.inl reached
    · by_cases inEnvelope : lowercase addr ∈ sentTo.map lowercase
      · obtain ⟨r, isRecipient, same⟩ := List.mem_map.mp inEnvelope
        exact Or.inl ⟨r, isRecipient,
          weaker r (spelling (SameAddr.of_lowercase_eq same.symm) holds)⟩
      · exact Or.inr ⟨addr, ⟨member, inEnvelope⟩, holds⟩

/-! ## The rows of a message -/

omit [Unicode] in
theorem row_of_queueRows {rendered : Rendered} {recipients : List Text}
    {row : SmtpRow} (member : row ∈ queueRows msgId rendered recipients) :
    row.recipients = recipients ∧ recipients ≠ [] ∧
      row.mime ∈ rendered.pre.toList ++ [rendered.main] := by
  unfold queueRows at member
  split at member
  · cases member
  next some' =>
    obtain ⟨mime, isMime, rfl⟩ := List.mem_map.mp member
    exact ⟨rfl, by simpa using some', isMime⟩

theorem row_of_handled {row : SmtpRow}
    (handled : Handled msgId addressing db db') (fresh : ∀ row ∈ db.smtp, row.msgId ≠ msgId)
    (queued : row ∈ db'.smtp) (isRow : row.msgId = msgId) :
    row.recipients ≠ [] ∧
      row.recipients =
        addressing.recipients ++ ownCopies (addressing.encryption != .no) db ∧
      row.mime.encryption = addressing.encryption ∧
      db'.msgUndelivered =
        (recordUndelivered msgId (headerAddrs addressing) row.recipients db).msgUndelivered := by
  cases handled with
  | skipped _ _ smtp _ =>
    rw [smtp] at queued
    exact absurd isRow (fresh row queued)
  | queued rendered encryption smtp undelivered =>
    rw [smtp] at queued
    rcases List.mem_append.mp queued with old | new
    · exact absurd isRow (fresh row old)
    · obtain ⟨sameEnvelope, nonempty, isMime⟩ := row_of_queueRows new
      rw [sameEnvelope]
      refine ⟨nonempty, envelope_eq _ _ _, encryption _ isMime, undelivered⟩

omit [Unicode] in
theorem mem_ownCopies {encrypted : Bool} {fromAddr : Text}
    (configured : db.config.configuredAddr = some fromAddr) (some' : ownCopies encrypted db ≠ []) :
    fromAddr ∈ ownCopies encrypted db := by
  unfold ownCopies envelope at some' ⊢
  split at some'
  next copies =>
    rw [if_pos copies, configured]
    simp
  next => exact absurd rfl some'

/-- What is known of every row of an accepted message. -/
structure Delivered (mail : Composition) (db : Db) (msgId : MsgId) (db' : Db) (row : SmtpRow) :
    Prop where
  encrypted : row.mime.isEncrypted = willEncrypt mail.options.encryption (primaryOf mail) db
  envelope : ∀ {p : Text → Prop}, UpToSpelling p →
    ((∃ r ∈ row.recipients, p r) ↔ ∃ r, Destination mail db r ∧ p r)
  keys : ∀ {p : Text → Prop}, UpToSpelling p → ∀ {keys : List (Text × PublicKey)},
    row.mime.encryption = .asymmetric keys →
      ((∃ key ∈ keys, p key.1) ↔ ∃ addr, KeyHolder mail db addr ∧ p addr)

omit [Unicode] in
theorem encryption_bne_no_of_if {encrypted : Bool} {keys : List (Text × PublicKey)}
    {encryption : Encryption} (same : encryption = if encrypted then .asymmetric keys else .no) :
    (encryption != .no) = encrypted := by
  cases encrypted <;> simp [same]

theorem delivered_of_sent {row : SmtpRow} (ok : ContactsOk db)
    (sent : Sent mail (primaryOf mail) db msgId db') (fresh : ∀ row ∈ db.smtp, row.msgId ≠ msgId)
    (queued : row ∈ db'.smtp) (isRow : row.msgId = msgId) : Delivered mail db msgId db' row := by
  cases sent with
  | toSelf own fromAddr configured handled =>
    obtain ⟨_, envelope, encryption, _⟩ := row_of_handled handled fresh queued isRow
    have encrypted : willEncrypt mail.options.encryption (primaryOf mail) db = true := by
      simp [willEncrypt, own]
    refine ⟨?_, fun _ => ?_, fun _ keys isKeys => ?_⟩
    · rw [RenderedEmail.isEncrypted, encryption, encrypted]
      rfl
    · have isEncrypted : ((selfAddressing (db.config.displayname.getD []) fromAddr).encryption !=
          .no) = true := rfl
      rw [envelope, isEncrypted]
      simp [Destination, own, encrypted, selfAddressing]
    · have none' : keys = [] := by
        rw [encryption] at isKeys
        exact (Encryption.asymmetric.inj isKeys).symm
      simp [none', KeyHolder, own]
  | toMember other member isMember extra isExtra addressing made handled =>
    obtain ⟨_, envelope, encryption, _⟩ := row_of_handled handled fresh queued isRow
    obtain ⟨_, isEncryption, _⟩ := addressTo_eq_ok made
    have encrypted := encryption_bne_no_of_if isEncryption
    refine ⟨?_, fun spelling => ?_, fun spelling keys isKeys => ?_⟩
    · rw [RenderedEmail.isEncrypted, encryption, encrypted]
    · rw [envelope, encrypted]
      exact exists_recipient_iff spelling ok other isMember isExtra made
    · rw [encryption, isEncryption] at isKeys
      split at isKeys
      next willBe =>
        have keyed : (keyContactFor (primaryOf mail) db).isSome = true := by
          simp only [willEncrypt, other, Bool.false_or, Bool.and_eq_true] at willBe
          exact willBe.2
        rw [← Encryption.asymmetric.inj isKeys]
        exact exists_key_iff spelling ok other isMember isExtra
          (relays_of_keyed ok isMember keyed).2.1
      next => cases isKeys

variable {draws : Draws} {now : Int} {msgId : MsgId}

omit [Unicode] in
theorem fresh_of_sound (sound : Sound db) (isNew : db.nextMsgId ≤ msgId) :
    ∀ row ∈ db.smtp, row.msgId ≠ msgId :=
  fun row member => Nat.ne_of_lt (Nat.lt_of_lt_of_le (sound.queued_lt row member) isNew)

theorem delivered_of_send (sound : Sound db)
    (accepted : (send mail draws now).run db = .ok msgId db') :
    ∀ row ∈ db'.smtp, row.msgId = msgId → Delivered mail db msgId db' row := by
  intro row member isRow
  obtain ⟨sent, isNew, _⟩ := sent_of_send sound accepted
  exact delivered_of_sent sound.contacts sent (fresh_of_sound sound isNew) member isRow

def Queued (msgId : MsgId) (db : Db) : Prop := ∃ row ∈ db.smtp, row.msgId = msgId

end

end Eeemail.Delivery
