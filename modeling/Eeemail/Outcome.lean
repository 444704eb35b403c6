import Eeemail.Queueing

/-! # What an accepted message comes to

For every message that `compose::send` accepts: whether it is encrypted, who is
in its envelope, to which keys it is encrypted and who is recorded as left out,
all in terms of what was typed and of the database before. -/

set_option autoImplicit false

namespace Eeemail.Outcome

open Lib.Texts Lib.Actions Lib.Tables Addr Store Contacts Gating Recipients Policy Chats MimeFactory
open Sending Frames ContactTable KeyRows SendFrames Addressees Drafting Queueing

variable {db db' made : Db} {contact : Contact} {msg : Message} {chat : Chat} {u : Unit}
variable {mail : Composition} {draws : Draws} {now : Int} {msgId : MsgId} {chatId : ChatId}
variable {contactId : ContactId} {factory : Factory}

section

variable [Unicode] {start : Db} {allowed : Message} {primary : Text}

omit [Unicode] in
theorem keyContactFor_eq_some {addr : Text} {id : ContactId}
    (found : keyContactFor addr db = some id) :
    ∃ contact ∈ db.contacts, contact.id = id ∧ contact.isKeyContact = true ∧
      nocaseEq contact.addr addr = true ∧ ContactId.lastSpecial < id := by
  unfold keyContactFor at found
  obtain ⟨contact, best, rfl⟩ := Option.map_eq_some_iff.mp found
  have member := mem_of_latest best
  simp only [List.mem_filter, Bool.and_eq_true, decide_eq_true_eq, Bool.not_eq_true'] at member
  obtain ⟨isContact, ⟨⟨sameAddr, isKey⟩, real⟩, _⟩ := member
  exact ⟨contact, isContact, rfl, isKey, sameAddr, real⟩

omit [Unicode] in
theorem contactById_of_keysAre (keys : KeysAre (keyRows start) db)
    (member : contact ∈ start.contacts) (isKey : contact.isKeyContact = true) :
    ∃ row, db.contactById contact.id = some row ∧ keyPart row = keyPart contact ∧
      row.isKeyContact = true := by
  have kept : keyPart contact ∈ keyRows db := by
    rw [keys.2]
    exact List.mem_map.mpr ⟨contact, List.mem_filter.mpr ⟨member, isKey⟩, rfl⟩
  obtain ⟨row, rowMember, same⟩ := List.mem_map.mp kept
  obtain ⟨isRow, rowIsKey⟩ := List.mem_filter.mp rowMember
  have sameId : (keyPart row).id = (keyPart contact).id := congrArg Contact.id same
  rw [show contact.id = row.id from sameId.symm]
  exact ⟨row, keys.1.contactById isRow, same, rowIsKey⟩

/-- The member of the chat with the contact of an address. -/
inductive MemberFor (addr : Text) (db : Db) (member : Member) : Prop where
  | keyed (contact : Contact) (found : keyContactFor addr db = some contact.id)
      (isContact : contact ∈ db.contacts) (sameAddr : member.contact.addr = contact.addr)
      (sameKey : member.key = db.publicKeyFor contact.fingerprint)
      (hasKey : member.key.isSome = true)
  | unkeyed (unkeyed : Unkeyed addr db) (sameAddr : nocaseEq member.contact.addr addr = true)
      (noKey : member.key = none)

/-! ## Whether it is encrypted -/

def toOurselves (addr : Text) (db : Db) : Bool :=
  (keyContactFor addr db).isNone && isSelf addr [] db

/-- Whether a message to the contact of `addr` is encrypted: unless the padlock
says plaintext it is, if that contact has a key. -/
def willEncrypt (choice : EncryptionChoice) (addr : Text) (db : Db) : Bool :=
  toOurselves addr db || (choice != .plaintext && (keyContactFor addr db).isSome)

/-- What the policy makes of the padlock: the message as it may be sent. -/
inductive Allowed (choice : EncryptionChoice) (missing : List Text) (msg : Message) :
    Message → Prop where
  | plaintext (chosen : choice = .plaintext) :
      Allowed choice missing msg { msg with param := { msg.param with forcePlaintext := true } }
  | required (chosen : choice = .required) :
      Allowed choice missing msg { msg with param := { msg.param with guaranteeE2ee := true } }
  | unchanged (chosen : choice = .auto) : Allowed choice missing msg msg
  | assured (chosen : choice = .auto) (complete : missing = []) :
      Allowed choice missing msg { msg with param := { msg.param with guaranteeE2ee := true } }
  | lenient (chosen : choice = .auto) (incomplete : missing ≠ []) :
      Allowed choice missing msg { msg with param := { msg.param with forcePlaintext := true } }

theorem allowed_of_prepareSend {contacts : List ContactId}
    (success : (prepareSend msg contacts).run db = .ok allowed db') :
    Allowed (loadOptions msg.id db).encryption (missingKeys contacts db) msg allowed := by
  obtain ⟨made, _⟩ := (queryExcept_eq_ok _).mp success
  cases choice : (loadOptions msg.id db).encryption with
  | plaintext =>
    simp only [choice] at made
    split at made
    · cases made
    · injection made with same
      rw [← same]
      exact .plaintext rfl
  | required =>
    simp only [choice] at made
    injection made with same
    rw [← same]
    exact .required rfl
  | auto =>
    simp only [choice] at made
    split at made
    · split at made
      · injection made with same
        rw [← same]
        exact .unchanged rfl
      · split at made
        next complete =>
          injection made with same
          rw [← same]
          exact .assured rfl (List.isEmpty_iff.mp complete)
        next => cases made
    · injection made with same
      rw [← same]
      exact .unchanged rfl
    · split at made
      next incomplete =>
        injection made with same
        rw [← same]
        exact .lenient rfl incomplete.2
      next =>
        injection made with same
        rw [← same]
        exact .unchanged rfl

/-- Where the contacts of a chat are to be written to end-to-end encrypted only, the padlock
on automatic lets a message through that is held back later, or one for which no key is
missing. -/
theorem complete_of_prepareSend {contacts : List ContactId}
    (success : (prepareSend msg contacts).run db = .ok allowed db')
    (auto : (loadOptions msg.id db).encryption = .auto)
    (strict : EncryptionMode.effective contacts db = .strict) :
    (EncryptionMode.load db = .strict ∧ allowed = msg) ∨ missingKeys contacts db = [] := by
  obtain ⟨made, _⟩ := (queryExcept_eq_ok _).mp success
  simp only [auto, strict] at made
  split at made
  next always =>
    injection made with same
    exact Or.inl ⟨always, same.symm⟩
  next =>
    split at made
    next complete => exact Or.inr (List.isEmpty_iff.mp complete)
    next => cases made

omit [Unicode] in
theorem missingKeys_singleton (real : contact.id ≠ ContactId.self)
    (found : db.contactById contact.id = some contact) :
    missingKeys [contact.id] db = if contact.isKeyContact then [] else [contact.addr] := by
  simp only [missingKeys, List.filterMap_cons, if_neg real, found, List.filterMap_nil]
  split <;> simp_all

omit [Unicode] in
theorem encrypts_of_allowed {choice : EncryptionChoice} {later : Db}
    (real : ContactId.lastSpecial < contact.id) (partner : chat.contactId = contact.id)
    (found : db.contactById contact.id = some contact) (sameContacts : later.contacts = db.contacts)
    (fresh : msg.param.guaranteeE2ee = false ∧ msg.param.forcePlaintext = false)
    (isAllowed : Allowed choice (missingKeys [contact.id] db) msg allowed) :
    encrypts allowed chat later =
      (choice == .required || choice == .auto && contact.isKeyContact) := by
  have notSelf : contact.id ≠ ContactId.self := by
    intro same
    rw [same] at real
    exact absurd real (by decide)
  have notDevice : contact.id ≠ ContactId.device := by
    intro same
    rw [same] at real
    exact absurd real (by decide)
  have chatEncrypted : isEncrypted chat later = contact.isKeyContact := by
    have laterFound : later.contactById contact.id = some contact := by
      rw [Db.contactById, sameContacts]
      exact found
    simp [isEncrypted, isSelfTalk, isDeviceTalk, partner, notSelf, notDevice, laterFound]
  rw [missingKeys_singleton notSelf found] at isAllowed
  cases isAllowed with
  | plaintext chosen => simp [encrypts, chosen]
  | required chosen => simp [encrypts, chosen, fresh.2]
  | unchanged chosen => simp [encrypts, chosen, fresh.1, fresh.2, chatEncrypted]
  | assured chosen complete =>
    cases isKey : contact.isKeyContact with
    | true => simp [encrypts, chosen, fresh.2]
    | false => simp [isKey] at complete
  | lenient chosen incomplete =>
    cases isKey : contact.isKeyContact with
    | true => simp [isKey] at incomplete
    | false => simp [encrypts, chosen]

theorem keyed_of_check {recipients : RecipientSet} {options : SendOptions}
    (checked : (check recipients options).run db = .ok u db')
    (required : options.encryption = .required) :
    ∀ typed ∈ typedAddrs recipients,
      (keyContactFor (addrNormalize (splitAddr typed).2) db).isSome = true := by
  obtain ⟨passed, _⟩ := (queryExcept_eq_ok _).mp checked
  simp only [required] at passed
  split at passed
  next complete =>
    intro typed member
    simp only [readiness, List.isEmpty_iff, List.filter_eq_nil_iff, Option.isNone_iff_eq_none]
      at complete
    exact Option.isSome_iff_ne_none.mpr (complete typed member)
  next => cases passed

theorem primaryAddr_of_blank (blank : trim primary = []) : primaryAddr primary = [] := by
  have lower : lowercase (trim []) = [] := Unicode.lowercase_nil
  simp [primaryAddr, blank, splitAddr, rsplitOnce, addrNormalize, lower]

theorem keyed_of_required {rest : List Text} (typed : mail.recipients.toAddrs = primary :: rest)
    (checked : (check mail.recipients mail.options).run db = .ok u db')
    (required : mail.options.encryption = .required) (nonempty : primaryAddr primary ≠ []) :
    (keyContactFor (primaryAddr primary) db).isSome = true := by
  refine keyed_of_check checked required (trim primary) ?_
  have filled : trim primary ≠ [] := fun blank => nonempty (primaryAddr_of_blank blank)
  simp [typedAddrs, typed, filled]

theorem send_eq_ok (accepted : (send mail draws now).run db = .ok msgId db') :
    ∃ primary rest chatId msg drafted,
      mail.recipients.toAddrs = primary :: rest ∧
      (check mail.recipients mail.options).run db = .ok () db ∧
      (composeDraft mail primary draws now).run db = .ok (chatId, msg) drafted ∧
      (sendMsg chatId msg draws now).run drafted = .ok () db' ∧ msgId = msg.id := by
  unfold send at accepted
  obtain ⟨_, accepted⟩ := ensure_bind_eq_ok.mp accepted
  cases typed : mail.recipients.toAddrs with
  | nil =>
    simp only [typed] at accepted
    cases accepted
  | cons primary rest =>
    simp only [typed] at accepted
    obtain ⟨_, _, checked, accepted⟩ := bind_eq_ok.mp accepted
    obtain ⟨_, rfl⟩ := (queryExcept_eq_ok _).mp checked
    obtain ⟨⟨chatId, msg⟩, drafted, composed, accepted⟩ := bind_eq_ok.mp accepted
    obtain ⟨_, _, sent, accepted⟩ := bind_eq_ok.mp accepted
    obtain ⟨rfl, rfl⟩ := pure_eq_ok.mp accepted
    exact ⟨primary, rest, chatId, msg, drafted, rfl, checked, composed, sent, rfl⟩

/-! ## Up to the factory -/

def outsideChats (db : Db) : Db := { db with chats := [], msgs := [] }

omit [Unicode] in
theorem outsideChats_applyDefaultTimer (chatId : ChatId) (msgId : MsgId)
    (contacts : List ContactId) (db : Db) :
    outsideChats (applyDefaultTimer chatId msgId contacts db) = outsideChats db := by
  unfold applyDefaultTimer
  simp only
  split <;> rfl

omit [Unicode] in
theorem chatIs_applyDefaultTimer (has : ChatIs chatId contactId db) (other : ChatId) (msgId : MsgId)
    (contacts : List ContactId) :
    ChatIs chatId contactId (applyDefaultTimer other msgId contacts db) := by
  unfold Chats.applyDefaultTimer
  simp only
  split
  · exact has
  · exact has.update (fun _ => rfl) fun _ => rfl

theorem drafted_of_outsideChats (drafted : Drafted mail primary draws start contactId chatId msg db)
    (same : outsideChats db' = outsideChats db) (chat : ChatIs chatId contactId db') :
    Drafted mail primary draws start contactId chatId msg db' := by
  have sameContacts : contactsView db' = contactsView db :=
    (congrArg contactsView same : contactsView (outsideChats db') = contactsView (outsideChats db))
  have sameRecipients : db'.msgRecipients = db.msgRecipients := congrArg (·.msgRecipients) same
  have sameOptions : db'.msgSendOptions = db.msgSendOptions := congrArg (·.msgSendOptions) same
  have sameImportance : db'.msgImportance = db.msgImportance := congrArg (·.msgImportance) same
  have sameOutside : outsideCompose (outsideChats db') = outsideCompose (outsideChats db) :=
    congrArg outsideCompose same
  refine ⟨drafted.partner, fun unkeyed => ?_, drafted.keys.of_contactsView sameContacts,
    sameOutside.trans drafted.outside, chat, drafted.fresh, drafted.message, fun kind => ?_, ?_, ?_⟩
  · exact (addressInvariant_addressRow _ _).ofView sameContacts (drafted.row unkeyed)
  · rw [loadKind, sameRecipients]
    exact drafted.headers kind
  · rw [loadOptions, sameOptions]
    exact drafted.options
  · rw [importanceOf, sameImportance]
    exact drafted.importance

def sentMessage (chat : Chat) (msg : Message) (now : Int) (db : Db) : Message :=
  (prepareMsgRaw chat (outgoing msg now) now db).1

def timedDb (chat : Chat) (msg : Message) (now : Int) (db : Db) : Db :=
  applyDefaultTimer chat.id msg.id [chat.contactId] (prepareMsgRaw chat (outgoing msg now) now db).2

omit [Unicode] in
theorem outsideChats_timedDb (chat : Chat) (msg : Message) (now : Int) (db : Db) :
    outsideChats (timedDb chat msg now db) = outsideChats db := by
  rw [timedDb, outsideChats_applyDefaultTimer]
  rfl

omit [Unicode] in
theorem Allowed.same {choice : EncryptionChoice} {missing : List Text}
    (isAllowed : Allowed choice missing msg allowed) :
    allowed.id = msg.id ∧ allowed.chatId = msg.chatId := by
  cases isAllowed <;> exact ⟨rfl, rfl⟩

structure Built (chat : Chat) (msg : Message) (choice : EncryptionChoice) (now : Int) (db : Db)
    (allowed : Message) (factory : Factory) (made db' : Db) : Prop where
  sendable : whyCantSend chat false db = none
  isAllowed : Allowed choice (missingKeys [chat.contactId] db) (sentMessage chat msg now db) allowed
  built : (fromMsg allowed now).run (timedDb chat msg now db) = .ok factory made
  handled : Handled msg.id factory.addressing made db'

theorem sendMsg_stages (success : (sendMsg chatId msg draws now).run db = .ok u db') :
    ∃ chat allowed factory made, db.chatById chatId = some chat ∧ chat.id = chatId ∧
      whyCantSend chat false db = none ∧
      Allowed (loadOptions msg.id db).encryption (missingKeys [chat.contactId] db)
        (sentMessage chat msg now db) allowed ∧
      ((loadOptions msg.id db).encryption = .auto →
        EncryptionMode.effective [chat.contactId] db = .strict →
          (EncryptionMode.load db = .strict ∧ allowed = sentMessage chat msg now db) ∨
            missingKeys [chat.contactId] db = []) ∧
      (fromMsg allowed now).run (timedDb chat msg now db) = .ok factory made ∧
      (renderAndQueue factory (needsEncryption allowed db) draws now).run made = .ok u db' := by
  obtain ⟨chat, found, sendable, jobs⟩ := sendMsg_eq_ok success
  have isChat : chat.id = chatId := by simpa using List.find?_some found
  subst isChat
  obtain ⟨allowed, factory, made, prepared, built, queued⟩ := createSendMsgJobs_eq_ok jobs
  have contacts : ((prepareMsgRaw chat (outgoing msg now) now db).2.chatById
      (prepareMsgRaw chat (outgoing msg now) now db).1.chatId).toList.map (·.contactId) =
      [chat.contactId] := by
    have same : (prepareMsgRaw chat (outgoing msg now) now db).2.chatById
        (prepareMsgRaw chat (outgoing msg now) now db).1.chatId = some chat := found
    rw [same]
    rfl
  rw [contacts] at prepared built
  have isAllowed : Allowed (loadOptions msg.id db).encryption (missingKeys [chat.contactId] db)
      (sentMessage chat msg now db) allowed := allowed_of_prepareSend prepared
  refine ⟨chat, allowed, factory, made, found, rfl, sendable, isAllowed,
    complete_of_prepareSend prepared, ?_, queued⟩
  have sameId : allowed.id = msg.id := isAllowed.same.1
  have sameChat : allowed.chatId = chat.id := isAllowed.same.2
  rw [sameId, sameChat] at built
  exact built

/-- Who an accepted message was made for, and what became of it.  All of it is
told by the database before: the keys are those that were known then. -/
inductive Sent (mail : Composition) (addr : Text) (db : Db) (msgId : MsgId) (db' : Db) : Prop where
  | toSelf (own : toOurselves addr db = true) (fromAddr : Text)
      (configured : db.config.configuredAddr = some fromAddr)
      (handled : Handled msgId (selfAddressing (db.config.displayname.getD []) fromAddr) db db')
  | toMember (other : toOurselves addr db = false) (member : Member)
      (isMember : MemberFor addr db member) (extra : ExtraRecipients)
      (isExtra : ExtraOf member.relays (addressees .cc mail.recipients.ccAddrs)
        (addressees .bcc mail.recipients.bccAddrs) db extra)
      (addressing : Addressing)
      (made : addressTo (willEncrypt mail.options.encryption addr db) (some member) extra
        mail.importance = .ok addressing)
      (handled : Handled msgId addressing db db')

/-- The addressing of an accepted message, told by the database before. -/
inductive Addressed (mail : Composition) (addr : Text) (db : Db) (addressing : Addressing) :
    Prop where
  | toSelf (own : toOurselves addr db = true) (fromAddr : Text)
      (configured : db.config.configuredAddr = some fromAddr)
      (made : addressing = selfAddressing (db.config.displayname.getD []) fromAddr)
  | toMember (other : toOurselves addr db = false) (member : Member)
      (isMember : MemberFor addr db member) (extra : ExtraRecipients)
      (isExtra : ExtraOf member.relays (addressees .cc mail.recipients.ccAddrs)
        (addressees .bcc mail.recipients.bccAddrs) db extra)
      (made : addressTo (willEncrypt mail.options.encryption addr db) (some member) extra
        mail.importance = .ok addressing)

theorem sent_of_addressed {addr : Text} {addressing : Addressing}
    (addressed : Addressed mail addr db addressing) (handled : Handled msgId addressing db db') :
    Sent mail addr db msgId db' := by
  cases addressed with
  | toSelf own fromAddr configured made =>
    subst made
    exact .toSelf own fromAddr configured handled
  | toMember other member isMember extra isExtra made =>
    exact .toMember other member isMember extra isExtra addressing made handled

omit [Unicode] in
theorem lookupKey_of_keysAre (keys : KeysAre (keyRows start) db)
    (sameKeys : db.publicKeys = start.publicKeys) (addr : Text) :
    lookupKey addr db = lookupKey addr start := by
  rw [lookupKey_eq, lookupKey_eq, keys.2]
  simp only [Db.publicKeyFor, sameKeys]

section

variable (drafted : Drafted mail primary draws start contactId chatId msg db)

include drafted

theorem extraOf_of_drafted (already : List Text) :
    ExtraOf already (addressees .cc mail.recipients.ccAddrs)
      (addressees .bcc mail.recipients.bccAddrs) start (extraRecipients msg.id already db) := by
  have loaded : load msg.id db = addressees .to mail.recipients.toAddrs ++
      addressees .cc mail.recipients.ccAddrs ++ addressees .bcc mail.recipients.bccAddrs := by
    rw [load, drafted.headers, drafted.headers, drafted.headers]
    rfl
  have found := extraOf_extraRecipients already loaded kind_of_mem_addressees
    kind_of_mem_addressees kind_of_mem_addressees
  refine ⟨found.mem_cc, found.mem_all, fun entry member => ?_⟩
  rw [found.key_eq entry member]
  exact lookupKey_of_keysAre drafted.keys (congrArg (·.publicKeys) drafted.outside) _

theorem drafted_scaleupOrigin {ids : List ContactId}
    {origin : Origin} (raised : (scaleupOrigin ids origin).run db = .ok u db') :
    Drafted mail primary draws start contactId chatId msg db' := by
  have same : outsideContacts db' = outsideContacts db :=
    (keeps_scaleupOrigin ids origin).of_ok raised
  have sameChats : db'.chats = db.chats := congrArg (·.chats) same
  have sameRecipients : db'.msgRecipients = db.msgRecipients := congrArg (·.msgRecipients) same
  have sameOptions : db'.msgSendOptions = db.msgSendOptions := congrArg (·.msgSendOptions) same
  have sameImportance : db'.msgImportance = db.msgImportance := congrArg (·.msgImportance) same
  have sameOutside : outsideCompose db' = outsideCompose db :=
    (congrArg outsideCompose same :
      outsideCompose (outsideContacts db') = outsideCompose (outsideContacts db))
  refine ⟨drafted.partner, fun unkeyed => ?_, ?_, sameOutside.trans drafted.outside,
    drafted.chat.of_chats sameChats, drafted.fresh, drafted.message, fun kind => ?_, ?_, ?_⟩
  · exact ((addressInvariant_addressRow _ _).preserves_scaleupOrigin _ _).of_ok
      (drafted.row unkeyed) raised
  · exact ((addressInvariant_keysAre _).preserves_scaleupOrigin _ _).of_ok drafted.keys raised
  · rw [loadKind, sameRecipients]
    exact drafted.headers kind
  · rw [loadOptions, sameOptions]
    exact drafted.options
  · rw [importanceOf, sameImportance]
    exact drafted.importance

theorem handled_of_drafted {addressing : Addressing}
    (handled : Handled msg.id addressing db db') : Handled msg.id addressing start db' :=
  handled.of_same (congrArg (·.config) drafted.outside)
    (congrArg queueView drafted.outside :
      queueView (outsideCompose db) = queueView (outsideCompose start))

theorem drafted_timed (chat : Chat) (now : Int) :
    Drafted mail primary draws start contactId chatId msg (timedDb chat msg now db) :=
  drafted_of_outsideChats drafted (outsideChats_timedDb chat msg now db)
    (chatIs_applyDefaultTimer
      (drafted.chat.of_chats (by rfl :
        (prepareMsgRaw chat (outgoing msg now) now db).2.chats = db.chats)) _ _ _)

end

omit [Unicode] in
theorem contactId_of_chatIs (has : ChatIs chatId contactId db)
    (found : db.chatById chatId = some chat) : chat.contactId = contactId := by
  obtain ⟨other, otherFound, partner⟩ := has
  rw [otherFound] at found
  injection found with same
  rw [← same, partner]

/-- What is known of a message before it is rendered. -/
structure Staged (mail : Composition) (primary : Text) (draws : Draws) (start : Db)
    (msg : Message) (addressing : Addressing) (made : Db) : Prop where
  addressed : Addressed mail (primaryAddr primary) start addressing
  drafted : ∃ contactId chatId, Drafted mail primary draws start contactId chatId msg made

theorem staged_toMember (drafted : Drafted mail primary draws start contactId chat.id msg db)
    (built : Built chat msg mail.options.encryption now db allowed factory made db')
    (other : toOurselves (primaryAddr primary) start = false)
    (real : ContactId.lastSpecial < contactId) (partner : chat.contactId = contactId)
    (found : db.contactById contactId = some contact)
    (isMember : MemberFor (primaryAddr primary) start (memberOf contact db))
    (encrypted : (mail.options.encryption == .required ||
        mail.options.encryption == .auto && contact.isKeyContact) =
      willEncrypt mail.options.encryption (primaryAddr primary) start) :
    Staged mail primary draws start msg factory.addressing made := by
  have timed := drafted_timed drafted chat now
  obtain ⟨sameId, sameChat⟩ := built.isAllowed.same
  obtain ⟨laterChat, fromAddr, addressing, row, laterFound, _, addressed, _, rfl⟩ :=
    fromMsg_eq_ok built.built
  have sameChat : allowed.chatId = chat.id := sameChat
  rw [sameChat] at laterFound
  have laterPartner := contactId_of_chatIs timed.chat laterFound
  have sameContacts : (timedDb chat msg now db).contacts = db.contacts :=
    congrArg (·.contacts) (outsideChats_timedDb chat msg now db)
  have sameKeys : (timedDb chat msg now db).publicKeys = db.publicKeys :=
    congrArg (·.publicKeys) (outsideChats_timedDb chat msg now db)
  have isId : contact.id = contactId := (contactById_eq_some found).2
  have laterReal : ContactId.lastSpecial < laterChat.contactId := laterPartner ▸ real
  rcases addressed with ⟨selfTalk, _⟩ | ⟨_, addressed⟩
  · simp only [isSelfTalk, beq_iff_eq] at selfTalk
    rw [selfTalk] at laterReal
    exact absurd laterReal (by decide)
  · obtain ⟨laterContact, laterContactFound, raised, madeFor⟩ :=
      memberAddressing_eq_ok laterReal addressed
    have laterSame : laterContact = contact := by
      rw [laterPartner, Db.contactById, sameContacts] at laterContactFound
      exact Option.some.inj (laterContactFound.symm.trans found)
    subst laterSame
    have memberSame : memberOf laterContact (timedDb chat msg now db) =
        memberOf laterContact db := by
      simp only [memberOf, Db.publicKeyFor, sameKeys]
    have afterRaise := drafted_scaleupOrigin timed raised
    have sameId : allowed.id = msg.id := sameId
    have fresh : (sentMessage chat msg now db).param.guaranteeE2ee = false ∧
        (sentMessage chat msg now db).param.forcePlaintext = false := ⟨rfl, rfl⟩
    have isAllowed := built.isAllowed
    rw [partner, ← isId] at isAllowed
    have decided := encrypts_of_allowed (isId ▸ real) (laterPartner.trans isId.symm)
      (isId ▸ found) sameContacts fresh isAllowed
    rw [decided, encrypted, memberSame, sameId, afterRaise.importance] at madeFor
    exact ⟨.toMember other _ isMember _ (extraOf_of_drafted afterRaise _) madeFor,
      _, _, afterRaise⟩

omit [Unicode] in
theorem whyCantSend_eq_none (sendable : whyCantSend chat false db = none) :
    isDeviceTalk chat = false ∧ lacksKey chat db = false := by
  unfold whyCantSend at sendable
  split at sendable
  · cases sendable
  · split at sendable
    · cases sendable
    next noDevice =>
      split at sendable
      · cases sendable
      · split at sendable
        · cases sendable
        next hasKey => exact ⟨by simpa using noDevice, by simpa using hasKey⟩

theorem staged_toKeyContact (drafted : Drafted mail primary draws start contactId chat.id msg db)
    (built : Built chat msg mail.options.encryption now db allowed factory made db')
    (partner : chat.contactId = contactId)
    (keyed : keyContactFor (primaryAddr primary) start = some contactId) :
    Staged mail primary draws start msg factory.addressing made := by
  obtain ⟨contact, member, rfl, isKey, sameAddr, real⟩ := keyContactFor_eq_some keyed
  obtain ⟨row, found, same, rowIsKey⟩ := contactById_of_keysAre drafted.keys member isKey
  have rowAddr : (keyPart row).addr = (keyPart contact).addr := congrArg Contact.addr same
  have rowFingerprint : (keyPart row).fingerprint = (keyPart contact).fingerprint :=
    congrArg Contact.fingerprint same
  have rowId := (contactById_eq_some found).2
  have notSelf : row.id ≠ ContactId.self := by
    intro self
    rw [← rowId, self] at real
    exact absurd real (by decide)
  have hasKey : (db.publicKeyFor row.fingerprint).isSome = true := by
    have lacks := (whyCantSend_eq_none built.sendable).2
    simp only [lacksKey, partner, found, Option.any_some, rowIsKey, Bool.true_and, publicKey,
      beq_iff_eq, notSelf, if_false, if_true] at lacks
    simpa using lacks
  have sameKeys : db.publicKeys = start.publicKeys := congrArg (·.publicKeys) drafted.outside
  refine staged_toMember drafted built ?_ real partner found ?_ ?_
  · simp [toOurselves, keyed]
  · refine .keyed contact keyed member rowAddr ?_ hasKey
    have fingerprint : row.fingerprint = contact.fingerprint := rowFingerprint
    simp only [memberOf, fingerprint, Db.publicKeyFor, sameKeys]
  · cases choice : mail.options.encryption <;> simp [willEncrypt, toOurselves, keyed, rowIsKey]

theorem staged_toAddressContact {rest : List Text}
    (typed : mail.recipients.toAddrs = primary :: rest)
    (checked : (check mail.recipients mail.options).run start = .ok u start)
    (drafted : Drafted mail primary draws start contactId chat.id msg db)
    (built : Built chat msg mail.options.encryption now db allowed factory made db')
    (partner : chat.contactId = contactId) (unkeyed : Unkeyed (primaryAddr primary) start)
    (nonempty : primaryAddr primary ≠ [])
    (real : contactId = ContactId.device ∨ ContactId.lastSpecial < contactId) :
    Staged mail primary draws start msg factory.addressing made := by
  have noDevice := (whyCantSend_eq_none built.sendable).1
  rw [isDeviceTalk, partner, beq_eq_false_iff_ne] at noDevice
  obtain ⟨ok, row, member, rfl, noFingerprint, sameAddr⟩ := drafted.row unkeyed
  have noKey : start.publicKeyFor [] = none :=
    List.find?_eq_none.mpr fun key _ => by simpa using key.fingerprint_ne_nil
  have sameKeys : db.publicKeys = start.publicKeys := congrArg (·.publicKeys) drafted.outside
  refine staged_toMember drafted built ?_ (real.resolve_left noDevice) partner
    (ok.contactById member) ?_ ?_
  · simp [toOurselves, unkeyed.2]
  · refine .unkeyed unkeyed sameAddr ?_
    rw [memberOf, noFingerprint, Db.publicKeyFor, sameKeys]
    exact noKey
  · have notKey : row.isKeyContact = false := by simp [Contact.isKeyContact, noFingerprint]
    cases choice : mail.options.encryption with
    | required =>
      have keyed := keyed_of_required typed checked choice nonempty
      rw [unkeyed.1] at keyed
      cases keyed
    | auto => simp [willEncrypt, toOurselves, unkeyed.1, unkeyed.2, notKey]
    | plaintext => simp [willEncrypt, toOurselves, unkeyed.1, unkeyed.2]

theorem staged_toSelf (drafted : Drafted mail primary draws start ContactId.self chat.id msg db)
    (built : Built chat msg mail.options.encryption now db allowed factory made db')
    (noKey : keyContactFor (primaryAddr primary) start = none)
    (own : isSelf (primaryAddr primary) [] start = true) :
    Staged mail primary draws start msg factory.addressing made := by
  have timed := drafted_timed drafted chat now
  obtain ⟨laterChat, fromAddr, addressing, row, laterFound, configured, addressed, _, rfl⟩ :=
    fromMsg_eq_ok built.built
  have sameChat : allowed.chatId = chat.id := built.isAllowed.same.2
  rw [sameChat] at laterFound
  have laterPartner := contactId_of_chatIs timed.chat laterFound
  have sameConfig : (timedDb chat msg now db).config = start.config :=
    congrArg (·.config) timed.outside
  rcases addressed with ⟨_, rfl, rfl⟩ | ⟨notSelf, _⟩
  · rw [sameConfig] at configured
    refine ⟨.toSelf (by simp [toOurselves, noKey, own]) fromAddr configured ?_, _, _, timed⟩
    rw [factoryOf, sameConfig]
  · simp [isSelfTalk, laterPartner] at notSelf

/-- What the policy asks of a message that cannot be encrypted: under the global strict
mode it is held back once it is rendered, and under an override for the row of its first
address it does not get that far. -/
structure Policed (addr : Text) (needs : Bool) (db : Db) : Prop where
  needed : EncryptionMode.load db = .strict → needs = true
  own : ∀ row, rowFor addr [] db = some row →
    EncryptionMode.forContact row.id db = some .strict → EncryptionMode.load db = .strict

omit [Unicode] in
theorem missingKeys_of_addressRow {addr : Text} (notSelf : contactId ≠ ContactId.self)
    (row : AddressRow contactId addr db) : missingKeys [contactId] db ≠ [] := by
  obtain ⟨ok, contact, member, rfl, noFingerprint, _⟩ := row
  rw [missingKeys_singleton notSelf (ok.contactById member)]
  simp [Contact.isKeyContact, noFingerprint]

omit [Unicode] in
theorem forceEncryption_of_load (strict : EncryptionMode.load db = .strict) :
    db.config.forceEncryption = true := by
  unfold EncryptionMode.load at strict
  split at strict
  next forced => exact forced
  next => split at strict <;> cases strict

theorem policed_of_drafted (drafted : Drafted mail primary draws start contactId chat.id msg db)
    (auto : mail.options.encryption = .auto) (unkeyed : Unkeyed (primaryAddr primary) start)
    (partner : chat.contactId = contactId)
    (complete : (loadOptions msg.id db).encryption = .auto →
      EncryptionMode.effective [chat.contactId] db = .strict →
        (EncryptionMode.load db = .strict ∧ allowed = sentMessage chat msg now db) ∨
          missingKeys [chat.contactId] db = []) :
    Policed (primaryAddr primary) (needsEncryption allowed db) start := by
  have sameLoad : EncryptionMode.load db = EncryptionMode.load start :=
    (congrArg EncryptionMode.load drafted.outside : EncryptionMode.load (outsideCompose db) =
      EncryptionMode.load (outsideCompose start))
  have samePolicy : EncryptionMode.forContact contactId db =
      EncryptionMode.forContact contactId start :=
    (congrArg (EncryptionMode.forContact contactId) drafted.outside :
      EncryptionMode.forContact contactId (outsideCompose db) =
        EncryptionMode.forContact contactId (outsideCompose start))
  have decided (strict : EncryptionMode.load start = .strict ∨
      EncryptionMode.forContact contactId start = some .strict)
    (notSelf : contactId ≠ ContactId.self) :
      EncryptionMode.load start = .strict ∧ allowed = sentMessage chat msg now db := by
    rw [← sameLoad, ← samePolicy] at strict
    have effective : EncryptionMode.effective [chat.contactId] db = .strict := by
      rw [EncryptionMode.effective_eq_strict_iff, partner]
      simpa using strict
    rw [← sameLoad]
    refine (complete (by rw [drafted.options, auto]) effective).resolve_right ?_
    rw [partner]
    exact missingKeys_of_addressRow notSelf (drafted.row unkeyed)
  cases drafted.partner with
  | keyed found =>
    rw [unkeyed.1] at found
    cases found
  | ourselves _ own _ =>
    rw [unkeyed.2] at own
    cases own
  | byAddress _ _ real known =>
    have notSelf : contactId ≠ ContactId.self := by
      rintro rfl
      exact absurd real (by decide)
    refine ⟨fun always => ?_, fun row found strict => ?_⟩
    · obtain ⟨_, rfl⟩ := decided (Or.inl always) notSelf
      have forced := forceEncryption_of_load (sameLoad.trans always)
      rw [needsEncryption, forced]
      rfl
    · rw [← known row found] at strict
      exact (decided (Or.inr strict) notSelf).1

def primaryOf (mail : Composition) : Text := primaryAddr (mail.recipients.toAddrs.headD [])

theorem staged_of_send (sound : Sound db)
    (accepted : (send mail draws now).run db = .ok msgId db') :
    ∃ primary msg factory needs made, primaryOf mail = primaryAddr primary ∧ msg.id = msgId ∧
      factory.msg.id = msgId ∧ Staged mail primary draws db msg factory.addressing made ∧
      (renderAndQueue factory needs draws now).run made = .ok () db' ∧
      db.nextMsgId ≤ msgId ∧ (check mail.recipients mail.options).run db = .ok () db ∧
      (mail.options.encryption = .auto → Unkeyed (primaryAddr primary) db →
        Policed (primaryAddr primary) needs db) := by
  obtain ⟨primary, rest, chatId, msg, drafted, typed, checked, composed, sent, rfl⟩ :=
    send_eq_ok accepted
  obtain ⟨contactId, isDrafted⟩ := drafted_of_composeDraft sound composed
  obtain ⟨chat, allowed, factory, made, found, rfl, sendable, isAllowed, complete, isBuilt,
    queued⟩ := sendMsg_stages sent
  rw [isDrafted.options] at isAllowed
  have sameId : factory.msg.id = msg.id := by
    obtain ⟨_, _, _, _, _, _, _, _, rfl⟩ := fromMsg_eq_ok isBuilt
    exact isAllowed.same.1
  have built : Built chat msg mail.options.encryption now drafted allowed factory made db' :=
    ⟨sendable, isAllowed, isBuilt, sameId ▸ handled_of_renderAndQueue queued⟩
  have partner := contactId_of_chatIs isDrafted.chat found
  have isPrimary : primaryOf mail = primaryAddr primary := by rw [primaryOf, typed]; rfl
  refine ⟨primary, msg, factory, _, made, isPrimary, rfl, sameId, ?_, queued, isDrafted.fresh,
    checked, fun auto unkeyed => policed_of_drafted isDrafted auto unkeyed partner complete⟩
  cases isDrafted.partner with
  | keyed keyed => exact staged_toKeyContact isDrafted built partner keyed
  | ourselves noKey own _ => exact staged_toSelf isDrafted built noKey own
  | byAddress unkeyed nonempty real _ =>
    exact staged_toAddressContact typed checked isDrafted built partner unkeyed nonempty real

theorem sent_of_send (sound : Sound db) (accepted : (send mail draws now).run db = .ok msgId db') :
    Sent mail (primaryOf mail) db msgId db' ∧ db.nextMsgId ≤ msgId ∧
      (check mail.recipients mail.options).run db = .ok () db := by
  obtain ⟨primary, msg, factory, needs, made, isPrimary, isMsg, sameId, staged, queued, isNew,
    checked, _⟩ := staged_of_send sound accepted
  obtain ⟨_, _, drafted⟩ := staged.drafted
  have handled := handled_of_renderAndQueue queued
  rw [sameId, ← isMsg] at handled
  rw [isPrimary, ← isMsg]
  exact ⟨sent_of_addressed staged.addressed (handled_of_drafted drafted handled), isMsg ▸ isNew,
    checked⟩

theorem willEncrypt_of_required (sound : Sound db)
    (accepted : (send mail draws now).run db = .ok msgId db')
    (required : mail.options.encryption = .required) :
    willEncrypt mail.options.encryption (primaryOf mail) db = true := by
  obtain ⟨primary, rest, _, _, _, typed, checked, composed, _, rfl⟩ := send_eq_ok accepted
  obtain ⟨_, isDrafted⟩ := drafted_of_composeDraft sound composed
  have isPrimary : primaryOf mail = primaryAddr primary := by rw [primaryOf, typed]; rfl
  rw [isPrimary, required]
  cases isDrafted.partner with
  | keyed keyed => simp [willEncrypt, keyed]
  | ourselves noKey own _ => simp [willEncrypt, toOurselves, noKey, own]
  | byAddress unkeyed nonempty _ _ =>
    simp [willEncrypt, keyed_of_required typed checked required nonempty]

end

end Eeemail.Outcome
