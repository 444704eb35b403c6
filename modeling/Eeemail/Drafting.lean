import Eeemail.Addressees
import Eeemail.SendFrames

/-! # The state a message is sent from

Until `send_msg` a composed message has a chat with the contact of its first
`To` address, a draft, and its addressees as rows of `msg_recipients`.  The
contact is a key-contact if there is an unblocked one, else ourselves, else an
address-contact; and no key lookup gives another answer than before. -/

set_option autoImplicit false

namespace Eeemail.Drafting

open Lib.Texts Lib.Actions Lib.Tables Addr Store Contacts Housekeeping Recipients Policy
open Chats Sending Frames ContactTable KeyRows SendFrames Addressees

variable {addr : Text} {db db' : Db} {chatId : ChatId} {contactId : ContactId} {now : Int}
variable {msg : Message} {mail : Composition} {draws : Draws}

/-- What every database guarantees that the send path relies on: ids are unique
and handed out by counters, and of the special contacts only the device has an
address. -/
structure Sound (db : Db) : Prop where
  contacts : ContactsOk db
  chat_ids_nodup : (db.chats.map (·.id)).Nodup
  chat_ids_lt : ∀ chat ∈ db.chats, chat.id < db.nextChatId
  special_addr : ∀ contact ∈ db.contacts, contact.id ≤ ContactId.lastSpecial →
    contact.id = ContactId.device ∨ contact.addr = []
  queued_lt : ∀ row ∈ db.smtp, row.msgId < db.nextMsgId
  undelivered_lt : ∀ row ∈ db.msgUndelivered, row.msgId < db.nextMsgId

/-! ## Frames -/

def outsideCompose (db : Db) : Db :=
  { outsideContacts db with
    chats := [], nextChatId := 0, msgs := [], nextMsgId := 0, msgRecipients := [],
    msgImportance := [], msgSendOptions := [] }

def outsideAddressees (db : Db) : Db :=
  { outsideContacts db with msgRecipients := [], msgImportance := [], msgSendOptions := [] }

section

variable [Unicode] {kind : RecipientKind}

theorem keeps_resolvePrimary (primary : Text) : Keeps outsideContacts (resolvePrimary primary) := by
  refine Keeps.bind (Keeps.query _) fun found => ?_
  cases found with
  | some contactId => exact Keeps.pure _
  | none =>
    simp only
    split
    · exact Keeps.fail _
    · exact Keeps.bind ((keeps_addOrLookupExt _ _ _ _).coarser outsideHold) fun _ => Keeps.pure _

theorem keeps_createForContact (contactId : ContactId) (noticeMid : Text) (now : Int) :
    Keeps outsideCompose (createForContact contactId noticeMid now) :=
  Keeps.of_preserves fun _ => preserves_createForContact (fun _ _ same => same) (fun _ same => same)
    (fun _ _ same => same) ((keeps_scaleupOrigin _ _).coarser outsideCompose).preserves

theorem keeps_resolveRecipient (typed : RecipientKind × Text) :
    Keeps outsideContacts (resolveRecipient typed) := by
  refine Keeps.ite (Keeps.pure _) ?_
  simp only
  split
  · exact Keeps.fail _
  · exact Keeps.bind ((keeps_addOrLookupExt _ _ _ _).coarser outsideHold) fun _ => Keeps.pure _

theorem keeps_setRecipients (msgId : MsgId) (recipients : RecipientSet) :
    Keeps outsideAddressees (setRecipients msgId recipients) := by
  refine Keeps.bind ?_ fun _ => Keeps.exec fun _ => rfl
  exact (Keeps.collect keeps_resolveRecipient _).coarser outsideAddressees

omit [Unicode] in
theorem outsideAddressees_setImportance (msgId : MsgId) (importance : Importance) (db : Db) :
    outsideAddressees (setImportance msgId importance db) = outsideAddressees db := by
  cases importance <;> rfl

omit [Unicode] in
theorem outsideAddressees_setOptions (msgId : MsgId) (options : SendOptions)
    (signature : Option Text) (db : Db) :
    outsideAddressees (setOptions msgId options signature db) = outsideAddressees db := by
  unfold setOptions
  split <;> rfl

/-! ## The contact of the first address -/

def primaryAddr (primary : Text) : Text := addrNormalize (splitAddr (trim primary)).2

def AddressRow (id : ContactId) (addr : Text) (db : Db) : Prop :=
  ContactsOk db ∧
    ∃ row ∈ db.contacts, row.id = id ∧ row.fingerprint = [] ∧ nocaseEq row.addr addr = true

omit [Unicode] in
theorem addressInvariant_addressRow (id : ContactId) (addr : Text) :
    AddressInvariant (AddressRow id addr) := by
  refine addressInvariant_row ?_
  rintro old new sameId sameKey laterAddr ⟨isId, unkeyed, sameAddr⟩
  refine ⟨sameId.trans isId, sameKey.trans unkeyed, ?_⟩
  exact nocaseEq_iff.mpr ((nocaseEq_iff.mp laterAddr).trans (nocaseEq_iff.mp sameAddr))

/-- Neither a key-contact nor ourselves: mail to this address goes to an
address-contact. -/
def Unkeyed (addr : Text) (db : Db) : Prop :=
  keyContactFor addr db = none ∧ isSelf addr [] db = false

/-- The contact that a message to `addr` is written to. -/
inductive Partner (addr : Text) (db : Db) : ContactId → Prop where
  | keyed {id : ContactId} (found : keyContactFor addr db = some id) : Partner addr db id
  | ourselves (noKey : keyContactFor addr db = none) (own : isSelf addr [] db = true)
      (nonempty : addr ≠ []) : Partner addr db ContactId.self
  | byAddress {id : ContactId} (unkeyed : Unkeyed addr db) (nonempty : addr ≠ [])
      (real : id = ContactId.device ∨ ContactId.lastSpecial < id)
      (known : ∀ row, rowFor addr [] db = some row → id = row.id) : Partner addr db id

theorem ne_nil_of_mayBeValidAddr (valid : mayBeValidAddr addr = true) : addr ≠ [] := by
  rintro rfl
  cases valid

omit [Unicode] in
theorem insertOrMerge_address (ok : ContactsOk db)
    (special_addr : ∀ contact ∈ db.contacts, contact.id ≤ ContactId.lastSpecial →
      contact.id = ContactId.device ∨ contact.addr = []) (nonempty : addr ≠ []) (name : Text)
    (origin : Origin) :
    AddressRow (insertOrMerge name addr [] origin db).1.1 addr
        (insertOrMerge name addr [] origin db).2 ∧
      ((insertOrMerge name addr [] origin db).1.1 = ContactId.device ∨
        ContactId.lastSpecial < (insertOrMerge name addr [] origin db).1.1) := by
  refine ⟨⟨ok.insertOrMerge _ _ _ _, ?_⟩, ?_⟩ <;> unfold Contacts.insertOrMerge <;> split
  next row found =>
    refine ⟨mergeRow name addr origin row,
      mem_updateWhere.mpr ⟨row, (rowFor_eq_some found).1, ?_⟩, rfl, (rowFor_eq_some found).2,
      nocaseEq_mergeRow (rowFor_nocaseEq found)⟩
    simp
  next => exact ⟨_, List.mem_append_right _ List.mem_cons_self, rfl, rfl, nocaseEq_iff.mpr rfl⟩
  next row found =>
    by_cases special : row.id ≤ ContactId.lastSpecial
    · rcases special_addr row (rowFor_eq_some found).1 special with device | blank
      · exact Or.inl device
      · have same := nocaseEq_iff.mp (rowFor_nocaseEq found)
        rw [blank] at same
        exact absurd (List.map_eq_nil_iff.mp same.symm) nonempty
    · exact Or.inr (Nat.lt_of_not_le special)
  next => exact Or.inr ok.next_real

theorem resolvePrimary_partner {primary : Text} {id : ContactId} (sound : Sound db)
    (success : (resolvePrimary primary).run db = .ok id db') :
    Partner (primaryAddr primary) db id ∧
      (Unkeyed (primaryAddr primary) db → AddressRow id (primaryAddr primary) db') := by
  unfold resolvePrimary at success
  have success := query_bind_eq_ok.mp success
  cases lookup : keyContactFor (addrNormalize (splitAddr (trim primary)).2) db with
  | some keyId =>
    simp only [lookup] at success
    obtain ⟨rfl, rfl⟩ := pure_eq_ok.mp success
    refine ⟨.keyed lookup, fun unkeyed => ?_⟩
    rw [primaryAddr, Unkeyed, lookup] at unkeyed
    cases unkeyed.1
  | none =>
    simp only [lookup] at success
    cases valid : contactAddress (splitAddr (trim primary)).2 with
    | error e =>
      simp only [valid] at success
      cases success
    | ok contactAddr =>
      simp only [valid] at success
      obtain ⟨rfl, maybeValid⟩ := contactAddress_eq_ok valid
      have nonempty := ne_nil_of_mayBeValidAddr maybeValid
      obtain ⟨⟨foundId, modifier⟩, _, added, success⟩ := bind_eq_ok.mp success
      obtain ⟨rfl, rfl⟩ := pure_eq_ok.mp success
      rcases addOrLookupExt_eq_ok added with ⟨own, rfl, rfl⟩ | ⟨other, merged⟩
      · refine ⟨.ourselves lookup own nonempty, fun unkeyed => ?_⟩
        rw [primaryAddr, Unkeyed, own] at unkeyed
        cases unkeyed.2
      · have here := insertOrMerge_address sound.contacts sound.special_addr nonempty
          (adjusted (splitAddr (trim primary)).1 (addrNormalize (splitAddr (trim primary)).2)
            .outgoingTo).1
          (adjusted (splitAddr (trim primary)).1 (addrNormalize (splitAddr (trim primary)).2)
            .outgoingTo).2
        rw [← merged] at here
        refine ⟨.byAddress ⟨lookup, other⟩ nonempty here.2 fun row known => ?_, fun _ => here.1⟩
        have found : foundId = (insertOrMerge _ _ [] _ db).1.1 := congrArg (·.1.1) merged
        rwa [Contacts.insertOrMerge, ← primaryAddr, known] at found

/-! ## The chat and the draft -/

def ChatIs (chatId : ChatId) (contactId : ContactId) (db : Db) : Prop :=
  ∃ chat, db.chatById chatId = some chat ∧ chat.contactId = contactId

omit [Unicode] in
theorem ChatIs.of_chats (has : ChatIs chatId contactId db) (same : db'.chats = db.chats) :
    ChatIs chatId contactId db' := by
  rw [ChatIs, Db.chatById, same]
  exact has

omit [Unicode] in
theorem ChatIs.update {p : Chat → Bool} {f : Chat → Chat} (has : ChatIs chatId contactId db)
    (keepsId : ∀ chat, (f chat).id = chat.id)
    (keepsContact : ∀ chat, (f chat).contactId = chat.contactId) :
    ChatIs chatId contactId { db with chats := updateWhere p f db.chats } := by
  obtain ⟨chat, found, partner⟩ := has
  refine ⟨if p chat then f chat else chat, ?_, ?_⟩
  · rw [Db.chatById, find?_updateWhere Chat.id keepsId]
    exact congrArg (Option.map _) found
  · split
    · rw [keepsContact, partner]
    · exact partner

omit [Unicode] in
theorem chatIs_getForContact {noticeMid : Text} (below : ∀ chat ∈ db.chats, chat.id < db.nextChatId)
    (success : (getForContact contactId noticeMid now).run db = .ok chatId db') :
    ChatIs chatId contactId db' := by
  unfold getForContact at success
  obtain ⟨chat, middle, inserted, success⟩ := bind_eq_ok.mp success
  simp only [execReturning_run, EStateM.Result.ok.injEq] at inserted
  obtain ⟨rfl, rfl⟩ := inserted
  have success := query_bind_eq_ok.mp success
  obtain ⟨_, noticed, told, success⟩ := bind_eq_ok.mp success
  obtain ⟨rfl, rfl⟩ := pure_eq_ok.mp success
  have inserted : ChatIs db.nextChatId contactId (insertChat contactId db).2 := by
    refine ⟨{ id := db.nextChatId, contactId }, ?_, rfl⟩
    have others : db.chats.find? (fun chat => chat.id == db.nextChatId) = none :=
      List.find?_eq_none.mpr fun chat member => by simp [Nat.ne_of_lt (below chat member)]
    simp [insertChat, Db.chatById, List.find?_append, others]
  have sameChats : noticed.chats = (insertChat contactId db).2.chats :=
    Keeps.of_ok (Keeps.onlyIf _ (Keeps.exec fun _ => by rfl)) told
  exact inserted.of_chats sameChats

theorem chatIs_createForContact {noticeMid : Text} (nodup : (db.chats.map (·.id)).Nodup)
    (below : ∀ chat ∈ db.chats, chat.id < db.nextChatId)
    (success : (createForContact contactId noticeMid now).run db = .ok chatId db') :
    ChatIs chatId contactId db' := by
  unfold createForContact at success
  have success := query_bind_eq_ok.mp success
  cases known : chatWith contactId db with
  | some chat =>
    simp only [known] at success
    obtain ⟨_, _, unblocked, success⟩ := bind_eq_ok.mp success
    simp only [exec_run, EStateM.Result.ok.injEq, true_and] at unblocked
    obtain ⟨rfl, rfl⟩ := pure_eq_ok.mp success
    subst unblocked
    have member := List.mem_of_find?_eq_some known
    have checks := List.find?_some known
    simp only [Bool.and_eq_true, beq_iff_eq] at checks
    have known : ChatIs chat.id contactId db := ⟨chat, find?_of_nodup nodup member, checks.2⟩
    exact known.update (fun _ => rfl) fun _ => rfl
  | none =>
    simp only [known] at success
    obtain ⟨_, _, real, success⟩ := bind_eq_ok.mp success
    simp only [query_run, EStateM.Result.ok.injEq] at real
    obtain ⟨_, rfl⟩ := real
    obtain ⟨_, _, exists', success⟩ := bind_eq_ok.mp success
    obtain ⟨_, rfl⟩ := (ensure_eq_ok _ _ _).mp exists'
    obtain ⟨newId, created, got, success⟩ := bind_eq_ok.mp success
    obtain ⟨_, _, raised, success⟩ := bind_eq_ok.mp success
    obtain ⟨rfl, rfl⟩ := pure_eq_ok.mp success
    have same := (keeps_scaleupOrigin [contactId] .createChat).of_ok raised
    have sameChats : (outsideContacts _).chats = (outsideContacts created).chats :=
      congrArg (·.chats) same
    exact (chatIs_getForContact below got).of_chats sameChats

omit [Unicode] in
theorem setDraft_eq_ok {draft : Message}
    (success : (setDraft chatId msg now).run db = .ok draft db') (unsaved : msg.id = 0)
    (persisted : draft.id ≠ 0) : (draft, db') = insertDraft chatId msg now db := by
  unfold setDraft at success
  split at success
  · obtain ⟨rfl, rfl⟩ := pure_eq_ok.mp success
    exact absurd unsaved persisted
  · obtain ⟨_, success⟩ := ensure_bind_eq_ok.mp success
    obtain ⟨_, success⟩ := ensure_bind_eq_ok.mp success
    simp only [execReturning_run, EStateM.Result.ok.injEq] at success
    obtain ⟨rfl, rfl⟩ := success
    rfl

/-! ## The addressees -/

def recipientFor (typed : RecipientKind × Text) : Option Recipient :=
  if (trim typed.2).isEmpty then none
  else
    some
      { kind := typed.1
        addr := addrNormalize (splitAddr (trim typed.2)).2
        name := (splitAddr (trim typed.2)).1 }

theorem resolveRecipient_eq_ok {typed : RecipientKind × Text} {rows : List Recipient}
    (success : (resolveRecipient typed).run db = .ok rows db') :
    rows = (recipientFor typed).toList := by
  unfold resolveRecipient at success
  unfold recipientFor
  split at success
  next blank =>
    obtain ⟨rfl, _⟩ := pure_eq_ok.mp success
    rw [if_pos blank]
    rfl
  next filled =>
    rw [if_neg filled]
    simp only at success
    split at success
    · cases success
    · obtain ⟨_, _, _, success⟩ := bind_eq_ok.mp success
      obtain ⟨rfl, _⟩ := pure_eq_ok.mp success
      rfl

theorem collect_resolveRecipient {entries : List (RecipientKind × Text)}
    {rows : List (List Recipient)}
    (success : (collect resolveRecipient entries).run db = .ok rows db') :
    rows.flatten = entries.filterMap recipientFor := by
  induction entries generalizing db db' rows with
  | nil =>
    obtain ⟨rfl, _⟩ := pure_eq_ok.mp success
    rfl
  | cons typed rest ih =>
    obtain ⟨first, _, resolved, success⟩ := bind_eq_ok.mp success
    obtain ⟨others, _, collected, success⟩ := bind_eq_ok.mp success
    obtain ⟨rfl, _⟩ := pure_eq_ok.mp success
    rw [List.flatten_cons, ih collected, resolveRecipient_eq_ok resolved]
    cases found : recipientFor typed with
    | none => rw [List.filterMap_cons_none found]; rfl
    | some row => rw [List.filterMap_cons_some found]; rfl

def addressees (kind : RecipientKind) (typed : List Text) : List Recipient :=
  firstPerAddr (typed.filterMap fun text => recipientFor (kind, text))

theorem kind_of_recipientFor {text : Text} {row : Recipient}
    (found : recipientFor (kind, text) = some row) : row.kind = kind := by
  unfold recipientFor at found
  split at found
  · cases found
  · injection found with same
    rw [← same]

theorem kind_of_mem_entries {typed : List Text} :
    ∀ recipient ∈ typed.filterMap (fun text => recipientFor (kind, text)),
      recipient.kind = kind := by
  intro recipient member
  obtain ⟨text, _, found⟩ := List.mem_filterMap.mp member
  exact kind_of_recipientFor found

theorem kind_of_mem_addressees {typed : List Text} :
    ∀ recipient ∈ addressees kind typed, recipient.kind = kind :=
  fun recipient member => kind_of_mem_entries recipient (firstPerAddr_subset member)

def headerEntries (recipients : RecipientSet) : RecipientKind → List Text
  | .to => recipients.toAddrs
  | .cc => recipients.ccAddrs
  | .bcc => recipients.bccAddrs

theorem filter_kind_typedEntries (recipients : RecipientSet) (kind : RecipientKind) :
    ((typedEntries recipients).filterMap recipientFor).filter (fun row => row.kind == kind) =
      (headerEntries recipients kind).filterMap fun text => recipientFor (kind, text) := by
  have header : ∀ (kind : RecipientKind) (typed : List Text),
      (typed.map (kind, ·)).filterMap recipientFor =
        typed.filterMap fun text => recipientFor (kind, text) := by
    intro kind typed
    rw [List.filterMap_map]
    rfl
  simp only [typedEntries, List.filterMap_append, List.filter_append, header]
  match kind with
  | .to =>
    rw [filter_kind_same kind_of_mem_entries,
      filter_kind_other kind_of_mem_entries (by decide : RecipientKind.cc ≠ .to),
      filter_kind_other kind_of_mem_entries (by decide : RecipientKind.bcc ≠ .to),
      List.append_nil, List.append_nil, headerEntries]
  | .cc =>
    rw [filter_kind_same kind_of_mem_entries,
      filter_kind_other kind_of_mem_entries (by decide : RecipientKind.to ≠ .cc),
      filter_kind_other kind_of_mem_entries (by decide : RecipientKind.bcc ≠ .cc),
      List.append_nil, List.nil_append, headerEntries]
  | .bcc =>
    rw [filter_kind_same kind_of_mem_entries,
      filter_kind_other kind_of_mem_entries (by decide : RecipientKind.to ≠ .bcc),
      filter_kind_other kind_of_mem_entries (by decide : RecipientKind.cc ≠ .bcc),
      List.nil_append, List.nil_append, headerEntries]

theorem loadKind_setRecipients {msgId : MsgId} {recipients : RecipientSet} {u : Unit}
    (success : (setRecipients msgId recipients).run db = .ok u db') (kind : RecipientKind) :
    loadKind msgId kind db' = addressees kind (headerEntries recipients kind) := by
  unfold setRecipients at success
  obtain ⟨rows, resolved, collected, success⟩ := bind_eq_ok.mp success
  simp only [exec_run, EStateM.Result.ok.injEq, true_and] at success
  subst success
  rw [loadKind_store, collect_resolveRecipient collected, filter_kind_typedEntries, addressees]

omit [Unicode] in
theorem loadOptions_setOptions (msgId : MsgId) (options : SendOptions) (signature : Option Text)
    (db : Db) : loadOptions msgId (setOptions msgId options signature db) = options := by
  by_cases unset : options = {}
  · have gone : (deleteWhere (fun row => row.msgId == msgId) db.msgSendOptions).find?
        (fun row => row.msgId == msgId) = none :=
      List.find?_eq_none.mpr fun row member => by simpa using (mem_deleteWhere.mp member).2
    rw [setOptions, if_pos unset, loadOptions]
    simp only [gone]
    exact unset.symm
  · have stored : ∀ row : MsgSendOptions, row.msgId = msgId →
        (upsert (·.msgId) row db.msgSendOptions).find? (fun old => old.msgId == msgId) =
          some row := by
      rintro row rfl
      exact find?_upsert
    rw [setOptions, if_neg unset, loadOptions]
    simp only [stored]

omit [Unicode] in
theorem importanceOf_setImportance (msgId : MsgId) (importance : Importance) (db : Db) :
    importanceOf msgId (setImportance msgId importance db) = importance := by
  have stored : ∀ row : MsgImportance, row.msgId = msgId →
      (upsert (·.msgId) row db.msgImportance).find? (fun old => old.msgId == msgId) =
        some row := by
    rintro row rfl
    exact find?_upsert
  cases importance with
  | normal =>
    have gone : (deleteWhere (fun row => row.msgId == msgId) db.msgImportance).find?
        (fun row => row.msgId == msgId) = none :=
      List.find?_eq_none.mpr fun row member => by simpa using (mem_deleteWhere.mp member).2
    simp [setImportance, importanceOf, gone]
  | low => simp [setImportance, importanceOf, stored]
  | high => simp [setImportance, importanceOf, stored]

/-! ## The drafted message -/

theorem composeDraft_eq_ok {primary : Text}
    (success : (composeDraft mail primary draws now).run db = .ok (chatId, msg) db') :
    ∃ contactId found chatted drafted addressed,
      (resolvePrimary primary).run db = .ok contactId found ∧
      (createForContact contactId draws.noticeMid now).run found = .ok chatId chatted ∧
      (msg, drafted) = insertDraft chatId (newMessage mail draws.mid) now chatted ∧
      (setRecipients msg.id mail.recipients).run drafted = .ok () addressed ∧
      db' = setOptions msg.id mail.options (bodyOf mail).2
        (setImportance msg.id mail.importance addressed) := by
  unfold composeDraft at success
  obtain ⟨contactId, found, resolved, success⟩ := bind_eq_ok.mp success
  obtain ⟨newChat, chatted, created, success⟩ := bind_eq_ok.mp success
  obtain ⟨draft, drafted, inserted, success⟩ := bind_eq_ok.mp success
  obtain ⟨saved, success⟩ := ensure_bind_eq_ok.mp success
  obtain ⟨_, addressed, stored, success⟩ := bind_eq_ok.mp success
  obtain ⟨_, _, weighted, success⟩ := bind_eq_ok.mp success
  obtain ⟨_, _, optioned, success⟩ := bind_eq_ok.mp success
  simp only [exec_run, EStateM.Result.ok.injEq, true_and] at weighted optioned
  obtain ⟨same, rfl⟩ := pure_eq_ok.mp success
  obtain ⟨rfl, rfl⟩ := Prod.mk.inj same
  subst weighted optioned
  exact ⟨contactId, found, chatted, drafted, addressed, resolved, created,
    setDraft_eq_ok inserted rfl (by simpa using saved), stored, rfl⟩

theorem nextMsgId_le_createForContact (contactId : ContactId) (noticeMid : Text) (now : Int) :
    Respects (fun db db' : Db => db.nextMsgId ≤ db'.nextMsgId)
      (createForContact contactId noticeMid now) := fun start =>
  preserves_createForContact (fun _ _ le => le) (fun _ le => le)
    (fun _ _ le => Nat.le_succ_of_le le)
    (Preserves.of_keeps (fun _ _ same le => le.trans_eq same.symm)
      ((keeps_scaleupOrigin _ _).coarser fun db => db.nextMsgId)) start
        (Nat.le_refl start.nextMsgId)

/-- What the state before `send_msg` has in common with the one before the
message was composed, and what was added. -/
structure Drafted (mail : Composition) (primary : Text) (draws : Draws) (start : Db)
    (contactId : ContactId) (chatId : ChatId) (msg : Message) (db : Db) : Prop where
  partner : Partner (primaryAddr primary) start contactId
  row : Unkeyed (primaryAddr primary) start → AddressRow contactId (primaryAddr primary) db
  keys : KeysAre (keyRows start) db
  outside : outsideCompose db = outsideCompose start
  chat : ChatIs chatId contactId db
  fresh : start.nextMsgId ≤ msg.id
  message : msg =
    { newMessage mail draws.mid with id := msg.id, chatId := chatId, state := .outDraft }
  headers : ∀ kind, loadKind msg.id kind db = addressees kind (headerEntries mail.recipients kind)
  options : loadOptions msg.id db = mail.options
  importance : importanceOf msg.id db = mail.importance

theorem addressInvariant_after_lookup {Inv : Db → Prop} (invariant : AddressInvariant Inv)
    {found chatted drafted addressed : Db} (good : Inv found)
    (created : (createForContact contactId draws.noticeMid now).run found = .ok chatId chatted)
    (inserted : (msg, drafted) = insertDraft chatId (newMessage mail draws.mid) now chatted)
    (stored : (setRecipients msg.id mail.recipients).run drafted = .ok () addressed) :
    Inv (setOptions msg.id mail.options (bodyOf mail).2
      (setImportance msg.id mail.importance addressed)) := by
  have afterChat : Inv chatted :=
    (invariant.preserves_createForContact _ _ _).of_ok good created
  have afterDraft : Inv drafted := by
    rw [(Prod.mk.inj inserted).2]
    exact invariant.ofView (by rfl) afterChat
  have afterRows : Inv addressed :=
    (invariant.preserves_setRecipients _ _).of_ok afterDraft stored
  have afterImportance : Inv (setImportance msg.id mail.importance addressed) := by
    refine invariant.ofView ?_ afterRows
    cases mail.importance <;> rfl
  refine invariant.ofView ?_ afterImportance
  unfold setOptions
  split <;> rfl

theorem drafted_of_composeDraft {primary : Text} (sound : Sound db)
    (success : (composeDraft mail primary draws now).run db = .ok (chatId, msg) db') :
    ∃ contactId, Drafted mail primary draws db contactId chatId msg db' := by
  obtain ⟨contactId, found, chatted, drafted, addressed, resolved, created, inserted, stored,
    rfl⟩ := composeDraft_eq_ok success
  obtain ⟨partner, row⟩ := resolvePrimary_partner sound resolved
  have sameFound : outsideContacts found = outsideContacts db :=
    (keeps_resolvePrimary primary).of_ok resolved
  obtain ⟨isMsg, isDrafted⟩ := Prod.mk.inj inserted
  have sameTail : outsideAddressees (setOptions msg.id mail.options (bodyOf mail).2
      (setImportance msg.id mail.importance addressed)) = outsideAddressees drafted := by
    rw [outsideAddressees_setOptions, outsideAddressees_setImportance,
      (keeps_setRecipients _ _).of_ok stored]
  refine ⟨contactId, partner, fun unkeyed => ?_, ?_, ?_, ?_, ?_, ?_, fun kind => ?_, ?_, ?_⟩
  · exact addressInvariant_after_lookup (addressInvariant_addressRow _ _) (row unkeyed) created
      inserted stored
  · have keysFound : KeysAre (keyRows db) found :=
      ((addressInvariant_keysAre _).preserves_resolvePrimary primary).of_ok
        ⟨sound.contacts, rfl⟩ resolved
    exact addressInvariant_after_lookup (addressInvariant_keysAre _) keysFound created inserted
      stored
  · calc
      outsideCompose _ = outsideCompose (outsideAddressees _) := rfl
      _ = outsideCompose (outsideAddressees drafted) := congrArg outsideCompose sameTail
      _ = outsideCompose chatted := by rw [isDrafted]; rfl
      _ = outsideCompose found := (keeps_createForContact _ _ _).of_ok created
      _ = outsideCompose (outsideContacts found) := rfl
      _ = outsideCompose (outsideContacts db) := congrArg outsideCompose sameFound
  · have chats : found.chats = db.chats := congrArg (·.chats) sameFound
    have nextChat : found.nextChatId = db.nextChatId := congrArg (·.nextChatId) sameFound
    have created' : ChatIs chatId contactId chatted := by
      refine chatIs_createForContact ?_ ?_ created
      · rw [chats]
        exact sound.chat_ids_nodup
      · rw [chats, nextChat]
        exact sound.chat_ids_lt
    have sameChats : (outsideAddressees _).chats = (outsideAddressees drafted).chats :=
      congrArg (·.chats) sameTail
    refine created'.of_chats (sameChats.trans ?_)
    rw [isDrafted]
    rfl
  · have handedOut : found.nextMsgId ≤ chatted.nextMsgId :=
      (nextMsgId_le_createForContact _ _ _).of_ok created
    have nextMsg : found.nextMsgId = db.nextMsgId := congrArg (·.nextMsgId) sameFound
    rw [isMsg, ← nextMsg]
    exact handedOut
  · rw [isMsg]
  · rw [← loadKind_setRecipients stored kind]
    unfold setOptions
    cases mail.importance <;> split <;> rfl
  · exact loadOptions_setOptions _ _ _ _
  · refine Eq.trans ?_ (importanceOf_setImportance msg.id mail.importance addressed)
    unfold setOptions
    split <;> rfl

end

end Eeemail.Drafting
