import Eeemail.Padlock

/-! # What a refused message leaves behind

`compose::send` checks the padlock before it writes anything, but an address
that cannot be one is only found once the draft is stored, and `send_msg` has
refusals of its own after that.  A refusal leaves nothing of the message behind
exactly if it comes before the draft: there is no `To` address, the policy does
not allow the padlock, no contact or no chat can be made of the first address,
or there is nothing to put into a draft. -/

set_option autoImplicit false

namespace Eeemail.Refusals

open Lib.Texts Lib.Actions Lib.Tables Addr Store Contacts Housekeeping Recipients Policy
open Chats MimeFactory Sending Frames ContactTable KeyRows SendFrames Drafting Queueing Outcome
open Accounting Padlock

variable {id : ContactId} {db db' : Db} {now : Int} {chatId : ChatId} {mail : Composition}
variable {rest : List Text} {msg : Message} {mid : Text}

/-! ## What a composed message adds -/

/-- The drafts and what became of them, and the rows that are kept for them. -/
structure Traces where
  messages : List Message
  recipients : List MsgRecipient
  importance : List MsgImportance
  options : List MsgSendOptions
  deriving DecidableEq

def isOurs (msg : Message) : Bool := msg.state == .outDraft || msg.fromId == ContactId.self

def traces (db : Db) : Traces where
  messages := db.msgs.filter isOurs
  recipients := db.msgRecipients
  importance := db.msgImportance
  options := db.msgSendOptions

def HasOurs (id : MsgId) (db : Db) : Prop :=
  ∃ msg ∈ db.msgs, msg.id = id ∧ msg.fromId = ContactId.self

theorem HasOurs.of_msgs {id : MsgId} (has : HasOurs id db) (same : db'.msgs = db.msgs) :
    HasOurs id db' := by
  rw [HasOurs, same]
  exact has

theorem HasOurs.update {id : MsgId} {p : Message → Bool} {f : Message → Message}
    (has : HasOurs id db) (updated : db'.msgs = updateWhere p f db.msgs)
    (keepsId : ∀ msg, (f msg).id = msg.id)
    (keepsOurs : ∀ msg, msg.fromId = ContactId.self → (f msg).fromId = ContactId.self) :
    HasOurs id db' := by
  obtain ⟨msg, member, isId, ours⟩ := has
  rw [HasOurs, updated]
  refine ⟨_, mem_updateWhere.mpr ⟨msg, member, rfl⟩, ?_⟩
  split
  · exact ⟨(keepsId msg).trans isId, keepsOurs msg ours⟩
  · exact ⟨isId, ours⟩

theorem traces_ne_of_hasOurs {id : MsgId} (below : ∀ msg ∈ db.msgs, msg.id < id)
    (has : HasOurs id db') : traces db' ≠ traces db := by
  intro same
  obtain ⟨msg, member, isId, ours⟩ := has
  have kept : msg ∈ db'.msgs.filter isOurs := List.mem_filter.mpr ⟨member, by simp [isOurs, ours]⟩
  rw [show db'.msgs.filter isOurs = db.msgs.filter isOurs from congrArg Traces.messages same]
    at kept
  exact Nat.lt_irrefl id (isId ▸ below msg (List.mem_filter.mp kept).1)

section

variable [Unicode] {primary : Text}

theorem traces_createForContact (contactId : ContactId) (noticeMid : Text) (now : Int) :
    Keeps traces (createForContact contactId noticeMid now) := by
  refine Keeps.of_preserves fun _ => preserves_createForContact (fun _ _ same => same)
    (fun _ same => same) (fun db chatId same => Eq.trans ?_ same)
    ((keeps_scaleupOrigin _ _).coarser traces).preserves
  -- The notice is a message of the info contact.
  simp [traces, addInfoMsg, isOurs, ContactId.info, ContactId.self]

omit [Unicode] in
theorem traces_setDraft (chatId : ChatId) (msg : Message) (now : Int) :
    KeepsOnError traces (setDraft chatId msg now) := by
  refine KeepsOnError.ite (KeepsOnError.of_keeps (Keeps.pure _)) ?_
  refine KeepsOnError.bind (Keeps.ensure _ _) fun _ => ?_
  refine KeepsOnError.bind (Keeps.ensure _ _) fun _ => ?_
  intro db e db' failed
  cases failed

/-! ## When the draft is stored -/

def Permitted (recipients : RecipientSet) (options : SendOptions) (db : Db) : Prop :=
  match options.encryption with
  | .auto => True
  | .required => (readiness recipients db).missing = []
  | .plaintext => (readiness recipients db).locked = false

theorem check_eq_ok_iff {recipients : RecipientSet} {options : SendOptions} :
    (check recipients options).run db = .ok () db ↔ Permitted recipients options db := by
  unfold check Permitted
  rw [queryExcept_eq_ok, and_iff_left rfl]
  cases options.encryption with
  | auto => exact ⟨fun _ => trivial, fun _ => rfl⟩
  | required =>
    simp only [List.isEmpty_iff]
    split
    next complete => exact ⟨fun _ => complete, fun _ => rfl⟩
    next missing => exact ⟨fun passed => (by cases passed), fun complete => absurd complete missing⟩
  | plaintext =>
    simp only
    split
    next locked =>
      refine ⟨fun passed => (by cases passed), fun unlocked => ?_⟩
      rw [unlocked] at locked
      cases locked
    next unlocked => exact ⟨fun _ => Bool.eq_false_iff.mpr unlocked, fun _ => rfl⟩

/-- Mail to the address goes to the device contact, which has no chat. -/
def DeviceOnly (addr : Text) (db : Db) : Prop :=
  Unkeyed addr db ∧ (rowFor addr [] db).map (·.id) = some ContactId.device ∧
    chatWith ContactId.device db = none

/-- Nothing stands in the way of storing the draft: the padlock is allowed, the
first address has a contact or may get one, a chat with it exists or may be
created, and the draft is not empty. -/
structure Storable (mail : Composition) (primary : Text) (db : Db) : Prop where
  permitted : Permitted mail.recipients mail.options db
  addressable : (keyContactFor (primaryAddr primary) db).isSome = true ∨
    mayBeValidAddr (primaryAddr primary) = true
  chattable : ¬DeviceOnly (primaryAddr primary) db
  filled : mail.attachment.isSome = true ∨ (bodyOf mail).1 ≠ []

def Chattable (id : ContactId) (db : Db) : Prop :=
  (chatWith id db).isSome = true ∨ realExistsById id db = true ∨ id = ContactId.self

omit [Unicode] in
theorem getForContact_succeeds (id : ContactId) (noticeMid : Text) (now : Int) (db : Db) :
    Succeeds (getForContact id noticeMid now) db := by
  unfold getForContact onlyIf
  refine Succeeds.bind (execReturning_run _) (Succeeds.bind (query_run _) ?_)
  split
  · exact Succeeds.bind (exec_run _) ⟨_, _, rfl⟩
  · exact Succeeds.bind rfl ⟨_, _, rfl⟩

theorem createForContact_of_chattable (chattable : Chattable id db) (noticeMid : Text) (now : Int) :
    Succeeds (createForContact id noticeMid now) db := by
  unfold createForContact
  refine Succeeds.bind (query_run _) ?_
  cases known : chatWith id db with
  | some chat => exact Succeeds.bind (exec_run _) ⟨_, _, rfl⟩
  | none =>
    have accepted : (realExistsById id db || id == ContactId.self) = true := by
      rcases chattable with found | real | self
      · rw [known] at found
        cases found
      · rw [real, Bool.true_or]
      · rw [self, beq_self_eq_true, Bool.or_true]
    obtain ⟨chatId, middle, created⟩ := getForContact_succeeds id noticeMid now db
    refine Succeeds.bind (query_run _) (Succeeds.ensure_bind accepted ?_)
    exact Succeeds.bind created (Succeeds.bind rfl ⟨_, _, rfl⟩)

theorem chattable_of_createForContact {noticeMid : Text} (next : chatIdLastSpecial < db.nextChatId)
    (success : (createForContact id noticeMid now).run db = .ok chatId db') :
    Chattable id db ∧ chatIdLastSpecial < chatId := by
  unfold createForContact at success
  have success := query_bind_eq_ok.mp success
  cases known : chatWith id db with
  | some chat =>
    simp only [known] at success
    obtain ⟨_, _, _, success⟩ := bind_eq_ok.mp success
    obtain ⟨rfl, _⟩ := pure_eq_ok.mp success
    have checks := List.find?_some known
    simp only [Bool.and_eq_true, decide_eq_true_eq] at checks
    exact ⟨Or.inl (by rw [known]; rfl), checks.1⟩
  | none =>
    simp only [known] at success
    have success := query_bind_eq_ok.mp success
    obtain ⟨accepted, success⟩ := ensure_bind_eq_ok.mp success
    obtain ⟨newId, _, got, success⟩ := bind_eq_ok.mp success
    obtain ⟨_, _, _, success⟩ := bind_eq_ok.mp success
    obtain ⟨rfl, _⟩ := pure_eq_ok.mp success
    unfold getForContact at got
    obtain ⟨chat, _, inserted, got⟩ := bind_eq_ok.mp got
    simp only [execReturning_run, EStateM.Result.ok.injEq] at inserted
    obtain ⟨_, _, _, got⟩ := bind_eq_ok.mp got
    obtain ⟨_, _, _, got⟩ := bind_eq_ok.mp got
    obtain ⟨rfl, _⟩ := pure_eq_ok.mp got
    simp only [Bool.or_eq_true, beq_iff_eq] at accepted
    refine ⟨Or.inr accepted, ?_⟩
    rw [← inserted.1]
    exact next

omit [Unicode] in
theorem realExistsById_of_mem (ok : ContactsOk db) {row : Contact} (member : row ∈ db.contacts)
    (real : ContactId.lastSpecial < row.id) : realExistsById row.id db = true := by
  simp [realExistsById, isSpecial, ok.contactById member, real]

theorem resolvePrimary_of_addressable
    (addressable : (keyContactFor (primaryAddr primary) db).isSome = true ∨
      mayBeValidAddr (primaryAddr primary) = true) : Succeeds (resolvePrimary primary) db := by
  unfold resolvePrimary
  refine Succeeds.bind (query_run _) ?_
  cases lookup : keyContactFor (addrNormalize (splitAddr (trim primary)).2) db with
  | some id => exact ⟨id, db, rfl⟩
  | none =>
    have valid : mayBeValidAddr (primaryAddr primary) = true := by
      refine addressable.resolve_left fun found => ?_
      rw [primaryAddr, lookup] at found
      cases found
    have isAddress : contactAddress (splitAddr (trim primary)).2 =
        .ok (addrNormalize (splitAddr (trim primary)).2) := if_pos valid
    have filled : (addrNormalize (splitAddr (trim primary)).2).isEmpty = false :=
      Bool.eq_false_iff.mpr fun blank =>
        ne_nil_of_mayBeValidAddr valid (List.isEmpty_iff.mp blank)
    simp only [isAddress]
    obtain ⟨found, after, added⟩ : Succeeds (addOrLookup (splitAddr (trim primary)).1
        (addrNormalize (splitAddr (trim primary)).2) .outgoingTo) db := by
      unfold addOrLookup addOrLookupExt
      refine Succeeds.ensure_bind (by rw [filled]; rfl) (Succeeds.ensure_bind rfl ?_)
      refine Succeeds.bind (query_run _) (Succeeds.ite (fun _ => ⟨_, _, rfl⟩) fun _ => ?_)
      exact ⟨_, _, execReturning_run _⟩
    exact Succeeds.bind added ⟨_, _, rfl⟩

theorem valid_of_resolvePrimary (noKey : keyContactFor (primaryAddr primary) db = none)
    (resolved : (resolvePrimary primary).run db = .ok id db') :
    mayBeValidAddr (primaryAddr primary) = true := by
  unfold resolvePrimary at resolved
  have resolved := query_bind_eq_ok.mp resolved
  rw [show keyContactFor (addrNormalize (splitAddr (trim primary)).2) db = none from noKey]
    at resolved
  simp only at resolved
  split at resolved
  next => cases resolved
  next contactAddr valid =>
    obtain ⟨rfl, maybeValid⟩ := contactAddress_eq_ok valid
    exact maybeValid

theorem contact_of_unkeyed (unkeyed : Unkeyed (primaryAddr primary) db)
    (resolved : (resolvePrimary primary).run db = .ok id db') :
    id = ((rowFor (primaryAddr primary) [] db).map (·.id)).getD db.nextContactId := by
  unfold resolvePrimary at resolved
  have resolved := query_bind_eq_ok.mp resolved
  rw [show keyContactFor (addrNormalize (splitAddr (trim primary)).2) db = none from unkeyed.1]
    at resolved
  simp only at resolved
  split at resolved
  next => cases resolved
  next contactAddr valid =>
    obtain ⟨rfl, _⟩ := contactAddress_eq_ok valid
    obtain ⟨⟨foundId, modifier⟩, _, added, resolved⟩ := bind_eq_ok.mp resolved
    obtain ⟨rfl, rfl⟩ := pure_eq_ok.mp resolved
    rcases addOrLookupExt_eq_ok added with ⟨own, _, _⟩ | ⟨_, merged⟩
    · have other : isSelf (addrNormalize (splitAddr (trim primary)).2) [] db = false := unkeyed.2
      rw [own] at other
      cases other
    · have isId := congrArg (·.1.1) merged
      simp only at isId
      rw [isId, insertOrMerge, primaryAddr]
      cases rowFor (addrNormalize (splitAddr (trim primary)).2) [] db with
      | some row => rfl
      | none => rfl

theorem chattable_iff (sound : Sound db) (resolved : (resolvePrimary primary).run db = .ok id db') :
    Chattable id db' ↔ ¬DeviceOnly (primaryAddr primary) db := by
  have sameChats : db'.chats = db.chats :=
    ((keeps_resolvePrimary primary).coarser Db.chats).of_ok resolved
  obtain ⟨partner, row⟩ := resolvePrimary_partner sound resolved
  cases partner with
  | keyed found =>
    refine ⟨fun _ device => ?_, fun _ => Or.inr (Or.inl ?_)⟩
    · rw [DeviceOnly, Unkeyed, found] at device
      cases device.1.1
    · obtain ⟨contact, member, rfl, isKey, _, real⟩ := keyContactFor_eq_some found
      have keys : KeysAre (keyRows db) db' :=
        ((addressInvariant_keysAre _).preserves_resolvePrimary primary).of_ok
          ⟨sound.contacts, rfl⟩ resolved
      obtain ⟨later, isLater, _⟩ := contactById_of_keysAre keys member isKey
      simp [realExistsById, isSpecial, isLater, real]
  | ourselves noKey own nonempty =>
    refine ⟨fun _ device => ?_, fun _ => Or.inr (Or.inr rfl)⟩
    rw [DeviceOnly, Unkeyed, own] at device
    cases device.1.2
  | byAddress unkeyed nonempty real _ =>
    have isContact := contact_of_unkeyed unkeyed resolved
    rcases real with rfl | real
    · have isDevice : (rowFor (primaryAddr primary) [] db).map (·.id) = some ContactId.device := by
        cases found : (rowFor (primaryAddr primary) [] db).map (·.id) with
        | some other => rw [isContact, found, Option.getD_some]
        | none =>
          rw [found, Option.getD_none] at isContact
          have next := sound.contacts.next_real
          rw [← isContact] at next
          exact absurd next (by decide)
      have sameChat : chatWith ContactId.device db' = chatWith ContactId.device db := by
        rw [chatWith, sameChats]
        rfl
      rw [Chattable, DeviceOnly, sameChat, Option.isSome_iff_ne_none]
      refine ⟨fun chattable device => ?_,
        fun chats => Or.inl fun none => chats ⟨unkeyed, isDevice, none⟩⟩
      rcases chattable with chats | exists' | self
      · exact chats device.2.2
      · cases exists'
      · exact absurd self (by decide)
    · refine ⟨fun _ device => ?_, fun _ => Or.inr (Or.inl ?_)⟩
      · rw [device.2.1, Option.getD_some] at isContact
        rw [isContact] at real
        exact absurd real (by decide)
      · obtain ⟨ok, contact, member, rfl, _⟩ := row unkeyed
        exact realExistsById_of_mem ok member real

def afterDraft (mail : Composition) (draws : Draws) (now : Int) (chatId : ChatId)
    (msg : Message) : DbAction MsgId := do
  ensure (msg.id != 0) "draft was not persisted".toList
  setRecipients msg.id mail.recipients
  exec (setImportance msg.id mail.importance)
  exec (setOptions msg.id mail.options (bodyOf mail).2)
  sendMsg chatId msg draws now
  pure msg.id

theorem send_eq_of_cons (typed : mail.recipients.toAddrs = primary :: rest)
    (draws : Draws) (now : Int) :
    send mail draws now = (do
      check mail.recipients mail.options
      let contactId ← resolvePrimary primary
      let chatId ← createForContact contactId draws.noticeMid now
      let msg ← setDraft chatId (newMessage mail draws.mid) now
      afterDraft mail draws now chatId msg) := by
  have some' : mail.recipients.isEmpty = false := by simp [RecipientSet.isEmpty, typed]
  simp only [send, some', typed, composeDraft, afterDraft, bind_assoc, pure_bind]
  rfl

/-! ## What sending leaves true -/

omit [Unicode] in
theorem loadChat_id {chat : Chat} (loaded : (loadChat chatId).run db = .ok chat db') :
    chat.id = chatId := by
  obtain ⟨found, _⟩ := (querySome_eq_ok _ _).mp loaded
  simpa using List.find?_some found

def mailView (db : Db) : List Message × List Chat × MsgId := (db.msgs, db.chats, db.nextMsgId)

/-- A property that sending a message of a chat leaves true, whatever becomes of it. -/
structure SendStable (msgId : MsgId) (chatId : ChatId) (Inv : Db → Prop) : Prop where
  view : ∀ db db', mailView db' = mailView db → Inv db → Inv db'
  update : ∀ (f : Message → Message) db, (∀ row, (f row).id = row.id) →
    (∀ row, row.fromId = ContactId.self → (f row).fromId = ContactId.self) → Inv db →
    Inv { db with msgs := updateWhere (fun row => row.id == msgId) f db.msgs }
  info : ∀ other cmd mid text sort sent db, Inv db →
    Inv (addInfoMsg other cmd mid text sort sent db)
  timer : ∀ contacts db, Inv db → Inv (applyDefaultTimer chatId msgId contacts db)

section Stable

variable {msgId : MsgId} {Inv : Db → Prop} (stable : SendStable msgId chatId Inv)

include stable

omit [Unicode] in
theorem SendStable.of_keeps {α : Type} {x : DbAction α} (keeps : Keeps mailView x) :
    Preserves Inv x :=
  Preserves.of_keeps stable.view keeps

omit [Unicode] in
theorem SendStable.failed (isMsg : msg.id = msgId) (error : Text) (db : Db) (inv : Inv db) :
    Inv (setMsgFailed msg error db) := by
  rw [setMsgFailed, isMsg]
  exact stable.update _ db (fun _ => rfl) (fun _ ours => ours) inv

theorem SendStable.renderAndQueue {factory : Factory} (isMsg : factory.msg.id = msgId)
    (needs : Bool) (draws : Draws) (now : Int) :
    Preserves Inv (renderAndQueue factory needs draws now) := by
  refine Preserves.bind (Preserves.query _) fun bccSelf => Preserves.ite ?_ ?_
  · refine Preserves.exec fun db inv => ?_
    rw [skipSending, isMsg]
    exact stable.update _ db (fun _ => rfl) (fun _ ours => ours) inv
  · refine Preserves.bind (Preserves.onError ?_ fun e db => stable.failed isMsg e db)
      fun rendered =>
      Preserves.ite ?_ ?_
    · exact stable.of_keeps ((keeps_renderMessages factory draws now).coarser mailView)
    · refine Preserves.bind (Preserves.query _) fun text => ?_
      refine Preserves.bind (Preserves.exec fun db => stable.failed isMsg text db) fun _ => ?_
      exact Preserves.bind (Preserves.exec fun db => stable.info _ _ _ _ _ _ db) fun _ =>
        stable.of_keeps (Keeps.fail _)
    · refine Preserves.bind (Preserves.query _) fun recipients => ?_
      refine Preserves.bind (Preserves.onlyIf _ (stable.of_keeps (Keeps.exec fun _ => rfl)))
        fun _ => ?_
      refine Preserves.bind (Preserves.exec fun db inv => ?_) fun _ => ?_
      · rw [updateSent, isMsg]
        exact stable.update _ db (fun _ => rfl) (fun _ ours => ours) inv
      · refine Preserves.bind (stable.of_keeps (Keeps.exec fun _ => rfl)) fun _ => ?_
        refine Preserves.bind (stable.of_keeps (Keeps.exec fun _ => rfl)) fun _ => ?_
        refine stable.of_keeps (Keeps.exec fun db => ?_)
        unfold enqueue
        simp only
        split <;> rfl

theorem SendStable.createSendMsgJobs (isMsg : msg.id = msgId) (inChat : msg.chatId = chatId)
    (draws : Draws) (now : Int) : Preserves Inv (createSendMsgJobs msg draws now) := by
  refine Preserves.bind (Preserves.query _) fun contacts => ?_
  refine Preserves.bind_of_ok (Preserves.queryExcept _) fun _ allowed db _ prepared inv => ?_
  obtain ⟨sameId, sameChat⟩ := (allowed_of_prepareSend prepared).same
  have isAllowed : allowed.id = msgId := sameId.trans isMsg
  rw [stateAfter_exec_bind, isAllowed, sameChat, inChat, stateAfter_query_bind]
  refine Preserves.bind_of_ok (Preserves.onError ?_ fun e db => stable.failed isAllowed e db)
    (fun _ factory db _ made inv => ?_) _ (stable.timer _ _ inv)
  · exact stable.of_keeps ((keeps_fromMsg _ _).coarser mailView)
  · obtain ⟨_, _, _, _, _, _, _, _, rfl⟩ := fromMsg_eq_ok (onError_eq_ok.mp made)
    exact stable.renderAndQueue isAllowed _ draws now db inv

theorem SendStable.sendMsg (isMsg : msg.id = msgId) (draws : Draws) (now : Int) :
    Preserves Inv (sendMsg chatId msg draws now) := by
  refine Preserves.bind (Preserves.ensure _ _) fun _ => ?_
  refine Preserves.bind_of_ok (Preserves.queryExcept _) fun _ chat db _ loaded inv => ?_
  have inChat := loadChat_id loaded
  refine Preserves.bind (Preserves.query _) (fun reason => ?_) db inv
  cases reason with
  | some reason => exact stable.of_keeps (Keeps.fail _)
  | none =>
    subst isMsg
    refine Preserves.bind_of_ok (Preserves.execReturning fun db inv => ?_)
      fun _ sent db _ prepared inv => ?_
    · exact stable.update _ db (fun _ => rfl) (fun _ _ => rfl) inv
    · rw [execReturning_run, EStateM.Result.ok.injEq] at prepared
      have isSent : sent.id = msg.id := prepared.1 ▸ rfl
      have sentChat : sent.chatId = chatId := prepared.1 ▸ inChat
      exact Preserves.onError (stable.createSendMsgJobs isSent sentChat draws now)
        (fun _ _ inv => inv) db inv

theorem SendStable.afterDraft (isMsg : msg.id = msgId) (mail : Composition) (draws : Draws)
    (now : Int) : Preserves Inv (afterDraft mail draws now chatId msg) := by
  refine Preserves.bind (Preserves.ensure _ _) fun _ => ?_
  refine Preserves.bind (stable.of_keeps ((keeps_setRecipients _ _).coarser mailView)) fun _ => ?_
  refine Preserves.bind (stable.of_keeps (Keeps.exec fun db => ?_)) fun _ => ?_
  · cases mail.importance <;> rfl
  · refine Preserves.bind (stable.of_keeps (Keeps.exec fun db => ?_)) fun _ => ?_
    · unfold setOptions
      split <;> rfl
    · exact Preserves.bind (stable.sendMsg isMsg draws now) fun _ => Preserves.pure _

end Stable

omit [Unicode] in
theorem sendStable_hasOurs (id msgId : MsgId) : SendStable msgId chatId (HasOurs id) where
  view _ _ same has := has.of_msgs (congrArg Prod.fst same)
  update _ _ keepsId keepsOurs has := has.update rfl keepsId keepsOurs
  info _ _ _ _ _ _ _ has := by
    obtain ⟨msg, member, facts⟩ := has
    exact ⟨msg, List.mem_append_left _ member, facts⟩
  timer _ _ has := by
    refine has.of_msgs ?_
    unfold applyDefaultTimer
    simp only
    split <;> rfl

/-! ## Which refusals leave nothing behind -/

structure Counted (db : Db) : Prop extends Sound db where
  chats_real : chatIdLastSpecial < db.nextChatId
  msgs_lt : ∀ msg ∈ db.msgs, msg.id < db.nextMsgId

theorem filled_iff (mail : Composition) (mid : Text) :
    ((newMessage mail mid).viewtype != .unknown &&
        !((newMessage mail mid).viewtype == .text && (newMessage mail mid).text.isEmpty &&
          (newMessage mail mid).mimeInReplyTo.isEmpty)) = true ↔
      mail.attachment.isSome = true ∨ (bodyOf mail).1 ≠ [] := by
  cases attached : mail.attachment with
  | some file => simp [newMessage, attached]
  | none => simp [newMessage, attached]

theorem setDraft_of_filled (real : chatIdLastSpecial < chatId)
    (filled : mail.attachment.isSome = true ∨ (bodyOf mail).1 ≠ []) :
    (setDraft chatId (newMessage mail mid) now).run db =
      .ok (insertDraft chatId (newMessage mail mid) now db).1
        (insertDraft chatId (newMessage mail mid) now db).2 := by
  obtain ⟨typed, some'⟩ := Bool.and_eq_true_iff.mp ((filled_iff mail mid).mpr filled)
  rw [setDraft, if_neg (Nat.not_le.mpr real)]
  refine bind_eq_ok.mpr ⟨(), db, (ensure_eq_ok _ _ _).mpr ⟨typed, rfl⟩, ?_⟩
  exact bind_eq_ok.mpr ⟨(), db, (ensure_eq_ok _ _ _).mpr ⟨some', rfl⟩, rfl⟩

theorem filled_of_setDraft {draft : Message} (real : chatIdLastSpecial < chatId)
    (success : (setDraft chatId (newMessage mail mid) now).run db = .ok draft db') :
    mail.attachment.isSome = true ∨ (bodyOf mail).1 ≠ [] := by
  rw [setDraft, if_neg (Nat.not_le.mpr real)] at success
  obtain ⟨typed, success⟩ := ensure_bind_eq_ok.mp success
  obtain ⟨_, _, second, _⟩ := bind_eq_ok.mp success
  obtain ⟨some', _⟩ := (ensure_eq_ok _ _ _).mp second
  exact (filled_iff mail mid).mp (Bool.and_eq_true_iff.mpr ⟨typed, some'⟩)

theorem hasOurs_of_storable {draws : Draws} (counted : Counted db)
    (typed : mail.recipients.toAddrs = primary :: rest) (storable : Storable mail primary db) :
    ∃ id, db.nextMsgId ≤ id ∧ HasOurs id (stateAfter (send mail draws now) db) := by
  obtain ⟨contactId, found, resolved⟩ := resolvePrimary_of_addressable storable.addressable
  have chattable := (chattable_iff counted.toSound resolved).mpr storable.chattable
  obtain ⟨chatId, chatted, created⟩ :=
    createForContact_of_chattable chattable draws.noticeMid now
  have sameFound : found.nextChatId = db.nextChatId ∧ found.nextMsgId = db.nextMsgId :=
    ⟨((keeps_resolvePrimary primary).coarser Db.nextChatId).of_ok resolved,
      ((keeps_resolvePrimary primary).coarser Db.nextMsgId).of_ok resolved⟩
  have real : chatIdLastSpecial < chatId := by
    refine (chattable_of_createForContact ?_ created).2
    rw [sameFound.1]
    exact counted.chats_real
  have handedOut : found.nextMsgId ≤ chatted.nextMsgId :=
    (nextMsgId_le_createForContact _ _ _).of_ok created
  refine ⟨chatted.nextMsgId, sameFound.2 ▸ handedOut, ?_⟩
  rw [send_eq_of_cons typed, stateAfter_bind_of_ok (check_eq_ok_iff.mpr storable.permitted),
    stateAfter_bind_of_ok resolved, stateAfter_bind_of_ok created,
    stateAfter_bind_of_ok (setDraft_of_filled real storable.filled)]
  refine (sendStable_hasOurs _ _).afterDraft rfl _ _ _ _ ?_
  exact ⟨_, List.mem_append_right _ List.mem_cons_self, rfl, rfl⟩

theorem storable_of_stored {noticeMid : Text} {found chatted drafted : Db}
    {contactId : ContactId} {draft : Message} (counted : Counted db)
    (permitted : Permitted mail.recipients mail.options db)
    (resolved : (resolvePrimary primary).run db = .ok contactId found)
    (created : (createForContact contactId noticeMid now).run found = .ok chatId chatted)
    (stored : (setDraft chatId (newMessage mail mid) now).run chatted = .ok draft drafted) :
    Storable mail primary db := by
  have sameNext : found.nextChatId = db.nextChatId :=
    ((keeps_resolvePrimary primary).coarser Db.nextChatId).of_ok resolved
  obtain ⟨chattable, real⟩ := chattable_of_createForContact (sameNext ▸ counted.chats_real) created
  refine ⟨permitted, ?_, (chattable_iff counted.toSound resolved).mp chattable,
    filled_of_setDraft real stored⟩
  cases lookup : keyContactFor (primaryAddr primary) db with
  | some id => exact Or.inl rfl
  | none => exact Or.inr (valid_of_resolvePrimary lookup resolved)

theorem traces_of_not_storable {draws : Draws} (counted : Counted db)
    (typed : mail.recipients.toAddrs = primary :: rest) (refused : ¬Storable mail primary db) :
    traces (stateAfter (send mail draws now) db) = traces db := by
  have checkKeeps : Keeps traces (check mail.recipients mail.options) := Keeps.queryExcept _
  have resolveKeeps : Keeps traces (resolvePrimary primary) :=
    (keeps_resolvePrimary primary).coarser traces
  rw [send_eq_of_cons typed, stateAfter_bind]
  split
  next u checkedDb checked =>
    obtain ⟨_, rfl⟩ := (queryExcept_eq_ok _).mp checked
    have permitted := check_eq_ok_iff.mp checked
    rw [stateAfter_bind]
    split
    next contactId found resolved =>
      rw [← resolveKeeps.of_ok resolved, stateAfter_bind]
      split
      next chatId chatted created =>
        rw [← (traces_createForContact _ _ _).of_ok created, stateAfter_bind]
        split
        next draft drafted stored =>
          exact absurd (storable_of_stored counted permitted resolved created stored) refused
        next e failed unsaved => exact traces_setDraft _ _ _ unsaved
      next e failed uncreated =>
        exact KeepsOnError.of_keeps (traces_createForContact _ _ _) uncreated
    next e failed unresolved => exact KeepsOnError.of_keeps resolveKeeps unresolved
  next e failed unchecked => exact KeepsOnError.of_keeps checkKeeps unchecked

/-- A refused message leaves nothing behind exactly if it could not even be
stored as a draft. -/
theorem refused_leaves_nothing_iff {mail : Composition} {draws : Draws} {now : Int} {db db' : Db}
    {e : Text} (counted : Counted db) (refused : (send mail draws now).run db = .error e db') :
    traces db' = traces db ↔
      ∀ primary, mail.recipients.toAddrs.head? = some primary → ¬Storable mail primary db := by
  rw [← stateAfter_of_error refused]
  cases typed : mail.recipients.toAddrs with
  | nil =>
    have unsent : stateAfter (send mail draws now) db = db := by
      rw [send, stateAfter_ensure_bind]
      simp only [typed]
      exact ite_self db
    simp [unsent]
  | cons primary rest =>
    simp only [List.head?_cons, Option.some.injEq, forall_eq']
    refine ⟨fun same storable => ?_, fun refused => traces_of_not_storable counted typed refused⟩
    obtain ⟨id, fresh, has⟩ := hasOurs_of_storable counted typed storable
    refine traces_ne_of_hasOurs (fun msg member => ?_) has same
    exact Nat.lt_of_lt_of_le (counted.msgs_lt msg member) fresh

end

section

local instance : Unicode := asciiTables

def begun : Message :=
  { id := 10, chatId := 10, fromId := ContactId.self, state := .outDraft, hidden := true,
    text := "a long letter".toList }

def correspondence : Db :=
  { account with
    contacts := [{ id := 10, addr := "a@x.org".toList, origin := .outgoingTo }]
    nextContactId := 11
    chats := [{ id := 10, contactId := 10 }]
    nextChatId := 11
    msgs := [begun]
    nextMsgId := 11 }

theorem counted_correspondence : Counted correspondence where
  contacts := ⟨by decide, by decide, by decide⟩
  chat_ids_nodup := by decide
  chat_ids_lt := by decide
  special_addr := by decide
  queued_lt := by decide
  undelivered_lt := by decide
  chats_real := by decide
  msgs_lt := by decide

def mistypedCopy : Composition :=
  { recipients := { toAddrs := ["a@x.org".toList], ccAddrs := ["nobody".toList] }
    text := "hi".toList }

/-- A typing error in `Cc` costs the draft that was there. -/
theorem mistyped_copy_replaces_draft :
    (∃ e, (send mistypedCopy { mid := "m".toList } 1000).run correspondence =
        .error e (sentFrom mistypedCopy correspondence)) ∧
      begun ∉ (sentFrom mistypedCopy correspondence).msgs ∧
      traces (sentFrom mistypedCopy correspondence) ≠ traces correspondence :=
  ⟨run_of_fails (by decide +kernel), by decide +kernel, by decide +kernel⟩

def mistypedAddress : Composition :=
  { recipients := { toAddrs := ["nobody".toList], ccAddrs := ["a@x.org".toList] }
    text := "hi".toList }

theorem mistyped_address_leaves_nothing :
    traces (sentFrom mistypedAddress correspondence) = traces correspondence := by
  obtain ⟨e, refused⟩ : ∃ e, (send mistypedAddress { mid := "m".toList } 1000).run
      correspondence = .error e (sentFrom mistypedAddress correspondence) :=
    run_of_fails (by decide +kernel)
  refine (refused_leaves_nothing_iff counted_correspondence refused).mpr ?_
  rintro primary typed ⟨_, addressable, _⟩
  obtain rfl : "nobody".toList = primary := Option.some.inj typed
  revert addressable
  decide +kernel

end

end Eeemail.Refusals
