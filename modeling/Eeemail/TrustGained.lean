import Eeemail.Acquaintance
import Eeemail.Outcome
import Eeemail.StrangerMail

/-! # Nobody trusted is held

Trust is gained by writing to somebody, by accepting or verifying them and by
creating their contact, and all of these release held mail.  It is also gained
without a release: by whom a message is copied to, by the word of somebody
known, by a row that is unblocked.  Nobody trusted is held in runs in which the
latter meet nobody whose mail is held. -/

set_option autoImplicit false

namespace Eeemail.TrustGained

open Lib.Texts Lib.Actions Lib.Tables Lib.Runs Addr Store Labels ReservedLabels Contacts Gating
open Reception Recipients Chats Policy MimeFactory Sending Frames ContactTable
open SendFrames Drafting Queueing Outcome Acquaintance Strangers StrangerMail

variable {mail : Composition} {msg : Message} {now : Int} {u : Unit}

/-! ## Contacts are made known -/

section Befriending

variable [Unicode] {ids : Text → LabelId} {waiting exempt : Contact → Prop} {db db' : Db}
variable {id : ContactId} {befriended : List ContactId}

def Calm (ids : Text → LabelId) (db : Db) : Prop := Shape ids db ∧ NobodyTrusted db

theorem calm_of_fair (fair : Fair ids waiting Nobody db) : Calm ids db :=
  ⟨fair.shape, fair.nobodyTrusted⟩

theorem Calm.fair (calm : Calm ids db) : Fair ids (WaitedIn db) Nobody db :=
  .of_nobodyTrusted calm.1 calm.2

/-- No blocked contact waits at the address of this one. -/
def Unblocked (waiting : Contact → Prop) (id : ContactId) (db : Db) : Prop :=
  ∀ row ∈ db.contacts, row.id = id → ∀ contact, waiting contact →
    nocaseEq contact.addr row.addr = true → contact.blocked = false

/-- The state while some contacts are being made known. -/
structure Befriending (ids : Text → LabelId) (waiting exempt : Contact → Prop)
    (befriended : List ContactId) (db : Db) : Prop where
  fair : Fair ids waiting exempt db
  unblocked : ∀ id ∈ befriended, id ≠ ContactId.self → Unblocked waiting id db

omit [Unicode] in
theorem Unblocked.of_contacts (unblocked : Unblocked waiting id db)
    (same : db'.contacts = db.contacts) : Unblocked waiting id db' := by
  unfold Unblocked
  rw [same]
  exact unblocked

omit [Unicode] in
theorem Unblocked.update (unblocked : Unblocked waiting id db) {p : Contact → Bool}
    {f : Contact → Contact} (contacts : db'.contacts = updateWhere p f db.contacts)
    (keepsId : ∀ contact, (f contact).id = contact.id)
    (keepsAddr : ∀ contact, (f contact).addr = contact.addr) : Unblocked waiting id db' := by
  intro row member
  rw [contacts] at member
  obtain ⟨old, isOld, rfl⟩ := mem_updateWhere.mp member
  split
  · rw [keepsId, keepsAddr]
    exact unblocked old isOld
  · exact unblocked old isOld

theorem Befriending.of_contacts (befriending : Befriending ids waiting exempt befriended db)
    (fair : Fair ids waiting exempt db') (same : db'.contacts = db.contacts) :
    Befriending ids waiting exempt befriended db' :=
  ⟨fair, fun id member notSelf => (befriending.unblocked id member notSelf).of_contacts same⟩

theorem unblocked_markContactIdAsVerified {other : ContactId} :
    Preserves (Unblocked waiting other) (markContactIdAsVerified id) := by
  refine Preserves.bind (Preserves.ensure _ _) fun _ => ?_
  refine Preserves.bind (Preserves.queryExcept _) fun contact => ?_
  refine Preserves.bind (Preserves.ensure _ _) fun _ => ?_
  intro db unblocked
  rw [stateAfter_exec_bind, stateAfter_bestEffort]
  exact unblocked.update ((keeps_release [id]).coarser Db.contacts _) (fun _ => rfl) fun _ => rfl

variable (waitingStable : Stable waiting) (exemptStable : Stable exempt)

include waitingStable exemptStable

theorem befriending_scaleupOrigin {origin : Origin} (known : origin.isKnown = true)
    (member : id ∈ befriended) :
    Preserves (Befriending ids waiting exempt befriended) (scaleupOrigin [id] origin) := by
  rintro db ⟨fair, unblocked⟩
  refine ⟨?_, fun other isOther notSelf => ?_⟩
  · exact fair.scaleupOrigin waitingStable exemptStable known (unblocked id member)
  · exact (unblocked other isOther notSelf).update (contacts_scaleupOrigin [id] origin db)
      (fun _ => rfl) fun _ => rfl

theorem befriending_createForContact (member : id ∈ befriended) (noticeMid : Text) (now : Int) :
    Preserves (Befriending ids waiting exempt befriended) (createForContact id noticeMid now) := by
  refine preserves_createForContact (fun db chat befriending => ?_) (fun db befriending => ?_)
    (fun db _ befriending => ?_) ?_
  · exact befriending.of_contacts (befriending.fair.updateChats fun _ => rfl) rfl
  · exact befriending.of_contacts (befriending.fair.addChat rfl) rfl
  · exact befriending.of_contacts (befriending.fair.addMsg rfl) rfl
  · exact befriending_scaleupOrigin waitingStable exemptStable (by decide) member

theorem fair_markContactIdAsVerified :
    Preserves (Fair ids waiting exempt) (markContactIdAsVerified id) := by
  unfold markContactIdAsVerified
  refine Preserves.bind_of_ok (Preserves.ensure _ _) fun _ _ db _ other fair => ?_
  have notSelf : id ≠ ContactId.self := by simpa using ((ensure_eq_ok _ _ _).mp other).1
  refine Preserves.bind (Preserves.queryExcept _) (fun contact => ?_) db fair
  refine Preserves.bind (Preserves.ensure _ _) fun _ => ?_
  intro db fair
  rw [stateAfter_exec_bind, stateAfter_bestEffort]
  refine fair.verified waitingStable exemptStable ?_ notSelf
  intro contact isId
  simpa using isId

theorem befriending_markContactIdAsVerified :
    Preserves (Befriending ids waiting exempt befriended) (markContactIdAsVerified id) :=
  fun db befriending =>
    ⟨fair_markContactIdAsVerified waitingStable exemptStable db befriending.fair,
      fun other member notSelf =>
        unblocked_markContactIdAsVerified db (befriending.unblocked other member notSelf)⟩

end Befriending

/-! ## Writing to somebody -/

section Writing

variable [Unicode] {ids : Text → LabelId} {start db db' : Db} {id : ContactId} {addr : Text}

/-- A message whose first address has no blocked contact that waits, and whose
other addresses nobody waits at. -/
structure SparesAddressees (mail : Composition) (db : Db) : Prop where
  primary : ¬WaitsBlocked (primaryOf mail) db
  others : ∀ typed ∈ typedEntries mail.recipients, WaitsAt (primaryAddr typed.2) db →
    nocaseEq (primaryAddr typed.2) (primaryOf mail) = true

def Addressee (id : ContactId) (addr : Text) (contact : Contact) : Prop :=
  id ≠ ContactId.self ∧ contact.addr ≠ [] ∧ nocaseEq contact.addr addr = true

omit [Unicode] in
theorem stable_addressee (id : ContactId) (addr : Text) : Stable (Addressee id addr) := by
  rintro old new follows ⟨notSelf, filled, sameAddr⟩
  exact ⟨notSelf, ne_nil_of_nocaseEq follows.addr filled, nocaseEq_trans follows.addr sameAddr⟩

def RowAt (id : ContactId) (addr : Text) (db : Db) : Prop :=
  ContactsOk db ∧ ∃ row ∈ db.contacts, row.id = id ∧ nocaseEq row.addr addr = true

omit [Unicode] in
theorem RowAt.nocaseEq {row : Contact} (rowAt : RowAt id addr db) (member : row ∈ db.contacts)
    (isId : row.id = id) : nocaseEq row.addr addr = true := by
  obtain ⟨ok, found, isFound, foundId, sameAddr⟩ := rowAt
  rw [ok.unique member isFound (isId.trans foundId.symm)]
  exact sameAddr

omit [Unicode] in
theorem addressInvariant_rowAt (id : ContactId) (addr : Text) :
    AddressInvariant (RowAt id addr) := by
  refine addressInvariant_row ?_
  rintro old new sameId _ laterAddr ⟨isId, sameAddr⟩
  exact ⟨sameId.trans isId, nocaseEq_trans laterAddr sameAddr⟩

def PartnerAt (start : Db) (id : ContactId) (addr : Text) (db : Db) : Prop :=
  (id = ContactId.self ∧ isSelf addr [] start = true) ∨
    ((id = ContactId.device ∨ ContactId.lastSpecial < id) ∧ RowAt id addr db)

omit [Unicode] in
theorem ne_self_of_real (real : id = ContactId.device ∨ ContactId.lastSpecial < id) :
    id ≠ ContactId.self := by
  rintro rfl
  revert real
  decide

theorem PartnerAt.preserved {α : Type} {x : DbAction α} (partner : PartnerAt start id addr db)
    (preserves : Preserves (RowAt id addr) x) : PartnerAt start id addr (stateAfter x db) :=
  partner.imp_right (And.imp_right (preserves db))

theorem PartnerAt.of_view (partner : PartnerAt start id addr db)
    (same : contactsView db' = contactsView db) : PartnerAt start id addr db' :=
  partner.imp_right (And.imp_right ((addressInvariant_rowAt id addr).ofView same))

structure Composing (ids : Text → LabelId) (start : Db) (id : ContactId) (addr : Text) (db : Db) :
    Prop where
  fair : Fair ids (WaitedIn start) (Addressee id addr) db
  partner : PartnerAt start id addr db
  config : db.config = start.config

theorem Composing.unblocked (composing : Composing ids start id addr db)
    (spares : ¬WaitsBlocked addr start) (notSelf : id ≠ ContactId.self) :
    Unblocked (WaitedIn start) id db := by
  intro row member isId contact waited sameAddr
  obtain ⟨self, _⟩ | ⟨_, rowAt⟩ := composing.partner
  · exact absurd self notSelf
  · exact unblocked_of_waitedIn waited (nocaseEq_trans sameAddr (rowAt.nocaseEq member isId)) spares

theorem special_addr_of_shape (shape : Shape ids db) :
    ∀ contact ∈ db.contacts, contact.id ≤ ContactId.lastSpecial →
      contact.id = ContactId.device ∨ contact.addr = [] := by
  intro contact member isSpecial
  exact (shape.special contact member isSpecial).2.symm.imp_left And.left

theorem composing_resolvePrimary {primary : Text} (calm : Calm ids start)
    (success : (resolvePrimary primary).run start = .ok id db) :
    Composing ids start id (primaryAddr primary) db := by
  have fair := calm.fair
  have fairWeak : ∀ id addr, Fair ids (WaitedIn start) (Addressee id addr) start := fun _ _ =>
    fair.weaken (fun _ same => same) fun _ _ _ nobody => nobody.elim
  have config : db.config = start.config :=
    congrArg (·.config) ((keeps_resolvePrimary primary).of_ok success)
  unfold resolvePrimary at success
  obtain ⟨found, _, first, success⟩ := bind_eq_ok.mp success
  cases first
  cases lookup : keyContactFor (addrNormalize (splitAddr (trim primary)).2) start with
  | some keyId =>
    simp only [lookup] at success
    obtain ⟨rfl, rfl⟩ := pure_eq_ok.mp success
    obtain ⟨contact, member, isId, _, sameAddr, real⟩ := keyContactFor_eq_some lookup
    exact ⟨fairWeak _ _, Or.inr ⟨Or.inr real, calm.1.contacts, contact, member, isId, sameAddr⟩,
      config⟩
  | none =>
    simp only [lookup] at success
    cases valid : contactAddress (splitAddr (trim primary)).2 with
    | error e =>
      simp only [valid] at success
      cases success
    | ok contactAddr =>
      simp only [valid] at success
      obtain ⟨rfl, maybeValid⟩ := contactAddress_eq_ok valid
      have filled := ne_nil_of_mayBeValidAddr maybeValid
      obtain ⟨⟨foundId, modifier⟩, _, added, success⟩ := bind_eq_ok.mp success
      obtain ⟨rfl, rfl⟩ := pure_eq_ok.mp success
      rcases addOrLookupExt_eq_ok added with ⟨own, isSelf', rfl⟩ | ⟨other, merged⟩
      · exact ⟨fairWeak _ _, Or.inl ⟨isSelf', own⟩, config⟩
      · obtain ⟨⟨ok, row, member, isId, _, sameAddr⟩, real⟩ := insertOrMerge_address
          calm.1.contacts (special_addr_of_shape calm.1) filled
          (adjusted (splitAddr (trim primary)).1 (addrNormalize (splitAddr (trim primary)).2)
            .outgoingTo).1
          (adjusted (splitAddr (trim primary)).1 (addrNormalize (splitAddr (trim primary)).2)
            .outgoingTo).2
        rw [← merged] at ok member isId real
        refine ⟨?_, Or.inr ⟨real, ok, row, member, isId, sameAddr⟩, config⟩
        rw [← stateAfter_of_ok added]
        refine (fairWeak _ _).addOrLookupExt (stable_waitedIn start) (stable_addressee _ _) _
          (by decide) fun _ => ⟨filled, fun _ => rfl, ?_, fun keyed => absurd rfl keyed⟩
        intro _ contact _ atAddr
        exact ⟨ne_self_of_real real, ne_nil_of_nocaseEq atAddr filled, atAddr⟩

theorem composing_createForContact (spares : ¬WaitsBlocked addr start) (noticeMid : Text)
    (now : Int) :
    Preserves (Composing ids start id addr) (createForContact id noticeMid now) := by
  intro db composing
  have befriending : Befriending ids (WaitedIn start) (Addressee id addr) [id] db :=
    ⟨composing.fair, List.forall_mem_singleton.mpr (composing.unblocked spares)⟩
  refine ⟨(befriending_createForContact (stable_waitedIn start) (stable_addressee id addr)
    (List.mem_singleton_self id) noticeMid now db befriending).fair, composing.partner.preserved
    ((addressInvariant_rowAt id addr).preserves_createForContact id noticeMid now), ?_⟩
  exact ((keeps_createForContact id noticeMid now).coarser Db.config db).trans composing.config

theorem composing_insertDraft (composing : Composing ids start id addr db) (chatId : ChatId)
    (msg : Message) (now : Int) :
    Composing ids start id addr (insertDraft chatId msg now db).2 := by
  refine ⟨composing.fair.msgs (Nat.le_succ _) fun row member => ?_, ?_, composing.config⟩
  · rcases List.mem_append.mp member with old | new
    · exact Or.inl ⟨row, (mem_deleteWhere.mp old).1, rfl, rfl⟩
    · rw [List.mem_singleton.mp new]
      exact Or.inr ⟨Nat.lt_succ_self _, fun held isHeld =>
        Nat.ne_of_lt (composing.fair.shape.rows.held_lt held isHeld)⟩
  · exact composing.partner.of_view rfl

theorem isSelf_of_nocaseEq {other : Text} (same : nocaseEq other addr = true)
    (own : isSelf addr [] db = true) : isSelf other [] db = true := by
  have normal := addrNormalize_eq_of_nocaseEq same
  have empty : other.isEmpty = addr.isEmpty := by
    rw [Bool.eq_iff_iff, List.isEmpty_iff, List.isEmpty_iff]
    constructor
    · rintro rfl
      exact List.map_eq_nil_iff.mp (nocaseEq_iff.mp same).symm
    · rintro rfl
      exact List.map_eq_nil_iff.mp (nocaseEq_iff.mp same)
  have cmp : addrCmp other = addrCmp addr := by
    funext self
    rw [addrCmp, addrCmp, normal]
  simpa only [isSelf, isSelfAddr, empty, cmp] using own

theorem composing_resolveRecipient (spares : SparesAddressees mail start)
    {typed : RecipientKind × Text} (member : typed ∈ typedEntries mail.recipients) :
    Preserves (Composing ids start id (primaryOf mail)) (resolveRecipient typed) := by
  intro db composing
  have partner := composing.partner.preserved
    ((addressInvariant_rowAt id (primaryOf mail)).preserves_resolveRecipient typed)
  have config := ((keeps_resolveRecipient typed).coarser Db.config db).trans composing.config
  refine ⟨?_, partner, config⟩
  unfold resolveRecipient
  split
  · exact composing.fair
  · cases valid : contactAddress (splitAddr (trim typed.2)).2 with
    | error e =>
      simp only [valid]
      exact composing.fair
    | ok contactAddr =>
      simp only [valid]
      obtain ⟨rfl, maybeValid⟩ := contactAddress_eq_ok valid
      have filled := ne_nil_of_mayBeValidAddr maybeValid
      rw [stateAfter_bind_pure]
      refine composing.fair.addOrLookupExt (stable_waitedIn start) (stable_addressee _ _) _
        (by decide) fun other => ⟨filled, fun _ => rfl, ?_, fun keyed => absurd rfl keyed⟩
      intro _ contact waited atAddr
      -- An address that somebody waits at is the first one, so it is not ours.
      have isPrimary := spares.others typed member (waitsAt_of_waitedIn waited atAddr)
      have notSelf : id ≠ ContactId.self := by
        rcases composing.partner with ⟨_, own⟩ | ⟨real, _⟩
        · rw [← isSelf_congr composing.config] at own
          exact absurd (isSelf_of_nocaseEq isPrimary own) (Bool.eq_false_iff.mp other)
        · exact ne_self_of_real real
      exact ⟨notSelf, ne_nil_of_nocaseEq atAddr filled, nocaseEq_trans atAddr isPrimary⟩

theorem composing_setRecipients (spares : SparesAddressees mail start) (msgId : MsgId) :
    Preserves (Composing ids start id (primaryOf mail)) (setRecipients msgId mail.recipients) := by
  refine Preserves.bind (Preserves.collect_of_mem fun typed member => ?_) fun _ =>
    Preserves.exec fun db composing => ?_
  · exact composing_resolveRecipient spares member
  · exact ⟨composing.fair.of_fairView rfl, composing.partner.of_view rfl, composing.config⟩

/-! ## The message goes out -/

theorem fair_renderAndQueue {waiting exempt : Contact → Prop} (waitingStable : Stable waiting)
    (exemptStable : Stable exempt) (factory : Factory) (needs : Bool) (draws : Draws) (now : Int) :
    Preserves (Fair ids waiting exempt) (renderAndQueue factory needs draws now) := by
  have failed : ∀ error db, Fair ids waiting exempt db →
      Fair ids waiting exempt (setMsgFailed factory.msg error db) := by
    intro error db fair
    exact fair.updateMsgs (fun _ => rfl) fun _ => rfl
  refine Preserves.bind (Preserves.query _) fun bccSelf => Preserves.ite (Preserves.exec ?_) ?_
  · intro db fair
    exact fair.updateMsgs (fun _ => rfl) fun _ => rfl
  refine Preserves.bind (Preserves.onError (fair_of_keeps
    ((keeps_renderMessages factory draws now).coarser fairView)) failed) fun rendered => ?_
  refine Preserves.ite ?_ ?_
  · refine Preserves.bind (Preserves.query _) fun text => ?_
    refine Preserves.bind (Preserves.exec (failed text)) fun _ => ?_
    refine Preserves.bind (Preserves.exec fun db fair => ?_) fun _ => fun _ fair => fair
    exact fair.addMsg rfl
  · refine Preserves.bind (Preserves.query _) fun recipients => ?_
    refine Preserves.bind (Preserves.onlyIf _ (Preserves.exec fun db fair => ?_)) fun _ => ?_
    · exact fair.sameTrust waitingStable exemptStable fun _ => rfl
    refine Preserves.bind (Preserves.exec fun db fair => ?_) fun _ => ?_
    · exact fair.updateMsgs (fun _ => rfl) fun _ => rfl
    refine fair_of_keeps (Keeps.bind (Keeps.exec fun _ => rfl) fun _ => ?_)
    refine Keeps.bind (Keeps.exec fun _ => rfl) fun _ => Keeps.exec fun db => ?_
    unfold enqueue
    simp only
    split <;> rfl

theorem composing_timedDb (composing : Composing ids start id addr db)
    (unheld : ∀ row ∈ db.heldMsgs, row.msgId ≠ msg.id) (chat : Chat) (now : Int) :
    Composing ids start id addr (timedDb chat msg now db) := by
  have same := outsideChats_timedDb chat msg now db
  have contacts : contactsView (timedDb chat msg now db) = contactsView db :=
    congrArg (fun db => (db.contacts, db.nextContactId)) same
  have config : (timedDb chat msg now db).config = db.config := congrArg (·.config) same
  refine ⟨?_, composing.partner.of_view contacts, config.trans composing.config⟩
  have prepared : Fair ids (WaitedIn start) (Addressee id addr)
      (prepareMsgRaw chat (outgoing msg now) now db).2 := by
    refine composing.fair.msgs (Nat.le_refl _) fun row member => ?_
    obtain ⟨old, isOld, rfl⟩ := mem_updateWhere.mp member
    split
    next isDraft =>
      have sameId : old.id = msg.id := by simpa [outgoing] using isDraft
      refine Or.inr ⟨composing.fair.shape.rows.msgs_lt old isOld, fun held isHeld => ?_⟩
      exact fun same => unheld held isHeld (same.trans sameId)
    next => exact Or.inl ⟨old, isOld, rfl, rfl⟩
  unfold timedDb applyDefaultTimer
  simp only
  split
  · exact prepared
  · exact prepared.updateChats fun _ => rfl

theorem fair_fromMsg {factory : Factory} (composing : Composing ids start id addr db)
    (spares : ¬WaitsBlocked addr start) (chatIs : ChatIs msg.chatId id db)
    (noDevice : id ≠ ContactId.device) (success : (fromMsg msg now).run db = .ok factory db') :
    Fair ids (WaitedIn start) Nobody db' := by
  obtain ⟨chat, _, addressing, _, found, _, addressed, _, _⟩ := fromMsg_eq_ok success
  have isPartner := contactId_of_chatIs chatIs found
  rcases addressed with ⟨selfTalk, _, rfl⟩ | ⟨other, addressed⟩
  · have self : id = ContactId.self := by simpa [isSelfTalk, isPartner] using selfTalk
    exact composing.fair.weaken (fun _ same => same) fun _ _ _ addressee => addressee.1 self
  · have notSelf : id ≠ ContactId.self := by simpa [isSelfTalk, isPartner] using other
    obtain ⟨self, _⟩ | ⟨real, _, row, member, isId, sameAddr⟩ := composing.partner
    · exact absurd self notSelf
    obtain ⟨contact, isContact, raised, _⟩ := memberAddressing_eq_ok
      (isPartner ▸ real.resolve_left noDevice) addressed
    have contactId : contact.id = id := (contactById_eq_some isContact).2.trans isPartner
    rw [contactId] at raised
    rw [← stateAfter_of_ok raised]
    have wide : Fair ids (WaitedIn start)
        (fun contact => Nobody contact ∨ Beside id db contact) db := by
      refine composing.fair.weaken (fun _ same => same) ?_
      rintro contact _ _ ⟨_, filled, atAddr⟩
      exact Or.inr (Or.inr ⟨row, member, isId, filled,
        nocaseEq_trans atAddr (nocaseEq_symm sameAddr)⟩)
    exact wide.scaleupOrigin_beside (stable_waitedIn start) stable_nobody (by decide) notSelf
      (composing.unblocked spares notSelf)

theorem heldMsgs_setRecipients (msgId : MsgId) (recipients : RecipientSet) :
    Keeps Db.heldMsgs (setRecipients msgId recipients) := by
  refine Keeps.bind (Keeps.collect (fun typed => ?_) _) fun _ => Keeps.exec fun _ => rfl
  refine Keeps.ite (Keeps.pure _) ?_
  simp only
  split
  · exact Keeps.fail _
  · exact Keeps.bind ((keeps_addOrLookupExt _ _ _ _).coarser Db.heldMsgs) fun _ => Keeps.pure _

theorem composing_composeDraft {primary : Text} {draws : Draws} {chatId : ChatId}
    (isPrimary : primaryAddr primary = primaryOf mail) (spares : SparesAddressees mail start)
    (calm : Calm ids start)
    (success : (composeDraft mail primary draws now).run start = .ok (chatId, msg) db) :
    (∃ id, Composing ids start id (primaryOf mail) db ∧ ChatIs chatId id db) ∧
      ∀ row ∈ db.heldMsgs, row.msgId ≠ msg.id := by
  obtain ⟨id, found, chatted, drafted, addressed, resolved, created, inserted, stored, rfl⟩ :=
    composeDraft_eq_ok success
  obtain ⟨isMsg, isDrafted⟩ := Prod.mk.inj inserted
  have looked : Composing ids start id (primaryOf mail) found :=
    isPrimary ▸ composing_resolvePrimary calm resolved
  have chat := (composing_createForContact spares.primary draws.noticeMid now).of_ok looked created
  have draft : Composing ids start id (primaryOf mail) drafted := by
    rw [isDrafted]
    exact composing_insertDraft chat chatId (newMessage mail draws.mid) now
  have listed := (composing_setRecipients spares msg.id).of_ok draft stored
  have sameView : fairView (setOptions msg.id mail.options (bodyOf mail).2
      (setImportance msg.id mail.importance addressed)) = fairView addressed := by
    unfold setOptions
    cases mail.importance <;> split <;> rfl
  have sameTail : outsideAddressees (setOptions msg.id mail.options (bodyOf mail).2
      (setImportance msg.id mail.importance addressed)) = outsideAddressees drafted := by
    rw [outsideAddressees_setOptions, outsideAddressees_setImportance,
      (keeps_setRecipients _ _).of_ok stored]
  refine ⟨⟨id, ⟨listed.fair.of_fairView sameView, ?_, ?_⟩, ?_⟩, ?_⟩
  · exact listed.partner.of_view (congrArg Prod.fst sameView)
  · have config : (outsideAddressees _).config = (outsideAddressees drafted).config :=
      congrArg (·.config) sameTail
    exact config.trans draft.config
  · have rows := looked.fair.shape.rows
    have chats : (outsideAddressees _).chats = (outsideAddressees drafted).chats :=
      congrArg (·.chats) sameTail
    have created' := chatIs_createForContact rows.chat_ids_nodup rows.chat_ids_lt created
    refine created'.of_chats (chats.trans ?_)
    rw [isDrafted]
    rfl
  · have held : (setOptions msg.id mail.options (bodyOf mail).2
        (setImportance msg.id mail.importance addressed)).heldMsgs = addressed.heldMsgs :=
      congrArg (fun view => view.2.2.2.2.2.2) sameView
    rw [held, (heldMsgs_setRecipients msg.id mail.recipients).of_ok stored, isDrafted, isMsg]
    exact fun row member => Nat.ne_of_lt (chat.fair.shape.rows.held_lt row member)

theorem fair_send {draws : Draws} {msgId : MsgId} (spares : SparesAddressees mail start)
    (calm : Calm ids start)
    (success : (send mail draws now).run start = .ok msgId db) :
    Calm ids db := by
  obtain ⟨primary, rest, chatId, msg, drafted, typed, _, composed, sent, _⟩ := send_eq_ok success
  have isPrimary : primaryAddr primary = primaryOf mail := by
    rw [primaryOf, typed]
    rfl
  obtain ⟨⟨id, composing, chatIs⟩, unheld⟩ :=
    composing_composeDraft isPrimary spares calm composed
  obtain ⟨chat, allowed, factory, made, found, rfl, sendable, isAllowed, _, built, queued⟩ :=
    sendMsg_stages sent
  have isPartner := contactId_of_chatIs chatIs found
  have noDevice : id ≠ ContactId.device := by
    simpa [isDeviceTalk, isPartner] using (whyCantSend_eq_none sendable).1
  have timedChat : ChatIs allowed.chatId id (timedDb chat msg now drafted) := by
    have sameChat : allowed.chatId = chat.id := isAllowed.same.2
    rw [sameChat]
    exact chatIs_applyDefaultTimer (chatIs.of_chats (by rfl :
      (prepareMsgRaw chat (outgoing msg now) now drafted).2.chats = drafted.chats)) _ _ _
  have fairMade := fair_fromMsg (composing_timedDb composing unheld chat now) spares.primary
    timedChat noDevice built
  have fair := (fair_renderAndQueue (stable_waitedIn start) stable_nobody factory _ draws
    now).of_ok fairMade queued
  exact calm_of_fair fair

end Writing

/-! ## The other acts -/

section Acts

variable [Unicode] {ids : Text → LabelId} {start db : Db} {id : ContactId} {addr : Text}

def SparesContact (id : ContactId) (db : Db) : Prop :=
  ∀ row ∈ db.contacts, row.id = id → ¬WaitsBlocked row.addr db

theorem Befriending.calm {befriended : List ContactId} {α : Type} {x : DbAction α} {a : α}
    (preserves : Preserves (Befriending ids (WaitedIn start) Nobody befriended) x)
    (spares : ∀ id ∈ befriended, SparesContact id start) (calm : Calm ids start)
    (success : x.run start = .ok a db) : Calm ids db := by
  have befriending : Befriending ids (WaitedIn start) Nobody befriended start :=
    ⟨calm.fair, fun id isId _ row member same _ waited sameAddr =>
      unblocked_of_waitedIn waited sameAddr (spares id isId row member same)⟩
  exact calm_of_fair (preserves.of_ok befriending success).fair

omit [Unicode] in
theorem isKnown_of_acceptedContacts {chatId : ChatId} {found : List ContactId × Origin}
    (accepted : acceptedContacts chatId db = some found) : found.2.isKnown = true := by
  unfold acceptedContacts at accepted
  split at accepted
  · cases accepted
    rfl
  · obtain ⟨chat, _, rfl⟩ := Option.map_eq_some_iff.mp accepted
    cases chat.typ <;> rfl

theorem fair_accept {chatId : ChatId}
    (spares : ∀ found, acceptedContacts chatId start = some found →
      ∀ id ∈ found.1, SparesContact id start)
    (calm : Calm ids start) (success : (accept chatId).run start = .ok u db) : Calm ids db := by
  obtain ⟨⟨contacts, origin⟩, found, rest⟩ := querySome_bind_eq_ok.mp success
  refine Befriending.calm ?_ (spares _ found) calm rest
  refine Preserves.bind (Preserves.forEach_of_mem fun id member => Preserves.onlyIf _ ?_) fun _ =>
    Preserves.bind (Preserves.ensure _ _) fun _ => Preserves.exec fun db befriending => ?_
  · exact befriending_scaleupOrigin (stable_waitedIn start) stable_nobody
      (isKnown_of_acceptedContacts found) member
  · have unblocked := befriending.fair.updateChats (p := fun chat => chat.id == chatId)
      (f := fun chat => { chat with blocked := .not }) fun _ => rfl
    exact befriending.of_contacts (unblocked.of_fairView rfl) rfl

theorem Calm.insertGroup (calm : Calm ids start) (chat : GroupChat) :
    Calm ids (insertGroup chat start) := by
  have rows := calm.1.rows
  have below : ∀ old ∈ start.chats, old.id < start.nextChatId + 1 := fun old member =>
    Nat.lt_succ_of_lt (rows.chat_ids_lt old member)
  exact calm_of_fair (calm.fair.of_calm rfl rfl
    ⟨rows.chat_ids_nodup, below, rows.msgs_lt, rows.held_lt⟩ fun _ waits => waits)

theorem fair_verifySenderByFingerprint {fingerprint : Text} {verified : Bool}
    (calm : Calm ids start)
    (success : (verifySenderByFingerprint fingerprint id).run start = .ok verified db) :
    Calm ids db := by
  have preserves : Preserves (Fair ids (WaitedIn start) Nobody)
      (verifySenderByFingerprint fingerprint id) := by
    refine Preserves.bind (Preserves.query _) fun found => ?_
    cases found with
    | none => exact Preserves.pure _
    | some contact =>
      refine Preserves.bind (Preserves.onlyIf _ ?_) fun _ => Preserves.pure _
      exact fair_markContactIdAsVerified (stable_waitedIn start) stable_nobody
  have fair := preserves.of_ok (calm.fair) success
  exact calm_of_fair fair

theorem fair_startProtocol {noticeMid : Text} (spares : SparesContact id start)
    (calm : Calm ids start) (success : (startProtocol id noticeMid now).run start = .ok u db) :
    Calm ids db := by
  refine Befriending.calm (Preserves.bind ?_ fun _ => ?_) (List.forall_mem_singleton.mpr spares)
    calm success
  · exact befriending_createForContact (stable_waitedIn start) stable_nobody
      (List.mem_singleton_self id) noticeMid now
  · exact befriending_scaleupOrigin (stable_waitedIn start) stable_nobody (by decide)
      (List.mem_singleton_self id)

theorem fair_requestWithAuth {fingerprint noticeMid : Text} {recent : Bool}
    (spares : SparesContact id start) (calm : Calm ids start)
    (success : (requestWithAuth fingerprint id recent noticeMid now).run start = .ok u db) :
    Calm ids db := by
  refine Befriending.calm (Preserves.bind (Preserves.queryExcept _) fun contact => ?_)
    (List.forall_mem_singleton.mpr spares) calm success
  refine Preserves.ite (Preserves.pure _) ?_
  refine Preserves.bind (Preserves.onlyIf _
    (befriending_markContactIdAsVerified (stable_waitedIn start) stable_nobody)) fun _ => ?_
  refine Preserves.ite (Preserves.pure _) (Preserves.bind ?_ fun _ => Preserves.pure _)
  exact befriending_createForContact (stable_waitedIn start) stable_nobody
    (List.mem_singleton_self id) noticeMid now

theorem fair_writeBlocked {waiting exempt : Contact → Prop} (fair : Fair ids waiting exempt db)
    (changed : Contact) (newBlocking : Bool)
    (stays : ∀ contact, contact.id = changed.id →
      (waiting contact → waiting { contact with blocked := newBlocking }) ∧
        (exempt contact → exempt { contact with blocked := newBlocking }))
    (spared : newBlocking = false → ∀ row ∈ db.contacts, row.id = changed.id →
      row.origin.isKnown = true → ∀ contact ∈ db.contacts, Waits contact.id db →
        nocaseEq contact.addr row.addr = true → exempt contact) :
    Fair ids waiting exempt (writeBlocked changed newBlocking db) := by
  have blocked := fair.setBlocked stays spared
  have chats := blocked.updateChats (p := fun chat => chat.contactId == changed.id)
    (f := fun chat => { chat with blocked := if newBlocking then .yes else .not }) fun _ => rfl
  have noticed := chats.updateMsgs
    (p := fun msg => msg.fromId == changed.id && msg.state == .inFresh)
    (f := fun msg => { msg with state := .inNoticed }) (fun _ => rfl) fun _ => rfl
  exact noticed.of_fairView rfl

/-- Nobody who is blocked and known is unblocked while mail of the same address is held. -/
def SparesUnblocked (id : ContactId) (db : Db) : Prop :=
  ∀ row ∈ db.contacts, row.id = id → row.blocked = true → row.origin.isKnown = true →
    ¬WaitsAt row.addr db

theorem fair_setBlocked {newBlocking : Bool}
    (spares : newBlocking = false → SparesUnblocked id start) (calm : Calm ids start)
    (success : (setBlocked id newBlocking).run start = .ok u db) : Calm ids db := by
  obtain ⟨_, contact, found, ⟨_, rfl⟩ | ⟨differs, rfl⟩⟩ := setBlocked_eq_ok success
  · exact calm
  · have anybody : Fair ids (fun _ => True) Nobody start :=
      (calm.fair).weaken (fun _ _ => trivial) fun _ _ _ nobody => nobody
    obtain ⟨isContact, rfl⟩ := contactById_eq_some found
    have fair := fair_writeBlocked anybody contact newBlocking
      (fun _ _ => ⟨fun same => same, fun same => same⟩) ?_
    · exact ⟨fair.shape, fair.nobodyTrusted⟩
    · rintro rfl row member isId known other isOther waits sameAddr
      have isRow := calm.1.contacts.unique member isContact isId
      have blocked : row.blocked = true := by simpa [isRow] using differs
      exact absurd ⟨other, isOther, sameAddr, waits⟩ (spares rfl row member isId blocked known)

/-! ### Creating a contact -/

/-- The contact that was created: it has the address, and it is known. -/
structure Created (id : ContactId) (addr : Text) (db : Db) : Prop where
  contact : ∃ row ∈ db.contacts, row.id = id
  known : ∀ row ∈ db.contacts, row.id = id →
    nocaseEq row.addr addr = true ∧ row.origin.isKnown = true

omit [Unicode] in
theorem created_insertOrMerge (ok : ContactsOk db) (name addr : Text) {origin : Origin}
    (known : origin.isKnown = true) :
    Created (insertOrMerge name addr [] origin db).1.1 addr
      (insertOrMerge name addr [] origin db).2 := by
  obtain ⟨row, member, isId, _⟩ := mem_insertOrMerge name addr [] origin db
  refine ⟨⟨row, member, isId⟩, fun row member isId => ?_⟩
  rcases insertOrMerge_row ok member isId with ⟨old, found, rfl⟩ | ⟨rfl, isOrigin, _⟩
  · refine ⟨nocaseEq_mergeRow (rowFor_nocaseEq found), ?_⟩
    simp only [mergeRow]
    split
    next => exact known
    next higher => exact isKnown_mono (Nat.not_lt.mp higher) known
  · exact ⟨nocaseEq_refl _, isOrigin ▸ known⟩

omit [Unicode] in
theorem Created.writeBlocked (created : Created id addr db) (contact : Contact)
    (newBlocking : Bool) : Created id addr (writeBlocked contact newBlocking db) := by
  obtain ⟨⟨row, member, isId⟩, known⟩ := created
  refine ⟨⟨_, mem_updateWhere.mpr ⟨row, member, rfl⟩, ?_⟩, fun later isLater => ?_⟩
  · split <;> exact isId
  · obtain ⟨old, isOld, rfl⟩ := mem_updateWhere.mp isLater
    split <;> exact known old isOld

def UnblockedAt (addr : Text) (contact : Contact) : Prop :=
  nocaseEq contact.addr addr = true → contact.blocked = false

def HasAddr (addr : Text) (contact : Contact) : Prop := nocaseEq contact.addr addr = true

omit [Unicode] in
theorem stable_unblockedAt (addr : Text) : Stable (UnblockedAt addr) := by
  intro old new follows unblocked atAddr
  rw [follows.blocked]
  exact unblocked (nocaseEq_trans (nocaseEq_symm follows.addr) atAddr)

omit [Unicode] in
theorem stable_hasAddr (addr : Text) : Stable (HasAddr addr) :=
  fun _ _ follows atAddr => nocaseEq_trans follows.addr atAddr

theorem fair_release_created (filled : addr ≠ []) (notSelf : id ≠ ContactId.self)
    (fair : Fair ids (UnblockedAt addr) (HasAddr addr) db) (created : Created id addr db) :
    Fair ids (UnblockedAt addr) Nobody (stateAfter (release [id]) db) := by
  obtain ⟨row, member, isId⟩ := created.contact
  obtain ⟨sameAddr, isKnown⟩ := created.known row member isId
  refine fair.release notSelf fun contact _ unblocked _ atAddr => Or.inr (Or.inr ?_)
  have trusted := (isTrusted_iff fair.shape.contacts member).mpr (Or.inr (Or.inl (Or.inl isKnown)))
  exact ⟨row, member, isId, isId ▸ trusted, ne_nil_of_nocaseEq atAddr filled,
    nocaseEq_trans atAddr (nocaseEq_symm sameAddr), unblocked atAddr⟩

theorem create_eq_ok {name : Text} {db' : Db}
    (success : (Acquaintance.create name addr).run db = .ok id db') :
    ∃ contactAddr modifier looked,
      contactAddr = addrNormalize (sanitizeNameAndAddr name addr).2 ∧ contactAddr ≠ [] ∧
      (addOrLookup (sanitizeNameAndAddr name addr).1 contactAddr .manuallyCreated).run db =
        .ok (id, modifier) looked ∧
      (db' = looked ∨ (isSpecial id = false ∧ ∃ contact, contact.id = id ∧
        db' = writeBlocked contact false looked)) := by
  unfold Acquaintance.create at success
  cases valid : contactAddress (sanitizeNameAndAddr name addr).2 with
  | error e =>
    simp only [valid] at success
    cases success
  | ok contactAddr =>
    simp only [valid] at success
    obtain ⟨isAddr, maybeValid⟩ := contactAddress_eq_ok valid
    obtain ⟨⟨found, modifier⟩, looked, added, rest⟩ := bind_eq_ok.mp success
    obtain ⟨contact, _, rest⟩ := querySome_bind_eq_ok.mp rest
    obtain ⟨_, _, unblocked, rest⟩ := bind_eq_ok.mp rest
    obtain ⟨rfl, rfl⟩ := pure_eq_ok.mp rest
    refine ⟨contactAddr, modifier, _, isAddr, ne_nil_of_mayBeValidAddr maybeValid, added, ?_⟩
    unfold onlyIf at unblocked
    split at unblocked
    next =>
      obtain ⟨isReal, row, isRow, ⟨_, same⟩ | ⟨_, written⟩⟩ := setBlocked_eq_ok unblocked
      · exact Or.inl same
      · exact Or.inr ⟨isReal, row, (contactById_eq_some isRow).2, written⟩
    next => exact Or.inl (pure_eq_ok.mp unblocked).2.symm

theorem fair_createAndRelease {name : Text}
    (spares : ¬WaitsBlocked (addrNormalize (sanitizeNameAndAddr name addr).2) start)
    (calm : Calm ids start)
    (success : (createAndRelease name addr).run start = .ok u db) :
    Calm ids db := by
  unfold createAndRelease at success
  obtain ⟨id, made, created, rest⟩ := bind_eq_ok.mp success
  obtain ⟨_, _, released, rest⟩ := bind_eq_ok.mp rest
  obtain ⟨_, rfl⟩ := pure_eq_ok.mp rest
  rw [← stateAfter_of_ok released]
  obtain ⟨contactAddr, modifier, looked, isAddr, filled, added, after⟩ := create_eq_ok created
  rw [← isAddr] at spares
  have start' := calm.fair
  rcases addOrLookupExt_eq_ok added with ⟨_, isSelf', rfl⟩ | ⟨_, merged⟩
  · have same : made = looked := by
      refine after.resolve_right fun written => ?_
      have self : id = ContactId.self := isSelf'
      rw [self] at written
      exact absurd written.1 (by decide)
    rw [same]
    have fair := start'.release_any id
    exact calm_of_fair fair
  · have hasAddr : Fair ids (UnblockedAt contactAddr) (HasAddr contactAddr) start :=
      start'.weaken (fun _ waited atAddr => unblocked_of_waitedIn waited atAddr spares)
        fun _ _ _ nobody => nobody.elim
    have fairLooked : Fair ids (UnblockedAt contactAddr) (HasAddr contactAddr) looked := by
      rw [← stateAfter_of_ok added]
      exact hasAddr.addOrLookupExt (stable_unblockedAt _) (stable_hasAddr _) _ (by decide) fun _ =>
        ⟨filled, fun _ => rfl, fun _ _ _ atAddr => atAddr, fun keyed => absurd rfl keyed⟩
    have known : (adjusted (sanitizeNameAndAddr name addr).1 contactAddr
        .manuallyCreated).2.isKnown = true := by
      unfold adjusted
      simp [Origin.value, Origin.isKnown]
    have isCreated := created_insertOrMerge calm.1.contacts
      (adjusted (sanitizeNameAndAddr name addr).1 contactAddr .manuallyCreated).1 contactAddr known
    have real := (insertOrMerge_address calm.1.contacts (special_addr_of_shape calm.1) filled
      (adjusted (sanitizeNameAndAddr name addr).1 contactAddr .manuallyCreated).1
      (adjusted (sanitizeNameAndAddr name addr).1 contactAddr .manuallyCreated).2).2
    rw [← merged] at isCreated real
    have notSelf := ne_self_of_real real
    rcases after with rfl | ⟨_, contact, rfl, rfl⟩
    · have fair := fair_release_created filled notSelf fairLooked isCreated
      exact calm_of_fair fair
    · have fairWritten := fair_writeBlocked fairLooked contact false
        (fun _ _ => ⟨fun _ _ => rfl, fun same => same⟩)
          fun _ row member isId _ contact _ _ sameAddr =>
          nocaseEq_trans sameAddr (isCreated.known row member isId).1
      have fair := fair_release_created filled notSelf fairWritten
        (isCreated.writeBlocked contact false)
      exact calm_of_fair fair

end Acts

/-! ## Runs -/

inductive Act where
  | receive (mail : Incoming) (now : Int)
  | send (mail : Composition) (draws : Draws) (now : Int)
  | insertGroup (chat : GroupChat)
  | accept (chatId : ChatId)
  | verifySender (fingerprint : Text) (id : ContactId)
  | startProtocol (id : ContactId) (noticeMid : Text) (now : Int)
  | requestWithAuth (fingerprint : Text) (id : ContactId) (recent : Bool) (noticeMid : Text)
      (now : Int)
  | createAndRelease (name addr : Text)
  | block (id : ContactId)
  | unblock (id : ContactId)

section Runs

variable [Unicode] {ids : Text → LabelId} {db : Db}

def perform : Act → DbAction Unit
  | .receive mail now => do
    let _ ← Reception.receive mail now
    pure ()
  | .send mail draws now => do
    let _ ← send mail draws now
    pure ()
  | .insertGroup chat => exec (insertGroup chat)
  | .accept chatId => accept chatId
  | .verifySender fingerprint id => do
    let _ ← verifySenderByFingerprint fingerprint id
    pure ()
  | .startProtocol id noticeMid now => startProtocol id noticeMid now
  | .requestWithAuth fingerprint id recent noticeMid now =>
    requestWithAuth fingerprint id recent noticeMid now
  | .createAndRelease name addr => createAndRelease name addr
  | .block id => block id
  | .unblock id => unblock id

def step (db : Db) (act : Act) : Db := stateAfter (perform act) db

/-- The act makes nobody trusted by a way that does not release their mail. -/
def Spares (db : Db) : Act → Prop
  | .receive mail _ => SparesWaiting mail db
  | .send mail _ _ => SparesAddressees mail db
  | .accept chatId => ∀ found, acceptedContacts chatId db = some found →
      ∀ id ∈ found.1, SparesContact id db
  | .startProtocol id _ _ => SparesContact id db
  | .requestWithAuth _ id _ _ _ => SparesContact id db
  | .createAndRelease name addr =>
    ¬WaitsBlocked (addrNormalize (sanitizeNameAndAddr name addr).2) db
  | .unblock id => SparesUnblocked id db
  | .insertGroup _ | .verifySender _ _ | .block _ => True

def SparingStep (db : Db) (act : Act) : Prop :=
  (perform act).run db = .ok () (step db act) ∧ Spares db act

theorem calm_step (db : Db) (act : Act) (calm : Calm ids db) (sparing : SparingStep db act) :
    Calm ids (step db act) := by
  obtain ⟨success, spares⟩ := sparing
  cases act with
  | receive mail now =>
    obtain ⟨_, _, received, rest⟩ := bind_eq_ok.mp success
    rw [← (pure_eq_ok.mp rest).2]
    exact fair_receive spares calm.1 calm.2 received
  | send mail draws now =>
    obtain ⟨_, _, sent, rest⟩ := bind_eq_ok.mp success
    rw [← (pure_eq_ok.mp rest).2]
    exact fair_send spares calm sent
  | insertGroup chat => exact calm.insertGroup chat
  | accept chatId => exact fair_accept spares calm success
  | verifySender fingerprint id =>
    obtain ⟨_, _, verified, rest⟩ := bind_eq_ok.mp success
    rw [← (pure_eq_ok.mp rest).2]
    exact fair_verifySenderByFingerprint calm verified
  | startProtocol id noticeMid now => exact fair_startProtocol spares calm success
  | requestWithAuth fingerprint id recent noticeMid now =>
    exact fair_requestWithAuth spares calm success
  | createAndRelease name addr => exact fair_createAndRelease spares calm success
  | block id => exact fair_setBlocked (fun unblocks => by cases unblocks) calm success
  | unblock id => exact fair_setBlocked (fun _ => spares) calm success

/-- In runs of acts that complete and spare who waits, no held message ever has a
trusted sender. -/
theorem nobody_trusted_is_held (shape : Shape ids db) (none : NobodyTrusted db) (acts : List Act)
    (sparing : MeetsAll step SparingStep db acts) : NobodyTrusted (runAll step db acts) := by
  have calm : Calm ids (runAll step db acts) :=
    invariant_of_meetsAll calm_step acts db ⟨shape, none⟩ sparing
  exact calm.2

end Runs

section

local instance : Unicode := asciiTables

def gatedAccount : Db :=
  { HoldAgreement.gatedAccount with
    config :=
      { inboxGating := true
        configuredAddr := some "me@example.net".toList
        forceEncryption := false } }

theorem shape_gatedAccount : Shape migratedIds gatedAccount := by
  refine ⟨labelsOk_migrated rfl rfl, ⟨by decide, by decide, by decide⟩, ?_,
    ⟨by decide, by decide, by decide, by decide⟩, ?_⟩
  · intro contact member
    cases member
  · rintro id ⟨held, isHeld, _⟩
    cases isHeld

def strangerWrites : Act :=
  .receive { rfc724Mid := "m1".toList, fromAddr := "stranger@example.org".toList } 100

def writeToFriend : Act :=
  .send { recipients := { toAddrs := ["friend@example.org".toList] }, text := "Hi".toList }
    { mid := "m2".toList } 101

def writeBack : Act :=
  .send { recipients := { toAddrs := ["stranger@example.org".toList] }, text := "Hi".toList }
    { mid := "m3".toList } 102

/-- Writing to a friend leaves the message of the stranger held; writing back lets it in. -/
theorem nobody_trusted_is_held_after_reply :
    (runAll step gatedAccount [strangerWrites, writeToFriend]).heldMsgs ≠ [] ∧
      NobodyTrusted (runAll step gatedAccount [strangerWrites, writeToFriend, writeBack]) := by
  refine ⟨by decide +kernel, nobody_trusted_is_held shape_gatedAccount (by decide) _
    ⟨⟨?_, ?_⟩, ⟨?_, ?_⟩, ⟨?_, ?_⟩, trivial⟩⟩
  · exact run_of_returns (by decide +kernel)
  · refine ⟨by decide, by decide, ?_, ?_, by decide⟩
    · intro lookup member
      cases member
    · intro key advertised
      cases advertised
  · exact run_of_returns (by decide +kernel)
  · exact ⟨by decide +kernel, by decide +kernel⟩
  · exact run_of_returns (by decide +kernel)
  · exact ⟨by decide +kernel, by decide +kernel⟩

def copyToStranger : Act :=
  .send
    { recipients :=
        { toAddrs := ["friend@example.org".toList], ccAddrs := ["stranger@example.org".toList] }
      text := "Hi".toList }
    { mid := "m2".toList } 101

/-- The stranger is written to and known by now, but their message is still held. -/
theorem copy_leaves_trusted_held :
    returns (perform strangerWrites) gatedAccount () = true ∧
      returns (perform copyToStranger) (step gatedAccount strangerWrites) () = true ∧
      isTrusted 10 (runAll step gatedAccount [strangerWrites, copyToStranger]) = true ∧
      ¬NobodyTrusted (runAll step gatedAccount [strangerWrites, copyToStranger]) := by
  decide +kernel

end

end Eeemail.TrustGained
