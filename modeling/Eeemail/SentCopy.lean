import Eeemail.Accounting

/-! # Whom the sent copy names

The recipients of a message are stored before it is sent, and again when it is
rendered: To and Cc then as the headers have them, Bcc as it was.  The headers
have one To address, that of the chat, and of Cc what this contact does not
cover. -/

set_option autoImplicit false

namespace Eeemail.SentCopy

open Lib.Texts Lib.Actions Addr Store Recipients MimeFactory Sending ContactTable
open Addressees Drafting Queueing Outcome Delivery Accounting

/-! ## What is stored when a message is queued -/

section

variable {msgId : MsgId} {kind : RecipientKind} {db db' : Db}

def headerRecipients (kind : RecipientKind) (header : List (Text × Text)) : List Recipient :=
  header.map fun (name, addr) => { kind, addr, name }

theorem storeSentRecipients_eq (addressing : Addressing) :
    storeSentRecipients msgId addressing db =
      Recipients.store msgId (headerRecipients .to addressing.toHeader ++
        headerRecipients .cc addressing.ccHeader ++ loadKind msgId .bcc db) db := rfl

theorem msgRecipients_storeSentRecipients_congr (addressing : Addressing)
    (same : db'.msgRecipients = db.msgRecipients) :
    (storeSentRecipients msgId addressing db').msgRecipients =
      (storeSentRecipients msgId addressing db).msgRecipients := by
  simp only [storeSentRecipients_eq, Recipients.store, loadKind_congr same, same]

theorem kind_of_mem_loadKind : ∀ recipient ∈ loadKind msgId kind db, recipient.kind = kind := by
  intro recipient member
  simp only [loadKind, List.mem_map, List.mem_insertionSort, List.mem_filter, Bool.and_eq_true,
    beq_iff_eq] at member
  obtain ⟨row, ⟨_, _, isKind⟩, rfl⟩ := member
  exact isKind

theorem kind_of_mem_headerRecipients {header : List (Text × Text)} :
    ∀ recipient ∈ headerRecipients kind header, recipient.kind = kind := by
  intro recipient member
  obtain ⟨_, _, rfl⟩ := List.mem_map.mp member
  rfl

theorem map_addr_headerRecipients (header : List (Text × Text)) :
    (headerRecipients kind header).map (·.addr) = header.map (·.2) := by
  rw [headerRecipients, List.map_map]
  rfl

def sentOf (addressing : Addressing) (bcc : List Recipient) : RecipientKind → List Recipient
  | .to => headerRecipients .to addressing.toHeader
  | .cc => headerRecipients .cc addressing.ccHeader
  | .bcc => bcc

theorem loadKind_storeSentRecipients (addressing : Addressing) :
    loadKind msgId kind (storeSentRecipients msgId addressing db) =
      firstPerAddr (sentOf addressing (loadKind msgId .bcc db) kind) := by
  have toKind := @kind_of_mem_headerRecipients .to addressing.toHeader
  have ccKind := @kind_of_mem_headerRecipients .cc addressing.ccHeader
  have bccKind := @kind_of_mem_loadKind msgId .bcc db
  rw [storeSentRecipients_eq, loadKind_store]
  congr 1
  simp only [List.filter_append]
  match kind with
  | .to =>
    rw [filter_kind_same toKind, filter_kind_other ccKind (by decide : RecipientKind.cc ≠ .to),
      filter_kind_other bccKind (by decide : RecipientKind.bcc ≠ .to), List.append_nil,
      List.append_nil]
    rfl
  | .cc =>
    rw [filter_kind_other toKind (by decide : RecipientKind.to ≠ .cc), filter_kind_same ccKind,
      filter_kind_other bccKind (by decide : RecipientKind.bcc ≠ .cc), List.append_nil,
      List.nil_append]
    rfl
  | .bcc =>
    rw [filter_kind_other toKind (by decide : RecipientKind.to ≠ .bcc),
      filter_kind_other ccKind (by decide : RecipientKind.cc ≠ .bcc), filter_kind_same bccKind,
      List.nil_append, List.nil_append]
    rfl

variable [Unicode]

theorem msgRecipients_of_queueRendered {factory : Factory} {rendered : Rendered} {now : Int}
    {u : Unit} (success : (queueRendered factory rendered now).run db = .ok u db') :
    db'.msgRecipients =
      (storeSentRecipients factory.msg.id factory.addressing db).msgRecipients := by
  unfold queueRendered at success
  obtain ⟨_, _, listed, success⟩ := bind_eq_ok.mp success
  obtain ⟨_, rfl⟩ := EStateM.Result.ok.inj listed
  obtain ⟨_, stamped, avatar, success⟩ := bind_eq_ok.mp success
  have same : stamped.msgRecipients = db.msgRecipients :=
    Keeps.of_ok (Keeps.onlyIf _ (Keeps.exec fun _ => by rfl)) avatar
  obtain ⟨_, _, updated, success⟩ := bind_eq_ok.mp success
  obtain ⟨_, _, stored, success⟩ := bind_eq_ok.mp success
  obtain ⟨_, _, recorded, success⟩ := bind_eq_ok.mp success
  simp only [exec_run, EStateM.Result.ok.injEq, true_and] at updated stored recorded success
  subst updated stored recorded success
  have unqueued : ∀ (rendered : Rendered) (recipients : List Text) (db : Db),
      (enqueue factory.msg.id rendered recipients db).msgRecipients = db.msgRecipients := by
    intro rendered recipients db
    unfold enqueue
    simp only
    split <;> rfl
  rw [unqueued, ← msgRecipients_storeSentRecipients_congr factory.addressing same]
  rfl

theorem stored_of_renderAndQueue {factory : Factory} {needs : Bool} {draws : Draws} {now : Int}
    {u : Unit} (success : (renderAndQueue factory needs draws now).run db = .ok u db') :
    db'.smtp = db.smtp ∨ db'.msgRecipients =
      (storeSentRecipients factory.msg.id factory.addressing db).msgRecipients := by
  unfold renderAndQueue at success
  obtain ⟨_, _, asked, success⟩ := bind_eq_ok.mp success
  obtain ⟨_, rfl⟩ := EStateM.Result.ok.inj asked
  split at success
  next =>
    simp only [exec_run, EStateM.Result.ok.injEq, true_and] at success
    subst success
    exact Or.inl rfl
  next =>
    obtain ⟨rendered, made, shown, success⟩ := bind_eq_ok.mp success
    have same : outsideGossip made = outsideGossip db :=
      (keeps_renderMessages factory draws now).of_ok (onError_eq_ok.mp shown)
    have sameRows : made.msgRecipients = db.msgRecipients := congrArg (·.msgRecipients) same
    split at success
    next =>
      unfold refuseCleartext at success
      obtain ⟨_, _, _, success⟩ := bind_eq_ok.mp success
      obtain ⟨_, _, _, success⟩ := bind_eq_ok.mp success
      obtain ⟨_, _, _, success⟩ := bind_eq_ok.mp success
      cases success
    next =>
      exact Or.inr ((msgRecipients_of_queueRendered success).trans
        (msgRecipients_storeSentRecipients_congr factory.addressing sameRows))

end

section

variable [Unicode] {mail : Composition} {draws : Draws} {now : Int} {db db' : Db} {msgId : MsgId}

theorem loadKind_of_queued (sound : Sound db)
    (accepted : (send mail draws now).run db = .ok msgId db') (queued : Queued msgId db') :
    ∃ addressing, Addressed mail (primaryOf mail) db addressing ∧
      ∀ kind, loadKind msgId kind db' = firstPerAddr (sentOf addressing
        (addressees .bcc mail.recipients.bccAddrs) kind) := by
  obtain ⟨primary, msg, factory, needs, made, isPrimary, isMsg, sameId, staged, rendered, isNew,
    _, _⟩ := staged_of_send sound accepted
  obtain ⟨_, _, drafted⟩ := staged.drafted
  refine ⟨factory.addressing, isPrimary ▸ staged.addressed, fun kind => ?_⟩
  rcases stored_of_renderAndQueue rendered with unqueued | stored
  · have sameQueue : made.smtp = db.smtp := congrArg (·.smtp) drafted.outside
    obtain ⟨row, member, isRow⟩ := queued
    rw [unqueued, sameQueue] at member
    exact absurd isRow (fresh_of_sound sound isNew row member)
  · have typed := drafted.headers .bcc
    rw [isMsg] at typed
    rw [sameId] at stored
    rw [loadKind_congr stored, loadKind_storeSentRecipients, typed]
    rfl

/-! ## What it records -/

def Names (msgId : MsgId) (kind : RecipientKind) (db : Db) (addr : Text) : Prop :=
  ∃ recipient ∈ load msgId db, recipient.kind = kind ∧ SameAddr recipient.addr addr

/-- Everyone who was addressed is recorded in the header they were typed into, and
nobody else is. -/
structure RecordsAddressees (recipients : RecipientSet) (msgId : MsgId) (db : Db) : Prop where
  toAddrs : ∀ addr ∈ headerAddresses recipients.toAddrs, Names msgId .to db addr
  ccAddrs : ∀ addr ∈ headerAddresses recipients.ccAddrs,
    (∀ other ∈ headerAddresses recipients.toAddrs, ¬SameAddr other addr) → Names msgId .cc db addr
  bccAddrs : ∀ addr ∈ headerAddresses recipients.bccAddrs, Names msgId .bcc db addr
  nobodyElse : ∀ recipient ∈ load msgId db,
    ∃ addr ∈ typedAddresses recipients, SameAddr recipient.addr addr

/-- The address in the To header: that of the first To address, or our own if
that one is ours. -/
def headerTo (mail : Composition) (db : Db) : Text :=
  if toOurselves (primaryOf mail) db then db.config.configuredAddr.getD [] else primaryOf mail

/-- The address is in the Cc header: it was typed there, and neither is the message
for ourselves nor is it an address of the first To contact. -/
def InCcHeader (mail : Composition) (db : Db) (addr : Text) : Prop :=
  toOurselves (primaryOf mail) db = false ∧
    ∃ copied, IsExtra mail.recipients.ccAddrs (primaryOf mail) db copied ∧ SameAddr copied addr

theorem names_iff {kind : RecipientKind} {addr : Text} :
    Names msgId kind db addr ↔
      ∃ stored ∈ (loadKind msgId kind db).map (·.addr), SameAddr stored addr := by
  constructor
  · rintro ⟨recipient, member, isKind, same⟩
    refine ⟨recipient.addr, List.mem_map_of_mem ?_, same⟩
    simp only [load, List.mem_append] at member
    rcases member with (isTo | isCc) | isBcc
    · exact isKind ▸ kind_of_mem_loadKind recipient isTo ▸ isTo
    · exact isKind ▸ kind_of_mem_loadKind recipient isCc ▸ isCc
    · exact isKind ▸ kind_of_mem_loadKind recipient isBcc ▸ isBcc
  · rintro ⟨_, stored, same⟩
    obtain ⟨recipient, member, rfl⟩ := List.mem_map.mp stored
    refine ⟨recipient, ?_, kind_of_mem_loadKind recipient member, same⟩
    simp only [load, List.mem_append]
    cases kind
    · exact Or.inl (Or.inl member)
    · exact Or.inl (Or.inr member)
    · exact Or.inr member

omit [Unicode] in
theorem forall_load_iff {p : Text → Prop} : (∀ recipient ∈ load msgId db, p recipient.addr) ↔
      ∀ kind, ∀ stored ∈ (loadKind msgId kind db).map (·.addr), p stored := by
  simp only [List.forall_mem_map, load, List.mem_append]
  constructor
  · intro all kind recipient member
    refine all recipient ?_
    cases kind
    · exact Or.inl (Or.inl member)
    · exact Or.inl (Or.inr member)
    · exact Or.inr member
  · rintro all recipient ((isTo | isCc) | isBcc)
    · exact all .to recipient isTo
    · exact all .cc recipient isCc
    · exact all .bcc recipient isBcc

/-! ## The addresses in the headers -/

section Headers

variable {addressing : Addressing} (ok : ContactsOk db)
  (addressed : Addressed mail (primaryOf mail) db addressing)

include ok addressed

theorem toHeader_iff (addr : Text) :
    (∃ stored ∈ addressing.toHeader.map (·.2), SameAddr stored addr) ↔
      SameAddr (headerTo mail db) addr := by
  cases addressed with
  | toSelf own fromAddr configured made =>
    rw [made, headerTo, if_pos own, configured]
    simp [selfAddressing]
  | toMember other member isMember extra isExtra made =>
    obtain ⟨_, _, isTo, _⟩ := addressTo_eq_ok made
    have same := SameAddr.of_nocaseEq (nocaseEq_of_memberFor ok isMember)
    rw [isTo, headerTo, if_neg (by simp [other])]
    simp only [List.map_cons, List.map_nil, List.mem_singleton, exists_eq_left]
    exact ⟨fun direct => same.symm.trans direct, fun direct => same.trans direct⟩

theorem mem_ccHeader_iff (stored : Text) :
    stored ∈ addressing.ccHeader.map (·.2) ↔
      toOurselves (primaryOf mail) db = false ∧
        IsExtra mail.recipients.ccAddrs (primaryOf mail) db stored := by
  cases addressed with
  | toSelf own fromAddr configured made =>
    rw [made, own]
    simp [selfAddressing]
  | toMember other member isMember extra isExtra made =>
    obtain ⟨_, _, _, isCc, _⟩ := addressTo_eq_ok made
    rw [isCc, List.map_map, other, ← mem_cc_iff ok isMember isExtra]
    simp only [true_and]
    rfl

end Headers

/-- The sent copy records everyone the user addressed exactly if all To addresses
are the one of the header, which was typed, and every Cc address that is not also
To is in its header. -/
theorem sent_copy_records_iff (sound : Sound db)
    (accepted : (send mail draws now).run db = .ok msgId db') (queued : Queued msgId db') :
    RecordsAddressees mail.recipients msgId db' ↔
      (∀ addr ∈ headerAddresses mail.recipients.toAddrs, SameAddr (headerTo mail db) addr) ∧
      (∃ addr ∈ typedAddresses mail.recipients, SameAddr (headerTo mail db) addr) ∧
      ∀ addr ∈ headerAddresses mail.recipients.ccAddrs,
        (∀ other ∈ headerAddresses mail.recipients.toAddrs, ¬SameAddr other addr) →
          InCcHeader mail db addr := by
  obtain ⟨addressing, addressed, rows⟩ := loadKind_of_queued sound accepted queued
  have stored : ∀ kind addr, addr ∈ (loadKind msgId kind db').map (·.addr) ↔
      addr ∈ (sentOf addressing (addressees .bcc mail.recipients.bccAddrs) kind).map (·.addr) := by
    intro kind addr
    rw [rows, mem_firstPerAddr]
  have storedTo : ∀ addr, addr ∈ (loadKind msgId .to db').map (·.addr) ↔
      addr ∈ addressing.toHeader.map (·.2) := fun addr => by
    rw [stored, sentOf, map_addr_headerRecipients]
  have storedCc : ∀ addr, addr ∈ (loadKind msgId .cc db').map (·.addr) ↔
      toOurselves (primaryOf mail) db = false ∧
        IsExtra mail.recipients.ccAddrs (primaryOf mail) db addr := fun addr => by
    rw [stored, sentOf, map_addr_headerRecipients, mem_ccHeader_iff sound.contacts addressed]
  have storedBcc : ∀ addr, addr ∈ (loadKind msgId .bcc db').map (·.addr) ↔
      addr ∈ headerAddresses mail.recipients.bccAddrs := fun addr => by
    rw [stored, sentOf, mem_addressees]
  have namesTo : ∀ addr, Names msgId .to db' addr ↔ SameAddr (headerTo mail db) addr := by
    intro addr
    rw [names_iff, ← toHeader_iff sound.contacts addressed]
    simp only [storedTo]
  have namesCc : ∀ addr, Names msgId .cc db' addr ↔ InCcHeader mail db addr := by
    intro addr
    rw [names_iff, InCcHeader]
    simp only [storedCc, and_assoc, exists_and_left]
  constructor
  · rintro ⟨toAddrs, ccAddrs, _, nobodyElse⟩
    refine ⟨fun addr typed => (namesTo addr).mp (toAddrs addr typed), ?_,
      fun addr typed apart => (namesCc addr).mp (ccAddrs addr typed apart)⟩
    obtain ⟨recipient, member, _, same⟩ := (namesTo (headerTo mail db)).mpr (SameAddr.refl _)
    obtain ⟨addr, typed, other⟩ := nobodyElse recipient member
    exact ⟨addr, typed, same.symm.trans other⟩
  · rintro ⟨toAddrs, ⟨typedTo, isTyped, same⟩, ccAddrs⟩
    refine ⟨fun addr typed => (namesTo addr).mpr (toAddrs addr typed),
      fun addr typed apart => (namesCc addr).mpr (ccAddrs addr typed apart),
        fun addr typed => ?_, ?_⟩
    · exact names_iff.mpr ⟨addr, (storedBcc addr).mpr typed, SameAddr.refl _⟩
    · refine (forall_load_iff (p := fun stored =>
        ∃ addr ∈ typedAddresses mail.recipients, SameAddr stored addr)).mpr
          fun kind addr member => ?_
      match kind with
      | .to =>
        have header := (toHeader_iff sound.contacts addressed addr).mp
          ⟨addr, (storedTo addr).mp member, SameAddr.refl _⟩
        exact ⟨typedTo, isTyped, header.symm.trans same⟩
      | .cc =>
        obtain ⟨_, ⟨entry, typed, normal⟩, _⟩ := (storedCc addr).mp member
        refine ⟨entry, ?_, ?_⟩
        · exact mem_headerAddresses_append.mpr
            (Or.inl (mem_headerAddresses_append.mpr (Or.inr typed)))
        · exact normal ▸ SameAddr.addrNormalize_left entry
      | .bcc =>
        exact ⟨addr, mem_headerAddresses_append.mpr (Or.inr ((storedBcc addr).mp member)),
          SameAddr.refl _⟩

end

section

local instance : Unicode := asciiTables

theorem sent_copy_records_copy :
    Queued 10 (sentFrom withCopy account) ∧
      RecordsAddressees withCopy.recipients 10 (sentFrom withCopy account) := by
  have queued : Queued 10 (sentFrom withCopy account) := by
    unfold Queued
    decide +kernel
  have header : headerTo withCopy account = "a@x.org".toList := by decide +kernel
  have typedTo : headerAddresses withCopy.recipients.toAddrs = ["a@x.org".toList] := by
    decide +kernel
  have typedCc : headerAddresses withCopy.recipients.ccAddrs = ["b@x.org".toList] := by
    decide +kernel
  refine ⟨queued, (sent_copy_records_iff sound_account accepted_withCopy queued).mpr ⟨?_, ?_, ?_⟩⟩
  · rw [typedTo, header, List.forall_mem_singleton]
    exact SameAddr.refl _
  · rw [header]
    exact ⟨_, by decide +kernel, SameAddr.refl _⟩
  · rw [typedCc, List.forall_mem_singleton]
    exact fun _ => ⟨by decide +kernel, "b@x.org".toList, ⟨by decide +kernel, by decide +kernel⟩,
      SameAddr.refl _⟩

/-- The second of two To addresses is not in the sent copy at all. -/
theorem second_to_address_not_recorded :
    (send toBoth { mid := "m".toList } 1000).run account = .ok 10 (sentFrom toBoth account) ∧
      Queued 10 (sentFrom toBoth account) ∧
      (load 10 (sentFrom toBoth account)).map (·.addr) = ["a@x.org".toList] ∧
      ¬RecordsAddressees toBoth.recipients 10 (sentFrom toBoth account) := by
  have recorded : (load 10 (sentFrom toBoth account)).map (·.addr) = ["a@x.org".toList] := by
    decide +kernel
  refine ⟨run_of_returns (by decide +kernel), by unfold Queued; decide +kernel, recorded, ?_⟩
  intro records
  obtain ⟨recipient, member, _, same⟩ := records.toAddrs "b@x.org".toList (by decide +kernel)
  have only := List.mem_map_of_mem (f := fun recipient : Recipient => recipient.addr) member
  rw [recorded, List.mem_singleton] at only
  rw [only] at same
  exact absurd (same.eq_of_normal (by decide) (by decide)) (by decide)

end

end Eeemail.SentCopy
