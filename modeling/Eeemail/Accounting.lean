import Eeemail.Delivery

/-! # No addressee is lost silently

Whom a queued message was typed to is in the envelope, by address or through a
relay of its key, or recorded in `msg_undelivered`.  That is so for the first
`To` address and for Cc; the other `To` addresses and a Bcc without a key are
lost unless something else happens to reach them. -/

set_option autoImplicit false

namespace Eeemail.Accounting

open Lib.Texts Lib.Actions Addr Store MimeFactory Sending ContactTable
open Addressees Drafting Queueing Outcome Delivery

section

variable [Unicode]

def RelayOf (db : Db) (addr relay : Text) : Prop :=
  ∃ contact ∈ db.contacts, contact.isKeyContact = true ∧ SameAddr contact.addr addr ∧
    ∃ key, db.publicKeyFor contact.fingerprint = some key ∧
      ∃ named ∈ (addressesFromPublicKey key).getD [], SameAddr named relay

def Reaches (db : Db) (addr r : Text) : Prop := SameAddr r addr ∨ RelayOf db addr r

def InEnvelope (db : Db) (msgId : MsgId) (db' : Db) (addr : Text) : Prop :=
  ∃ row ∈ db'.smtp, row.msgId = msgId ∧ ∃ r ∈ row.recipients, Reaches db addr r

def AccountedFor (db : Db) (msgId : MsgId) (db' : Db) (addr : Text) : Prop :=
  InEnvelope db msgId db' addr ∨ ∃ left, Recorded msgId db' left ∧ SameAddr left addr

def Served (mail : Composition) (db : Db) (addr : Text) : Prop :=
  ∃ r, Destination mail db r ∧ Reaches db addr r

/-- The address is in a readable header: it is the first `To` address, or in Cc
and not an address of that contact. -/
def InHeader (mail : Composition) (db : Db) (addr : Text) : Prop :=
  toOurselves (primaryOf mail) db = false ∧
    (SameAddr (primaryOf mail) addr ∨
      ∃ copied, IsExtra mail.recipients.ccAddrs (primaryOf mail) db copied ∧ SameAddr copied addr)

variable {mail : Composition} {draws : Draws} {now : Int} {db db' : Db} {msgId : MsgId}

theorem upToSpelling_sameAddr (addr : Text) : UpToSpelling fun r => SameAddr r addr :=
  fun _ _ same holds => same.symm.trans holds

theorem upToSpelling_reaches (db : Db) (addr : Text) : UpToSpelling (Reaches db addr) := by
  rintro a b same (direct | ⟨contact, member, isKey, sameAddr, key, found, named, isNamed, relay⟩)
  · exact Or.inl (same.symm.trans direct)
  · exact Or.inr
      ⟨contact, member, isKey, sameAddr, key, found, named, isNamed, relay.trans same⟩

theorem inEnvelope_iff (sound : Sound db) (accepted : (send mail draws now).run db = .ok msgId db')
    (queued : Queued msgId db') (addr : Text) :
    InEnvelope db msgId db' addr ↔ Served mail db addr := by
  have delivered := delivered_of_send sound accepted
  constructor
  · rintro ⟨row, member, isRow, reached⟩
    exact ((delivered row member isRow).envelope (upToSpelling_reaches db addr)).mp reached
  · intro served
    obtain ⟨row, member, isRow⟩ := queued
    exact ⟨row, member, isRow,
      ((delivered row member isRow).envelope (upToSpelling_reaches db addr)).mpr served⟩

omit [Unicode] in
theorem recorded_congr {later : Db} (same : db'.msgUndelivered = later.msgUndelivered)
    (addr : Text) : Recorded msgId db' addr ↔ Recorded msgId later addr := by
  rw [Recorded, Recorded, same]

theorem exists_headerAddr_iff {member : Member} {extra : ExtraRecipients} {addressing : Addressing}
    (ok : ContactsOk db) (other : toOurselves (primaryOf mail) db = false)
    (isMember : MemberFor (primaryOf mail) db member)
    (isExtra : ExtraOf member.relays (addressees .cc mail.recipients.ccAddrs)
      (addressees .bcc mail.recipients.bccAddrs) db extra)
    (made : addressTo (willEncrypt mail.options.encryption (primaryOf mail) db) (some member) extra
      mail.importance = .ok addressing) (addr : Text) :
    (∃ header ∈ headerAddrs addressing, SameAddr header addr) ↔ InHeader mail db addr := by
  obtain ⟨_, _, isTo, isCc, _⟩ := addressTo_eq_ok made
  have same := SameAddr.of_nocaseEq (nocaseEq_of_memberFor ok isMember)
  have isCopied := mem_cc_iff ok isMember isExtra
  have headers : headerAddrs addressing = member.contact.addr :: extra.cc.map (·.addr) := by
    simp [headerAddrs, isTo, isCc, Function.comp_def]
  simp only [headers, List.exists_mem_cons_iff, isCopied, InHeader, other, true_and]
  exact or_congr_left ⟨fun direct => same.symm.trans direct, fun direct => same.trans direct⟩

theorem accountedFor_iff (sound : Sound db)
    (accepted : (send mail draws now).run db = .ok msgId db') (queued : Queued msgId db')
    (addr : Text) :
    AccountedFor db msgId db' addr ↔ Served mail db addr ∨ InHeader mail db addr := by
  have isServed := inEnvelope_iff sound accepted queued addr
  obtain ⟨sent, isNew, _⟩ := sent_of_send sound accepted
  obtain ⟨row, member, isRow⟩ := queued
  have fresh := fresh_of_sound sound isNew
  have unrecorded : ∀ row ∈ db.msgUndelivered, row.msgId ≠ msgId :=
    fun row member => Nat.ne_of_lt (Nat.lt_of_lt_of_le (sound.undelivered_lt row member) isNew)
  have inRow : (∃ r ∈ row.recipients, Reaches db addr r) ↔ Served mail db addr :=
    (delivered_of_send sound accepted row member isRow).envelope (upToSpelling_reaches db addr)
  have account : ∀ addressing : Addressing, Handled msgId addressing db db' →
      (AccountedFor db msgId db' addr ↔
        Served mail db addr ∨ ∃ header ∈ headerAddrs addressing, SameAddr header addr) := by
    intro addressing handled
    obtain ⟨_, _, _, undelivered⟩ := row_of_handled handled fresh member isRow
    have reached := reached_or_recorded_iff (headerAddrs addressing) row.recipients unrecorded
      (upToSpelling_sameAddr addr) (q := Reaches db addr) fun r direct => Or.inl direct
    rw [inRow] at reached
    rw [AccountedFor, isServed, ← reached]
    simp only [recorded_congr undelivered]
  cases sent with
  | toSelf own fromAddr configured handled =>
    obtain ⟨nonempty, envelope, _, _⟩ := row_of_handled handled fresh member isRow
    have ourOwn : fromAddr ∈ row.recipients := by
      rw [envelope] at nonempty ⊢
      exact mem_ownCopies configured nonempty
    rw [account _ handled, InHeader, own]
    simp only [headerAddrs, selfAddressing, List.append_nil, List.map_cons, List.map_nil,
      List.mem_singleton, exists_eq_left, Bool.true_eq_false, false_and, or_false]
    exact ⟨fun either => either.elim id fun direct =>
      inRow.mp ⟨fromAddr, ourOwn, Or.inl direct⟩, Or.inl⟩
  | toMember other member isMember extra isExtra addressing made handled =>
    rw [account _ handled, exists_headerAddr_iff sound.contacts other isMember isExtra made]

/-- Of a queued message every typed address is accounted for exactly if each one
is sent to or in a readable header. -/
theorem addressees_accounted_for_iff (sound : Sound db)
    (accepted : (send mail draws now).run db = .ok msgId db') (queued : Queued msgId db') :
    (∀ addr ∈ typedAddresses mail.recipients, AccountedFor db msgId db' addr) ↔
      ∀ addr ∈ typedAddresses mail.recipients, Served mail db addr ∨ InHeader mail db addr :=
  forall₂_congr fun addr _ => accountedFor_iff sound accepted queued addr

end

section

local instance : Unicode := asciiTables

def account : Db :=
  { config :=
      { configuredAddr := some "me@x.org".toList
        transports := [{ addr := "me@x.org".toList }]
        forceEncryption := false } }

theorem sound_account : Sound account :=
  ⟨⟨by decide, by decide, by decide⟩, by decide, by decide, by decide, by decide, by decide⟩

def withCopy : Composition :=
  { recipients := { toAddrs := ["A <a@x.org>".toList], ccAddrs := ["b@x.org".toList] }
    text := "hi".toList }

def toBoth : Composition :=
  { recipients := { toAddrs := ["A <a@x.org>".toList, "b@x.org".toList] }, text := "hi".toList }

def sentFrom (mail : Composition) (db : Db) : Db :=
  stateAfter (send mail { mid := "m".toList } 1000) db

theorem accepted_withCopy :
    (send withCopy { mid := "m".toList } 1000).run account = .ok 10 (sentFrom withCopy account) :=
  run_of_returns (by decide +kernel)

theorem addressees_accounted_for_in_copy :
    Queued 10 (sentFrom withCopy account) ∧
      ∀ addr ∈ typedAddresses withCopy.recipients,
        AccountedFor account 10 (sentFrom withCopy account) addr := by
  have queued : Queued 10 (sentFrom withCopy account) := by
    unfold Queued
    decide +kernel
  have typed : typedAddresses withCopy.recipients = ["a@x.org".toList, "b@x.org".toList] := by
    decide +kernel
  refine ⟨queued, (addressees_accounted_for_iff sound_account accepted_withCopy queued).mpr ?_⟩
  rw [typed]
  simp only [List.forall_mem_cons]
  refine ⟨Or.inr ⟨by decide +kernel, Or.inl ?_⟩, Or.inr ⟨by decide +kernel, Or.inr ?_⟩,
    List.forall_mem_nil _⟩
  · exact (by decide +kernel : primaryOf withCopy = "a@x.org".toList) ▸ SameAddr.refl _
  · exact ⟨"b@x.org".toList, ⟨by decide +kernel, by decide +kernel⟩, SameAddr.refl _⟩

theorem second_to_address_lost :
    (send toBoth { mid := "m".toList } 1000).run account = .ok 10 (sentFrom toBoth account) ∧
      Queued 10 (sentFrom toBoth account) ∧
      "b@x.org".toList ∈ typedAddresses toBoth.recipients ∧
      ¬AccountedFor account 10 (sentFrom toBoth account) "b@x.org".toList := by
  refine ⟨run_of_returns (by decide +kernel), by unfold Queued; decide +kernel,
    by decide +kernel, ?_⟩
  have envelopes : (sentFrom toBoth account).smtp.map (·.recipients) = [["a@x.org".toList]] := by
    decide +kernel
  have nobodyLeft : (sentFrom toBoth account).msgUndelivered = [] := by decide +kernel
  rintro (⟨row, member, _, r, isRecipient, direct | ⟨_, nobody, _⟩⟩ | ⟨_, ⟨_, left, _⟩, _⟩)
  · have only := List.mem_map_of_mem (f := fun row : SmtpRow => row.recipients) member
    rw [envelopes, List.mem_singleton] at only
    rw [only, List.mem_singleton] at isRecipient
    rw [isRecipient] at direct
    exact absurd (direct.eq_of_normal (by decide) (by decide)) (by decide)
  · cases nobody
  · rw [nobodyLeft] at left
    cases left

end

end Eeemail.Accounting
