import Eeemail.ContactTable
import Eeemail.Mailbox

/-! # Which key a reply goes to

`key_contact_for` takes the key-contact of an address that was seen most
recently.  A verified key-contact is therefore not displaced by mail that claims
its address as long as no key-contact of the address, and none that the mail brings
there, was seen as recently.  A newer message signed by another key takes its place,
and so does an `Autocrypt` header with the key of somebody who wrote more recently from
elsewhere; a header with a key that nobody was seen with does not. -/

set_option autoImplicit false

namespace Eeemail.KeySelection

open Lib.Texts Lib.Actions Lib.Tables Lib.Runs Addr Store Contacts Reception Frames
open ContactTable Mailbox

section

variable [Unicode] {mail : Incoming} {mails : List Incoming} {fromId : ContactId} {addr : Text}

/-! ## Who can be selected for an address -/

/-- A message gives the row of a key its own address if the key signed it, one up to
`IncomingUnknownFrom` also if it advertises the key and is not signed, and one up to
`Hidden` if the key is that of an addressee. -/
def Draws (addr : Text) (mail : Incoming) (row : Contact) : Prop :=
  mail.signature = some row.fingerprint ∨
    (row.origin.value ≤ Origin.incomingUnknownFrom.value ∧ mail.signature = none ∧
      mail.autocryptKey.map (·.fingerprint) = some row.fingerprint) ∨
    (row.origin.value ≤ Origin.hidden.value ∧ ∃ lookup ∈ mail.lookups,
      lookup.fingerprint = row.fingerprint ∧ nocaseEq (addrNormalize lookup.addr) addr = true)

/-- A key-contact that is of the address, or that one of the messages makes one of it. -/
structure Rival (addr : Text) (mails : List Incoming) (row : Contact) : Prop where
  isKey : row.isKeyContact = true
  unblocked : row.blocked = false
  comes : nocaseEq row.addr addr = true ∨ ∃ mail ∈ mails, Draws addr mail row

/-- None of the messages has the key under another address. -/
def Settled (addr fingerprint : Text) (mails : List Incoming) : Prop :=
  ∀ mail ∈ mails, ∀ lookup ∈ mail.lookups, lookup.fingerprint = fingerprint →
    nocaseEq (addrNormalize lookup.addr) addr = true

theorem Draws.of_raised {row raised : Contact} (draws : Draws addr mail raised)
    (fingerprint : raised.fingerprint = row.fingerprint)
    (origin : row.origin.value ≤ raised.origin.value) : Draws addr mail row := by
  unfold Draws at *
  rw [fingerprint] at draws
  rcases draws with signed | ⟨low, advertised⟩ | ⟨low, addressed⟩
  · exact Or.inl signed
  · exact Or.inr (Or.inl ⟨le_trans origin low, advertised⟩)
  · exact Or.inr (Or.inr ⟨le_trans origin low, addressed⟩)

theorem Rival.of_raised {row raised : Contact} (rival : Rival addr mails raised)
    (fingerprint : raised.fingerprint = row.fingerprint) (blocked : raised.blocked = row.blocked)
    (origin : row.origin.value ≤ raised.origin.value)
    (moved : nocaseEq raised.addr addr = true →
      nocaseEq row.addr addr = true ∨ ∃ mail ∈ mails, Draws addr mail row) :
    Rival addr mails row := by
  refine ⟨?_, blocked ▸ rival.unblocked, ?_⟩
  · rw [Contact.isKeyContact, ← fingerprint]
    exact rival.isKey
  · rcases rival.comes with here | ⟨mail, member, draws⟩
    · exact moved here
    · exact Or.inr ⟨mail, member, draws.of_raised fingerprint origin⟩

/-- A key-contact of an address, its fingerprint, when it was last seen, and the mail
to come. -/
structure Favourite where
  addr : Text
  id : ContactId
  fingerprint : Text
  seen : Int
  mails : List Incoming
  isReal : ContactId.lastSpecial < id
  isKey : fingerprint ≠ []
  wasSeen : 0 < seen

/-- No rival was seen as recently, and no lookup of an addressee can give the contact
another address.  `sender` is a row whose fingerprint is known. -/
structure Leads (favourite : Favourite) (sender : ContactId × Text) (db : Db) : Prop where
  table : ContactsOk db
  row : ∃ contact ∈ db.contacts, contact.id = favourite.id ∧
    contact.fingerprint = favourite.fingerprint ∧ contact.lastSeen = favourite.seen ∧
    contact.blocked = false ∧ nocaseEq contact.addr favourite.addr = true ∧
    (contact.origin.value ≤ Origin.hidden.value →
      Settled favourite.addr favourite.fingerprint favourite.mails)
  others : ∀ other ∈ db.contacts, other.id ≠ favourite.id →
    Rival favourite.addr favourite.mails other → other.lastSeen < favourite.seen
  sender : sender.1 < db.nextContactId ∧
    ∀ contact ∈ db.contacts, contact.id = sender.1 → contact.fingerprint = sender.2

variable {favourite : Favourite} {sender : ContactId × Text} {db : Db}

section

variable (leads : Leads favourite sender db)

include leads

theorem Leads.keyContactFor : keyContactFor favourite.addr db = some favourite.id := by
  obtain ⟨contact, member, isIt, fingerprint, seen, unblocked, addressed, _⟩ := leads.row
  have isKey : contact.isKeyContact = true := by
    simp [Contact.isKeyContact, fingerprint, favourite.isKey]
  have isReal : ContactId.lastSpecial < contact.id := isIt ▸ favourite.isReal
  unfold Contacts.keyContactFor
  cases best : latest (·.lastSeen) (db.contacts.filter fun contact =>
      nocaseEq contact.addr favourite.addr && contact.isKeyContact &&
        decide (ContactId.lastSpecial < contact.id) && !contact.blocked) with
  | none =>
    have empty := latest_eq_none.mp best
    have listed := List.filter_eq_nil_iff.mp empty contact member
    simp [addressed, isKey, isReal, unblocked] at listed
  | some winner =>
    obtain ⟨winnerMember, checks⟩ := List.mem_filter.mp (mem_of_latest best)
    simp only [Bool.and_eq_true, Bool.not_eq_true'] at checks
    have atLeast : contact.lastSeen ≤ winner.lastSeen := by
      refine le_of_latest best (List.mem_filter.mpr ⟨member, ?_⟩)
      simp [addressed, isKey, isReal, unblocked]
    by_cases same : winner.id = favourite.id
    · simp [same]
    · have less := leads.others winner winnerMember same
        ⟨checks.1.1.2, checks.2, Or.inl checks.1.1.1⟩
      omega

/-! ## Writes to the contact table -/

theorem Leads.of_contactsView {db' : Db}
    (same : contactsView db' = contactsView db) : Leads favourite sender db' := by
  obtain ⟨contacts, next⟩ := Prod.mk.inj same
  refine ⟨leads.table.of_contactsView same, ?_, ?_, ?_⟩
  · rw [contacts]
    exact leads.row
  · rw [contacts]
    exact leads.others
  · rw [contacts, next]
    exact leads.sender

theorem Leads.update {p : Contact → Bool} {f : Contact → Contact}
    (keeps : ∀ contact, (f contact).id = contact.id ∧
      (f contact).fingerprint = contact.fingerprint ∧ (f contact).blocked = contact.blocked)
    (rises : ∀ contact, p contact = true → contact.origin.value ≤ (f contact).origin.value)
    (mine : ∀ contact ∈ db.contacts, contact.id = favourite.id → p contact = true →
      (contact.origin.value ≤ Origin.hidden.value →
        Settled favourite.addr favourite.fingerprint favourite.mails) →
      nocaseEq contact.addr favourite.addr = true →
        (f contact).lastSeen = contact.lastSeen ∧
          nocaseEq (f contact).addr favourite.addr = true)
    (theirs : ∀ contact ∈ db.contacts, contact.id ≠ favourite.id → p contact = true →
      (Rival favourite.addr favourite.mails contact → contact.lastSeen < favourite.seen) →
      Rival favourite.addr favourite.mails (f contact) → (f contact).lastSeen < favourite.seen) :
    Leads favourite sender { db with contacts := updateWhere p f db.contacts } := by
  refine ⟨leads.table.update fun contact => (keeps contact).1, ?_, ?_, leads.sender.1, ?_⟩
  · obtain ⟨contact, member, isIt, fingerprint, seen, unblocked, addressed, settled⟩ := leads.row
    refine ⟨_, mem_updateWhere.mpr ⟨contact, member, rfl⟩, ?_⟩
    by_cases touched : p contact = true
    · obtain ⟨sameSeen, sameAddr⟩ := mine contact member isIt touched settled addressed
      obtain ⟨sameId, sameFingerprint, sameBlocked⟩ := keeps contact
      rw [if_pos touched, sameId, sameFingerprint, sameBlocked, sameSeen]
      exact ⟨isIt, fingerprint, seen, unblocked, sameAddr,
        fun low => settled (le_trans (rises contact touched) low)⟩
    · rw [if_neg touched]
      exact ⟨isIt, fingerprint, seen, unblocked, addressed, settled⟩
  · intro other member differs rival
    obtain ⟨old, oldMember, rfl⟩ := mem_updateWhere.mp member
    by_cases touched : p old = true
    · rw [if_pos touched] at differs rival ⊢
      rw [(keeps old).1] at differs
      exact theirs old oldMember differs touched (leads.others old oldMember differs) rival
    · rw [if_neg touched] at differs rival ⊢
      exact leads.others old oldMember differs rival
  · intro contact member isSender
    obtain ⟨old, oldMember, rfl⟩ := mem_updateWhere.mp member
    by_cases touched : p old = true
    · obtain ⟨sameId, sameFingerprint, _⟩ := keeps old
      rw [if_pos touched] at isSender ⊢
      rw [sameFingerprint]
      exact leads.sender.2 old oldMember (sameId ▸ isSender)
    · rw [if_neg touched] at isSender ⊢
      exact leads.sender.2 old oldMember isSender

theorem Leads.update_origin {p : Contact → Bool} {f : Contact → Contact}
    (keeps : ∀ contact, (f contact).id = contact.id ∧
      (f contact).fingerprint = contact.fingerprint ∧ (f contact).blocked = contact.blocked)
    (rises : ∀ contact, p contact = true → contact.origin.value ≤ (f contact).origin.value)
    (stays : ∀ contact, (f contact).addr = contact.addr ∧ (f contact).lastSeen = contact.lastSeen) :
    Leads favourite sender { db with contacts := updateWhere p f db.contacts } := by
  refine leads.update keeps rises ?_ ?_
  · intro contact _ _ _ _ addressed
    exact ⟨(stays contact).2, (stays contact).1 ▸ addressed⟩
  · intro contact _ _ touched less rival
    rw [(stays contact).2]
    refine less (rival.of_raised (keeps contact).2.1 (keeps contact).2.2 (rises contact touched) ?_)
    rw [(stays contact).1]
    exact Or.inl

theorem Leads.append {row : Contact}
    (next : row.id = db.nextContactId) (unseen : row.lastSeen = 0) :
    Leads favourite sender
      { db with contacts := db.contacts ++ [row], nextContactId := db.nextContactId + 1 } := by
  refine ⟨leads.table.append next, ?_, ?_, Nat.lt_succ_of_lt leads.sender.1, ?_⟩
  · obtain ⟨contact, member, found⟩ := leads.row
    exact ⟨contact, List.mem_append_left _ member, found⟩
  · intro other member differs rival
    rcases List.mem_append.mp member with old | new
    · exact leads.others other old differs rival
    · rw [List.mem_singleton.mp new, unseen]
      exact favourite.wasSeen
  · intro contact member isSender
    rcases List.mem_append.mp member with old | new
    · exact leads.sender.2 contact old isSender
    · rw [List.mem_singleton.mp new, next] at isSender
      have below := leads.sender.1
      rw [← isSender] at below
      exact absurd below (lt_irrefl _)

theorem Leads.insertOrMerge (name : Text) {addr fingerprint : Text} {origin : Origin}
    (safe : fingerprint = favourite.fingerprint → (origin.value ≤ Origin.hidden.value →
      Settled favourite.addr favourite.fingerprint favourite.mails) →
        nocaseEq addr favourite.addr = true)
    (drawn : fingerprint ≠ [] → nocaseEq addr favourite.addr = true →
      ∀ row : Contact, row.fingerprint = fingerprint → row.origin.value ≤ origin.value →
        ∃ mail ∈ favourite.mails, Draws favourite.addr mail row) :
    Leads favourite sender (insertOrMerge name addr fingerprint origin db).2 := by
  unfold Contacts.insertOrMerge
  split
  next row found =>
    obtain ⟨rowMember, rowFingerprint⟩ := rowFor_eq_some found
    have rises : ∀ contact,
        contact.origin.value ≤ (mergeRow name addr origin contact).origin.value := by
      intro contact
      simp only [mergeRow]
      split <;> omega
    refine leads.update (fun _ => ⟨rfl, rfl, rfl⟩) (fun contact _ => rises contact) ?_ ?_
    · intro contact member isIt touched settled addressed
      obtain ⟨mine, mineMember, mineIsIt, mineFingerprint, _⟩ := leads.row
      have same : contact = row :=
        leads.table.unique member rowMember (by simpa using touched)
      have sameMine : contact = mine :=
        leads.table.unique member mineMember (isIt.trans mineIsIt.symm)
      have asked : fingerprint = favourite.fingerprint := by
        rw [← rowFingerprint, ← same, sameMine, mineFingerprint]
      refine ⟨rfl, ?_⟩
      simp only [mergeRow]
      split
      next moved =>
        simp only [updatesAddr, Bool.and_eq_true, decide_eq_true_eq] at moved
        exact safe asked fun low => settled (le_trans moved.1 low)
      next => exact addressed
    · intro contact member _ touched less rival
      have same : contact = row :=
        leads.table.unique member rowMember (by simpa using touched)
      refine less (rival.of_raised rfl rfl (rises contact) fun here => ?_)
      simp only [mergeRow] at here
      split at here
      next moved =>
        simp only [updatesAddr, Bool.and_eq_true, decide_eq_true_eq] at moved
        refine Or.inr (drawn ?_ here contact (same ▸ rowFingerprint) moved.1)
        have isKey : contact.isKeyContact = true := rival.isKey
        rw [← rowFingerprint, ← same]
        simpa [Contact.isKeyContact] using isKey
      next => exact Or.inl here
  next => exact leads.append rfl rfl

end

theorem contactInvariant_leads (member : mail ∈ favourite.mails) :
    ContactInvariant mail (Leads favourite sender) where
  ofView same leads := leads.of_contactsView same
  lookup name lookup origin looked low leads := by
    refine leads.insertOrMerge name (fun asked settled => ?_) fun keyed here row isRow below => ?_
    · exact settled (low (asked ▸ favourite.isKey)) mail member lookup looked asked
    · exact ⟨mail, member, Or.inr (Or.inr ⟨le_trans below (low keyed), lookup, looked, isRow.symm,
        here⟩)⟩
  raise ids origin leads := by
    refine leads.update_origin (fun _ => ⟨rfl, rfl, rfl⟩) (fun contact raised => ?_)
      fun _ => ⟨rfl, rfl⟩
    simp only [Bool.and_eq_true, decide_eq_true_eq] at raised
    exact le_of_lt raised.2
  verify verifier id leads :=
    leads.update_origin (fun _ => ⟨rfl, rfl, rfl⟩) (fun _ _ => le_refl _) fun _ => ⟨rfl, rfl⟩

theorem preserves_addOrLookupExt (name : Text) {addr fingerprint : Text} {origin : Origin}
    (high : Origin.hidden.value ≤ origin.value)
    (safe : fingerprint = favourite.fingerprint → nocaseEq addr favourite.addr = true)
    (drawn : fingerprint ≠ [] →
      ∀ row : Contact, row.fingerprint = fingerprint → row.origin.value ≤ origin.value →
        ∃ mail ∈ favourite.mails, Draws favourite.addr mail row) :
    Preserves (Leads favourite sender) (addOrLookupExt name addr fingerprint origin) := by
  have below : (adjusted name addr origin).2.value ≤ origin.value := by
    unfold adjusted
    split
    · exact high
    · exact le_refl _
  intro db leads
  exact stateAfter_addOrLookupExt leads fun _ => leads.insertOrMerge _ (fun same _ => safe same)
    fun keyed _ row isRow low => drawn keyed row isRow (le_trans low below)

/-! ## Reception -/

/-- A message under the favourite's address that the favourite did not sign. -/
structure UnderAddress (favourite : Favourite) (mail : Incoming) : Prop where
  mem : mail ∈ favourite.mails
  fromAddr : nocaseEq (trim mail.fromAddr) favourite.addr = true
  otherKey : mail.signature ≠ some favourite.fingerprint

def SentBy (favourite : Favourite) (mail : Incoming) (fromId : ContactId) (db : Db) : Prop :=
  (fromId = ContactId.self ∧ Leads favourite (favourite.id, favourite.fingerprint) db) ∨
    (fromId ≠ favourite.id ∧ Leads favourite (fromId, mail.signature.getD []) db)

theorem Leads.default (leads : Leads favourite sender db) :
    Leads favourite (favourite.id, favourite.fingerprint) db := by
  refine ⟨leads.table, leads.row, leads.others, ?_⟩
  obtain ⟨contact, member, isIt, fingerprint, _⟩ := leads.row
  refine ⟨isIt ▸ leads.table.ids_lt contact member, ?_⟩
  intro other otherMember otherIsIt
  rw [leads.table.unique otherMember member (otherIsIt.trans isIt.symm), fingerprint]

theorem SentBy.leads (sent : SentBy favourite mail fromId db) :
    Leads favourite (favourite.id, favourite.fingerprint) db := by
  rcases sent with ⟨_, leads⟩ | ⟨_, leads⟩
  · exact leads
  · exact leads.default

theorem preserves_sentBy {α : Type} {x : DbAction α}
    (preserves : ∀ sender, Preserves (Leads favourite sender) x) :
    Preserves (SentBy favourite mail fromId) x := by
  intro db sent
  rcases sent with ⟨self, leads⟩ | ⟨differs, leads⟩
  · exact Or.inl ⟨self, preserves _ db leads⟩
  · exact Or.inr ⟨differs, preserves _ db leads⟩

omit [Unicode] in
theorem signature_of_isKey {row : Contact} (known : row.fingerprint = mail.signature.getD [])
    (isKey : row.isKeyContact = true) : mail.signature = some row.fingerprint := by
  cases signed : mail.signature with
  | none => simp [Contact.isKeyContact, known, signed] at isKey
  | some fingerprint => rw [known, signed, Option.getD_some]

theorem triple_setAddr (member : mail ∈ favourite.mails) (fromId : ContactId) (fromAddr : Text) :
    Triple
      (fun db => fromId ≠ favourite.id ∧ Leads favourite (fromId, mail.signature.getD []) db)
      (do
        let contact ← getById fromId
        exec fun db =>
          { db with
            contacts := updateWhere (fun contact => contact.id == fromId)
              (fun contact => { contact with addr := fromAddr }) db.contacts }
        pure (some (fromId, contact.origin)) : DbAction (Option (ContactId × Origin)))
      (fun found db => Leads favourite (favourite.id, favourite.fingerprint) db ∧
        ∀ id origin, found = some (id, origin) → SentBy favourite mail id db)
      (fun db => fromId ≠ favourite.id ∧ Leads favourite (fromId, mail.signature.getD []) db) := by
  refine Triple.bind (Triple.of_preserves ?_) fun contact => ?_
  · rintro db ⟨differs, leads⟩
    exact ⟨differs, (contactInvariant_leads member).of_keeps (Keeps.queryExcept _) db leads⟩
  · refine Triple.bind (Triple.of_preserves ?_) fun _ => ?_
    · rintro db ⟨differs, leads⟩
      refine ⟨differs, leads.update (fun _ => ⟨rfl, rfl, rfl⟩) (fun _ _ => le_refl _) ?_ ?_⟩
      · intro row _ isIt touched
        exact absurd ((beq_iff_eq.mp touched).symm.trans isIt) differs
      · intro row rowMember _ touched less rival
        have signed := signature_of_isKey
          (leads.sender.2 row rowMember (beq_iff_eq.mp touched)) rival.isKey
        exact less (rival.of_raised rfl rfl (le_refl _) fun _ =>
          Or.inr ⟨mail, member, Or.inl signed⟩)
    · refine Triple.pure _ ?_
      rintro db ⟨differs, leads⟩
      refine ⟨leads.default, ?_⟩
      intro id origin same
      simp only [Option.some.injEq, Prod.mk.injEq] at same
      exact Or.inr ⟨same.1 ▸ differs, same.1 ▸ leads⟩

section

variable (under : UnderAddress favourite mail)

include under

theorem triple_fromFieldToContactId :
    Triple (Leads favourite (favourite.id, favourite.fingerprint)) (fromFieldToContactId mail)
      (fun found db => Leads favourite (favourite.id, favourite.fingerprint) db ∧
        ∀ fromId origin, found = some (fromId, origin) → SentBy favourite mail fromId db)
      (Leads favourite (favourite.id, favourite.fingerprint)) := by
  have otherKey : mail.signature.getD [] ≠ favourite.fingerprint := by
    intro same
    cases signed : mail.signature with
    | none =>
      rw [signed] at same
      exact favourite.isKey same.symm
    | some fingerprint =>
      rw [signed] at same
      exact under.otherKey (by rw [signed, ← same]; rfl)
  unfold fromFieldToContactId
  split
  · refine Triple.pure _ fun db leads => ⟨leads, ?_⟩
    intro _ _ impossible
    cases impossible
  next fromAddr _ =>
    have looked : Preserves (Leads favourite (favourite.id, favourite.fingerprint))
        (addOrLookupExt (if mail.preventRename then [] else mail.displayName) fromAddr
          (mail.signature.getD []) .incomingUnknownFrom) := by
      refine preserves_addOrLookupExt _ (by decide) (fun same => absurd same otherKey) ?_
      exact fun keyed row isRow _ => ⟨mail, under.mem, Or.inl (signature_of_isKey isRow
        (by simpa [Contact.isKeyContact, isRow] using keyed))⟩
    refine Triple.bind (Triple.of_success looked
      fun success _ => addOrLookupExt_found success) fun found => ?_
    obtain ⟨fromId, modifier⟩ := found
    simp only
    split
    next self =>
      refine Triple.pure _ fun db both => ⟨both.1, ?_⟩
      intro id origin same
      simp only [Option.some.injEq, Prod.mk.injEq] at same
      exact Or.inl ⟨same.1.symm, both.1⟩
    next notSelf =>
      refine Triple.strengthen _ _ ?_ (fun _ failed => failed.2.default)
        (triple_setAddr under.mem fromId fromAddr)
      rintro db ⟨leads, told⟩
      obtain ⟨row, member, isIt, fingerprint⟩ := told.resolve_left notSelf
      refine ⟨?_, leads.table, leads.row, leads.others, ?_, ?_⟩
      · intro same
        have mine := leads.sender.2 row member (isIt.trans same)
        exact otherKey (fingerprint ▸ mine)
      · exact isIt ▸ leads.table.ids_lt row member
      · intro contact contactMember contactIsIt
        rw [leads.table.unique contactMember member (contactIsIt.trans isIt.symm)]
        exact fingerprint

theorem triple_prepare :
    Triple (Leads favourite (favourite.id, favourite.fingerprint)) (prepare mail)
      (fun found db => Leads favourite (favourite.id, favourite.fingerprint) db ∧
        ∀ fromId chatId, found = some (fromId, chatId) → SentBy favourite mail fromId db)
      (Leads favourite (favourite.id, favourite.fingerprint)) := by
  have imported : Preserves (Leads favourite (favourite.id, favourite.fingerprint))
      (exec (importKeys (mail.gossipedKeys ++ mail.autocryptKey.toList)) : DbAction Unit) :=
    (contactInvariant_leads under.mem).of_keeps (Keeps.exec fun _ => rfl)
  refine Triple.bind (Triple.of_preserves imported) fun _ => ?_
  refine Triple.bind (triple_fromFieldToContactId under) fun found => ?_
  cases found with
  | none =>
    refine Triple.pure _ fun db both => ⟨both.1, ?_⟩
    intro _ _ impossible
    cases impossible
  | some target =>
    obtain ⟨fromId, senderOrigin⟩ := target
    -- From here on the sender is known, and every step keeps that.
    have known : ∀ chatId, Triple (SentBy favourite mail fromId)
        (pure (some (fromId, chatId)) : DbAction (Option (ContactId × ChatId)))
        (fun found db => Leads favourite (favourite.id, favourite.fingerprint) db ∧
          ∀ id chat, found = some (id, chat) → SentBy favourite mail id db)
        (SentBy favourite mail fromId) := by
      intro chatId
      refine Triple.pure _ fun db sent => ⟨sent.leads, ?_⟩
      intro id chat same
      simp only [Option.some.injEq, Prod.mk.injEq] at same
      exact same.1 ▸ sent
    refine Triple.strengthen (SentBy favourite mail fromId) (SentBy favourite mail fromId)
      (fun db both => both.2 fromId senderOrigin rfl) (fun _ sent => sent.leads) ?_
    exact Triple.bind (Triple.of_preserves (preserves_sentBy fun sender =>
      (contactInvariant_leads under.mem).preserves_place fromId senderOrigin)) known

omit under in
theorem preserves_updateLastSeen (member : mail ∈ favourite.mails)
    (older : mail.signature.isSome = true → mail.timestampSent < favourite.seen) :
    Preserves (SentBy favourite mail fromId)
      (onlyIf (!isSpecial fromId) (updateLastSeen fromId mail.timestampSent)) := by
  rintro db (⟨rfl, leads⟩ | ⟨differs, leads⟩)
  · exact Or.inl ⟨rfl, leads⟩
  · refine Or.inr ⟨differs, Preserves.onlyIf _ ?_ db leads⟩
    refine Preserves.bind ((contactInvariant_leads member).of_keeps (Keeps.ensure _ _))
      fun _ => ?_
    refine Preserves.exec fun db leads => ?_
    refine leads.update (fun _ => ⟨rfl, rfl, rfl⟩) (fun _ _ => le_refl _) ?_ ?_
    · intro contact _ isIt touched
      simp only [Bool.and_eq_true, beq_iff_eq] at touched
      exact absurd (touched.2.symm.trans isIt) differs
    · intro contact known _ touched _ rival
      simp only [Bool.and_eq_true, beq_iff_eq] at touched
      have signed := signature_of_isKey (leads.sender.2 contact known touched.2) rival.isKey
      exact older (Option.isSome_of_eq_some signed)

theorem preserves_adopt : Preserves (Leads favourite sender) (adopt mail) := by
  unfold adopt
  split
  next key unsigned advertised =>
    refine Preserves.bind (Preserves.query _) fun self => ?_
    refine Preserves.ite (Preserves.pure _) ?_
    refine Preserves.bind (preserves_addOrLookupExt _ (by decide) (fun _ => under.fromAddr) ?_)
      fun _ => Preserves.pure _
    intro _ row isRow low
    refine ⟨mail, under.mem, Or.inr (Or.inl ⟨low, unsigned, ?_⟩)⟩
    rw [advertised, Option.map_some, isRow]
  next => exact Preserves.pure _

theorem preserves_storeMessage
    (older : mail.signature.isSome = true → mail.timestampSent < favourite.seen) (now : Int) :
    Preserves (Leads favourite (favourite.id, favourite.fingerprint)) (storeMessage mail now) := by
  refine Preserves.bind (Preserves.query _) fun known => ?_
  refine Preserves.ite (Preserves.pure none) ?_
  refine Triple.preserves (Triple.bind (triple_prepare under) fun prepared => ?_)
  cases prepared with
  | none => exact Triple.pure _ fun db both => both.1
  | some target =>
    obtain ⟨fromId, chatId⟩ := target
    refine Triple.strengthen (SentBy favourite mail fromId) (SentBy favourite mail fromId)
      (fun db both => both.2 fromId chatId rfl) (fun _ sent => sent.leads) ?_
    refine Triple.bind (Triple.of_preserves (preserves_sentBy fun sender =>
      (contactInvariant_leads under.mem).preserves_insertMsg fromId chatId now)) fun msgId => ?_
    refine Triple.bind (Triple.of_preserves (preserves_updateLastSeen under.mem older)) fun _ => ?_
    refine Triple.bind (Triple.of_preserves (preserves_sentBy fun sender =>
      (contactInvariant_leads under.mem).preserves_hooks msgId now)) fun _ => ?_
    exact Triple.pure _ fun db sent => sent.leads

theorem preserves_receive
    (older : mail.signature.isSome = true → mail.timestampSent < favourite.seen) (now : Int) :
    Preserves (Leads favourite (favourite.id, favourite.fingerprint))
      (Reception.receive mail now) := by
  refine Preserves.bind (preserves_storeMessage under older now) fun stored => ?_
  cases stored with
  | none => exact Preserves.pure none
  | some target =>
    refine Preserves.bind ((contactInvariant_leads under.mem).of_keeps (Keeps.exec fun _ => rfl))
      fun _ => ?_
    exact Preserves.bind (Preserves.bestEffort (preserves_adopt under)) fun _ => Preserves.pure _

end

/-! ## A sequence of messages -/

def arrivals (mails : List (Int × Incoming)) : List Event :=
  mails.map fun (now, mail) => { now, op := .receive mail }

theorem Leads.arrivals {mails : List (Int × Incoming)}
    (leads : Leads favourite (favourite.id, favourite.fingerprint) db)
    (under : ∀ mail ∈ mails, UnderAddress favourite mail.2)
    (older : ∀ mail ∈ mails, mail.2.signature.isSome = true →
      mail.2.timestampSent < favourite.seen) :
    Leads favourite (favourite.id, favourite.fingerprint)
      (runAll step db (arrivals mails)) := by
  induction mails generalizing db with
  | nil => exact leads
  | cons mail rest ih =>
    refine ih ?_ (fun other member => under other (List.mem_cons_of_mem _ member))
      (fun other member => older other (List.mem_cons_of_mem _ member))
    unfold step
    simp only [perform, stateAfter_run]
    exact preserves_receive (under mail List.mem_cons_self) (older mail List.mem_cons_self)
      mail.1 db leads

/-- A key-contact that was seen more recently than its rivals stays the one a reply
goes to, a verified one in particular, through any sequence of messages under its address
that it did not sign, if the signed ones among them were sent before it was last seen. -/
theorem key_contact_not_displaced (ok : ContactsOk db) {contact : Contact} {addr : Text}
    (member : contact ∈ db.contacts) (isReal : ContactId.lastSpecial < contact.id)
    (isKey : contact.fingerprint ≠ []) (unblocked : contact.blocked = false)
    (addressed : nocaseEq contact.addr addr = true) (wasSeen : 0 < contact.lastSeen)
    (mails : List (Int × Incoming))
    (settled : contact.origin.value ≤ Origin.hidden.value →
      Settled addr contact.fingerprint (mails.map (·.2)))
    (latest : ∀ other ∈ db.contacts, other.id ≠ contact.id →
      Rival addr (mails.map (·.2)) other → other.lastSeen < contact.lastSeen)
    (fromAddr : ∀ mail ∈ mails, nocaseEq (trim mail.2.fromAddr) addr = true)
    (otherKey : ∀ mail ∈ mails, mail.2.signature ≠ some contact.fingerprint)
    (older : ∀ mail ∈ mails, mail.2.signature.isSome = true →
      mail.2.timestampSent < contact.lastSeen) :
    keyContactFor addr (runAll step db (arrivals mails)) = some contact.id := by
  let favourite : Favourite :=
    { addr, id := contact.id, fingerprint := contact.fingerprint, seen := contact.lastSeen,
      mails := mails.map (·.2), isReal, isKey, wasSeen }
  have leads : Leads favourite (favourite.id, favourite.fingerprint) db := by
    refine ⟨ok, ⟨contact, member, rfl, rfl, rfl, unblocked, addressed, settled⟩, latest,
      ok.ids_lt contact member, ?_⟩
    intro other otherMember same
    rw [ok.unique otherMember member same]
  have under : ∀ mail ∈ mails, UnderAddress favourite mail.2 := fun mail mailMember =>
    ⟨List.mem_map_of_mem mailMember, fromAddr mail mailMember, otherKey mail mailMember⟩
  exact (leads.arrivals under older).keyContactFor

end

section

local instance : Unicode := asciiTables

def verifiedContact : Contact :=
  { id := 10, addr := "a@x.org".toList, origin := .securejoinJoined, lastSeen := 100,
    fingerprint := "V".toList, verifier := 1 }

def verifiedOnly : Db := { contacts := [verifiedContact], nextContactId := 11 }

/-- Somebody who wrote at time 500, from another address. -/
def colleague : Contact :=
  { id := 11, addr := "b@x.org".toList, origin := .incomingUnknownFrom, lastSeen := 500,
    fingerprint := "B".toList }

def verifiedAndColleague : Db := { contacts := [verifiedContact, colleague], nextContactId := 12 }

def attackerKey : PublicKey := { fingerprint := "M".toList, fingerprint_ne_nil := by decide }

def unsignedMail : Incoming :=
  { rfc724Mid := "m1".toList, fromAddr := "A@x.org".toList, autocryptKey := some attackerKey,
    timestampSent := 900 }

theorem key_contact_not_displaced_by_header :
    keyContactFor "a@x.org".toList
      (runAll step verifiedAndColleague (arrivals [(1000, unsignedMail)])) = some 10 := by
  refine key_contact_not_displaced ⟨by decide, by decide, by decide⟩
    (show verifiedContact ∈ verifiedAndColleague.contacts by decide) (by decide) (by decide)
    (by decide) (by decide) (by decide) [(1000, unsignedMail)]
    (fun low => absurd low (by decide)) ?_ (by decide) (by decide) (by decide)
  intro other member differs rival
  simp only [verifiedAndColleague, List.mem_cons, List.not_mem_nil, or_false] at member
  rcases member with rfl | rfl
  · exact absurd rfl differs
  · -- the message is under another address and has neither the colleague's key nor lookups
    rcases rival.comes with here | ⟨mail, isMail, signed | ⟨_, _, advertised⟩ | ⟨low, _⟩⟩
    · exact absurd here (by decide)
    · rw [List.map_singleton, List.mem_singleton] at isMail
      rw [isMail] at signed
      cases signed
    · rw [List.map_singleton, List.mem_singleton] at isMail
      rw [isMail] at advertised
      exact absurd advertised (by decide)
    · exact absurd low (by decide)

def signedMail : Incoming :=
  { rfc724Mid := "m2".toList, fromAddr := "a@x.org".toList, signature := some "M".toList,
    timestampSent := 200 }

def colleaguesKey : PublicKey := { fingerprint := "B".toList, fingerprint_ne_nil := by decide }

/-- A message signed by another key takes the place of the verified one, and so does an
unsigned one with the key of somebody who was seen more recently elsewhere. -/
theorem newer_signature_displaces_verified_key :
    isVerified verifiedContact = true ∧
      (keyContactFor "a@x.org".toList verifiedOnly = some 10 ∧
        keyContactFor "a@x.org".toList
          (runAll step verifiedOnly (arrivals [(1000, signedMail)])) = some 11) ∧
      keyContactFor "a@x.org".toList verifiedAndColleague = some 10 ∧
        keyContactFor "a@x.org".toList (runAll step verifiedAndColleague
          (arrivals [(1000, { unsignedMail with autocryptKey := some colleaguesKey })])) =
            some 11 := by
  decide

end

end Eeemail.KeySelection
