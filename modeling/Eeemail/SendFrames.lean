import Eeemail.KeyRows
import Eeemail.Sending

/-! # What sending writes

Until it is rendered, a composed message changes contacts in two ways: an
address is looked up, or added, as an address-contact, and origins are raised.
What survives both holds in the state the message is rendered in. -/

set_option autoImplicit false

namespace Eeemail.SendFrames

open Lib.Texts Lib.Actions Lib.Tables Store Contacts Gating Chats
open Sending Frames ContactTable KeyRows

/-! ## Invariants of contacts -/

structure AddressInvariant (Inv : Db → Prop) : Prop where
  ofView : ∀ {db db' : Db}, contactsView db' = contactsView db → Inv db → Inv db'
  lookup : ∀ {db : Db} (name addr : Text) (origin : Origin), Inv db →
    Inv (insertOrMerge name addr [] origin db).2
  raise : ∀ {db : Db} (ids : List ContactId) (origin : Origin), Inv db →
    Inv { db with
      contacts := updateWhere
        (fun contact => ids.contains contact.id && contact.origin.value < origin.value)
        (fun contact => { contact with origin }) db.contacts }

theorem addressInvariant_keysAre (rows : List Contact) : AddressInvariant (KeysAre rows) where
  ofView same keys := keys.of_contactsView same
  lookup name addr origin keys := keys.insertOrMerge name addr origin
  raise _ _ keys := keys.update (fun _ => rfl) fun _ _ _ => ⟨rfl, fun _ => rfl⟩

theorem addressInvariant_row {P : Contact → Prop} (stays : ∀ old new : Contact, new.id = old.id →
      new.fingerprint = old.fingerprint → nocaseEq new.addr old.addr = true → P old → P new) :
    AddressInvariant fun db => ContactsOk db ∧ ∃ row ∈ db.contacts, P row where
  ofView same has := by
    obtain ⟨ok, row⟩ := has
    refine ⟨ok.of_contactsView same, ?_⟩
    rw [(Prod.mk.inj same).1]
    exact row
  lookup name addr origin has := by
    obtain ⟨ok, row, member, holds⟩ := has
    obtain ⟨later, isLater, sameId, sameKey, sameAddr⟩ :=
      exists_row_insertOrMerge ok member name addr origin
    exact ⟨ok.insertOrMerge _ _ _ _, later, isLater, stays row later sameId sameKey sameAddr holds⟩
  raise ids origin has := by
    obtain ⟨ok, row, member, holds⟩ := has
    refine ⟨ok.update fun _ => rfl, _, mem_updateWhere.mpr ⟨row, member, rfl⟩, ?_⟩
    split
    · exact stays row _ rfl rfl (nocaseEq_iff.mpr rfl) holds
    · exact holds

section

variable [Unicode] {Inv : Db → Prop}

section

variable (invariant : AddressInvariant Inv)

include invariant

omit [Unicode] in
theorem AddressInvariant.of_keeps {α : Type} {x : DbAction α}
    (keeps : Keeps contactsView x) : Preserves Inv x :=
  Preserves.of_keeps (fun _ _ same good => invariant.ofView same good) keeps

theorem AddressInvariant.preserves_addOrLookup
    (name addr : Text) (origin : Origin) : Preserves Inv (addOrLookup name addr origin) :=
  fun _ good => stateAfter_addOrLookupExt good fun _ => invariant.lookup _ _ _ good

theorem AddressInvariant.preserves_scaleupOrigin
    (ids : List ContactId) (origin : Origin) : Preserves Inv (scaleupOrigin ids origin) :=
  Preserves.bind (Preserves.exec fun _ good => invariant.raise ids origin good) fun _ =>
    invariant.of_keeps ((keeps_release ids).coarser contactsView)

theorem AddressInvariant.preserves_resolvePrimary
    (primary : Text) : Preserves Inv (resolvePrimary primary) := by
  refine Preserves.bind (Preserves.query _) fun found => ?_
  cases found with
  | some contactId => exact Preserves.pure _
  | none =>
    simp only
    split
    · exact invariant.of_keeps (Keeps.fail _)
    · exact Preserves.bind (invariant.preserves_addOrLookup _ _ _) fun _ => Preserves.pure _

omit invariant in
theorem preserves_createForContact {contactId : ContactId} {noticeMid : Text} {now : Int}
    (unblocked : ∀ db (chat : Chat), Inv db → Inv { db with
      chats := updateWhere (fun row => row.id == chat.id) (fun row => { row with blocked := .not })
        db.chats })
    (inserted : ∀ db, Inv db → Inv (insertChat contactId db).2)
    (noted : ∀ db chatId, Inv db → Inv (addInfoMsg chatId .chatE2ee noticeMid e2eeInfoMsg 0 now db))
    (raised : Preserves Inv (scaleupOrigin [contactId] .createChat)) :
    Preserves Inv (createForContact contactId noticeMid now) := by
  refine Preserves.bind (Preserves.query _) fun found => ?_
  cases found with
  | some chat =>
    exact Preserves.bind (Preserves.exec fun db => unblocked db chat) fun _ => Preserves.pure _
  | none =>
    refine Preserves.bind (Preserves.query _) fun real => ?_
    refine Preserves.bind (Preserves.ensure _ _) fun _ => ?_
    refine Preserves.bind ?_ fun _ => Preserves.bind raised fun _ => Preserves.pure _
    refine Preserves.bind (Preserves.execReturning inserted) fun chat => ?_
    refine Preserves.bind (Preserves.query _) fun encrypted => ?_
    exact Preserves.bind (Preserves.onlyIf _ (Preserves.exec fun db => noted db chat.id))
      fun _ => Preserves.pure _

theorem AddressInvariant.preserves_createForContact
    (contactId : ContactId) (noticeMid : Text) (now : Int) :
    Preserves Inv (createForContact contactId noticeMid now) :=
  SendFrames.preserves_createForContact (fun _ _ => invariant.ofView rfl)
    (fun _ => invariant.ofView rfl) (fun _ _ => invariant.ofView rfl)
    (invariant.preserves_scaleupOrigin _ _)

theorem AddressInvariant.preserves_resolveRecipient
    (typed : RecipientKind × Text) : Preserves Inv (resolveRecipient typed) := by
  refine Preserves.ite (Preserves.pure _) ?_
  simp only
  split
  · exact invariant.of_keeps (Keeps.fail _)
  · exact Preserves.bind (invariant.preserves_addOrLookup _ _ _) fun _ => Preserves.pure _

theorem AddressInvariant.preserves_setRecipients
    (msgId : MsgId) (recipients : Recipients.RecipientSet) :
    Preserves Inv (setRecipients msgId recipients) :=
  Preserves.bind (Preserves.collect invariant.preserves_resolveRecipient _) fun _ =>
    invariant.of_keeps (Keeps.exec fun _ => rfl)

end

end

end Eeemail.SendFrames
