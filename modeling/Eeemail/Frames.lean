import Eeemail.Reception
import Eeemail.ReservedLabels

/-! # What operations leave alone

Most of what happens to a mailbox touches neither the label table nor the
deadlines of the trash, and what does touch the deadlines mostly adds new ones.
Both facts are proved here function by function; the invariants of the trash
use nothing else about the gate, about contacts or about reception. -/

set_option autoImplicit false

namespace Eeemail.Frames

open Lib.Texts Lib.Actions Lib.Tables Store Labels ReservedLabels Contacts Trash Gating Housekeeping
open Reception

def trashView (db : Db) : (List Label × LabelId) × List TrashedMsg × Int :=
  (labelView db, db.trashedMsgs, db.config.trashPurgeDays)

/-- Deadlines may have been added, each a full window from now and only for a
message that had none; labels and the window are the same. -/
structure Grows (now : Int) (before after : Db) : Prop where
  labels : labelView after = labelView before
  window : after.config.trashPurgeDays = before.config.trashPurgeDays
  kept : ∀ row ∈ before.trashedMsgs, row ∈ after.trashedMsgs
  added : ∀ row ∈ after.trashedMsgs, row ∈ before.trashedMsgs ∨
    ((∀ old ∈ before.trashedMsgs, old.msgId ≠ row.msgId) ∧ row.purgeAt = deadline now before)

theorem deadline_congr {now : Int} {db db' : Db}
    (same : db'.config.trashPurgeDays = db.config.trashPurgeDays) :
    deadline now db' = deadline now db := by
  simp only [deadline, purgeSecs, purgeDays, same]

theorem Grows.of_trashView {now : Int} {db db' : Db} (same : trashView db' = trashView db) :
    Grows now db db' := by
  obtain ⟨labels, rest⟩ := Prod.mk.inj same
  obtain ⟨rows, window⟩ := Prod.mk.inj rest
  refine ⟨labels, window, ?_, ?_⟩
  · intro row member
    rw [rows]
    exact member
  · intro row member
    rw [rows] at member
    exact Or.inl member

theorem Grows.trans {now : Int} {first second third : Db} (left : Grows now first second)
    (right : Grows now second third) : Grows now first third := by
  refine ⟨right.labels.trans left.labels, right.window.trans left.window, ?_, ?_⟩
  · intro row member
    exact right.kept row (left.kept row member)
  · intro row member
    rcases right.added row member with middle | ⟨fresh, due⟩
    · exact left.added row middle
    · refine Or.inr ⟨?_, ?_⟩
      · intro old oldMember
        exact fresh old (left.kept old oldMember)
      · rw [due, deadline_congr left.window]

theorem grows_of_keeps {α : Type} {x : DbAction α} (now : Int) (keeps : Keeps trashView x) :
    Respects (Grows now) x :=
  Respects.of_keeps (fun _ _ same => Grows.of_trashView same) keeps

theorem grows_bind {α β : Type} {now : Int} {x : DbAction α} {f : α → DbAction β}
    (first : Respects (Grows now) x) (second : ∀ a, Respects (Grows now) (f a)) :
    Respects (Grows now) (x >>= f) :=
  Respects.bind (fun left right => left.trans right) first second

def outsideHold (db : Db) : Db := { db with msgLabels := [], syncItems := [], heldMsgs := [] }

def besidesContacts (db : Db) : Db := { db with contacts := [], nextContactId := 0 }

def besidesPrepare (db : Db) : Db :=
  { besidesContacts db with publicKeys := [], chats := [], nextChatId := 0 }

def outsideContacts (db : Db) : Db := outsideHold (besidesContacts db)

def outsidePrepare (db : Db) : Db := outsideHold (besidesPrepare db)

theorem keeps_setExt (msgs : List MsgId) (label : Label) (apply : Bool) (mode : Sync) :
    Keeps outsideHold (exec (setExt msgs label apply mode) : DbAction Unit) := by
  intro db
  obtain ⟨items, written⟩ := setExt_eq msgs label apply mode db
  rw [stateAfter_exec, written]
  rfl

section

variable [Unicode]

/-! ## Contacts and the gate -/

omit [Unicode] in
theorem besidesContacts_insertOrMerge (name addr fingerprint : Text) (origin : Origin) (db : Db) :
    besidesContacts (insertOrMerge name addr fingerprint origin db).2 = besidesContacts db := by
  unfold insertOrMerge
  split <;> rfl

theorem stateAfter_addOrLookupExt {P : Db → Prop} {name addr fingerprint : Text} {origin : Origin}
    {db : Db} (unchanged : P db)
    (written : isSelf addr fingerprint db = false → P (insertOrMerge (adjusted name addr origin).1
      addr fingerprint (adjusted name addr origin).2 db).2) :
    P (stateAfter (addOrLookupExt name addr fingerprint origin) db) := by
  rw [addOrLookupExt, stateAfter_ensure_bind]
  split
  · rw [stateAfter_ensure_bind]
    split
    · rw [stateAfter_query_bind]
      split
      next => exact unchanged
      next other => exact written (by simpa using other)
    · exact unchanged
  · exact unchanged

theorem keeps_addOrLookupExt (name addr fingerprint : Text) (origin : Origin) :
    Keeps besidesContacts (addOrLookupExt name addr fingerprint origin) := fun db =>
  stateAfter_addOrLookupExt (P := fun after => besidesContacts after = besidesContacts db) rfl
    fun _ => besidesContacts_insertOrMerge _ _ _ _ db

omit [Unicode] in
theorem keeps_seen (fromId : ContactId) (timestamp : Int) :
    Keeps besidesContacts (onlyIf (!isSpecial fromId) (updateLastSeen fromId timestamp)) :=
  Keeps.onlyIf _ (Keeps.bind (Keeps.ensure _ _) fun _ => Keeps.exec fun _ => rfl)

theorem keeps_unhold (msgs : List MsgId) : Keeps outsideHold (unhold msgs) := by
  refine Keeps.ite (Keeps.pure _) ?_
  refine Keeps.bind (Keeps.queryExcept _) fun label => ?_
  refine Keeps.bind (keeps_setExt msgs label false .nosync) fun _ => ?_
  exact Keeps.bind (Keeps.exec fun _ => rfl) fun _ => Keeps.pure _

theorem preserves_release {Inv : Db → Prop} (unholds : ∀ msgs, Preserves Inv (unhold msgs))
    (ids : List ContactId) : Preserves Inv (release ids) := by
  have senders : ∀ senders, Preserves Inv (releaseSenders senders) := by
    intro senders
    induction senders with
    | nil => exact Preserves.pure 0
    | cons fromId rest ih =>
      refine Preserves.bind (Preserves.query _) fun msgs => ?_
      exact Preserves.bind (unholds msgs) fun _ => Preserves.bind ih fun _ => Preserves.pure _
  induction ids with
  | nil => exact Preserves.pure 0
  | cons id rest ih =>
    refine Preserves.bind ?_ fun _ => Preserves.bind ih fun _ => Preserves.pure _
    refine Preserves.bind (Preserves.query _) fun trusted => ?_
    refine Preserves.bind (Preserves.query _) fun rows => ?_
    exact Preserves.ite (senders rows) (Preserves.pure 0)

theorem keeps_release (ids : List ContactId) : Keeps outsideHold (release ids) :=
  Keeps.of_preserves fun _ => preserves_release (fun msgs => (keeps_unhold msgs).preserves) ids

theorem keeps_setEnabled (enabled : Bool) : Keeps trashView (setEnabled enabled) := by
  refine Keeps.bind (Keeps.exec fun _ => rfl) fun _ => ?_
  refine Keeps.ite (Keeps.pure _) ?_
  refine Keeps.bind ?_ fun _ => Keeps.pure _
  exact Keeps.bind (Keeps.query _) fun msgs => (keeps_unhold msgs).coarser trashView

theorem keeps_scaleupOrigin (ids : List ContactId) (origin : Origin) :
    Keeps outsideContacts (scaleupOrigin ids origin) :=
  Keeps.bind (Keeps.exec fun _ => rfl) fun _ =>
    Keeps.bestEffort ((keeps_release ids).coarser outsideContacts)

theorem contacts_scaleupOrigin (contacts : List ContactId) (origin : Origin) (db : Db) :
    (stateAfter (scaleupOrigin contacts origin) db).contacts = updateWhere
      (fun contact => contacts.contains contact.id && contact.origin.value < origin.value)
      (fun contact => { contact with origin }) db.contacts :=
  (keeps_release contacts).coarser Db.contacts _

theorem keeps_gate (msgId : MsgId) (now : Int) : Keeps outsideHold (Gating.apply msgId now) := by
  refine Keeps.bind (Keeps.query _) fun held => ?_
  refine Keeps.ite ?_ (Keeps.pure _)
  refine Keeps.bind (Keeps.queryExcept _) fun label => ?_
  exact Keeps.bind (keeps_setExt [msgId] label true .nosync) fun _ => Keeps.exec fun _ => rfl

/-! ## Reception up to the row -/

theorem keeps_fromFieldToContactId (mail : Incoming) :
    Keeps besidesPrepare (fromFieldToContactId mail) := by
  unfold fromFieldToContactId
  split
  · exact Keeps.pure none
  · refine Keeps.bind ((keeps_addOrLookupExt _ _ _ _).coarser besidesPrepare) fun found => ?_
    refine Keeps.ite (Keeps.pure _) ?_
    refine Keeps.bind (Keeps.queryExcept _) fun contact => ?_
    exact Keeps.bind (Keeps.exec fun _ => rfl) fun _ => Keeps.pure _

theorem keeps_lookupContact (incoming : Bool) (senderOrigin : Origin) (lookup : Lookup) :
    Keeps besidesPrepare (lookupContact incoming senderOrigin lookup) := by
  unfold lookupContact
  refine Keeps.ite (Keeps.pure _) ?_
  split
  · exact Keeps.pure _
  · exact Keeps.bind ((keeps_addOrLookupExt _ _ _ _).coarser besidesPrepare) fun _ => Keeps.pure _

theorem keeps_adopt (mail : Incoming) : Keeps besidesPrepare (adopt mail) := by
  unfold adopt
  split
  · refine Keeps.bind (Keeps.query _) fun self => ?_
    refine Keeps.ite (Keeps.pure _) ?_
    exact Keeps.bind ((keeps_addOrLookupExt _ _ _ _).coarser besidesPrepare) fun _ => Keeps.pure _
  · exact Keeps.pure _

omit [Unicode] in
theorem keeps_singleChat (fromId : ContactId) :
    Keeps besidesPrepare (execReturning (singleChat fromId) : DbAction Chat) := by
  refine Keeps.execReturning fun db => ?_
  unfold singleChat
  split <;> rfl

theorem preserves_place {Inv : Db → Prop} {mail : Incoming} {fromId : ContactId}
    {senderOrigin : Origin}
    (looked : ∀ db, Inv db → ∀ lookup ∈ mail.lookups,
      Preserves Inv (lookupContact (isIncoming mail db) senderOrigin lookup))
    (verified : ∀ fingerprint, Preserves Inv (markRecipientAsVerified fromId fingerprint))
    (found : ∀ id, Preserves Inv (execReturning (singleChat id) : DbAction Chat))
    (unblocked : ∀ db (chat : Chat) status, Inv db → Inv { db with
      chats := updateWhere (fun row => row.id == chat.id)
        (fun row => { row with blocked := status })
        db.chats })
    (raised : ∀ db, Inv db → hasParent mail db = true →
      Preserves Inv (scaleupOrigin [fromId] .incomingReplyTo)) :
    Preserves Inv (place mail fromId senderOrigin) := by
  have assigned : Preserves Inv (assignToSender mail fromId) := by
    intro db inv
    rw [assignToSender, stateAfter_query_bind]
    refine Preserves.bind (found fromId) (fun chat => ?_) db inv
    refine Preserves.bind (Preserves.query _) fun status => Preserves.ite (Preserves.pure _) ?_
    refine Preserves.bind (Preserves.exec fun db => unblocked db chat status) fun _ => ?_
    refine Preserves.bind ?_ fun _ => Preserves.pure _
    cases isReply : hasParent mail db with
    | false =>
      rw [Bool.and_false]
      exact Preserves.pure _
    | true => exact Preserves.onlyIf _ (raised db inv isReply)
  intro db inv
  rw [place, stateAfter_query_bind]
  refine Preserves.bind (Preserves.forEach_of_mem (looked db inv)) (fun _ => ?_) db inv
  refine Preserves.bind (Preserves.query _) fun _ => ?_
  refine Preserves.bind (Preserves.onlyIf _ (Preserves.forEach verified _)) fun _ => ?_
  split
  · exact Preserves.pure _
  · refine Preserves.ite assigned ?_
    exact Preserves.bind (found ContactId.self) fun _ => Preserves.pure _

/-- An invariant that contacts, keys and chats do not enter and that mail may be
released under. -/
structure BlindToPrepare (Inv : Db → Prop) : Prop where
  view : ∀ db db', besidesPrepare db' = besidesPrepare db → Inv db → Inv db'
  released : ∀ ids, Preserves Inv (release ids)

section Blind

variable {Inv : Db → Prop}

section

variable (blind : BlindToPrepare Inv)

include blind

theorem BlindToPrepare.of_keeps {α : Type} {x : DbAction α}
    (keeps : Keeps besidesPrepare x) : Preserves Inv x := Preserves.of_keeps blind.view keeps

theorem BlindToPrepare.markRecipientAsVerified (fromId : ContactId)
    (fingerprint : Text) : Preserves Inv (markRecipientAsVerified fromId fingerprint) := by
  refine Preserves.bind (Preserves.query _) fun found => ?_
  cases found with
  | none => exact Preserves.pure _
  | some contact =>
    refine Preserves.ite (Preserves.pure _) ?_
    refine Preserves.bind (blind.of_keeps (Keeps.exec fun _ => rfl)) fun _ => ?_
    exact Preserves.bestEffort (blind.released [contact.id])

theorem BlindToPrepare.scaleupOrigin (ids : List ContactId)
    (origin : Origin) : Preserves Inv (scaleupOrigin ids origin) :=
  Preserves.bind (blind.of_keeps (Keeps.exec fun _ => rfl)) fun _ =>
    Preserves.bestEffort (blind.released ids)

theorem BlindToPrepare.place (mail : Incoming) (fromId : ContactId)
    (senderOrigin : Origin) : Preserves Inv (place mail fromId senderOrigin) :=
  preserves_place (fun _ _ lookup _ => blind.of_keeps (keeps_lookupContact _ _ lookup))
    (blind.markRecipientAsVerified fromId) (fun id => blind.of_keeps (keeps_singleChat id))
    (fun _ _ _ => blind.view _ _ rfl) fun _ _ _ => blind.scaleupOrigin [fromId] .incomingReplyTo

theorem BlindToPrepare.prepare (mail : Incoming) : Preserves Inv (prepare mail) := by
  refine Preserves.bind (blind.of_keeps (Keeps.exec fun _ => rfl)) fun _ => ?_
  refine Preserves.bind (blind.of_keeps (keeps_fromFieldToContactId mail)) fun found => ?_
  cases found with
  | none => exact Preserves.pure none
  | some sender => exact Preserves.bind (blind.place mail _ _) fun _ => Preserves.pure _

end

end Blind

theorem blindToPrepare_outside (value : Db) :
    BlindToPrepare fun db => outsidePrepare db = value := by
  refine ⟨?_, ?_⟩
  · intro db db' same isValue
    exact (congrArg outsideHold same).trans isValue
  · intro ids db isValue
    exact ((keeps_release ids).coarser besidesPrepare db).trans isValue

theorem keeps_prepare (mail : Incoming) : Keeps outsidePrepare (prepare mail) :=
  Keeps.of_preserves fun value => (blindToPrepare_outside value).prepare mail

/-! ## What puts mail into the trash -/

omit [Unicode] in
theorem mem_addDeadlines {msgs : List MsgId} {trashedAt purgeAt : Int} {reason : Reason}
    {rows : List TrashedMsg} {row : TrashedMsg} :
    row ∈ addDeadlines msgs trashedAt purgeAt reason rows ↔
      row ∈ rows ∨ (row.msgId ∈ msgs ∧ (∀ old ∈ rows, old.msgId ≠ row.msgId) ∧
        row = { msgId := row.msgId, trashedAt, purgeAt, reason }) := by
  induction msgs generalizing rows with
  | nil => simp [addDeadlines]
  | cons msgId rest ih =>
    have step : addDeadlines (msgId :: rest) trashedAt purgeAt reason rows =
        addDeadlines rest trashedAt purgeAt reason
          (insertOrIgnore (·.msgId) { msgId, trashedAt, purgeAt, reason } rows) := rfl
    rw [step, ih, mem_insertOrIgnore]
    constructor
    · rintro ((member | ⟨same, fresh⟩) | ⟨member, fresh, shape⟩)
      · exact Or.inl member
      · rw [same]
        exact Or.inr ⟨List.mem_cons_self, fresh, rfl⟩
      · refine Or.inr ⟨List.mem_cons_of_mem _ member, ?_, shape⟩
        intro old oldMember
        exact fresh old (mem_insertOrIgnore_of_mem oldMember)
    · rintro (member | ⟨member, fresh, shape⟩)
      · exact Or.inl (Or.inl member)
      · by_cases first : row.msgId = msgId
        · rw [first] at shape fresh
          exact Or.inl (Or.inr ⟨shape, fresh⟩)
        · refine Or.inr ⟨(List.mem_cons.mp member).resolve_left first, ?_, shape⟩
          intro old oldMember
          rcases mem_insertOrIgnore.mp oldMember with known | ⟨new, _⟩
          · exact fresh old known
          · rw [new]
            exact Ne.symm first

theorem grows_toTrash (msgs : List MsgId) (reason : Reason) (now : Int) :
    Respects (Grows now) (toTrash msgs reason now) := by
  unfold toTrash
  split
  next => exact grows_of_keeps now (Keeps.pure ())
  next =>
    refine grows_bind (grows_of_keeps now (Keeps.queryExcept _)) fun label => ?_
    refine grows_bind (grows_of_keeps now
      ((keeps_setExt msgs label true _).coarser trashView)) fun _ => ?_
    intro db
    refine ⟨rfl, rfl, ?_, ?_⟩
    · intro row member
      exact mem_addDeadlines.mpr (Or.inl member)
    · intro row member
      rcases mem_addDeadlines.mp member with old | ⟨_, fresh, shape⟩
      · exact Or.inl old
      · refine Or.inr ⟨fresh, ?_⟩
        rw [shape]

omit [Unicode] in
theorem keeps_clearTimers (msgs : List MsgId) :
    Keeps trashView (exec (clearTimers msgs) : DbAction Unit) := Keeps.exec fun _ => rfl

theorem grows_divert (now : Int) : Respects (Grows now) (divert now) := by
  refine grows_bind (grows_of_keeps now (Keeps.query _)) fun days => ?_
  split
  · exact grows_of_keeps now (Keeps.pure 0)
  · refine grows_bind (grows_of_keeps now (Keeps.query _)) fun fired => ?_
    split
    · exact grows_of_keeps now (Keeps.pure 0)
    · refine grows_bind (grows_toTrash fired .expired now) fun _ => ?_
      refine grows_of_keeps now ?_
      exact Keeps.bind (keeps_clearTimers fired) fun _ => Keeps.pure _

theorem grows_sweep (now : Int) : Respects (Grows now) (sweep now) := by
  refine grows_bind (grows_of_keeps now (Keeps.query _)) fun days => ?_
  refine grows_bind (grows_of_keeps now (Keeps.query _)) fun swept => ?_
  split
  · refine grows_of_keeps now ?_
    exact Keeps.bind (Keeps.exec fun _ => rfl) fun _ => Keeps.pure _
  · refine grows_bind (grows_toTrash swept .unaccepted now) fun _ => ?_
    exact grows_of_keeps now ((keeps_unhold swept).coarser trashView)

theorem grows_applyBlocklist (msgId : MsgId) (now : Int) :
    Respects (Grows now) (applyBlocklist msgId now) := by
  refine grows_bind (grows_of_keeps now (Keeps.query _)) fun listed => ?_
  split
  · refine grows_bind (grows_toTrash [msgId] .blocked now) fun _ => ?_
    exact grows_of_keeps now (Keeps.pure _)
  · exact grows_of_keeps now (Keeps.pure _)

theorem grows_deleteExpiredMessages (now : Int) :
    Respects (Grows now) (deleteExpiredMessages now) := by
  refine grows_bind (grows_divert now) fun _ => ?_
  exact grows_of_keeps now (Keeps.exec fun _ => rfl)

omit [Unicode] in
theorem keeps_drainPending (msgId : MsgId) :
    Keeps trashView (exec (drainPending msgId) : DbAction Unit) := by
  refine Keeps.exec fun db => ?_
  unfold drainPending
  split
  · rfl
  · split <;> rfl

omit [Unicode] in
theorem keeps_setImportance (msgId : MsgId) (importance : Importance) :
    Keeps trashView (exec (Recipients.setImportance msgId importance) : DbAction Unit) := by
  refine Keeps.exec fun db => ?_
  cases importance <;> rfl

theorem grows_hooks (mail : Incoming) (msgId : MsgId) (now : Int) :
    Respects (Grows now) (hooks mail msgId now) := by
  refine grows_bind (grows_of_keeps now (Keeps.exec fun _ => rfl)) fun _ => ?_
  refine grows_bind (grows_of_keeps now (keeps_drainPending msgId)) fun _ => ?_
  refine grows_bind (grows_of_keeps now ((keeps_gate msgId now).coarser trashView)) fun _ => ?_
  refine grows_bind (grows_of_keeps now (keeps_setImportance msgId _)) fun _ => ?_
  exact grows_applyBlocklist msgId now

theorem grows_storeMessage (mail : Incoming) (now : Int) :
    Respects (Grows now) (storeMessage mail now) := by
  refine grows_bind (grows_of_keeps now (Keeps.query _)) fun known => ?_
  split
  · exact grows_of_keeps now (Keeps.pure none)
  · refine grows_bind (grows_of_keeps now ((keeps_prepare mail).coarser trashView))
      fun prepared => ?_
    cases prepared with
    | none => exact grows_of_keeps now (Keeps.pure none)
    | some target =>
      refine grows_bind (grows_of_keeps now (Keeps.execReturning fun _ => rfl)) fun msgId => ?_
      refine grows_bind (grows_of_keeps now (Keeps.onlyIf _ ?_)) fun _ => ?_
      · exact Keeps.bind (Keeps.ensure _ _) fun _ => Keeps.exec fun _ => rfl
      · refine grows_bind (grows_hooks mail msgId now) fun _ => ?_
        exact grows_of_keeps now (Keeps.pure _)

theorem grows_receive (mail : Incoming) (now : Int) :
    Respects (Grows now) (Reception.receive mail now) := by
  refine grows_bind (grows_storeMessage mail now) fun stored => ?_
  cases stored with
  | none => exact grows_of_keeps now (Keeps.pure none)
  | some target =>
    refine grows_of_keeps now (Keeps.bind (Keeps.exec fun _ => rfl) fun _ => ?_)
    refine Keeps.bind (Keeps.bestEffort ?_) fun _ => Keeps.pure _
    exact (keeps_adopt mail).coarser trashView

end

/-! ## What the actions on reserved labels write -/

def trashed (trashId : LabelId) (msgs : List MsgId) (reason : Reason) (now : Int)
    (items : List LabelSyncItem) (db : Db) : Db :=
  { db with
    msgLabels := setRows msgs trashId true db.msgLabels
    syncItems := items
    trashedMsgs := addDeadlines msgs now (deadline now db) reason db.trashedMsgs }

def released (unverifiedId : LabelId) (msgs : List MsgId) (items : List LabelSyncItem)
    (db : Db) : Db :=
  { db with
    msgLabels := setRows msgs unverifiedId false db.msgLabels
    syncItems := items
    heldMsgs := deleteWhere (fun held => msgs.contains held.msgId) db.heldMsgs }

section

variable [Unicode] {ids : Text → LabelId} {db : Db}

omit [Unicode] in
theorem labelView_trashed (trashId : LabelId) (msgs : List MsgId) (reason : Reason) (now : Int)
    (items : List LabelSyncItem) : labelView (trashed trashId msgs reason now items db) =
      labelView db := rfl

theorem toTrash_run (ok : LabelsOk ids db) (msgs : List MsgId) (reason : Reason) (now : Int) :
    ∃ items, (toTrash msgs reason now).run db =
      .ok () (trashed (ids trashName) msgs reason now items db) := by
  unfold toTrash
  split
  next none =>
    rw [List.isEmpty_iff.mp none]
    exact ⟨db.syncItems, rfl⟩
  next =>
    obtain ⟨label, _, _, _, ident, read⟩ := ok.reserved_run trashName_reserved
    obtain ⟨items, written⟩ := setExt_eq msgs label true (syncFor reason) db
    refine ⟨items, ?_⟩
    rw [EStateM.run_bind, read]
    simp only
    rw [EStateM.run_bind, exec_run, written, ident]
    rfl

theorem unhold_run (ok : LabelsOk ids db) (msgs : List MsgId) :
    ∃ items, (unhold msgs).run db =
      .ok msgs.length (released (ids unverifiedName) msgs items db) := by
  unfold unhold
  split
  next none =>
    rw [List.isEmpty_iff.mp none]
    refine ⟨db.syncItems, ?_⟩
    simp [released, deleteWhere, setRows]
  next =>
    obtain ⟨label, _, _, _, ident, read⟩ := ok.reserved_run unverifiedName_reserved
    obtain ⟨items, written⟩ := setExt_eq msgs label false .nosync db
    refine ⟨items, ?_⟩
    rw [EStateM.run_bind, read]
    simp only
    rw [EStateM.run_bind, exec_run, written, ident]
    rfl

theorem stateAfter_sweep (ok : LabelsOk ids db) (now : Int) :
    ∃ items moreItems, stateAfter (sweep now) db =
      if decide (holdDays db ≤ 0) || (elapsed now db).isEmpty then pruneHeld db
      else released (ids unverifiedName) (elapsed now db) moreItems
        (trashed (ids trashName) (elapsed now db) .unaccepted now items db) := by
  obtain ⟨items, swept⟩ := toTrash_run ok (elapsed now db) .unaccepted now
  have stillOk := ok.of_labelView (labelView_trashed (ids trashName) (elapsed now db)
    .unaccepted now items)
  obtain ⟨moreItems, letOut⟩ := unhold_run stillOk (elapsed now db)
  refine ⟨items, moreItems, ?_⟩
  unfold Gating.sweep
  rw [stateAfter_query_bind, stateAfter_query_bind]
  split
  · rw [stateAfter_exec_bind, stateAfter_pure]
  · rw [stateAfter_bind_of_ok swept, stateAfter_of_ok letOut]

end

/-! ## Changing labels -/

def besidesLabels (db : Db) : Db := { db with labels := [], nextLabelId := 0, syncItems := [] }

def outsideLabels (db : Db) : Db :=
  { besidesLabels db with msgLabels := [], pendingMsgLabels := [] }

def outsideTags (db : Db) : Db :=
  { db with labels := [], nextLabelId := 0, msgLabels := [], pendingMsgLabels := [] }

def deadlineView (db : Db) : List TrashedMsg × Int := (db.trashedMsgs, db.config.trashPurgeDays)

section

variable [Unicode]

omit [Unicode] in
theorem keeps_announce (mode : Sync) (item : LabelSyncItem) :
    Keeps besidesLabels (exec (announce mode item) : DbAction Unit) := by
  intro db
  obtain ⟨items, announced⟩ := announce_eq mode item db
  rw [stateAfter_exec, announced]
  rfl

theorem keeps_createExt_of {τ : Type} {view : Db → τ} {mode : Sync}
    (blind : ∀ db labels next, view { db with labels, nextLabelId := next } = view db)
    (quiet : ∀ item db, view (announce mode item db) = view db) (name : Text) (color : Option Nat)
    (now : Int) : Keeps view (createExt name color mode now) := by
  intro db
  rw [stateAfter_createExt]
  split
  · rfl
  · rw [quiet, insertLabel]
    split
    · rfl
    · exact blind db _ _

theorem keeps_createExt (name : Text) (color : Option Nat) (mode : Sync) (now : Int) :
    Keeps besidesLabels (createExt name color mode now) :=
  keeps_createExt_of (fun _ _ _ => rfl) (keeps_announce mode) name color now

theorem keeps_renameExt (label : Label) (newName : Text) (mode : Sync) :
    Keeps besidesLabels (renameExt label newName mode) := by
  intro db
  rw [stateAfter_renameExt]
  split
  · exact keeps_announce mode _ _
  · rfl

omit [Unicode] in
theorem keeps_setColorExt (label : Label) (color : Option Nat) (mode : Sync) :
    Keeps besidesLabels (exec (setColorExt label color mode) : DbAction Unit) := by
  intro db
  exact keeps_announce mode (.setColor label.name color) (recoloured label color db)

omit [Unicode] in
theorem keeps_deleteExt (label : Label) (mode : Sync) :
    Keeps outsideLabels (deleteExt label mode) := by
  refine Keeps.bind (Keeps.ensure _ _) fun _ => ?_
  exact Keeps.bind (Keeps.exec fun _ => rfl) fun _ => (keeps_announce _ _).coarser outsideLabels

theorem keeps_labelForSync {τ : Type} {view : Db → τ}
    (blind : ∀ db labels next, view { db with labels, nextLabelId := next } = view db) (name : Text)
    (color : Option Nat) (now : Int) : Keeps view (labelForSync name color now) := by
  refine Keeps.bind (Keeps.query _) fun found => ?_
  cases found with
  | some label => exact Keeps.pure label
  | none => exact keeps_createExt_of blind (fun _ _ => rfl) name color now

theorem keeps_syncSet (mids : List Text) (labelName : Text) (apply : Bool)
    (timestamp now : Int) : Keeps outsideTags (syncSet mids labelName apply timestamp now) := by
  refine Keeps.bind (keeps_labelForSync (fun _ _ _ => rfl) labelName none now) fun label => ?_
  refine Keeps.bind (Keeps.query _) fun resolved => Keeps.bind (Keeps.query _) fun pending => ?_
  refine Keeps.bind (Keeps.exec fun db => ?_) fun _ => Keeps.exec fun _ => rfl
  rw [setExt_nosync]
  rfl

theorem keeps_executeSyncItem (item : LabelSyncItem) (timestamp now : Int) :
    Keeps outsideTags (executeSyncItem item timestamp now) := by
  have create : ∀ name color, Keeps outsideTags (createExt name color .nosync now) :=
    fun name color => keeps_createExt_of (fun _ _ _ => rfl) (fun _ _ => rfl) name color now
  cases item with
  | create name color => exact Keeps.bind (create name color) fun _ => Keeps.pure _
  | rename source target =>
    refine Keeps.bind (Keeps.query _) fun found => ?_
    cases found with
    | none => exact Keeps.bind (create target none) fun _ => Keeps.pure _
    | some label =>
      intro db
      rw [stateAfter_renameExt]
      split <;> rfl
  | delete name =>
    refine Keeps.bind (Keeps.query _) fun found => ?_
    cases found with
    | none => exact Keeps.pure _
    | some label =>
      intro db
      rw [stateAfter_deleteExt]
      split <;> rfl
  | setColor name color =>
    exact Keeps.bind (keeps_labelForSync (fun _ _ _ => rfl) name color now) fun _ =>
      Keeps.exec fun _ => rfl
  | apply msgs label => exact keeps_syncSet msgs label true timestamp now
  | unapply msgs label => exact keeps_syncSet msgs label false timestamp now

end

end Eeemail.Frames
