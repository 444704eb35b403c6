import Eeemail.TrashSafety

/-! # The hold and the Unverified view

A held message has a row in `held_msgs`, which the sweep reads, and the
`Unverified` label, which the user sees.  The gate writes both; the generic
calls on labels, and their replay from another device, write the label alone.
In runs in which those leave the label of every message as the gate has it, the
two tables agree on every message that is there. -/

set_option autoImplicit false

namespace Eeemail.HoldAgreement

open Lib.Texts Lib.Actions Lib.Tables Lib.Runs Store Labels ReservedLabels Contacts Trash Gating
open Housekeeping Reception Frames Mailbox

def Shown (unverified : LabelId) (db : Db) (msgId : MsgId) : Prop :=
  { msgId, labelId := unverified } ∈ db.msgLabels

def IsHeld (db : Db) (msgId : MsgId) : Prop := ∃ row ∈ db.heldMsgs, row.msgId = msgId

/-- Whatever is not a tombstone carries the label exactly when it is held. -/
def Agrees (unverified : LabelId) (db : Db) : Prop :=
  ∀ msg ∈ db.msgs, msg.isLive = true → (Shown unverified db msg.id ↔ IsHeld db msg.id)

instance (unverified : LabelId) (db : Db) (msgId : MsgId) : Decidable (Shown unverified db msgId) :=
  inferInstanceAs (Decidable (_ ∈ db.msgLabels))

instance (db : Db) (msgId : MsgId) : Decidable (IsHeld db msgId) :=
  inferInstanceAs (Decidable (∃ row ∈ db.heldMsgs, _))

instance (unverified : LabelId) (db : Db) : Decidable (Agrees unverified db) :=
  inferInstanceAs (Decidable (∀ msg ∈ db.msgs, _))

/-- The tables agree, ids to come are not used yet, and no label is waiting to be
put on a message to come. -/
structure Settled (unverified : LabelId) (db : Db) : Prop where
  agrees : Agrees unverified db
  msgs : ∀ msg ∈ db.msgs, msg.id < db.nextMsgId
  shown : ∀ msgId, Shown unverified db msgId → msgId < db.nextMsgId
  held : ∀ msgId, IsHeld db msgId → msgId < db.nextMsgId
  parked : ∀ row ∈ db.pendingMsgLabels, row.labelId = unverified → row.apply = false

/-- Messages may have gone; those that stay keep their label and their row. -/
structure Undisturbed (unverified : LabelId) (before after : Db) : Prop where
  next : after.nextMsgId = before.nextMsgId
  msgs : ∀ msg ∈ after.msgs, ∃ old ∈ before.msgs, old.id = msg.id ∧
    (msg.isLive = true → old.isLive = true)
  shown : ∀ msgId, Shown unverified after msgId → Shown unverified before msgId
  held : ∀ msgId, IsHeld after msgId → IsHeld before msgId
  staysShown : ∀ msg ∈ after.msgs, msg.isLive = true →
    Shown unverified before msg.id → Shown unverified after msg.id
  staysHeld : ∀ msg ∈ after.msgs, msg.isLive = true → IsHeld before msg.id → IsHeld after msg.id
  parked : ∀ row ∈ after.pendingMsgLabels, row.labelId = unverified →
    row ∈ before.pendingMsgLabels

variable {apply : Bool} {msgs : List MsgId} {label : Label} {msgId : MsgId}

section Writes

variable {unverified : LabelId} {db db' : Db}

theorem Settled.undisturbed (settled : Settled unverified db)
    (undisturbed : Undisturbed unverified db db') : Settled unverified db' := by
  constructor
  · intro msg member isLive
    obtain ⟨old, oldMember, same, wasLive⟩ := undisturbed.msgs msg member
    have agreed := settled.agrees old oldMember (wasLive isLive)
    rw [same] at agreed
    constructor
    · intro shown
      exact undisturbed.staysHeld msg member isLive (agreed.mp (undisturbed.shown _ shown))
    · intro held
      exact undisturbed.staysShown msg member isLive (agreed.mpr (undisturbed.held _ held))
  · intro msg member
    obtain ⟨old, oldMember, same, _⟩ := undisturbed.msgs msg member
    rw [undisturbed.next, ← same]
    exact settled.msgs old oldMember
  · intro msgId shown
    rw [undisturbed.next]
    exact settled.shown msgId (undisturbed.shown msgId shown)
  · intro msgId held
    rw [undisturbed.next]
    exact settled.held msgId (undisturbed.held msgId held)
  · intro row member isUnverified
    exact settled.parked row (undisturbed.parked row member isUnverified) isUnverified

def tablesView (db : Db) :
    List MsgLabel × List HeldMsg × List PendingMsgLabel × MsgId :=
  (db.msgLabels, db.heldMsgs, db.pendingMsgLabels, db.nextMsgId)

theorem Undisturbed.of_tables (same : tablesView db' = tablesView db)
    (msgs : ∀ msg ∈ db'.msgs, ∃ old ∈ db.msgs, old.id = msg.id ∧
      (msg.isLive = true → old.isLive = true)) : Undisturbed unverified db db' := by
  simp only [tablesView, Prod.mk.injEq] at same
  obtain ⟨labels, held, pending, next⟩ := same
  refine ⟨next, msgs, ?_, ?_, ?_, ?_, ?_⟩
  · intro msgId shown
    unfold Shown at *
    exact labels ▸ shown
  · intro msgId isHeld
    unfold IsHeld at *
    exact held ▸ isHeld
  · intro msg _ _ shown
    unfold Shown at *
    exact labels.symm ▸ shown
  · intro msg _ _ isHeld
    unfold IsHeld at *
    exact held.symm ▸ isHeld
  · intro row member _
    exact pending ▸ member

theorem Undisturbed.of_msgs_eq (same : tablesView db' = tablesView db)
    (msgs : db'.msgs = db.msgs) : Undisturbed unverified db db' :=
  .of_tables same fun msg member => ⟨msg, msgs ▸ member, rfl, id⟩

theorem Undisturbed.updateMsgs (unverified : LabelId) (db : Db) {p : Message → Bool}
    {f : Message → Message} (keepsId : ∀ msg, (f msg).id = msg.id)
    (keepsDead : ∀ msg, (f msg).isLive = true → msg.isLive = true) :
    Undisturbed unverified db { db with msgs := updateWhere p f db.msgs } := by
  refine .of_tables rfl ?_
  intro msg member
  obtain ⟨old, oldMember, rfl⟩ := mem_updateWhere.mp member
  refine ⟨old, oldMember, ?_, ?_⟩
  · split
    · exact (keepsId old).symm
    · rfl
  · split
    · exact keepsDead old
    · exact id

theorem Undisturbed.trashRows (unverified : LabelId) (msgs : List MsgId) (onServer : Bool)
    (db : Db) : Undisturbed unverified db (trashRows msgs onServer db) := by
  apply Undisturbed.updateMsgs
  · exact fun _ => rfl
  · intro msg isLive
    simp [tombstone, Message.isLive] at isLive

theorem Undisturbed.clearTimers (unverified : LabelId) (msgs : List MsgId) (db : Db) :
    Undisturbed unverified db (clearTimers msgs db) := by
  apply Undisturbed.updateMsgs
  · exact fun _ => rfl
  · exact fun _ isLive => isLive

theorem Undisturbed.trans {db'' : Db} (first : Undisturbed unverified db db')
    (second : Undisturbed unverified db' db'') : Undisturbed unverified db db'' := by
  have back : ∀ msg ∈ db''.msgs, msg.isLive = true →
      ∃ old ∈ db'.msgs, old.id = msg.id ∧ old.isLive = true := by
    intro msg member isLive
    obtain ⟨old, oldMember, same, wasLive⟩ := second.msgs msg member
    exact ⟨old, oldMember, same, wasLive isLive⟩
  refine ⟨second.next.trans first.next, ?_, ?_, ?_, ?_, ?_, ?_⟩
  · intro msg member
    obtain ⟨middle, middleMember, sameMiddle, wasLive⟩ := second.msgs msg member
    obtain ⟨old, oldMember, same, wasLiver⟩ := first.msgs middle middleMember
    exact ⟨old, oldMember, same.trans sameMiddle, fun isLive => wasLiver (wasLive isLive)⟩
  · exact fun msgId shown => first.shown msgId (second.shown msgId shown)
  · exact fun msgId held => first.held msgId (second.held msgId held)
  · intro msg member isLive shown
    obtain ⟨old, oldMember, same, wasLive⟩ := back msg member isLive
    rw [← same] at shown
    exact second.staysShown msg member isLive (same ▸ first.staysShown old oldMember wasLive shown)
  · intro msg member isLive held
    obtain ⟨old, oldMember, same, wasLive⟩ := back msg member isLive
    rw [← same] at held
    exact second.staysHeld msg member isLive (same ▸ first.staysHeld old oldMember wasLive held)
  · intro row member isUnverified
    exact first.parked row (second.parked row member isUnverified) isUnverified

/-! ## Writes of labels -/

/-- A label other than `Unverified` goes anywhere; `Unverified` is put on what is
held or taken off what is not. -/
def Spared (unverified labelId : LabelId) (apply : Bool) (msgs : List MsgId) (db : Db) : Prop :=
  labelId = unverified → ∀ msgId ∈ msgs, (IsHeld db msgId ↔ apply = true)

theorem Settled.setRows (settled : Settled unverified db) {labelId : LabelId}
    (spared : Spared unverified labelId apply msgs db)
    (items : List LabelSyncItem) :
    Settled unverified
      { db with msgLabels := setRows msgs labelId apply db.msgLabels, syncItems := items } := by
  have shownIff : ∀ msgId,
      { msgId, labelId := unverified } ∈ Labels.setRows msgs labelId apply db.msgLabels ↔
      (Shown unverified db msgId ∧ ¬(unverified = labelId ∧ msgId ∈ msgs)) ∨
        (apply = true ∧ (Shown unverified db msgId ∨ (unverified = labelId ∧ msgId ∈ msgs))) := by
    intro msgId
    cases apply with
    | true =>
      rw [mem_setRows_true]
      unfold Shown
      tauto
    | false =>
      rw [mem_setRows_false]
      unfold Shown
      simp
  constructor
  · intro msg member isLive
    have agreed := settled.agrees msg member isLive
    change _ ∈ Labels.setRows msgs labelId apply db.msgLabels ↔ IsHeld db msg.id
    rw [shownIff, agreed]
    by_cases touched : unverified = labelId ∧ msg.id ∈ msgs
    · have is := spared touched.1.symm msg.id touched.2
      tauto
    · tauto
  · exact settled.msgs
  · intro msgId shown
    rcases (shownIff msgId).mp shown with ⟨was, _⟩ | ⟨isApply, was | touched⟩
    · exact settled.shown msgId was
    · exact settled.shown msgId was
    · exact settled.held msgId ((spared touched.1.symm msgId touched.2).mpr isApply)
  · exact settled.held
  · exact settled.parked

theorem Settled.setExt (settled : Settled unverified db)
    (spared : Spared unverified label.id apply msgs db) (mode : Sync) :
    Settled unverified (setExt msgs label apply mode db) := by
  obtain ⟨items, written⟩ := setExt_eq msgs label apply mode db
  rw [written]
  exact settled.setRows spared items

theorem Settled.released (settled : Settled unverified db) (msgs : List MsgId)
    (items : List LabelSyncItem) : Settled unverified (released unverified msgs items db) := by
  have shownIff : ∀ msgId, Shown unverified (Frames.released unverified msgs items db) msgId ↔
      Shown unverified db msgId ∧ msgId ∉ msgs := by
    intro msgId
    exact mem_setRows_false.trans (by simp [Shown])
  have heldIff : ∀ msgId, IsHeld (Frames.released unverified msgs items db) msgId ↔
      IsHeld db msgId ∧ msgId ∉ msgs := by
    intro msgId
    simp only [IsHeld, Frames.released, mem_deleteWhere]
    constructor
    · rintro ⟨row, ⟨member, kept⟩, rfl⟩
      exact ⟨⟨row, member, rfl⟩, by simpa using kept⟩
    · rintro ⟨⟨row, member, rfl⟩, kept⟩
      exact ⟨row, ⟨member, by simpa using kept⟩, rfl⟩
  constructor
  · intro msg member isLive
    rw [shownIff, heldIff, settled.agrees msg member isLive]
  · exact settled.msgs
  · exact fun msgId shown => settled.shown msgId ((shownIff msgId).mp shown).1
  · exact fun msgId held => settled.held msgId ((heldIff msgId).mp held).1
  · exact settled.parked

def heldUp (unverified : LabelId) (msgId : MsgId) (now : Int) (items : List LabelSyncItem)
    (db : Db) : Db :=
  { db with
    msgLabels := setRows [msgId] unverified true db.msgLabels
    syncItems := items
    heldMsgs := insertOrIgnore (·.msgId) { msgId, heldAt := now } db.heldMsgs }

section

variable (settled : Settled unverified db)

include settled

theorem Settled.heldUp (known : msgId < db.nextMsgId) (now : Int) (items : List LabelSyncItem) :
    Settled unverified (heldUp unverified msgId now items db) := by
  have shownIff : ∀ other, Shown unverified
    (HoldAgreement.heldUp unverified msgId now items db) other ↔
      Shown unverified db other ∨ other = msgId := by
    intro other
    exact mem_setRows_true.trans (by simp [Shown])
  have heldIff : ∀ other, IsHeld (HoldAgreement.heldUp unverified msgId now items db) other ↔
      IsHeld db other ∨ other = msgId := by
    intro other
    simp only [IsHeld, HoldAgreement.heldUp, mem_insertOrIgnore]
    constructor
    · rintro ⟨row, member | ⟨rfl, _⟩, rfl⟩
      · exact Or.inl ⟨row, member, rfl⟩
      · exact Or.inr rfl
    · rintro (⟨row, member, rfl⟩ | rfl)
      · exact ⟨row, Or.inl member, rfl⟩
      · by_cases already : ∃ row ∈ db.heldMsgs, row.msgId = other
        · obtain ⟨row, member, same⟩ := already
          exact ⟨row, Or.inl member, same⟩
        · refine ⟨{ msgId := other, heldAt := now }, Or.inr ⟨rfl, ?_⟩, rfl⟩
          intro old member same
          exact already ⟨old, member, same⟩
  constructor
  · intro msg member isLive
    rw [shownIff, heldIff, settled.agrees msg member isLive]
  · exact settled.msgs
  · intro other shown
    rcases (shownIff other).mp shown with was | rfl
    · exact settled.shown other was
    · exact known
  · intro other held
    rcases (heldIff other).mp held with was | rfl
    · exact settled.held other was
    · exact known
  · exact settled.parked

theorem Settled.foldRows (notHeld : ¬IsHeld db msgId) (pending : List PendingMsgLabel)
    (parked : ∀ row ∈ pending, row.labelId = unverified → row.apply = false) :
    Settled unverified
      { db with
        msgLabels := pending.foldl
          (fun rows row => Labels.setRows [msgId] row.labelId row.apply rows) db.msgLabels } := by
  induction pending generalizing db with
  | nil => exact settled
  | cons row rest ih =>
    have spared : Spared unverified row.labelId row.apply [msgId] db := by
      intro isUnverified other isMsg
      rw [List.mem_singleton.mp isMsg, parked row List.mem_cons_self isUnverified]
      simp [notHeld]
    have next := settled.setRows spared db.syncItems
    exact ih next notHeld fun other member => parked other (List.mem_cons_of_mem row member)

theorem Settled.drainPending
    (notHeld : ¬IsHeld db msgId) : Settled unverified (drainPending msgId db) := by
  unfold Labels.drainPending
  split
  · exact settled
  · split
    · exact settled
    · rename_i msg _ _
      have folded := settled.foldRows notHeld
        (db.pendingMsgLabels.filter fun row => row.rfc724Mid == msg.rfc724Mid)
        fun row member => settled.parked row (List.mem_filter.mp member).1
      refine ⟨folded.agrees, folded.msgs, folded.shown, folded.held, ?_⟩
      intro row member
      exact settled.parked row (mem_deleteWhere.mp member).1

theorem Settled.park {labelId : LabelId} (timestamp : Int) (mids : List Text)
    (harmless : labelId = unverified → apply = true → mids = []) :
    Settled unverified
      { db with
        pendingMsgLabels := mids.foldl
          (fun rows mid => parkRow mid labelId apply timestamp rows) db.pendingMsgLabels } := by
  refine ⟨settled.agrees, settled.msgs, settled.shown, settled.held, ?_⟩
  have parked := settled.parked
  generalize db.pendingMsgLabels = rows at parked
  change ∀ row ∈ mids.foldl (fun rows mid => parkRow mid labelId apply timestamp rows) rows, _
  induction mids generalizing rows with
  | nil => exact parked
  | cons mid rest ih =>
    have notApplied : labelId = unverified → apply = false := by
      intro isUnverified
      cases apply with
      | false => rfl
      | true => exact absurd (harmless isUnverified rfl) (by simp)
    refine ih (fun isUnverified isApply => ?_) _ ?_
    · rw [notApplied isUnverified] at isApply
      cases isApply
    · intro row member isUnverified
      rcases mem_parkRow member with old | ⟨same, applied⟩
      · exact parked row old isUnverified
      · rw [applied]
        exact notApplied (same ▸ isUnverified)

end

end Writes

/-! ## The operations -/

section Operations

variable [Unicode] {ids : Text → LabelId} {db : Db}

structure Sound (ids : Text → LabelId) (db : Db) : Prop where
  labels : LabelsOk ids db
  settled : Settled (ids unverifiedName) db

def holdView (db : Db) := (labelView db, tablesView db, db.msgs)

theorem Sound.of_holdView (db db' : Db) (same : holdView db' = holdView db) (sound : Sound ids db) :
    Sound ids db' := by
  simp only [holdView, Prod.mk.injEq] at same
  obtain ⟨labels, tables, msgs⟩ := same
  exact ⟨sound.labels.of_labelView labels, sound.settled.undisturbed (.of_msgs_eq tables msgs)⟩

theorem sound_of_keeps {α : Type} {x : DbAction α} (keeps : Keeps holdView x) :
    Preserves (Sound ids) x := Preserves.of_keeps Sound.of_holdView keeps

theorem Sound.of_view {db' : Db} (sound : Sound ids db) (same : holdView db' = holdView db) :
    Sound ids db' := Sound.of_holdView db db' same sound

theorem Sound.written {db' : Db} (sound : Sound ids db) (labels : labelView db' = labelView db)
    (settled : Settled (ids unverifiedName) db') : Sound ids db' :=
  ⟨sound.labels.of_labelView labels, settled⟩

theorem Sound.undisturbed {db' : Db} (sound : Sound ids db) (labels : labelView db' = labelView db)
    (undisturbed : Undisturbed (ids unverifiedName) db db') : Sound ids db' :=
  ⟨sound.labels.of_labelView labels, sound.settled.undisturbed undisturbed⟩

theorem sound_unhold (msgs : List MsgId) : Preserves (Sound ids) (unhold msgs) := by
  intro db sound
  obtain ⟨items, done⟩ := unhold_run sound.labels msgs
  rw [stateAfter_of_ok done]
  exact sound.written rfl (sound.settled.released msgs items)

theorem sound_release (contacts : List ContactId) : Preserves (Sound ids) (release contacts) :=
  preserves_release sound_unhold contacts

theorem sound_releaseAll : Preserves (Sound ids) releaseAll :=
  Preserves.bind (Preserves.query _) sound_unhold

theorem sound_setEnabled (enabled : Bool) : Preserves (Sound ids) (setEnabled enabled) := by
  refine Preserves.bind (sound_of_keeps (Keeps.exec fun _ => rfl)) fun _ => ?_
  refine Preserves.ite (Preserves.pure _) ?_
  exact Preserves.bind sound_releaseAll fun _ => Preserves.pure _

theorem sound_toTrash (msgs : List MsgId) (reason : Reason) (now : Int) :
    Preserves (Sound ids) (toTrash msgs reason now) := by
  intro db sound
  obtain ⟨items, done⟩ := toTrash_run sound.labels msgs reason now
  rw [stateAfter_of_ok done]
  refine sound.written rfl ?_
  have other : ids trashName ≠ ids unverifiedName :=
    sound.labels.ids_ne trashName_reserved unverifiedName_reserved (by decide)
  have spared : Spared (ids unverifiedName) (ids trashName) true msgs db :=
    fun same => absurd same other
  exact (sound.settled.setRows spared items).undisturbed (.of_msgs_eq rfl rfl)

theorem sound_setReserved {name : Text} (isReserved : name ∈ reservedNames)
    (other : name ≠ unverifiedName) (msgs : List MsgId) (apply : Bool) (mode : Sync) :
    Preserves (Sound ids) (do
      let label ← reserved name
      exec (setExt msgs label apply mode)) := by
  intro db sound
  obtain ⟨label, _, _, _, ident, read⟩ := sound.labels.reserved_run isReserved
  rw [stateAfter_bind_of_ok read, stateAfter_exec]
  have spared : Spared (ids unverifiedName) label.id apply msgs db := fun same =>
    absurd (ident.symm.trans same) (sound.labels.ids_ne isReserved unverifiedName_reserved other)
  refine ⟨?_, sound.settled.setExt spared mode⟩
  exact sound.labels.of_labelView (ReservedLabels.keeps_setExt msgs label apply mode db)

theorem sound_restore (msgs : List MsgId) : Preserves (Sound ids) (restore msgs) := by
  refine Preserves.ite (Preserves.pure _) ?_
  have unlabel : Preserves (Sound ids) (do
      let label ← reserved trashName
      exec (setExt msgs label false .sync)) :=
    sound_setReserved trashName_reserved (by decide) msgs false .sync
  have rest : Preserves (Sound ids) (do
      exec fun db => { db with trashedMsgs := dropDeadlines msgs db.trashedMsgs }
      exec (clearTimers msgs) : DbAction Unit) := by
    refine Preserves.bind (sound_of_keeps (Keeps.exec fun _ => rfl)) fun _ => ?_
    exact Preserves.exec fun db sound => sound.undisturbed rfl (.clearTimers _ msgs db)
  have whole := Preserves.bind unlabel fun _ => rest
  rw [bind_assoc] at whole
  exact whole

theorem sound_destroying {α : Type} (now : Int) {destroying : DbAction α}
    (sound : Preserves (Sound ids) destroying) :
    Preserves (Sound ids) (reconcile now >>= fun _ => destroying) :=
  Preserves.bind (Preserves.bind (sound_of_keeps (Keeps.queryExcept _)) fun _ =>
    sound_of_keeps (Keeps.exec fun _ => rfl)) fun _ => sound

theorem Sound.destroy (sound : Sound ids db) (msgs : List MsgId) : Sound ids (destroy msgs db).2 :=
  sound.undisturbed rfl ((Undisturbed.trashRows _ msgs true db).trans (.of_msgs_eq rfl rfl))

theorem sound_purge (now : Int) : Preserves (Sound ids) (purge now) := by
  refine sound_destroying now (Preserves.execReturning fun db sound => ?_)
  split
  · exact sound.of_view rfl
  · exact sound.destroy _

theorem sound_destroyNow (msgs : List MsgId) (now : Int) :
    Preserves (Sound ids) (destroyNow msgs now) :=
  Preserves.ite (Preserves.pure _)
    (sound_destroying now (Preserves.execReturning fun _ sound => sound.destroy _))

theorem sound_empty (now : Int) : Preserves (Sound ids) (empty now) := by
  refine sound_destroying now (Preserves.bind ?_ fun found => ?_)
  · exact Preserves.bind (sound_of_keeps (Keeps.queryExcept _)) fun _ => Preserves.query _
  · exact Preserves.execReturning fun _ sound => sound.destroy found

theorem sound_divert (now : Int) : Preserves (Sound ids) (divert now) := by
  refine Preserves.bind (Preserves.query _) fun days => Preserves.ite (Preserves.pure _) ?_
  refine Preserves.bind (Preserves.query _) fun fired => Preserves.ite (Preserves.pure _) ?_
  refine Preserves.bind (sound_toTrash fired .expired now) fun _ => ?_
  refine Preserves.bind (Preserves.exec fun db sound => ?_) fun _ => Preserves.pure _
  exact sound.undisturbed rfl (.clearTimers _ fired db)

theorem sound_deleteExpiredMessages (now : Int) :
    Preserves (Sound ids) (deleteExpiredMessages now) := by
  refine Preserves.bind (Preserves.bestEffort (sound_divert now)) fun _ => ?_
  exact Preserves.exec fun db sound => sound.undisturbed rfl (.trashRows _ _ false db)

omit [Unicode] in
theorem Undisturbed.pruneHeld (unverified : LabelId) (db : Db) :
    Undisturbed unverified db (pruneHeld db) := by
  refine ⟨rfl, fun msg member => ⟨msg, member, rfl, id⟩, fun _ shown => shown, ?_,
    fun _ _ _ shown => shown, ?_, fun _ member _ => member⟩
  · rintro msgId ⟨row, member, same⟩
    exact ⟨row, (List.mem_filter.mp member).1, same⟩
  · rintro msg member isLive ⟨row, rowMember, same⟩
    refine ⟨row, List.mem_filter.mpr ⟨rowMember, ?_⟩, same⟩
    exact List.any_eq_true.mpr ⟨msg, member, by simp [same, isLive]⟩

omit [Unicode] in
theorem Undisturbed.prune (unverified : LabelId) (now : Int) (db : Db) :
    Undisturbed unverified db (Labels.prune now db) := by
  refine ⟨rfl, fun msg member => ⟨msg, member, rfl, id⟩, ?_, fun _ held => held, ?_,
    fun _ _ _ held => held, ?_⟩
  · intro msgId shown
    exact (List.mem_filter.mp shown).1
  · intro msg member isLive shown
    refine List.mem_filter.mpr ⟨shown, ?_⟩
    exact List.any_eq_true.mpr ⟨msg, member, by simp [isLive]⟩
  · intro row member _
    exact (mem_deleteWhere.mp member).1

theorem sound_sweep (now : Int) : Preserves (Sound ids) (sweep now) := by
  refine Preserves.bind (Preserves.query _) fun days => ?_
  refine Preserves.bind (Preserves.query _) fun swept => Preserves.ite ?_ ?_
  · refine Preserves.bind (Preserves.exec fun db sound => ?_) fun _ => Preserves.pure _
    exact sound.undisturbed rfl (.pruneHeld _ db)
  · exact Preserves.bind (sound_toTrash swept .unaccepted now) fun _ => sound_unhold swept

theorem Sound.tidy (sound : Sound ids db) (now : Int) : Sound ids (Mailbox.tidy now db) := by
  have pruned : Sound ids (Labels.prune now (pruneRecipients db)) :=
    (sound.of_holdView db (pruneRecipients db) rfl).undisturbed rfl (.prune _ now _)
  exact pruned.of_view rfl

theorem Sound.finish (sound : Sound ids db) (listed : List Text) (now : Int) :
    Sound ids (Mailbox.finish listed now db) := by
  have started : Sound ids (startEphemeralTimers now (pruneStructured db)) := by
    refine (sound.of_holdView db (pruneStructured db) rfl).undisturbed rfl ?_
    apply Undisturbed.updateMsgs
    · exact fun _ => rfl
    · exact fun _ isLive => isLive
  refine started.undisturbed rfl (.of_tables rfl ?_)
  intro msg member
  exact ⟨msg, (mem_deleteWhere.mp member).1, rfl, id⟩

omit [Unicode] in
theorem Undisturbed.markseenMsgs (unverified : LabelId) (msgs : List MsgId) (now : Int) (db : Db) :
    Undisturbed unverified db (markseenMsgs msgs now db) := by
  have timers : Undisturbed unverified db (startEphemeralTimersMsgids msgs now db) := by
    apply Undisturbed.updateMsgs
    · exact fun _ => rfl
    · exact fun _ isLive => isLive
  unfold Housekeeping.markseenMsgs
  simp only
  split
  · refine timers.trans ?_
    apply Undisturbed.updateMsgs
    · exact fun _ => rfl
    · exact fun _ isLive => isLive
  · apply Undisturbed.updateMsgs
    · exact fun _ => rfl
    · exact fun _ isLive => isLive

/-! ## Reception -/

theorem blindToPrepare_sound : BlindToPrepare (Sound ids) := by
  refine ⟨?_, sound_release⟩
  intro db db' same sound
  have view : holdView (besidesPrepare db') = holdView (besidesPrepare db) := congrArg holdView same
  exact sound.of_holdView db db' view

theorem sound_gate (msgId : MsgId) (now : Int) :
    Preserves (Sound ids) (Gating.apply msgId now) := by
  intro db sound
  unfold Gating.apply
  rw [stateAfter_query_bind]
  split
  next held =>
    obtain ⟨label, _, _, _, ident, read⟩ := sound.labels.reserved_run unverifiedName_reserved
    obtain ⟨items, written⟩ := setExt_eq [msgId] label true .nosync db
    rw [stateAfter_bind_of_ok read, stateAfter_exec_bind, stateAfter_exec, written, ident]
    refine sound.written rfl (sound.settled.heldUp ?_ now items)
    simp only [holds, senderOf, Bool.and_eq_true, Option.any_map, Option.any_eq_true] at held
    obtain ⟨_, msg, found, _⟩ := held
    have member := List.mem_of_find?_eq_some found
    have same : msg.id = msgId := by simpa using List.find?_some found
    exact same ▸ sound.settled.msgs msg member
  next => exact sound

theorem sound_applyBlocklist (msgId : MsgId) (now : Int) :
    Preserves (Sound ids) (applyBlocklist msgId now) := by
  refine Preserves.bind (Preserves.query _) fun listed => Preserves.ite ?_ (Preserves.pure _)
  exact Preserves.bind (sound_toTrash [msgId] .blocked now) fun _ => Preserves.pure _

theorem sound_hooks (mail : Incoming) (now : Int) (sound : Sound ids db)
    (notHeld : ¬IsHeld db msgId) : Sound ids (stateAfter (hooks mail msgId now) db) := by
  unfold hooks
  rw [stateAfter_exec_bind, stateAfter_exec_bind]
  have drained : Sound ids (drainPending msgId
      (Recipients.store msgId mail.headerRecipients db)) := by
    have stored := sound.of_holdView db (Recipients.store msgId mail.headerRecipients db) rfl
    refine ⟨?_, stored.settled.drainPending notHeld⟩
    exact stored.labels.of_labelView
      (congrArg Prod.fst (keeps_drainPending msgId
        (Recipients.store msgId mail.headerRecipients db)))
  refine Preserves.bind (Preserves.bestEffort (sound_gate msgId now)) ?_ _ drained
  intro _
  refine Preserves.bind (sound_of_keeps (Keeps.exec fun db => ?_)) fun _ => ?_
  · cases mail.importance <;> rfl
  · exact Preserves.bestEffort (sound_applyBlocklist msgId now)

theorem Sound.insertMsg (sound : Sound ids db) (mail : Incoming) (fromId : ContactId)
    (chatId : ChatId) (now : Int) :
    Sound ids (insertMsg mail fromId chatId now db).2 ∧
      ¬IsHeld (Reception.insertMsg mail fromId chatId now db).2 db.nextMsgId := by
  have unheld : ¬IsHeld db db.nextMsgId := fun held => lt_irrefl _ (sound.settled.held _ held)
  have unshown : ¬Shown (ids unverifiedName) db db.nextMsgId :=
    fun shown => lt_irrefl _ (sound.settled.shown _ shown)
  have isNew : ∀ msg ∈ (Reception.insertMsg mail fromId chatId now db).2.msgs,
      msg ∈ db.msgs ∨ msg.id = db.nextMsgId := by
    intro msg member
    rcases List.mem_append.mp member with old | new
    · exact Or.inl old
    · refine Or.inr ?_
      rw [List.mem_singleton.mp new]
      split <;> rfl
  refine ⟨sound.written rfl ?_, unheld⟩
  constructor
  · intro msg member isLive
    rcases isNew msg member with old | new
    · exact sound.settled.agrees msg old isLive
    · rw [new]
      exact iff_of_false unshown unheld
  · intro msg member
    rcases isNew msg member with old | new
    · exact Nat.lt_succ_of_lt (sound.settled.msgs msg old)
    · rw [new]
      exact Nat.lt_succ_self _
  · exact fun msgId shown => Nat.lt_succ_of_lt (sound.settled.shown msgId shown)
  · exact fun msgId held => Nat.lt_succ_of_lt (sound.settled.held msgId held)
  · exact sound.settled.parked

theorem sound_storeMessage (mail : Incoming) (now : Int) :
    Preserves (Sound ids) (storeMessage mail now) := by
  refine Preserves.bind (Preserves.query _) fun known => Preserves.ite (Preserves.pure _) ?_
  refine Preserves.bind (blindToPrepare_sound.prepare mail) fun prepared => ?_
  cases prepared with
  | none => exact Preserves.pure none
  | some target =>
    obtain ⟨fromId, chatId⟩ := target
    have inserts : Triple (Sound ids)
        (execReturning (insertMsg mail fromId chatId now) : DbAction MsgId)
        (fun msgId db => Sound ids db ∧ ¬IsHeld db msgId) (Sound ids) :=
      fun db sound => sound.insertMsg mail fromId chatId now
    refine Triple.preserves (Triple.bind inserts fun msgId => ?_)
    have sees : Preserves (fun db => Sound ids db ∧ ¬IsHeld db msgId)
        (onlyIf (!isSpecial fromId) (updateLastSeen fromId mail.timestampSent)) := by
      refine Preserves.onlyIf _ (Preserves.bind (Preserves.ensure _ _) fun _ => ?_)
      exact Preserves.exec fun db good => ⟨good.1.of_view rfl, good.2⟩
    have hooked : Triple (fun db => Sound ids db ∧ ¬IsHeld db msgId) (hooks mail msgId now)
        (fun _ => Sound ids) (Sound ids) :=
      triple_iff_stateAfter.mpr fun db good => sound_hooks mail now good.1 good.2
    refine Triple.bind (Triple.strengthen _ _ (fun _ good => good) (fun _ good => good.1)
      (Triple.of_preserves sees)) fun _ => ?_
    exact Triple.bind hooked fun _ => Triple.pure _ fun _ sound => sound

theorem sound_receive (mail : Incoming) (now : Int) :
    Preserves (Sound ids) (Reception.receive mail now) := by
  refine Preserves.bind (sound_storeMessage mail now) fun stored => ?_
  cases stored with
  | none => exact Preserves.pure none
  | some target =>
    refine Preserves.bind (sound_of_keeps (Keeps.exec fun _ => rfl)) fun _ => ?_
    refine Preserves.bind (Preserves.bestEffort ?_) fun _ => Preserves.pure _
    exact blindToPrepare_sound.of_keeps (keeps_adopt mail)

/-! ## Labels of the user -/

theorem Sound.of_besidesLabels {db' : Db} (sound : Sound ids db) (labels : LabelsOk ids db')
    (same : besidesLabels db' = besidesLabels db) : Sound ids db' := by
  have tables : tablesView (besidesLabels db') = tablesView (besidesLabels db) :=
    congrArg tablesView same
  have msgs : (besidesLabels db').msgs = (besidesLabels db).msgs := congrArg Db.msgs same
  exact ⟨labels, sound.settled.undisturbed (.of_msgs_eq tables msgs)⟩

theorem sound_besidesLabels {α : Type} {x : DbAction α} (labels : Preserves (LabelsOk ids) x)
    (keeps : Keeps besidesLabels x) : Preserves (Sound ids) x :=
  fun db sound => sound.of_besidesLabels (labels db sound.labels) (keeps db)

theorem LabelsOk.id_ne_of_not_system (ok : LabelsOk ids db)
    (member : label ∈ db.labels) (notSystem : label.system = false) :
    label.id ≠ ids unverifiedName := by
  intro same
  obtain ⟨reservedLabel, reservedMember, _, system, ident⟩ :=
    ok.reserved unverifiedName unverifiedName_reserved
  have equal := eq_of_key_eq ok.ids_nodup member reservedMember (same.trans ident.symm)
  rw [equal, system] at notSystem
  cases notSystem

theorem Sound.deleteExt (sound : Sound ids db) (member : label ∈ db.labels)
    (mode : Sync) : Sound ids (stateAfter (deleteExt label mode) db) := by
  refine ⟨sound.labels.deleteExt member mode, ?_⟩
  rw [stateAfter_deleteExt]
  split
  next mayDelete =>
    obtain ⟨items, announced⟩ := announce_eq mode (.delete label.name) (dropped label db)
    rw [announced]
    have other := LabelsOk.id_ne_of_not_system sound.labels member (by simpa using mayDelete)
    refine sound.settled.undisturbed ⟨rfl, fun msg isMsg => ⟨msg, isMsg, rfl, id⟩, ?_,
      fun _ held => held, ?_, fun _ _ _ held => held, ?_⟩
    · intro msgId shown
      exact (mem_deleteWhere.mp shown).1
    · intro msg _ _ shown
      exact mem_deleteWhere.mpr ⟨shown, by simpa using other.symm⟩
    · intro row isRow _
      exact (mem_deleteWhere.mp isRow).1
  next => exact sound.settled

theorem LabelsOk.norm_of_id (ok : LabelsOk ids db) {name : Text}
    (member : label ∈ db.labels) (named : label.nameNorm = normalize name)
    (isUnverified : label.id = ids unverifiedName) :
    normalize name = normalize unverifiedName := by
  obtain ⟨reservedLabel, reservedMember, reservedNamed, _, ident⟩ :=
    ok.reserved unverifiedName unverifiedName_reserved
  have equal := eq_of_key_eq ok.ids_nodup member reservedMember (isUnverified.trans ident.symm)
  rw [← named, equal, ok.norms reservedLabel reservedMember, reservedNamed]

/-- A replayed change of the label leaves it as the gate has it: put on messages
that are here and held, or taken off messages that are not held. -/
def SparedSync (mids : List Text) (labelName : Text) (apply : Bool) (db : Db) : Prop :=
  normalize labelName = normalize unverifiedName →
    ∀ mid ∈ mids,
      match rfc724MidExists mid db with
      | some msgId => IsHeld db msgId ↔ apply = true
      | none => apply = false

theorem Sound.syncSet (sound : Sound ids db) {mids : List Text} {labelName : Text}
    (spared : SparedSync mids labelName apply db) (timestamp now : Int) :
    Sound ids (stateAfter (syncSet mids labelName apply timestamp now) db) := by
  refine ⟨TableOk.preserves_syncSet mids labelName apply timestamp now db sound.labels, ?_⟩
  have found := sound_besidesLabels (TableOk.preserves_labelForSync labelName none now)
    (keeps_labelForSync (fun _ _ _ => rfl) labelName none now) db sound
  have kept : besidesLabels _ = besidesLabels db :=
    keeps_labelForSync (fun _ _ _ => rfl) labelName none now db
  unfold Labels.syncSet
  rw [stateAfter_bind]
  cases run : (labelForSync labelName none now).run db with
  | error e db' =>
    rw [stateAfter, run] at found
    exact found.settled
  | ok label db' =>
    rw [stateAfter, run] at found kept
    obtain ⟨member, named⟩ := labelForSync_eq_ok run
    have here : ∀ mid, rfc724MidExists mid (besidesLabels db') =
        rfc724MidExists mid (besidesLabels db) :=
      fun mid => congrArg (rfc724MidExists mid) kept
    have sameHeld : ∀ msgId, IsHeld (besidesLabels db') msgId = IsHeld (besidesLabels db) msgId :=
      fun msgId => congrArg (IsHeld · msgId) kept
    have onSpared : label.id = ids unverifiedName → ∀ mid ∈ mids,
        match rfc724MidExists mid db' with
        | some msgId => IsHeld db' msgId ↔ apply = true
        | none => apply = false := by
      intro isUnverified mid isMid
      have rule := spared (LabelsOk.norm_of_id found.labels member named isUnverified) mid isMid
      have isHere : rfc724MidExists mid db' = rfc724MidExists mid db := here mid
      rw [isHere]
      cases known : rfc724MidExists mid db with
      | none =>
        rw [known] at rule
        exact rule
      | some msgId =>
        rw [known] at rule
        exact (Iff.of_eq (sameHeld msgId)).trans rule
    simp only
    rw [stateAfter_query_bind, stateAfter_query_bind, stateAfter_exec_bind, stateAfter_exec]
    have resolved : Spared (ids unverifiedName) label.id apply
        (mids.filterMap fun mid => rfc724MidExists mid db') db' := by
      intro isUnverified msgId isMsg
      obtain ⟨mid, isMid, isHere⟩ := List.mem_filterMap.mp isMsg
      have rule := onSpared isUnverified mid isMid
      rw [isHere] at rule
      exact rule
    refine (found.settled.setExt resolved .nosync).park timestamp _ ?_
    intro isUnverified isApply
    refine List.filter_eq_nil_iff.mpr fun mid isMid isAway => ?_
    have rule := onSpared isUnverified mid isMid
    rw [Option.isNone_iff_eq_none.mp isAway, isApply] at rule
    cases rule

end Operations

/-! ## Runs -/

/-- What happens to stored mail, and the release of contacts that are trusted by now. -/
inductive Happening where
  | mailbox (event : Event)
  | release (contacts : List ContactId)
  | releaseAll

section Runs

variable [Unicode] {ids : Text → LabelId} {db : Db}

def happen (db : Db) : Happening → Db
  | .mailbox event => step db event
  | .release contacts => stateAfter (Gating.release contacts) db
  | .releaseAll => stateAfter Gating.releaseAll db

/-- The generic calls on labels, and their replay, leave `Unverified` as the gate
has it: on what is held, and only there. -/
def LeavesUnverified (unverified : LabelId) (db : Db) : Happening → Prop
  | .mailbox { op := .applyLabel msgs id, .. } => Spared unverified id true msgs db
  | .mailbox { op := .unapplyLabel msgs id, .. } => Spared unverified id false msgs db
  | .mailbox { op := .syncItem (.apply mids label) _, .. } => SparedSync mids label true db
  | .mailbox { op := .syncItem (.unapply mids label) _, .. } => SparedSync mids label false db
  | _ => True

theorem Sound.load_setExt (sound : Sound ids db) {id : LabelId}
    (spared : Spared (ids unverifiedName) id apply msgs db) :
    Settled (ids unverifiedName) (stateAfter (do
      let label ← load id
      exec (setExt msgs label apply .sync)) db) := by
  refine stateAfter_load_bind sound.settled fun label _ ident => ?_
  exact sound.settled.setExt (ident ▸ spared) .sync

theorem Sound.executeSyncItem (sound : Sound ids db) {now : Int} {item : LabelSyncItem}
    {timestamp : Int}
    (spared : LeavesUnverified (ids unverifiedName) db
      (.mailbox { now, op := .syncItem item timestamp })) :
    Sound ids (stateAfter (executeSyncItem item timestamp now) db) := by
  have labels := TableOk.preserves_executeSyncItem item timestamp now db sound.labels
  cases item with
  | create name color =>
    exact sound.of_besidesLabels labels
      (Keeps.bind (keeps_createExt name color .nosync now) (fun _ => Keeps.pure ()) db)
  | rename source target =>
    refine sound.of_besidesLabels labels (Keeps.bind (Keeps.query _) (fun found => ?_) db)
    cases found with
    | some label => exact keeps_renameExt label target .nosync
    | none => exact Keeps.bind (keeps_createExt target none .nosync now) fun _ => Keeps.pure ()
  | delete name =>
    simp only [Labels.executeSyncItem] at labels ⊢
    rw [stateAfter_query_bind]
    cases found : byName name db with
    | some label => exact sound.deleteExt (byName_eq_some found).1 .nosync
    | none => exact sound
  | setColor name color =>
    refine sound.of_besidesLabels labels ?_
    exact Keeps.bind (keeps_labelForSync (fun _ _ _ => rfl) name color now)
      (fun label => keeps_setColorExt label color .nosync) db
  | apply mids label => exact sound.syncSet spared timestamp now
  | unapply mids label => exact sound.syncSet spared timestamp now

theorem sound_step (event : Event) (sound : Sound ids db)
    (spared : LeavesUnverified (ids unverifiedName) db (.mailbox event)) :
    Sound ids (step db event) := by
  have labels := labelsOk_step sound.labels event
  obtain ⟨now, op⟩ := event
  unfold step at labels ⊢
  cases op with
  | trash msgs => exact sound_toTrash msgs .deleted now db sound
  | restore msgs => exact sound_restore msgs db sound
  | destroyNow msgs =>
    simp only [perform, stateAfter_run]
    exact sound_destroyNow msgs now db sound
  | emptyTrash =>
    simp only [perform, stateAfter_run]
    exact sound_empty now db sound
  | purge =>
    simp only [perform, stateAfter_run]
    exact sound_purge now db sound
  | setPurgeDays days => exact sound.of_view rfl
  | setMessageTimer msgId duration =>
    refine sound.undisturbed rfl ?_
    apply Undisturbed.updateMsgs
    · exact fun _ => rfl
    · exact fun _ isLive => isLive
  | divert =>
    simp only [perform, stateAfter_run]
    exact sound_divert now db sound
  | createLabel name color =>
    simp only [perform, stateAfter_run] at labels ⊢
    exact sound.of_besidesLabels labels (keeps_createExt name color .sync now db)
  | renameLabel id newName =>
    exact stateAfter_load_bind sound fun label member _ => sound.of_besidesLabels
      (sound.labels.renameExt member newName .sync) (keeps_renameExt label newName .sync db)
  | setLabelColor id color =>
    exact stateAfter_load_bind sound fun label _ _ => sound.of_besidesLabels
      (sound.labels.setColorExt label color .sync) (keeps_setColorExt label color .sync db)
  | deleteLabel id =>
    exact stateAfter_load_bind sound fun label member _ => sound.deleteExt member .sync
  | applyLabel msgs id => exact ⟨labels, sound.load_setExt spared⟩
  | unapplyLabel msgs id => exact ⟨labels, sound.load_setExt spared⟩
  | archive msgs =>
    exact sound_setReserved (by simp [reservedNames]) (by decide) msgs true .sync db sound
  | unarchive msgs =>
    exact sound_setReserved (by simp [reservedNames]) (by decide) msgs false .sync db sound
  | syncItem item timestamp => exact sound.executeSyncItem spared
  | receive mail =>
    simp only [perform, stateAfter_run]
    exact sound_receive mail now db sound
  | setGating enabled => exact sound_setEnabled enabled db sound
  | setHoldDays days => exact sound.of_view rfl
  | sweep =>
    simp only [perform, stateAfter_run]
    exact sound_sweep now db sound
  | markseen msgs => exact ⟨labels, sound.settled.undisturbed (.markseenMsgs _ msgs now db)⟩
  | deleteExpired => exact sound_deleteExpiredMessages now db sound
  | tidy => exact sound.tidy now
  | finish listed => exact sound.finish listed now

theorem sound_happen (db : Db) (happening : Happening) (sound : Sound ids db)
    (spared : LeavesUnverified (ids unverifiedName) db happening) :
    Sound ids (happen db happening) := by
  cases happening with
  | mailbox event => exact sound_step event sound spared
  | release contacts => exact sound_release contacts db sound
  | releaseAll => exact sound_releaseAll db sound

/-- In runs that leave the label to the gate, what the user sees in `Unverified`
is what is held, and the sweep takes only that. -/
theorem view_agrees_with_hold (start : Sound ids db) (happenings : List Happening)
    (spared : MeetsAll happen (LeavesUnverified (ids unverifiedName)) db happenings) :
    Agrees (ids unverifiedName) (runAll happen db happenings) ∧
      ∀ now, ∀ msg ∈ (runAll happen db happenings).msgs, msg.isLive = true →
        msg.id ∈ elapsed now (runAll happen db happenings) →
          Shown (ids unverifiedName) (runAll happen db happenings) msg.id := by
  have sound : Sound ids (runAll happen db happenings) :=
    invariant_of_meetsAll sound_happen happenings db start spared
  refine ⟨sound.settled.agrees, ?_⟩
  intro now msg member isLive swept
  obtain ⟨row, rowMember, same⟩ := List.mem_map.mp swept
  exact (sound.settled.agrees msg member isLive).mpr ⟨row, (List.mem_filter.mp rowMember).1, same⟩

end Runs

section

local instance : Unicode := asciiTables

def gatedAccount : Db :=
  { labels := migratedLabels
    nextLabelId := 4
    nextMsgId := 10
    nextContactId := 10
    nextChatId := 10
    config := { inboxGating := true, unverifiedTrashDays := 30 } }

theorem sound_gatedAccount : Sound migratedIds gatedAccount := by
  refine ⟨labelsOk_migrated rfl rfl, ?_, ?_, ?_, ?_, ?_⟩
  · intro msg member
    cases member
  · intro msg member
    cases member
  · intro msgId shown
    cases shown
  · rintro msgId ⟨row, member, _⟩
    cases member
  · intro row member
    cases member

def strangerWrites : Happening :=
  .mailbox
    { now := 100
      op := .receive { rfc724Mid := "m1".toList, fromAddr := "stranger@example.org".toList } }

def archiveIt : Happening := .mailbox { now := 101, op := .applyLabel [10] 1 }

theorem archived_still_agrees :
    Agrees 3 (runAll happen gatedAccount [strangerWrites, archiveIt]) ∧
      IsHeld (runAll happen gatedAccount [strangerWrites, archiveIt]) 10 := by
  refine ⟨(view_agrees_with_hold sound_gatedAccount [strangerWrites, archiveIt] ?_).1, ?_⟩
  · exact ⟨trivial, fun same => absurd same (by decide), trivial⟩
  · decide +kernel

def unlabelIt : Happening := .mailbox { now := 101, op := .unapplyLabel [10] 3 }

def sweepLater : Happening := .mailbox { now := 100 + 30 * 86400, op := .sweep }

/-- The message is back in the inbox, but it is still held, and the sweep throws it away. -/
theorem unlabelled_still_swept :
    ¬Agrees 3 (runAll happen gatedAccount [strangerWrites, unlabelIt]) ∧
      ¬Shown 3 (runAll happen gatedAccount [strangerWrites, unlabelIt]) 10 ∧
      TrashSafety.CarriesTrash
        (runAll happen gatedAccount [strangerWrites, unlabelIt, sweepLater]) 10 := by
  decide +kernel

-- The other way round: a message that is not held gets the label, and no deadline.
example :
    ¬Agrees 3 (happen { gatedAccount with msgs := [{ id := 9, chatId := 10 }] }
      (.mailbox { now := 101, op := .applyLabel [9] 3 })) := by
  decide +kernel

end

end Eeemail.HoldAgreement
