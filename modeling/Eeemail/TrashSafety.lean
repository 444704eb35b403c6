import Eeemail.Mailbox

/-! # Only what is visibly in the trash is destroyed

The `Trash` label and the deadlines in `trashed_msgs` are two tables that drift
apart: a label can be put on or taken off by the generic calls and by another
device.  Every destroying call first reconciles the deadlines with the label,
so whatever it turns into a tombstone carries the label at that moment. -/

set_option autoImplicit false

namespace Eeemail.TrashSafety

open Lib.Texts Lib.Actions Lib.Tables Lib.Runs Store Labels ReservedLabels Trash Frames Mailbox

variable {db : Db} {msgId : MsgId} {now : Int} {msgs : List MsgId}

def Live (db : Db) (msgId : MsgId) : Prop := ∃ msg ∈ db.msgs, msg.id = msgId ∧ msg.isLive = true

/-- The user sees the `Trash` label on the message. -/
def CarriesTrash (db : Db) (msgId : MsgId) : Prop :=
  ∃ label ∈ db.labels, label.name = trashName ∧ label.system = true ∧
    { msgId, labelId := label.id } ∈ db.msgLabels

instance (db : Db) (msgId : MsgId) : Decidable (Live db msgId) :=
  inferInstanceAs (Decidable (∃ msg ∈ db.msgs, _))

instance (db : Db) (msgId : MsgId) : Decidable (CarriesTrash db msgId) :=
  inferInstanceAs (Decidable (∃ label ∈ db.labels, _))

inductive Destroying : Op → Prop where
  | purge : Destroying .purge
  | destroyNow (msgs : List MsgId) : Destroying (.destroyNow msgs)
  | emptyTrash : Destroying .emptyTrash

theorem live_destroy (live : Live db msgId) (spared : msgId ∉ msgs) :
    Live (destroy msgs db).2 msgId := by
  obtain ⟨msg, member, rfl, isLive⟩ := live
  refine ⟨msg, mem_updateWhere.mpr ⟨msg, member, ?_⟩, rfl, isLive⟩
  simp [spared]

theorem not_live_destroy (destroyed : msgId ∈ msgs) :
    ¬Live (destroy msgs db).2 msgId := by
  rintro ⟨msg, member, rfl, isLive⟩
  obtain ⟨old, _, rfl⟩ := mem_updateWhere.mp member
  by_cases listed : old.id ∈ msgs
  · simp [listed, tombstone, Message.isLive] at isLive
  · simp [listed] at destroyed

/-! ## Reconciling -/

theorem mem_labelled {labelId : LabelId} :
    msgId ∈ labelled labelId db ↔ { msgId, labelId } ∈ db.msgLabels := by
  simp only [labelled, List.mem_map, List.mem_filter, beq_iff_eq]
  constructor
  · rintro ⟨row, ⟨member, rfl⟩, rfl⟩
    exact member
  · intro member
    exact ⟨_, ⟨member, rfl⟩, rfl⟩

theorem labelled_of_reconcileRows {labelId : LabelId} {row : TrashedMsg}
    (member : row ∈ (reconcileRows labelId now db).trashedMsgs) :
    { msgId := row.msgId, labelId } ∈ db.msgLabels := by
  refine mem_labelled.mp ?_
  rcases mem_addDeadlines.mp member with kept | ⟨added, _⟩
  · simpa using (List.mem_filter.mp kept).2
  · exact added

section

variable [Unicode] {ids : Text → LabelId}

section

variable (ok : LabelsOk ids db)

include ok

theorem stateAfter_reconcile_bind (now : Int) {α : Type} (f : Unit → DbAction α) :
    stateAfter (reconcile now >>= f) db =
      stateAfter (f ()) (reconcileRows (ids trashName) now db) := by
  obtain ⟨label, _, _, _, ident, read⟩ := ok.reserved_run trashName_reserved
  unfold reconcile
  rw [bind_assoc, stateAfter_bind_of_ok read, stateAfter_exec_bind, ident]

theorem stateAfter_purge (now : Int) :
    stateAfter (purge now) db =
      if (due now (reconcileRows (ids trashName) now db)).isEmpty then
        pruneDeadlines (reconcileRows (ids trashName) now db)
      else (destroy (due now (reconcileRows (ids trashName) now db))
        (reconcileRows (ids trashName) now db)).2 := by
  unfold purge
  rw [stateAfter_reconcile_bind ok, stateAfter_execReturning]
  split <;> rfl

theorem carriesTrash_of_mem
    (member : { msgId, labelId := ids trashName } ∈ db.msgLabels) : CarriesTrash db msgId := by
  obtain ⟨label, labelMember, named, system, ident⟩ := ok.reserved trashName trashName_reserved
  exact ⟨label, labelMember, named, system, ident ▸ member⟩

theorem mem_of_carriesTrash (carries : CarriesTrash db msgId) :
    { msgId, labelId := ids trashName } ∈ db.msgLabels := by
  obtain ⟨label, member, named, _, labelled⟩ := carries
  obtain ⟨reservedLabel, reservedMember, reservedNamed, _, ident⟩ :=
    ok.reserved trashName trashName_reserved
  have same : label = reservedLabel := by
    refine eq_of_key_eq ok.norms_nodup member reservedMember ?_
    rw [ok.norms label member, ok.norms reservedLabel reservedMember, named, reservedNamed]
  rw [← ident, ← same]
  exact labelled

/-! ## What the destroying calls destroy -/

theorem due_of_purge (live : Live db msgId) (gone : ¬Live (stateAfter (purge now) db) msgId) :
    ∃ row ∈ (reconcileRows (ids trashName) now db).trashedMsgs,
      row.msgId = msgId ∧ row.purgeAt ≤ now := by
  rw [stateAfter_purge ok] at gone
  have stillLive : Live (reconcileRows (ids trashName) now db) msgId := live
  split at gone
  · exact absurd stillLive gone
  · have listed : msgId ∈ due now (reconcileRows (ids trashName) now db) := by
      by_contra spared
      exact gone (live_destroy stillLive spared)
    obtain ⟨row, member, same⟩ := List.mem_map.mp listed
    obtain ⟨rowMember, passed⟩ := List.mem_filter.mp member
    exact ⟨row, rowMember, same, by simpa using passed⟩

theorem labelled_of_destroyNow (live : Live db msgId)
    (gone : ¬Live (stateAfter (destroyNow msgs now) db) msgId) :
    { msgId, labelId := ids trashName } ∈ db.msgLabels := by
  unfold destroyNow at gone
  split at gone
  · exact absurd live gone
  · rw [stateAfter_reconcile_bind ok, stateAfter_execReturning] at gone
    by_contra unlabelled
    refine gone (live_destroy live ?_)
    intro picked
    obtain ⟨_, known⟩ := List.mem_filter.mp picked
    obtain ⟨row, member, same⟩ := List.any_eq_true.mp known
    have labelled := labelled_of_reconcileRows member
    rw [beq_iff_eq.mp same] at labelled
    exact unlabelled labelled

theorem labelled_of_empty (live : Live db msgId) (gone : ¬Live (stateAfter (empty now) db) msgId) :
    { msgId, labelId := ids trashName } ∈ db.msgLabels := by
  have same : labelView (reconcileRows (ids trashName) now db) = labelView db := rfl
  have reconciled := ok.of_labelView same
  obtain ⟨label, _, _, _, ident, read⟩ := reconciled.reserved_run trashName_reserved
  unfold empty inTrash at gone
  rw [stateAfter_reconcile_bind ok, bind_assoc, stateAfter_bind_of_ok read,
    stateAfter_query_bind, stateAfter_execReturning, ident] at gone
  by_contra unlabelled
  refine gone (live_destroy live ?_)
  intro shown
  obtain ⟨msg, sorted, rfl⟩ := List.mem_map.mp shown
  simp only [newestFirst, List.mem_insertionSort, List.mem_filter, Bool.and_eq_true,
    List.contains_iff_mem] at sorted
  exact unlabelled sorted.2.2

end

/-- In every reachable state, whatever `purge`, `destroy_now` and `empty` turn
into a tombstone carries the `Trash` label at that moment. -/
theorem destroyed_carries_trash {db : Db} (ok : LabelsOk ids db) (events : List Event)
    (event : Event) (destroying : Destroying event.op) {msgId : MsgId}
    (live : Live (runAll step db events) msgId)
    (gone : ¬Live (step (runAll step db events) event) msgId) :
    CarriesTrash (runAll step db events) msgId := by
  have reachable := labelsOk_runAll ok events
  refine carriesTrash_of_mem reachable ?_
  obtain ⟨now, op⟩ := event
  simp only [step] at gone
  cases destroying with
  | purge =>
    simp only [perform, stateAfter_run] at gone
    obtain ⟨row, member, same, _⟩ := due_of_purge reachable live gone
    rw [← same]
    exact labelled_of_reconcileRows member
  | destroyNow msgs =>
    simp only [perform, stateAfter_run] at gone
    exact labelled_of_destroyNow reachable live gone
  | emptyTrash =>
    simp only [perform, stateAfter_run] at gone
    exact labelled_of_empty reachable live gone

end

section

local instance : Unicode := asciiTables

def oneMessage : Db :=
  { labels := migratedLabels
    nextLabelId := 4
    msgs := [{ id := 10, rfc724Mid := "first".toList, chatId := 10, toId := 1, fromId := 10 }]
    nextMsgId := 11 }

/-- Another device trashes the message and this one purges it: it was in the trash. -/
theorem destroyed_carries_trash_synced :
    CarriesTrash
      (runAll step oneMessage
        [{ now := 5, op := .syncItem (.apply ["first".toList] "trash".toList) 5 }]) 10 :=
  destroyed_carries_trash (labelsOk_migrated rfl rfl) _
    { now := 5, op := .purge } .purge (by decide) (by decide)

end

end Eeemail.TrashSafety
