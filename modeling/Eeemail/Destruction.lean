import Eeemail.TrashWindow

/-! # How many messages a call destroyed

`purge`, `destroy_now` and `empty` report a number.  All three report the length
of the list they handed to `destroy`, and a purge with nothing due reports the
deadlines it dropped.  A tombstone keeps its label until the next pass, and
`reconcile` gives whatever carries the label a deadline, so these lists can name
messages that were destroyed before. -/

set_option autoImplicit false

namespace Eeemail.Destruction

open Lib.Texts Lib.Actions Lib.Tables Store Labels ReservedLabels Trash Frames Mailbox
open TrashSafety TrashWindow

def turned (before after : Db) : List MsgId :=
  (before.msgs.filter fun msg =>
    msg.isLive && after.msgs.any fun row => row.id == msg.id && !row.isLive).map (·.id)

/-- The call succeeds, and the number it returns is that of the messages it
turned from live into a tombstone. -/
def CountsExactly (call : DbAction Nat) (db : Db) : Prop :=
  ∃ destroyed after, call.run db = .ok destroyed after ∧ destroyed = (turned db after).length

/-- The recoverable window of a message in the trash is over.  One that has the
label only gets its deadline now. -/
def WindowOver (now : Int) (db : Db) (msgId : MsgId) : Prop :=
  CarriesTrash db msgId ∧
    ((∃ row ∈ db.trashedMsgs, row.msgId = msgId ∧ row.purgeAt ≤ now) ∨
      ((∀ row ∈ db.trashedMsgs, row.msgId ≠ msgId) ∧ deadline now db ≤ now))

variable {db : Db}

theorem nodup_turned (unique : (db.msgs.map (·.id)).Nodup) (after : Db) : (turned db after).Nodup :=
  unique.sublist (List.filter_sublist.map _)

/-! ## Destroying a list of messages -/

theorem mem_turned_destroy (unique : (db.msgs.map (·.id)).Nodup) {msgs : List MsgId}
    {msgId : MsgId} :
    msgId ∈ turned db (destroy msgs db).2 ↔ msgId ∈ msgs ∧ Live db msgId := by
  unfold turned
  simp only [List.mem_map, List.mem_filter, Bool.and_eq_true, List.any_eq_true, beq_iff_eq,
    Bool.not_eq_true']
  constructor
  · rintro ⟨msg, ⟨member, isLive, row, rowMember, same, dead⟩, rfl⟩
    refine ⟨?_, msg, member, rfl, isLive⟩
    obtain ⟨old, oldMember, rfl⟩ := mem_updateWhere.mp rowMember
    by_cases listed : old.id ∈ msgs
    · simp only [List.contains_iff_mem, listed, if_true] at same
      exact same ▸ listed
    · simp only [List.contains_iff_mem, listed, if_false] at same dead
      rw [eq_of_key_eq unique oldMember member same, isLive] at dead
      cases dead
  · rintro ⟨listed, msg, member, rfl, isLive⟩
    refine ⟨msg, ⟨member, isLive, tombstone true msg, ?_, rfl, rfl⟩, rfl⟩
    refine mem_updateWhere.mpr ⟨msg, member, ?_⟩
    simp only [List.contains_iff_mem, listed, if_true]

theorem destroy_counts_iff (unique : (db.msgs.map (·.id)).Nodup) (msgs : List MsgId) :
    (destroy msgs db).1 = (turned db (destroy msgs db).2).length ↔
      msgs.Nodup ∧ ∀ msgId ∈ msgs, Live db msgId := by
  have within : turned db (destroy msgs db).2 ⊆ msgs := fun _ member =>
    ((mem_turned_destroy unique).mp member).1
  have counted := length_eq_iff_of_subset (nodup_turned unique _) within
  constructor
  · intro exact'
    obtain ⟨nodup, all⟩ := counted.mp exact'.symm
    exact ⟨nodup, fun msgId member => ((mem_turned_destroy unique).mp (all member)).2⟩
  · rintro ⟨nodup, live⟩
    refine (counted.mpr ⟨nodup, fun msgId member => ?_⟩).symm
    exact (mem_turned_destroy unique).mpr ⟨member, live msgId member⟩

theorem destroy_reconciled_counts_iff (unique : (db.msgs.map (·.id)).Nodup) (trashId : LabelId)
    (now : Int) (msgs : List MsgId) :
    (destroy msgs (reconcileRows trashId now db)).1 =
        (turned db (destroy msgs (reconcileRows trashId now db)).2).length ↔
      msgs.Nodup ∧ ∀ msgId ∈ msgs, Live db msgId :=
  have untouched : ((reconcileRows trashId now db).msgs.map (·.id)).Nodup := unique
  destroy_counts_iff untouched msgs

theorem turned_eq_nil (unique : (db.msgs.map (·.id)).Nodup) {after : Db}
    (same : after.msgs = db.msgs) : turned db after = [] := by
  unfold turned
  rw [List.map_eq_nil_iff, List.filter_eq_nil_iff]
  intro msg member dies
  simp only [same, Bool.and_eq_true, List.any_eq_true, beq_iff_eq, Bool.not_eq_true'] at dies
  obtain ⟨isLive, row, rowMember, sameId, dead⟩ := dies
  rw [eq_of_key_eq unique rowMember member sameId, isLive] at dead
  cases dead

theorem pruneDeadlines_drops_nothing_iff :
    db.trashedMsgs.length - (pruneDeadlines db).trashedMsgs.length = 0 ↔
      ∀ row ∈ db.trashedMsgs, Live db row.msgId := by
  have shorter : (pruneDeadlines db).trashedMsgs.length ≤ db.trashedMsgs.length :=
    List.length_filter_le _ _
  have same : (pruneDeadlines db).trashedMsgs.length = db.trashedMsgs.length ↔
      ∀ row ∈ db.trashedMsgs, Live db row.msgId := by
    unfold pruneDeadlines
    rw [List.length_filter_eq_length_iff]
    simp only [List.any_eq_true, Bool.and_eq_true, beq_iff_eq]
    exact Iff.rfl
  rw [← same]
  omega

section

variable [Unicode] {ids : Text → LabelId}

section

variable (ok : LabelsOk ids db)

include ok

theorem carriesTrash_iff {msgId : MsgId} :
    CarriesTrash db msgId ↔ msgId ∈ labelled (ids trashName) db :=
  ⟨fun carries => mem_labelled.mpr (mem_of_carriesTrash ok carries),
    fun member => carriesTrash_of_mem ok (mem_labelled.mp member)⟩

theorem mem_reconciled_iff (now : Int) {msgId : MsgId} :
    (∃ row ∈ (reconcileRows (ids trashName) now db).trashedMsgs, row.msgId = msgId) ↔
      CarriesTrash db msgId := by
  rw [carriesTrash_iff ok]
  constructor
  · rintro ⟨row, member, rfl⟩
    exact mem_labelled.mpr (labelled_of_reconcileRows member)
  · intro listed
    have present : msgId ∈ (reconcileRows (ids trashName) now db).trashedMsgs.map (·.msgId) :=
      (mem_map_foldl_insertOrIgnore _).mpr (Or.inr ⟨msgId, listed, rfl⟩)
    exact List.mem_map.mp present

theorem mem_due_iff (now : Int) (msgId : MsgId) :
    msgId ∈ due now (reconcileRows (ids trashName) now db) ↔ WindowOver now db msgId := by
  unfold due WindowOver
  rw [carriesTrash_iff ok]
  simp only [List.mem_map, List.mem_filter, decide_eq_true_eq]
  constructor
  · rintro ⟨row, ⟨member, passed⟩, rfl⟩
    refine ⟨mem_labelled.mpr (labelled_of_reconcileRows member), ?_⟩
    rcases mem_addDeadlines.mp member with kept | ⟨listed, fresh, shape⟩
    · exact Or.inl ⟨row, (List.mem_filter.mp kept).1, rfl, passed⟩
    · refine Or.inr ⟨fun old oldMember same => ?_, ?_⟩
      · refine fresh old (List.mem_filter.mpr ⟨oldMember, ?_⟩) same
        rw [List.contains_iff_mem, same]
        exact listed
      · rw [shape] at passed
        exact passed
  · rintro ⟨listed, ⟨row, member, rfl, passed⟩ | ⟨fresh, passed⟩⟩
    · refine ⟨row, ⟨mem_addDeadlines.mpr (Or.inl ?_), passed⟩, rfl⟩
      exact List.mem_filter.mpr ⟨member, List.contains_iff_mem.mpr listed⟩
    · refine ⟨{ msgId, trashedAt := now, purgeAt := deadline now db, reason := .deleted },
        ⟨mem_addDeadlines.mpr (Or.inr ⟨listed, ?_, rfl⟩), passed⟩, rfl⟩
      intro old oldMember
      exact fresh old (List.mem_filter.mp oldMember).1

omit ok in
omit [Unicode] in
theorem nodup_due (keyed : (db.trashedMsgs.map (·.msgId)).Nodup) (trashId : LabelId) (now : Int) :
    (due now (reconcileRows trashId now db)).Nodup := by
  have rows : ((reconcileRows trashId now db).trashedMsgs.map (·.msgId)).Nodup :=
    nodup_map_foldl_insertOrIgnore _ (keyed.sublist (List.filter_sublist.map _))
  exact rows.sublist (List.filter_sublist.map _)

/-! ## The three calls -/

theorem reconcile_bind_run (now : Int) {α : Type} (f : Unit → DbAction α) :
    (reconcile now >>= f).run db = (f ()).run (reconcileRows (ids trashName) now db) := by
  obtain ⟨label, _, _, _, ident, read⟩ := ok.reserved_run trashName_reserved
  unfold reconcile
  rw [bind_assoc, EStateM.run_bind, read, ← ident]
  rfl

omit ok in
omit [Unicode] in
theorem countsExactly_of_run {call : DbAction Nat} {destroyed : Nat} {after : Db}
    (run : call.run db = .ok destroyed after) :
    CountsExactly call db ↔ destroyed = (turned db after).length := by
  unfold CountsExactly
  rw [run]
  constructor
  · rintro ⟨_, _, same, counted⟩
    obtain ⟨rfl, rfl⟩ := EStateM.Result.ok.inj same
    exact counted
  · intro counted
    exact ⟨destroyed, after, rfl, counted⟩

theorem destroyNow_counts_iff (unique : (db.msgs.map (·.id)).Nodup)
    (msgs : List MsgId) (now : Int) :
    CountsExactly (destroyNow msgs now) db ↔
      (msgs.filter fun msgId => CarriesTrash db msgId).Nodup ∧
        ∀ msgId ∈ msgs, CarriesTrash db msgId → Live db msgId := by
  by_cases none : msgs.isEmpty = true
  · obtain rfl := List.isEmpty_iff.mp none
    rw [countsExactly_of_run (show (destroyNow [] now).run db = .ok 0 db from rfl),
      turned_eq_nil unique rfl]
    simp
  · have picked : (msgs.filter fun msgId =>
        (reconcileRows (ids trashName) now db).trashedMsgs.any (·.msgId == msgId)) =
        msgs.filter fun msgId => CarriesTrash db msgId := by
      refine List.filter_congr fun msgId _ => ?_
      rw [Bool.eq_iff_iff, decide_eq_true_eq, ← mem_reconciled_iff ok now]
      simp only [List.any_eq_true, beq_iff_eq]
    have run : (destroyNow msgs now).run db =
        .ok (destroy (msgs.filter fun msgId => CarriesTrash db msgId)
            (reconcileRows (ids trashName) now db)).1
          (destroy (msgs.filter fun msgId => CarriesTrash db msgId)
            (reconcileRows (ids trashName) now db)).2 := by
      unfold destroyNow
      rw [if_neg none, reconcile_bind_run ok, execReturning_run, picked]
    rw [countsExactly_of_run run]
    refine (destroy_reconciled_counts_iff unique _ now _).trans ?_
    refine and_congr_right fun _ =>
      ⟨fun live msgId member carries => ?_, fun live msgId member => ?_⟩
    · exact live msgId (List.mem_filter.mpr ⟨member, decide_eq_true carries⟩)
    · obtain ⟨listed, carries⟩ := List.mem_filter.mp member
      exact live msgId listed (of_decide_eq_true carries)

theorem empty_counts (unique : (db.msgs.map (·.id)).Nodup) (now : Int) :
    CountsExactly (empty now) db := by
  have same : labelView (reconcileRows (ids trashName) now db) = labelView db := rfl
  have reconciled := ok.of_labelView same
  obtain ⟨label, _, _, _, ident, read⟩ := reconciled.reserved_run trashName_reserved
  have run : (empty now).run db =
      .ok (destroy (msgsWith label.id (reconcileRows (ids trashName) now db))
          (reconcileRows (ids trashName) now db)).1
        (destroy (msgsWith label.id (reconcileRows (ids trashName) now db))
          (reconcileRows (ids trashName) now db)).2 := by
    unfold empty inTrash
    rw [reconcile_bind_run ok, bind_assoc, EStateM.run_bind, read]
    rfl
  rw [countsExactly_of_run run]
  refine (destroy_reconciled_counts_iff unique _ now _).mpr ⟨?_, ?_⟩
  · have sorted := List.perm_insertionSort
      (fun a b : Message => b.timestamp < a.timestamp ∨ (a.timestamp = b.timestamp ∧ b.id ≤ a.id))
      (db.msgs.filter fun msg =>
        msg.isLive && !msg.hidden && db.msgLabels.contains { msgId := msg.id, labelId := label.id })
    exact ((sorted.map (·.id)).nodup_iff).mpr (unique.sublist (List.filter_sublist.map _))
  · intro msgId member
    obtain ⟨msg, shown, rfl⟩ := List.mem_map.mp member
    simp only [newestFirst, List.mem_insertionSort, List.mem_filter, Bool.and_eq_true] at shown
    exact ⟨msg, shown.1, rfl, shown.2.1.1⟩

theorem purge_counts_iff (unique : (db.msgs.map (·.id)).Nodup)
    (keyed : (db.trashedMsgs.map (·.msgId)).Nodup) (now : Int) :
    CountsExactly (purge now) db ↔
      (∀ msgId, WindowOver now db msgId → Live db msgId) ∧
        ((∀ msgId, ¬WindowOver now db msgId) →
          ∀ msgId, CarriesTrash db msgId → Live db msgId) := by
  have listed := fun msgId => mem_due_iff ok now msgId
  by_cases calm : (due now (reconcileRows (ids trashName) now db)).isEmpty = true
  · have nothing : ∀ msgId, ¬WindowOver now db msgId := fun msgId passed => by
      rw [← listed, List.isEmpty_iff.mp calm] at passed
      cases passed
    have run : (purge now).run db =
        .ok ((reconcileRows (ids trashName) now db).trashedMsgs.length -
            (pruneDeadlines (reconcileRows (ids trashName) now db)).trashedMsgs.length)
          (pruneDeadlines (reconcileRows (ids trashName) now db)) := by
      unfold purge
      rw [reconcile_bind_run ok, execReturning_run, if_pos calm]
    have untouched : (pruneDeadlines (reconcileRows (ids trashName) now db)).msgs = db.msgs := rfl
    rw [countsExactly_of_run run, turned_eq_nil unique untouched, List.length_nil,
      pruneDeadlines_drops_nothing_iff]
    constructor
    · intro live
      refine ⟨fun msgId passed => absurd passed (nothing msgId), fun _ msgId carries => ?_⟩
      obtain ⟨row, member, rfl⟩ := (mem_reconciled_iff ok now).mpr carries
      exact live row member
    · rintro ⟨_, live⟩ row member
      exact live nothing row.msgId ((mem_reconciled_iff ok now).mp ⟨row, member, rfl⟩)
  · have run : (purge now).run db =
        .ok (destroy (due now (reconcileRows (ids trashName) now db))
            (reconcileRows (ids trashName) now db)).1
          (destroy (due now (reconcileRows (ids trashName) now db))
            (reconcileRows (ids trashName) now db)).2 := by
      unfold purge
      rw [reconcile_bind_run ok, execReturning_run, if_neg calm]
    rw [countsExactly_of_run run]
    refine (destroy_reconciled_counts_iff unique _ now _).trans ?_
    obtain ⟨first, rest, some⟩ := List.exists_cons_of_ne_nil
      (fun isNil => calm (List.isEmpty_iff.mpr isNil))
    have busy : WindowOver now db first := (listed first).mp (some ▸ List.mem_cons_self)
    constructor
    · rintro ⟨_, live⟩
      refine ⟨fun msgId passed => live msgId ((listed msgId).mpr passed), fun nothing => ?_⟩
      exact absurd busy (nothing first)
    · rintro ⟨live, _⟩
      exact ⟨nodup_due keyed _ now, fun msgId member => live msgId ((listed msgId).mp member)⟩

end

/-- The number `destroy_now` returns is that of the messages it destroyed when
no id in the trash was picked twice and none of them is a tombstone already;
`empty` always counts exactly; and so does `purge` if everything whose window is
over is live, and, when no window is over, everything in the trash is. -/
theorem destruction_counted_iff (ok : LabelsOk ids db) (unique : (db.msgs.map (·.id)).Nodup)
    (keyed : (db.trashedMsgs.map (·.msgId)).Nodup) (msgs : List MsgId) (now : Int) :
    (CountsExactly (destroyNow msgs now) db ↔
      (msgs.filter fun msgId => CarriesTrash db msgId).Nodup ∧
        ∀ msgId ∈ msgs, CarriesTrash db msgId → Live db msgId) ∧
    CountsExactly (empty now) db ∧
    (CountsExactly (purge now) db ↔
      (∀ msgId, WindowOver now db msgId → Live db msgId) ∧
        ((∀ msgId, ¬WindowOver now db msgId) →
          ∀ msgId, CarriesTrash db msgId → Live db msgId)) :=
  ⟨destroyNow_counts_iff ok unique msgs now, empty_counts ok unique now,
    purge_counts_iff ok unique keyed now⟩

end

section

local instance : Unicode := asciiTables

def thrownAway : Db := step oneDay { now := 100, op := .trash [10] }

theorem destruction_counted_once : CountsExactly (destroyNow [10, 11] 200) thrownAway :=
  (destruction_counted_iff (labelsOk_step (labelsOk_migrated rfl rfl) _) (by decide) (by decide)
    [10, 11] 200).1.mpr (by decide)

def destroyedOnce : Db := step thrownAway { now := 200, op := .destroyNow [10] }

/-- One message picked twice counts as two, picked again when it is gone it counts
again, and a purge that destroys nothing reports it once more. -/
theorem destroyed_message_counted_again :
    ¬CountsExactly (destroyNow [10, 10] 200) thrownAway ∧
      ¬CountsExactly (destroyNow [10] 300) destroyedOnce ∧
      ¬CountsExactly (purge 300) destroyedOnce := by
  refine ⟨?_, ?_, ?_⟩
  · have twice : returns (destroyNow [10, 10] 200) thrownAway 2 = true := by decide
    rw [countsExactly_of_run (run_of_returns twice)]
    decide
  · have again : returns (destroyNow [10] 300) destroyedOnce 1 = true := by decide
    rw [countsExactly_of_run (run_of_returns again)]
    decide
  · have tidied : returns (purge 300) destroyedOnce 1 = true := by decide
    rw [countsExactly_of_run (run_of_returns tidied)]
    decide

end

end Eeemail.Destruction
