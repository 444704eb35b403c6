import Eeemail.TrashSafety

/-! # The recoverable window

A message in the trash is destroyed by `purge` once its deadline has passed.
The deadline is written when the message enters the trash, or at the next
reconciliation, and is never rewritten, so a message stays recoverable for the
whole window it entered with as long as nothing leaves a deadline of an earlier
stay behind and the window is not lowered under messages without a deadline. -/

set_option autoImplicit false

namespace Eeemail.TrashWindow

open Lib.Texts Lib.Actions Lib.Tables Lib.Runs Store Labels ReservedLabels Trash Frames Mailbox
open TrashSafety

variable {trashId : LabelId} {now : Int} {db : Db} {msgId : MsgId}

def InTrash (msgId : MsgId) (db : Db) : Prop := Live db msgId ∧ CarriesTrash db msgId

instance (msgId : MsgId) (db : Db) : Decidable (InTrash msgId db) :=
  inferInstanceAs (Decidable (_ ∧ _))

def HasDeadline (db : Db) (msgId : MsgId) : Prop := ∃ row ∈ db.trashedMsgs, row.msgId = msgId

/-! ## What one step does to deadlines -/

/-- New deadlines are a full window away and go to messages that had none, what
is still in the trash keeps having a deadline, and the window is the same. -/
structure Moves (trashId : LabelId) (now : Int) (before after : Db) : Prop where
  window : purgeSecs after = purgeSecs before
  added : ∀ row ∈ after.trashedMsgs, row ∈ before.trashedMsgs ∨
    ((∀ old ∈ before.trashedMsgs, old.msgId ≠ row.msgId) ∧ row.purgeAt = deadline now before)
  kept : ∀ old ∈ before.trashedMsgs, Live after old.msgId →
    { msgId := old.msgId, labelId := trashId } ∈ after.msgLabels → HasDeadline after old.msgId

/-- Deadlines may have gone, but not of messages that are still there. -/
structure Drops (before after : Db) : Prop where
  window : purgeSecs after = purgeSecs before
  labels : after.msgLabels = before.msgLabels
  live : ∀ msgId, Live after msgId → Live before msgId
  subset : ∀ row ∈ after.trashedMsgs, row ∈ before.trashedMsgs
  kept : ∀ row ∈ before.trashedMsgs, Live after row.msgId → row ∈ after.trashedMsgs

theorem Moves.of_grows {db' : Db} (grown : Grows now db db') : Moves trashId now db db' := by
  refine ⟨?_, grown.added, fun old member _ _ => ⟨old, grown.kept old member, rfl⟩⟩
  simp only [purgeSecs, purgeDays, grown.window]

theorem Moves.of_deadlineView {db' : Db} (same : deadlineView db' = deadlineView db) :
    Moves trashId now db db' := by
  obtain ⟨rows, window⟩ := Prod.mk.inj same
  refine ⟨?_, ?_, ?_⟩
  · simp only [purgeSecs, purgeDays, window]
  · intro row member
    rw [rows] at member
    exact Or.inl member
  · intro old member _ _
    refine ⟨old, ?_, rfl⟩
    rw [rows]
    exact member

theorem Moves.drops {first second third : Db} (moved : Moves trashId now first second)
    (dropped : Drops second third) : Moves trashId now first third := by
  refine ⟨dropped.window.trans moved.window, ?_, ?_⟩
  · intro row member
    exact moved.added row (dropped.subset row member)
  · intro old member live labelled
    rw [dropped.labels] at labelled
    obtain ⟨row, rowMember, same⟩ := moved.kept old member (dropped.live _ live) labelled
    exact ⟨row, dropped.kept row rowMember (same ▸ live), same⟩

theorem moves_reconcileRows (trashId : LabelId) (now : Int) (db : Db) :
    Moves trashId now db (reconcileRows trashId now db) := by
  refine ⟨rfl, ?_, ?_⟩
  · intro row member
    rcases mem_addDeadlines.mp member with kept | ⟨labelled, fresh, shape⟩
    · exact Or.inl (List.mem_filter.mp kept).1
    · refine Or.inr ⟨?_, by rw [shape]⟩
      intro old oldMember same
      -- An old deadline of a labelled message would have been kept.
      refine fresh old (List.mem_filter.mpr ⟨oldMember, ?_⟩) same
      rw [same]
      simpa using labelled
  · intro old member _ labelled
    refine ⟨old, mem_addDeadlines.mpr (Or.inl (List.mem_filter.mpr ⟨member, ?_⟩)), rfl⟩
    exact List.contains_iff_mem.mpr (mem_labelled.mpr labelled)

theorem drops_destroy (msgs : List MsgId) (db : Db) : Drops db (destroy msgs db).2 := by
  refine ⟨rfl, rfl, ?_, ?_, ?_⟩
  · rintro msgId ⟨msg, member, rfl, isLive⟩
    obtain ⟨old, oldMember, rfl⟩ := mem_updateWhere.mp member
    by_cases listed : old.id ∈ msgs
    · simp [listed, tombstone, Message.isLive] at isLive
    · refine ⟨old, oldMember, ?_⟩
      simpa [listed] using isLive
  · intro row member
    exact (mem_deleteWhere.mp member).1
  · intro row member live
    refine mem_deleteWhere.mpr ⟨member, ?_⟩
    have spared : row.msgId ∉ msgs := fun listed => not_live_destroy listed live
    simpa using spared

theorem drops_pruneDeadlines (db : Db) : Drops db (pruneDeadlines db) := by
  refine ⟨rfl, rfl, fun _ live => live, ?_, ?_⟩
  · intro row member
    exact (List.mem_filter.mp member).1
  · intro row member live
    obtain ⟨msg, msgMember, same, isLive⟩ := live
    refine List.mem_filter.mpr ⟨member, List.any_eq_true.mpr ⟨msg, msgMember, ?_⟩⟩
    simp [same, isLive]

section

variable [Unicode] {ids : Text → LabelId}

section

variable (ok : LabelsOk ids db)

include ok

theorem moves_purge (now : Int) : Moves (ids trashName) now db (stateAfter (purge now) db) := by
  rw [stateAfter_purge ok]
  split
  · exact (moves_reconcileRows _ now db).drops (drops_pruneDeadlines _)
  · exact (moves_reconcileRows _ now db).drops (drops_destroy _ _)

theorem moves_destroyNow (msgs : List MsgId) (now : Int) :
    Moves (ids trashName) now db (stateAfter (destroyNow msgs now) db) := by
  unfold destroyNow
  split
  · exact Moves.of_deadlineView rfl
  · rw [stateAfter_reconcile_bind ok, stateAfter_execReturning]
    exact (moves_reconcileRows _ now db).drops (drops_destroy _ _)

theorem moves_empty (now : Int) : Moves (ids trashName) now db (stateAfter (empty now) db) := by
  have same : labelView (reconcileRows (ids trashName) now db) = labelView db := rfl
  have reconciled := ok.of_labelView same
  obtain ⟨label, _, _, _, _, read⟩ := reconciled.reserved_run trashName_reserved
  unfold empty inTrash
  rw [stateAfter_reconcile_bind ok, bind_assoc, stateAfter_bind_of_ok read,
    stateAfter_query_bind, stateAfter_execReturning]
  exact (moves_reconcileRows _ now db).drops (drops_destroy _ _)

theorem moves_restore (msgs : List MsgId) (now : Int) :
    Moves (ids trashName) now db (stateAfter (restore msgs) db) := by
  unfold restore
  split
  · exact Moves.of_deadlineView rfl
  · obtain ⟨label, _, _, _, ident, read⟩ := ok.reserved_run trashName_reserved
    rw [stateAfter_bind_of_ok read, stateAfter_exec_bind, stateAfter_exec_bind, stateAfter_exec]
    obtain ⟨items, written⟩ := setExt_eq msgs label false .sync db
    rw [written]
    refine ⟨rfl, ?_, ?_⟩
    · intro row member
      exact Or.inl (mem_deleteWhere.mp member).1
    · intro old member _ labelled
      -- What is restored lost the label, so this message is not among it.
      have spared := (mem_setRows_false.mp labelled).2
      refine ⟨old, mem_deleteWhere.mpr ⟨member, ?_⟩, rfl⟩
      rw [← ident] at spared
      simpa using spared

theorem moves_step (event : Event) (notSetting : ∀ days, event.op ≠ .setPurgeDays days) :
    Moves (ids trashName) event.now db (step db event) := by
  have found : ∀ (look : Db → Except Text Label) {f : Label → DbAction Unit},
      (∀ label, Keeps deadlineView (f label)) →
        Moves (ids trashName) event.now db (stateAfter (queryExcept look >>= f) db) :=
    fun look _ keeps => Moves.of_deadlineView (Keeps.bind (Keeps.queryExcept look) keeps db)
  have applied : ∀ msgs label apply,
      Keeps deadlineView (exec (setExt msgs label apply .sync) : DbAction Unit) :=
    fun msgs label apply => (Frames.keeps_setExt msgs label apply .sync).coarser deadlineView
  unfold step
  cases op : event.op with
  | trash msgs => exact Moves.of_grows (grows_toTrash msgs .deleted event.now db)
  | restore msgs => exact moves_restore ok msgs event.now
  | destroyNow msgs =>
    simp only [perform, stateAfter_run]
    exact moves_destroyNow ok msgs event.now
  | emptyTrash =>
    simp only [perform, stateAfter_run]
    exact moves_empty ok event.now
  | purge =>
    simp only [perform, stateAfter_run]
    exact moves_purge ok event.now
  | setPurgeDays days => exact absurd op (notSetting days)
  | setMessageTimer msgId duration => exact Moves.of_deadlineView rfl
  | divert =>
    simp only [perform, stateAfter_run]
    exact Moves.of_grows (grows_divert event.now db)
  | createLabel name color =>
    simp only [perform, stateAfter_run]
    exact Moves.of_deadlineView
      ((keeps_createExt name color .sync event.now).coarser deadlineView db)
  | renameLabel id newName =>
    exact found _ fun label => (keeps_renameExt label newName .sync).coarser deadlineView
  | setLabelColor id color =>
    exact found _ fun label => (keeps_setColorExt label color .sync).coarser deadlineView
  | deleteLabel id => exact found _ fun label => (keeps_deleteExt label .sync).coarser deadlineView
  | applyLabel msgs id => exact found _ fun label => applied msgs label true
  | unapplyLabel msgs id => exact found _ fun label => applied msgs label false
  | archive msgs => exact found _ fun label => applied msgs label true
  | unarchive msgs => exact found _ fun label => applied msgs label false
  | syncItem item timestamp =>
    exact Moves.of_deadlineView
      ((keeps_executeSyncItem item timestamp event.now).coarser deadlineView db)
  | receive mail =>
    simp only [perform, stateAfter_run]
    exact Moves.of_grows (grows_receive mail event.now db)
  | setGating enabled =>
    exact Moves.of_deadlineView ((keeps_setEnabled enabled).coarser Prod.snd db)
  | setHoldDays days => exact Moves.of_deadlineView rfl
  | sweep =>
    simp only [perform, stateAfter_run]
    exact Moves.of_grows (grows_sweep event.now db)
  | markseen msgs =>
    refine Moves.of_deadlineView ?_
    simp only [perform, stateAfter_exec, Housekeeping.markseenMsgs]
    split <;> rfl
  | deleteExpired => exact Moves.of_grows (grows_deleteExpiredMessages event.now db)
  | tidy => exact Moves.of_deadlineView rfl
  | finish listed => exact Moves.of_deadlineView rfl

end

/-! ## The condition and the invariant -/

/-- A step that leaves the windows of messages in the trash alone: no message
enters the trash while a deadline of an earlier stay is still there, the window
is lowered only when every message in the trash has its deadline, and adding the
window to the clock stays within 64 bits. -/
structure LeavesWindows (db : Db) (event : Event) : Prop where
  noStaleDeadline : ∀ row ∈ db.trashedMsgs, ¬InTrash row.msgId db →
    ¬InTrash row.msgId (step db event)
  deadlinesFirst : ∀ days, event.op = .setPurgeDays days →
    purgeSecs (setPurgeDays days db) < purgeSecs db →
      ∀ msgId, InTrash msgId db → HasDeadline db msgId
  inRange : fitsI64 (event.now + purgeSecs db)

/-- Of a message in the trash: when it entered, that its deadlines are a window
after that, and that a deadline yet to be written will be. -/
def Windowed (db : Db) (events : List Event) (msgId : MsgId) : Prop :=
  ∃ early entry later, events = early ++ entry :: later ∧
    EnteredAt step (InTrash msgId) db early entry later ∧
    (∀ row ∈ (runAll step db events).trashedMsgs, row.msgId = msgId →
      entry.now + purgeSecs (runAll step db early) ≤ row.purgeAt) ∧
    (¬HasDeadline (runAll step db events) msgId →
      purgeSecs (runAll step db early) ≤ purgeSecs (runAll step db events))

theorem inTrash_iff (ok : LabelsOk ids db) :
    InTrash msgId db ↔ Live db msgId ∧ { msgId, labelId := ids trashName } ∈ db.msgLabels :=
  and_congr_right fun _ => ⟨mem_of_carriesTrash ok, carriesTrash_of_mem ok⟩

theorem windowed_of_entry {events : List Event} {event : Event}
    (ok : LabelsOk ids (runAll step db events))
    (leaves : LeavesWindows (runAll step db events) event)
    (outside : ¬InTrash msgId (runAll step db events))
    (inside : InTrash msgId (step (runAll step db events) event)) :
    Windowed db (events ++ [event]) msgId := by
  have notSetting : ∀ days, event.op ≠ .setPurgeDays days := by
    intro days setting
    -- Changing the window moves no message.
    have same : step (runAll step db events) event =
        setPurgeDays days (runAll step db events) := by
      unfold step
      rw [setting]
      rfl
    rw [same] at inside
    exact outside inside
  have moved := moves_step ok event notSetting
  refine ⟨events, event, [], rfl, EnteredAt.begin outside inside, ?_, ?_⟩
  · rw [runAll_snoc]
    intro row member same
    rcases moved.added row member with stale | ⟨_, due⟩
    · rw [← same] at outside inside
      exact absurd inside (leaves.noStaleDeadline row stale outside)
    · rw [due, deadline, saturatingAdd, saturate_eq_self leaves.inRange]
  · rw [runAll_snoc]
    intro _
    exact le_of_eq moved.window.symm

theorem windowed_of_stay {events : List Event} {event : Event}
    (ok : LabelsOk ids (runAll step db events))
    (leaves : LeavesWindows (runAll step db events) event)
    (clock : ∀ earlier ∈ events, earlier.now ≤ event.now) (stay : Windowed db events msgId)
    (wasInside : InTrash msgId (runAll step db events))
    (inside : InTrash msgId (step (runAll step db events) event)) :
    Windowed db (events ++ [event]) msgId := by
  obtain ⟨early, entry, later, split, entered, bound, ahead⟩ := stay
  have continued : EnteredAt step (InTrash msgId) db early entry (later ++ [event]) := by
    refine entered.continue ?_
    rw [← split]
    exact inside
  have entryTime : entry.now ≤ event.now := clock entry (by simp [split])
  refine ⟨early, entry, later ++ [event], by simp [split], continued, ?_⟩
  rw [runAll_snoc]
  by_cases setting : ∃ days, event.op = .setPurgeDays days
  · obtain ⟨days, setting⟩ := setting
    have same : step (runAll step db events) event =
        setPurgeDays days (runAll step db events) := by
      unfold step
      rw [setting]
      rfl
    rw [same]
    refine ⟨bound, ?_⟩
    intro missing
    have wasAhead := ahead missing
    by_contra lowered
    have lower : purgeSecs (setPurgeDays days (runAll step db events)) <
        purgeSecs (runAll step db events) := by omega
    exact missing (leaves.deadlinesFirst days setting lower msgId wasInside)
  · have moved := moves_step ok event fun days same => setting ⟨days, same⟩
    refine ⟨?_, ?_⟩
    · intro row member same
      rcases moved.added row member with old | ⟨fresh, due⟩
      · exact bound row old same
      · have wasAhead := ahead fun ⟨old, oldMember, oldSame⟩ =>
          fresh old oldMember (oldSame.trans same.symm)
        rw [due, deadline, saturatingAdd, saturate_eq_self leaves.inRange]
        omega
    · intro missing
      rw [moved.window]
      refine ahead ?_
      rintro ⟨old, oldMember, rfl⟩
      have after := labelsOk_step ok event
      obtain ⟨live, labelled⟩ := (inTrash_iff after).mp inside
      exact missing (moved.kept old oldMember live labelled)

theorem windowed_runAll (ok : LabelsOk ids db) (emptyTrash : ∀ msgId, ¬InTrash msgId db)
    (events : List Event) (clock : Clocked events) (meets : MeetsAll step LeavesWindows db events)
    (inside : InTrash msgId (runAll step db events)) : Windowed db events msgId := by
  -- The last step either brought the message in or found it there.
  induction events using List.reverseRecOn with
  | nil => exact absurd inside (emptyTrash msgId)
  | append_singleton events event ih =>
    obtain ⟨meetsBefore, meetsLast⟩ := (meetsAll_append db events [event]).mp meets
    obtain ⟨clockBefore, _, clockLast⟩ := List.pairwise_append.mp clock
    have reachable := labelsOk_runAll ok events
    rw [runAll_snoc] at inside
    by_cases wasInside : InTrash msgId (runAll step db events)
    · have stay := ih clockBefore meetsBefore wasInside
      refine windowed_of_stay reachable meetsLast.1 ?_ stay wasInside inside
      intro earlier member
      exact clockLast earlier member event (List.mem_singleton_self event)
    · exact windowed_of_entry reachable meetsLast.1 wasInside inside

/-! ## What a purge destroys -/

/-- The message has been in the trash without interruption since some step, for
at least the window that was configured then. -/
def FullWindow (db : Db) (events : List Event) (now : Int) (msgId : MsgId) : Prop :=
  ∃ early entry later, events = early ++ entry :: later ∧
    EnteredAt step (InTrash msgId) db early entry later ∧
    entry.now + purgeSecs (runAll step db early) ≤ now

/-- In every run that leaves windows alone, a message that a purge destroys was
in the trash for its full window. -/
theorem purged_after_full_window {db : Db} (ok : LabelsOk ids db)
    (emptyTrash : ∀ msgId, ¬InTrash msgId db) (events : List Event) (now : Int)
    (clock : Clocked (events ++ [{ now, op := .purge }]))
    (meets : MeetsAll step LeavesWindows db (events ++ [{ now, op := .purge }])) {msgId : MsgId}
    (live : Live (runAll step db events) msgId)
    (gone : ¬Live (step (runAll step db events) { now, op := .purge }) msgId) :
    FullWindow db events now msgId := by
  obtain ⟨meetsBefore, meetsLast, _⟩ := (meetsAll_append _ _ _).mp meets
  obtain ⟨clockBefore, _, clockLast⟩ := List.pairwise_append.mp clock
  have reachable := labelsOk_runAll ok events
  simp only [step, perform, stateAfter_run] at gone
  obtain ⟨row, member, same, passed⟩ := due_of_purge reachable live gone
  have labelled := labelled_of_reconcileRows member
  rw [same] at labelled
  have inside := (inTrash_iff reachable).mpr ⟨live, labelled⟩
  obtain ⟨early, entry, later, split, entered, bound, ahead⟩ :=
    windowed_runAll ok emptyTrash events clockBefore meetsBefore inside
  refine ⟨early, entry, later, split, entered, ?_⟩
  have entryTime : entry.now ≤ now :=
    clockLast entry (by simp [split]) { now, op := .purge } (List.mem_singleton_self _)
  rcases (moves_reconcileRows (ids trashName) now (runAll step db events)).added row member with
    old | ⟨fresh, due⟩
  · have afterWindow := bound row old same
    omega
  · -- The deadline was written by this very purge.
    have wasAhead := ahead (by
      rintro ⟨old, oldMember, oldSame⟩
      exact fresh old oldMember (oldSame.trans same.symm))
    have inRange : fitsI64 (now + purgeSecs (runAll step db events)) := meetsLast.inRange
    rw [due, deadline, saturatingAdd, saturate_eq_self inRange] at passed
    omega

end

section

local instance : Unicode := asciiTables

def oneDay : Db := { oneMessage with config := { trashPurgeDays := 1 } }

/-- Thrown away, left alone for a day, purged. -/
theorem purged_after_full_window_of_a_day :
    FullWindow oneDay [{ now := 100, op := .trash [10] }] 86500 10 := by
  refine purged_after_full_window (labelsOk_migrated rfl rfl) ?_ _ _ (by decide) ?_
    (by decide) (by decide)
  · rintro msgId ⟨_, label, _, _, _, labelled⟩
    simp [oneDay, oneMessage] at labelled
  · refine ⟨⟨by decide, nofun, by decide⟩, ⟨by decide, nofun, by decide⟩, trivial⟩

/-- Thrown away, the label taken off through the generic call and put back just
before the first deadline: the message is destroyed a second later. -/
def putBack : List Event :=
  [{ now := 100, op := .trash [10] },
   { now := 200, op := .unapplyLabel [10] 2 },
   { now := 86499, op := .applyLabel [10] 2 }]

theorem stale_deadline_cuts_window :
    Live (runAll step oneDay putBack) 10 ∧
      ¬Live (step (runAll step oneDay putBack) { now := 86500, op := .purge }) 10 ∧
      ¬FullWindow oneDay putBack 86500 10 := by
  refine ⟨by decide, by decide, ?_⟩
  rintro ⟨early, entry, later, split, entered, window⟩
  rcases early with _ | ⟨first, _ | ⟨second, _ | ⟨third, rest⟩⟩⟩
  · -- The stay that began with the deletion was interrupted.
    obtain ⟨rfl, rfl⟩ := List.cons.inj split
    have interrupted := entered.since 1 (by decide)
    revert interrupted
    decide
  · obtain ⟨rfl, _⟩ := List.cons.inj split
    exact entered.before (by decide)
  · -- The stay that began when the label was put back is a second old.
    obtain ⟨rfl, tail⟩ := List.cons.inj split
    obtain ⟨rfl, last⟩ := List.cons.inj tail
    obtain ⟨rfl, _⟩ := List.cons.inj last
    revert window
    decide
  · have lengths := congrArg List.length split
    simp [putBack] at lengths

end

end Eeemail.TrashWindow
