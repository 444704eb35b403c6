import Eeemail.Lib.Runs
import Eeemail.Frames

/-! # The mailbox as a state machine

Everything that can happen to stored mail is one operation: what the user does,
what another device announces, the background passes and the arrival of a
message.  An operation is one atomic call at some time, and it changes the
database even when it ends in an error.  The first invariant of every run is
that the reserved labels stay in place. -/

set_option autoImplicit false

namespace Eeemail.Mailbox

open Lib.Texts Lib.Actions Lib.Runs Store Labels ReservedLabels Trash Gating
open Housekeeping Reception Frames

inductive Op where
  | trash (msgs : List MsgId)
  | restore (msgs : List MsgId)
  | destroyNow (msgs : List MsgId)
  | emptyTrash
  | purge
  | setPurgeDays (days : Int)
  | setMessageTimer (msgId : MsgId) (duration : Nat)
  | divert
  | createLabel (name : Text) (color : Option Nat)
  | renameLabel (id : LabelId) (newName : Text)
  | setLabelColor (id : LabelId) (color : Option Nat)
  | deleteLabel (id : LabelId)
  | applyLabel (msgs : List MsgId) (id : LabelId)
  | unapplyLabel (msgs : List MsgId) (id : LabelId)
  | archive (msgs : List MsgId)
  | unarchive (msgs : List MsgId)
  | syncItem (item : LabelSyncItem) (timestamp : Int)
  | receive (mail : Incoming)
  | setGating (enabled : Bool)
  | setHoldDays (days : Int)
  | sweep
  | markseen (msgs : List MsgId)
  | deleteExpired
  /-- What housekeeping prunes before it sweeps and purges. -/
  | tidy
  /-- What housekeeping does last; `listed` are the Message-IDs the server still lists. -/
  | finish (listed : List Text)
  deriving DecidableEq, Repr

structure Event where
  now : Int
  op : Op
  deriving DecidableEq, Repr

abbrev Clocked (events : List Event) : Prop := events.Pairwise fun a b => a.now ≤ b.now

def housekeepingPass (listed : List Text) (now : Int) : List Event :=
  [{ now, op := .tidy }, { now, op := .sweep }, { now, op := .purge },
   { now, op := .finish listed }]

def tidy (now : Int) (db : Db) : Db :=
  pruneContactPolicy (pruneUndelivered (Labels.prune now (pruneRecipients db)))

def finish (listed : List Text) (now : Int) (db : Db) : Db :=
  pruneTombstones listed now (startEphemeralTimers now (pruneStructured db))

def run {α : Type} (x : DbAction α) : DbAction Unit := do
  let _ ← x
  pure ()

section

variable [Unicode]

def perform (now : Int) : Op → DbAction Unit
  | .trash msgs => Trash.trash msgs now
  | .restore msgs => restore msgs
  | .destroyNow msgs => run (destroyNow msgs now)
  | .emptyTrash => run (empty now)
  | .purge => run (purge now)
  | .setPurgeDays days => exec (setPurgeDays days)
  | .setMessageTimer msgId duration => exec (setMessageTimer msgId duration now)
  | .divert => run (divert now)
  | .createLabel name color => run (create name color now)
  | .renameLabel id newName => rename id newName
  | .setLabelColor id color => setColor id color
  | .deleteLabel id => delete id
  | .applyLabel msgs id => Labels.apply msgs id
  | .unapplyLabel msgs id => unapply msgs id
  | .archive msgs => Labels.archive msgs
  | .unarchive msgs => Labels.unarchive msgs
  | .syncItem item timestamp => executeSyncItem item timestamp now
  | .receive mail => run (Reception.receive mail now)
  | .setGating enabled => setEnabled enabled
  | .setHoldDays days => exec (setHoldDays days)
  | .sweep => run (sweep now)
  | .markseen msgs => exec (markseenMsgs msgs now)
  | .deleteExpired => deleteExpiredMessages now
  | .tidy => exec (tidy now)
  | .finish listed => exec (finish listed now)

def step (db : Db) (event : Event) : Db := stateAfter (perform event.now event.op) db

/-! ## The reserved labels stay -/

omit [Unicode] in
@[simp]
theorem stateAfter_run {α : Type} (x : DbAction α) (db : Db) :
    stateAfter (run x) db = stateAfter x db := by
  unfold run
  rw [stateAfter_bind]
  cases result : x.run db with
  | ok a db' => simp [stateAfter, result]
  | error e db' => simp [stateAfter, result]

theorem keeps_restore (msgs : List MsgId) : Keeps labelView (restore msgs) := by
  refine Keeps.ite (Keeps.pure _) ?_
  refine Keeps.bind (ReservedLabels.keeps_reserved trashName) fun label => ?_
  refine Keeps.bind (ReservedLabels.keeps_setExt msgs label false .sync) fun _ => ?_
  exact Keeps.bind (Keeps.exec fun _ => rfl) fun _ => Keeps.exec fun _ => rfl

theorem keeps_reconcile (now : Int) : Keeps labelView (reconcile now) :=
  Keeps.bind (ReservedLabels.keeps_reserved trashName) fun _ => Keeps.exec fun _ => rfl

theorem keeps_purge (now : Int) : Keeps labelView (purge now) := by
  refine Keeps.bind (keeps_reconcile now) fun _ => Keeps.execReturning fun db => ?_
  split <;> rfl

theorem keeps_destroyNow (msgs : List MsgId) (now : Int) :
    Keeps labelView (destroyNow msgs now) := by
  refine Keeps.ite (Keeps.pure _) ?_
  exact Keeps.bind (keeps_reconcile now) fun _ => Keeps.execReturning fun _ => rfl

theorem keeps_empty (now : Int) : Keeps labelView (empty now) := by
  refine Keeps.bind (keeps_reconcile now) fun _ => ?_
  refine Keeps.bind ?_ fun ids => Keeps.execReturning fun _ => rfl
  exact Keeps.bind (ReservedLabels.keeps_reserved trashName) fun _ => Keeps.query _

theorem labelsOk_step {ids : Text → LabelId} {db : Db} (ok : LabelsOk ids db) (event : Event) :
    LabelsOk ids (step db event) := by
  have quiet : ∀ {db' : Db}, Grows event.now db db' → LabelsOk ids db' :=
    fun grown => ok.of_labelView grown.labels
  have kept : ∀ {db' : Db}, labelView db' = labelView db → LabelsOk ids db' :=
    fun same => ok.of_labelView same
  unfold step
  cases event.op with
  | trash msgs => exact quiet (grows_toTrash msgs .deleted event.now db)
  | restore msgs => exact kept (keeps_restore msgs db)
  | destroyNow msgs =>
    simp only [perform, stateAfter_run]
    exact kept (keeps_destroyNow msgs event.now db)
  | emptyTrash =>
    simp only [perform, stateAfter_run]
    exact kept (keeps_empty event.now db)
  | purge =>
    simp only [perform, stateAfter_run]
    exact kept (keeps_purge event.now db)
  | setPurgeDays days => exact kept rfl
  | setMessageTimer msgId duration => exact kept rfl
  | divert =>
    simp only [perform, stateAfter_run]
    exact quiet (grows_divert event.now db)
  | createLabel name color =>
    simp only [perform, stateAfter_run]
    exact TableOk.preserves_createExt name color .sync event.now db ok
  | renameLabel id newName => exact TableOk.preserves_rename id newName db ok
  | setLabelColor id color => exact TableOk.preserves_setColor id color db ok
  | deleteLabel id => exact TableOk.preserves_delete id db ok
  | applyLabel msgs id => exact kept (keeps_apply msgs id db)
  | unapplyLabel msgs id => exact kept (keeps_unapply msgs id db)
  | archive msgs => exact kept (keeps_archive msgs db)
  | unarchive msgs => exact kept (keeps_unarchive msgs db)
  | syncItem item timestamp =>
    exact TableOk.preserves_executeSyncItem item timestamp event.now db ok
  | receive mail =>
    simp only [perform, stateAfter_run]
    exact quiet (grows_receive mail event.now db)
  | setGating enabled => exact kept ((keeps_setEnabled enabled).coarser Prod.fst db)
  | setHoldDays days => exact kept rfl
  | sweep =>
    simp only [perform, stateAfter_run]
    exact quiet (grows_sweep event.now db)
  | markseen msgs =>
    refine kept ?_
    simp only [perform, stateAfter_exec, markseenMsgs]
    split <;> rfl
  | deleteExpired => exact quiet (grows_deleteExpiredMessages event.now db)
  | tidy => exact kept rfl
  | finish listed => exact kept rfl

theorem labelsOk_runAll {ids : Text → LabelId} {db : Db} (ok : LabelsOk ids db)
    (events : List Event) : LabelsOk ids (runAll step db events) := by
  have preserved : ∀ s event, LabelsOk ids s → LabelsOk ids (step s event) :=
    fun _ event good => labelsOk_step good event
  exact invariant_of_step preserved events db ok

end

end Eeemail.Mailbox
