import Eeemail.TrashSafety

/-! # Keeping a message

A user who takes a message out of the trash, or switches its timer off, wants to
keep it.  The background passes leave it alone when nothing is pending for it:
no countdown that housekeeping would start, no hold that would elapse, no
`Trash` label.  A message of a conversation with a timer that has been read does
have a countdown to start, and loses what the user asked for. -/

set_option autoImplicit false

namespace Eeemail.Keeping

open Lib.Texts Lib.Actions Lib.Tables Lib.Runs Store Labels ReservedLabels Trash Gating Housekeeping
open Frames Mailbox TrashSafety

/-- What runs by itself: the parts of a housekeeping pass, expiry, and other
messages being seen. -/
inductive IsBackground (msgId : MsgId) : Op → Prop where
  | tidy : IsBackground msgId .tidy
  | sweep : IsBackground msgId .sweep
  | purge : IsBackground msgId .purge
  | finish (listed : List Text) : IsBackground msgId (.finish listed)
  | deleteExpired : IsBackground msgId .deleteExpired
  | markseen (msgs : List MsgId) (others : msgId ∉ msgs) : IsBackground msgId (.markseen msgs)

def NoCountdown (msg : Message) : Prop :=
  msg.ephemeralTimer = 0 ∨ msg.state = .inFresh ∨ msg.state = .inNoticed ∨ msg.state = .outDraft

/-- The message is there and out of the trash, and nothing is pending for it. -/
structure Calm (trashId : LabelId) (msgId : MsgId) (db : Db) : Prop where
  live : Live db msgId
  unlabelled : { msgId, labelId := trashId } ∉ db.msgLabels
  stopped : ∀ msg ∈ db.msgs, msg.id = msgId → msg.ephemeralTimestamp = 0
  noCountdown : ∀ msg ∈ db.msgs, msg.id = msgId → NoCountdown msg
  holdStays : holdDays db ≤ 0 ∨ ∀ now, msgId ∉ elapsed now db
  noAge : configInt db.config.deleteDeviceAfter = 0

/-! ## Writes that do not concern the message -/

variable {msgs : List MsgId}

section Writes

variable {trashId : LabelId} {msgId : MsgId} {db db' : Db}

section

variable (calm : Calm trashId msgId db)

include calm

theorem Calm.mono (msgs : db'.msgs = db.msgs)
    (labels : { msgId, labelId := trashId } ∈ db'.msgLabels →
      { msgId, labelId := trashId } ∈ db.msgLabels)
    (held : ∀ row ∈ db'.heldMsgs, row ∈ db.heldMsgs) (config : db'.config = db.config) :
    Calm trashId msgId db' := by
  constructor
  · obtain ⟨msg, member, found⟩ := calm.live
    exact ⟨msg, msgs ▸ member, found⟩
  · exact fun labelled => calm.unlabelled (labels labelled)
  · rw [msgs]
    exact calm.stopped
  · rw [msgs]
    exact calm.noCountdown
  · have sameDays : holdDays db' = holdDays db := by rw [holdDays, holdDays, config]
    rw [sameDays]
    refine calm.holdStays.imp_right fun stays now due => stays now ?_
    obtain ⟨row, member, isIt⟩ := List.mem_map.mp due
    obtain ⟨rowMember, passed⟩ := List.mem_filter.mp member
    rw [sameDays] at passed
    exact List.mem_map.mpr ⟨row, List.mem_filter.mpr ⟨held row rowMember, passed⟩, isIt⟩
  · rw [config]
    exact calm.noAge

theorem Calm.updateMsgs {p : Message → Bool}
    {f : Message → Message} (keepsId : ∀ msg, (f msg).id = msg.id)
    (spares : ∀ msg ∈ db.msgs, msg.id = msgId → p msg = false) :
    Calm trashId msgId { db with msgs := updateWhere p f db.msgs } := by
  have same : ∀ msg ∈ updateWhere p f db.msgs, msg.id = msgId → msg ∈ db.msgs := by
    intro msg member isIt
    obtain ⟨old, oldMember, rfl⟩ := mem_updateWhere.mp member
    have oldIsIt : old.id = msgId := by
      rw [← isIt]
      split
      · exact (keepsId old).symm
      · rfl
    simpa [spares old oldMember oldIsIt] using oldMember
  refine ⟨?_, calm.unlabelled, ?_, ?_, calm.holdStays, calm.noAge⟩
  · obtain ⟨msg, member, isIt, isLive⟩ := calm.live
    refine ⟨msg, mem_updateWhere.mpr ⟨msg, member, ?_⟩, isIt, isLive⟩
    simp [spares msg member isIt]
  · intro msg member isIt
    exact calm.stopped msg (same msg member isIt) isIt
  · intro msg member isIt
    exact calm.noCountdown msg (same msg member isIt) isIt

theorem Calm.trashRows (onServer : Bool)
    (spared : msgId ∉ msgs) : Calm trashId msgId (trashRows msgs onServer db) := by
  refine calm.updateMsgs (fun _ => rfl) ?_
  intro msg _ isIt
  rw [isIt]
  simpa using spared

theorem Calm.clearTimers (spared : msgId ∉ msgs) : Calm trashId msgId (clearTimers msgs db) := by
  refine calm.updateMsgs (fun _ => rfl) ?_
  intro msg _ isIt
  rw [isIt]
  simpa using spared

theorem Calm.not_mem_expired (now : Int) : msgId ∉ expired now db := by
  intro fired
  obtain ⟨msg, member, isIt⟩ := List.mem_map.mp fired
  obtain ⟨msgMember, checks⟩ := List.mem_filter.mp member
  simp [calm.stopped msg msgMember isIt] at checks

theorem Calm.not_mem_selectExpired (now : Int) : msgId ∉ selectExpiredMessages now db := by
  simp only [selectExpiredMessages, expiredByAge, calm.noAge, if_true, List.append_nil]
  exact calm.not_mem_expired now

theorem Calm.markseenMsgs (now : Int)
    (others : msgId ∉ msgs) : Calm trashId msgId (markseenMsgs msgs now db) := by
  have spares : ∀ msg : Message, msg.id = msgId → msgs.contains msg.id = false := by
    intro msg isIt
    rw [isIt]
    simpa using others
  unfold Housekeeping.markseenMsgs
  simp only
  split
  · refine Calm.updateMsgs ?_ (fun _ => rfl) ?_
    · refine calm.updateMsgs (fun _ => rfl) ?_
      intro msg _ isIt
      simp only [spares msg isIt, Bool.false_and]
    · intro msg _ isIt
      simp only [spares msg isIt, Bool.false_and]
  · refine calm.updateMsgs (fun _ => rfl) ?_
    intro msg _ isIt
    simp only [spares msg isIt, Bool.false_and]

theorem Calm.tidy (now : Int) : Calm trashId msgId (tidy now db) :=
  calm.mono rfl (fun labelled => (List.mem_filter.mp labelled).1) (fun _ member => member) rfl

theorem Calm.finish (listed : List Text) (now : Int) :
    Calm trashId msgId (finish listed now db) := by
  have started : Calm trashId msgId (startEphemeralTimers now (pruneStructured db)) := by
    have pruned : Calm trashId msgId (pruneStructured db) :=
      calm.mono rfl id (fun _ member => member) rfl
    refine pruned.updateMsgs (fun _ => rfl) ?_
    intro msg member isIt
    rcases pruned.noCountdown msg member isIt with none | fresh | noticed | draft
    · simp [none]
    · simp [fresh]
    · simp [noticed]
    · simp [draft]
  refine ⟨?_, started.unlabelled, ?_, ?_, started.holdStays, started.noAge⟩
  · obtain ⟨msg, member, isIt, isLive⟩ := started.live
    refine ⟨msg, mem_deleteWhere.mpr ⟨member, ?_⟩, isIt, isLive⟩
    simp [isLive]
  · intro msg member isIt
    exact started.stopped msg (mem_deleteWhere.mp member).1 isIt
  · intro msg member isIt
    exact started.noCountdown msg (mem_deleteWhere.mp member).1 isIt

end

end Writes

/-! ## The background passes -/

section

variable [Unicode] {ids : Text → LabelId} {msgId : MsgId} {db : Db}

variable {trashId : LabelId} {event : Event}

omit [Unicode] in
theorem Calm.trashed (calm : Calm trashId msgId db)
    (spared : msgId ∉ msgs) (reason : Reason) (now : Int) (items : List LabelSyncItem) :
    Calm trashId msgId (trashed trashId msgs reason now items db) := by
  refine calm.mono rfl ?_ (fun _ member => member) rfl
  intro labelled
  rcases mem_setRows_true.mp labelled with old | ⟨_, listed⟩
  · exact old
  · exact absurd listed spared

omit [Unicode] in
theorem Calm.released (calm : Calm trashId msgId db)
    (unverifiedId : LabelId) (msgs : List MsgId) (items : List LabelSyncItem) :
    Calm trashId msgId (released unverifiedId msgs items db) := by
  refine calm.mono rfl ?_ ?_ rfl
  · intro labelled
    exact (mem_setRows_false.mp labelled).1
  · intro row member
    exact (mem_deleteWhere.mp member).1

section

variable (ok : LabelsOk ids db)

include ok

theorem Calm.sweep (calm : Calm (ids trashName) msgId db) (now : Int) :
    Calm (ids trashName) msgId (stateAfter (sweep now) db) := by
  obtain ⟨items, moreItems, after⟩ := stateAfter_sweep ok now
  rw [after]
  split
  next => exact calm.mono rfl id (fun _ member => (List.mem_filter.mp member).1) rfl
  next runs =>
    have spared : msgId ∉ elapsed now db := by
      rcases calm.holdStays with off | stays
      · simp [off] at runs
      · exact stays now
    exact (calm.trashed spared .unaccepted now items).released _ _ moreItems

theorem Calm.purge (calm : Calm (ids trashName) msgId db) (now : Int) :
    Calm (ids trashName) msgId (stateAfter (purge now) db) := by
  rw [stateAfter_purge ok]
  have reconciled : Calm (ids trashName) msgId (reconcileRows (ids trashName) now db) :=
    calm.mono rfl id (fun _ member => member) rfl
  split
  · exact reconciled.mono rfl id (fun _ member => member) rfl
  · have spared : msgId ∉ due now (reconcileRows (ids trashName) now db) := by
      intro listed
      obtain ⟨row, member, isIt⟩ := List.mem_map.mp listed
      have labelled := labelled_of_reconcileRows (List.mem_filter.mp member).1
      rw [isIt] at labelled
      exact calm.unlabelled labelled
    exact (reconciled.trashRows true spared).mono rfl id (fun _ member => member) rfl

theorem Calm.deleteExpired (calm : Calm (ids trashName) msgId db)
    (now : Int) : Calm (ids trashName) msgId (stateAfter (deleteExpiredMessages now) db) := by
  unfold deleteExpiredMessages
  rw [stateAfter_bestEffort_bind, stateAfter_exec]
  have diverted : Calm (ids trashName) msgId (stateAfter (divert now) db) := by
    unfold divert
    rw [stateAfter_query_bind]
    split
    · exact calm
    · rw [stateAfter_query_bind]
      split
      · exact calm
      · have spared := calm.not_mem_expired now
        obtain ⟨items, moved⟩ := toTrash_run ok (expired now db) .expired now
        rw [stateAfter_bind_of_ok moved, stateAfter_exec_bind, stateAfter_pure]
        exact (calm.trashed spared .expired now items).clearTimers spared
  exact diverted.trashRows false (diverted.not_mem_selectExpired now)

theorem Calm.step (calm : Calm (ids trashName) msgId db)
    (background : IsBackground msgId event.op) :
    Calm (ids trashName) msgId (step db event) := by
  obtain ⟨now, op⟩ := event
  unfold Mailbox.step
  cases background with
  | tidy => exact calm.tidy now
  | sweep =>
    simp only [perform, stateAfter_run]
    exact calm.sweep ok now
  | purge =>
    simp only [perform, stateAfter_run]
    exact calm.purge ok now
  | finish listed => exact calm.finish listed now
  | deleteExpired => exact calm.deleteExpired ok now
  | markseen msgs others => exact calm.markseenMsgs now others

theorem Calm.runAll (calm : Calm (ids trashName) msgId db)
    (events : List Event) (background : ∀ event ∈ events, IsBackground msgId event.op) :
    Calm (ids trashName) msgId (runAll Mailbox.step db events) := by
  induction events generalizing db with
  | nil => exact calm
  | cons event rest ih =>
    rw [runAll_cons]
    refine ih (labelsOk_step ok event) ?_ ?_
    · exact calm.step ok (background event List.mem_cons_self)
    · exact fun later member => background later (List.mem_cons_of_mem _ member)

end

/-! ## Keeping sticks exactly when nothing is pending -/

inductive AsksToKeep (msgId : MsgId) : Op → Prop where
  | restore (msgs : List MsgId) (listed : msgId ∈ msgs) : AsksToKeep msgId (.restore msgs)
  | disableTimer : AsksToKeep msgId (.setMessageTimer msgId 0)

/-- Whatever runs in the background afterwards, the message stays, out of the trash. -/
def KeepingSticks (db : Db) (event : Event) (msgId : MsgId) : Prop :=
  ∀ events, (∀ later ∈ events, IsBackground msgId later.op) → Clocked (event :: events) →
    Live (Lib.Runs.runAll Mailbox.step (Mailbox.step db event) events) msgId ∧
      ¬CarriesTrash (Lib.Runs.runAll Mailbox.step (Mailbox.step db event) events) msgId

/-- Before the user asks: the message has no countdown that would start again,
no hold that will elapse, and is not left in the trash by what the user does. -/
structure NothingPending (db : Db) (op : Op) (msgId : MsgId) : Prop where
  noCountdown : ∀ msg ∈ db.msgs, msg.id = msgId → NoCountdown msg
  holdStays : holdDays db ≤ 0 ∨ ∀ now, msgId ∉ elapsed now db
  takenOut : CarriesTrash db msgId → ∃ msgs, op = .restore msgs

structure Kept (trashId : LabelId) (msgId : MsgId) (op : Op) (before after : Db) : Prop where
  msgs : ∃ stops : Message → Bool,
    after.msgs = updateWhere stops (fun msg => { msg with ephemeralTimestamp := 0 }) before.msgs ∧
      ∀ msg, msg.id = msgId → stops msg = true
  labelled : { msgId, labelId := trashId } ∈ after.msgLabels ↔
    { msgId, labelId := trashId } ∈ before.msgLabels ∧ ¬∃ msgs, op = .restore msgs
  held : after.heldMsgs = before.heldMsgs
  config : after.config = before.config

theorem kept_step (ok : LabelsOk ids db) (keep : AsksToKeep msgId event.op) :
    Kept (ids trashName) msgId event.op db (Mailbox.step db event) := by
  obtain ⟨now, op⟩ := event
  unfold Mailbox.step
  cases keep with
  | restore msgs listed =>
    simp only [perform]
    unfold restore
    split
    next none =>
      rw [List.isEmpty_iff.mp none] at listed
      exact absurd listed List.not_mem_nil
    next =>
      obtain ⟨label, _, _, _, ident, read⟩ := ok.reserved_run trashName_reserved
      obtain ⟨items, written⟩ := setExt_eq msgs label false .sync db
      rw [stateAfter_bind_of_ok read, stateAfter_exec_bind, stateAfter_exec_bind,
        stateAfter_exec, written, ident]
      refine ⟨⟨_, rfl, ?_⟩, ?_, rfl, rfl⟩
      · intro msg isIt
        rw [isIt]
        simpa using listed
      · refine mem_setRows_false.trans (and_congr_right fun _ => ?_)
        simp [listed]
  | disableTimer =>
    refine ⟨⟨_, rfl, ?_⟩, ?_, rfl, rfl⟩
    · intro msg isIt
      simpa using isIt
    · simp only [reduceCtorEq, exists_false, not_false_iff, and_true]
      rfl

omit [Unicode] in
theorem Kept.mem_msgs {op : Op} {after : Db}
    (kept : Kept trashId msgId op db after) {msg : Message} (isIt : msg.id = msgId) :
    msg ∈ after.msgs ↔
      ∃ old ∈ db.msgs, old.id = msgId ∧ { old with ephemeralTimestamp := 0 } = msg := by
  obtain ⟨stops, msgs, stopsIt⟩ := kept.msgs
  rw [msgs, mem_updateWhere]
  constructor
  · rintro ⟨old, member, rfl⟩
    have oldIsIt : old.id = msgId := by
      rw [← isIt]
      split <;> rfl
    exact ⟨old, member, oldIsIt, by simp [stopsIt old oldIsIt]⟩
  · rintro ⟨old, member, oldIsIt, rfl⟩
    exact ⟨old, member, by simp [stopsIt old oldIsIt]⟩

omit [Unicode] in
theorem Kept.mem_elapsed {op : Op} {after : Db}
    (kept : Kept trashId msgId op db after) (now : Int) : elapsed now after = elapsed now db := by
  unfold elapsed holdDays
  rw [kept.held, kept.config]

theorem calm_of_kept {op : Op} {after : Db} (ok : LabelsOk ids db)
    (kept : Kept (ids trashName) msgId op db after) (live : Live db msgId)
    (noAge : configInt db.config.deleteDeviceAfter = 0) (nothing : NothingPending db op msgId) :
    Calm (ids trashName) msgId after := by
  constructor
  · obtain ⟨msg, member, isIt, isLive⟩ := live
    have stopped : Message.id { msg with ephemeralTimestamp := 0 } = msgId := isIt
    exact ⟨_, (kept.mem_msgs stopped).mpr ⟨msg, member, isIt, rfl⟩, stopped, isLive⟩
  · intro labelled
    obtain ⟨was, stays⟩ := kept.labelled.mp labelled
    exact stays (nothing.takenOut (carriesTrash_of_mem ok was))
  · intro msg member isIt
    obtain ⟨old, _, _, rfl⟩ := (kept.mem_msgs isIt).mp member
    rfl
  · intro msg member isIt
    obtain ⟨old, oldMember, oldIsIt, rfl⟩ := (kept.mem_msgs isIt).mp member
    exact nothing.noCountdown old oldMember oldIsIt
  · simp only [kept.mem_elapsed, holdDays, kept.config]
    exact nothing.holdStays
  · rw [kept.config]
    exact noAge

/-! ### What happens otherwise -/

omit [Unicode] in
theorem elapsed_mono {first second : Int} (later : first ≤ second)
    (due : msgId ∈ elapsed first db) : msgId ∈ elapsed second db := by
  obtain ⟨row, member, isIt⟩ := List.mem_map.mp due
  obtain ⟨rowMember, passed⟩ := List.mem_filter.mp member
  refine List.mem_map.mpr ⟨row, List.mem_filter.mpr ⟨rowMember, ?_⟩, isIt⟩
  have more := saturatingSub_mono later (saturatingMul (holdDays db) secondsPerDay)
  exact decide_eq_true (le_trans (of_decide_eq_true passed) more)

theorem labelled_of_sweep (ok : LabelsOk ids db) {now : Int} (days : 0 < holdDays db)
    (due : msgId ∈ elapsed now db) :
    { msgId, labelId := ids trashName } ∈ (stateAfter (sweep now) db).msgLabels := by
  have runs : ¬((decide (holdDays db ≤ 0) || (elapsed now db).isEmpty) = true) := by
    have some : elapsed now db ≠ [] := List.ne_nil_of_mem due
    simp [some, days]
  obtain ⟨items, moreItems, after⟩ := stateAfter_sweep ok now
  rw [after, if_neg runs]
  -- Letting it out of the hold takes off the other label.
  refine mem_setRows_false.mpr ⟨mem_setRows_true.mpr (Or.inr ⟨rfl, due⟩), ?_⟩
  rintro ⟨same, _⟩
  exact ok.ids_ne trashName_reserved unverifiedName_reserved (by decide) same

theorem lost_of_expired (ok : LabelsOk ids db) {now : Int} (fired : msgId ∈ expired now db)
    (live : Live (stateAfter (deleteExpiredMessages now) db) msgId) :
    { msgId, labelId := ids trashName } ∈
      (stateAfter (deleteExpiredMessages now) db).msgLabels := by
  unfold deleteExpiredMessages at live ⊢
  rw [stateAfter_bestEffort_bind, stateAfter_exec] at live ⊢
  unfold divert at live ⊢
  rw [stateAfter_query_bind] at live ⊢
  split at live
  next off =>
    have listed : msgId ∈ selectExpiredMessages now db := List.mem_append_left _ fired
    obtain ⟨msg, member, isIt, isLive⟩ := live
    obtain ⟨old, _, rfl⟩ := mem_updateWhere.mp member
    by_cases isOld : old.id = msgId
    · simp [isOld, listed, tombstone, Message.isLive] at isLive
    · split at isIt <;> exact absurd isIt isOld
  next on =>
    have some : (expired now db).isEmpty = false := by
      simpa using List.ne_nil_of_mem fired
    obtain ⟨items, moved⟩ := toTrash_run ok (expired now db) .expired now
    rw [if_neg on, stateAfter_query_bind]
    simp only [some, Bool.false_eq_true, if_false]
    rw [stateAfter_bind_of_ok moved, stateAfter_exec_bind, stateAfter_pure]
    exact mem_setRows_true.mpr (Or.inr ⟨rfl, fired⟩)

omit [Unicode] in
theorem expired_of_finish {msg : Message} (member : msg ∈ db.msgs) (isLive : msg.isLive = true)
    (isStopped : msg.ephemeralTimestamp = 0) (countdown : ¬NoCountdown msg) (now : Int)
    (positive : 0 < now) (listed : List Text) :
    msg.id ∈ expired (now + msg.ephemeralTimer) (finish listed now db) := by
  simp only [NoCountdown, not_or] at countdown
  obtain ⟨timed, notFresh, notNoticed, notDraft⟩ := countdown
  have started : { msg with ephemeralTimestamp := now + msg.ephemeralTimer } ∈
      (startEphemeralTimers now (pruneStructured db)).msgs := by
    refine mem_updateWhere.mpr ⟨msg, member, ?_⟩
    simp [isStopped, notFresh, notNoticed, notDraft, Nat.pos_of_ne_zero timed]
  refine List.mem_map.mpr ⟨_, List.mem_filter.mpr ⟨mem_deleteWhere.mpr ⟨started, ?_⟩, ?_⟩, rfl⟩
  · have stillLive : Message.isLive
        { msg with ephemeralTimestamp := now + msg.ephemeralTimer } = true := isLive
    simp [stillLive]
  · have runs : now + (msg.ephemeralTimer : Int) ≠ 0 := by omega
    have stillLive : Message.isLive
        { msg with ephemeralTimestamp := now + msg.ephemeralTimer } = true := isLive
    simp [runs, stillLive]

theorem noCountdown_of_sticks (ok : LabelsOk ids db) (unique : (db.msgs.map (·.id)).Nodup)
    (kept : Kept (ids trashName) msgId event.op db (Mailbox.step db event))
    (live : Live db msgId) (sticks : KeepingSticks db event msgId) {msg : Message}
    (member : msg ∈ db.msgs) (isIt : msg.id = msgId) : NoCountdown msg := by
  by_contra countdown
  obtain ⟨liveMsg, liveMember, liveIsIt, isLive⟩ := live
  obtain rfl : liveMsg = msg := eq_of_key_eq unique liveMember member (liveIsIt.trans isIt.symm)
  have stoppedIsIt : Message.id { liveMsg with ephemeralTimestamp := 0 } = msgId := isIt
  have stopped := (kept.mem_msgs stoppedIsIt).mpr ⟨liveMsg, member, isIt, rfl⟩
  -- A pass starts the countdown, and expiry runs when it is over.
  let passed : Event := { now := max event.now 1, op := .finish [] }
  let expiry : Event :=
    { now := max event.now 1 + liveMsg.ephemeralTimer, op := .deleteExpired }
  have fired := expired_of_finish stopped isLive rfl countdown (max event.now 1) (by omega) []
  have passedOk := labelsOk_step (labelsOk_step ok event) passed
  have background : ∀ later ∈ [passed, expiry], IsBackground msgId later.op := by
    intro later laterMember
    rcases List.mem_pair.mp laterMember with rfl | rfl
    · exact .finish []
    · exact .deleteExpired
  have clocked : Clocked [event, passed, expiry] := by
    simp only [Clocked, List.pairwise_cons, List.mem_cons, List.not_mem_nil, or_false,
      forall_eq_or_imp, forall_eq, passed, expiry, List.Pairwise.nil, and_true, IsEmpty.forall_iff,
      implies_true]
    omega
  obtain ⟨stillLive, notLabelled⟩ := sticks [passed, expiry] background clocked
  rw [← stoppedIsIt] at stillLive notLabelled
  refine notLabelled (carriesTrash_of_mem (labelsOk_step passedOk expiry) ?_)
  exact lost_of_expired passedOk fired stillLive

theorem holdStays_of_sticks (ok : LabelsOk ids db)
    (kept : Kept (ids trashName) msgId event.op db (Mailbox.step db event))
    (sticks : KeepingSticks db event msgId) :
    holdDays db ≤ 0 ∨ ∀ now, msgId ∉ elapsed now db := by
  by_contra pending
  simp only [not_or, not_le, not_forall, not_not] at pending
  obtain ⟨days, now, due⟩ := pending
  let later : Event := { now := max event.now now, op := .sweep }
  have keptOk := labelsOk_step ok event
  have stillDue : msgId ∈ elapsed later.now (Mailbox.step db event) := by
    rw [kept.mem_elapsed]
    exact elapsed_mono (le_max_right _ _) due
  have stillDays : 0 < holdDays (Mailbox.step db event) := by
    rw [holdDays, kept.config]
    exact days
  have background : ∀ other ∈ [later], IsBackground msgId other.op := by
    intro other member
    rw [List.mem_singleton.mp member]
    exact .sweep
  have clocked : Clocked [event, later] := by
    simp only [Clocked, List.pairwise_cons, List.mem_singleton, forall_eq, later,
      List.not_mem_nil, IsEmpty.forall_iff, implies_true, List.Pairwise.nil, and_true]
    omega
  obtain ⟨_, notLabelled⟩ := sticks [later] background clocked
  refine notLabelled (carriesTrash_of_mem (labelsOk_step keptOk later) ?_)
  have labelled := labelled_of_sweep keptOk stillDays stillDue
  rw [← stateAfter_run] at labelled
  exact labelled

/-- After a restore, or with its timer switched off, a message is left alone for
good exactly when nothing was pending for it. -/
theorem keeping_sticks_iff (ok : LabelsOk ids db) (unique : (db.msgs.map (·.id)).Nodup)
    (noAge : configInt db.config.deleteDeviceAfter = 0) (live : Live db msgId) (event : Event)
    (keep : AsksToKeep msgId event.op) :
    KeepingSticks db event msgId ↔ NothingPending db event.op msgId := by
  have kept := kept_step ok keep
  have keptOk := labelsOk_step ok event
  constructor
  · intro sticks
    refine ⟨?_, holdStays_of_sticks ok kept sticks, ?_⟩
    · intro msg member isIt
      exact noCountdown_of_sticks ok unique kept live sticks member isIt
    · intro carries
      by_contra stays
      obtain ⟨_, notLabelled⟩ := sticks [] (by simp) (List.pairwise_singleton _ _)
      have labelled := kept.labelled.mpr ⟨mem_of_carriesTrash ok carries, stays⟩
      exact notLabelled (carriesTrash_of_mem keptOk labelled)
  · intro nothing events background _
    have calm := (calm_of_kept ok kept live noAge nothing).runAll keptOk events background
    refine ⟨calm.live, fun carries => calm.unlabelled ?_⟩
    exact mem_of_carriesTrash (labelsOk_runAll keptOk events) carries

end

section

local instance : Unicode := asciiTables

/-- A message without a timer that was thrown away and taken back stays. -/
theorem keeping_sticks_without_timer :
    KeepingSticks (Mailbox.step oneMessage { now := 1, op := .trash [10] })
      { now := 2, op := .restore [10] } 10 := by
  refine (keeping_sticks_iff (labelsOk_migrated rfl rfl) (by decide) (by decide) (by decide) _
    (.restore [10] (by decide))).mpr ⟨?_, Or.inl (by decide), fun _ => ⟨[10], rfl⟩⟩
  intro msg member _
  left
  revert msg
  decide

def readMessage : Db :=
  { oneMessage with
    config := { trashPurgeDays := 30 }
    msgs := [{ id := 10, rfc724Mid := "first".toList, chatId := 10, toId := 1, fromId := 10,
               state := .inSeen, ephemeralTimer := 3600 }] }

/-- The user restores the message; the next housekeeping pass starts its
countdown anew, and an hour later it is back in the trash. -/
theorem restored_message_trashed_again :
    ¬CarriesTrash
        (Lib.Runs.runAll Mailbox.step readMessage
          [{ now := 10, op := .trash [10] }, { now := 20, op := .restore [10] }]) 10 ∧
      CarriesTrash
        (Lib.Runs.runAll Mailbox.step readMessage
          ([{ now := 10, op := .trash [10] }, { now := 20, op := .restore [10] }] ++
            housekeepingPass [] 30 ++ [{ now := 3630, op := .deleteExpired }])) 10 := by
  decide

end

end Eeemail.Keeping
