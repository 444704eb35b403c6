import Eeemail.Keeping
import Eeemail.RawMime

/-! # What is left of a destroyed message

A housekeeping pass over the whole profile, and what it leaves of a message that
was a tombstone when it began.  Most side tables count a tombstone as gone.
`structured_data` does not, `msg_importance` and `msg_send_options` are not
pruned at all, and a pass that sweeps another message out of the hold does not
prune the hold, and gives the tombstone a label of its own if its hold has
elapsed too. -/

set_option autoImplicit false

namespace Eeemail.Tombstones

open Lib.Texts Lib.Actions Lib.Tables Store Labels Trash Gating Housekeeping Threading
open ReservedLabels Frames Mailbox TrashSafety Keeping RawMime

/-! ## Housekeeping -/

def onDb {α : Type} (x : DbAction α) : Action Text Profile α := fun profile =>
  match x.run profile.db with
  | .ok a db => .ok a { profile with db }
  | .error e db => .error e { profile with db }

section

variable [Unicode]

/-- `housekeeping`, with the steps on the files and on all tables that are
modelled. -/
def profileHousekeeping (disk : Disk) (cited listed : List Text) (now : Int) :
    Action Text Profile Unit := do
  exec (expire now)
  onDb (exec pruneRecipients)
  exec fun profile => { profile with threads := pruneThreads profile.db profile.threads }
  onDb (exec (Labels.prune now))
  onDb (exec pruneUndelivered)
  onDb (exec pruneContactPolicy)
  onDb (bestEffort (sweep now))
  onDb (bestEffort (purge now))
  onDb (exec pruneStructured)
  exec (removeUnusedFiles disk now cited)
  onDb (exec (startEphemeralTimers now))
  onDb (exec (pruneTombstones listed now))

def housekept (disk : Disk) (cited listed : List Text) (now : Int) (profile : Profile) : Profile :=
  stateAfter (profileHousekeeping disk cited listed now) profile

theorem db_housekept (disk : Disk) (cited listed : List Text) (now : Int) (profile : Profile) :
    (housekept disk cited listed now profile).db =
      stateAfter (housekeeping listed now) profile.db := rfl

theorem rawMime_housekept (disk : Disk) (cited listed : List Text) (now : Int) (profile : Profile) :
    (housekept disk cited listed now profile).rawMime = (expire now profile).rawMime := rfl

theorem threads_housekept (disk : Disk) (cited listed : List Text) (now : Int) (profile : Profile) :
    (housekept disk cited listed now profile).threads =
      pruneThreads profile.db profile.threads := rfl

theorem stateAfter_housekeeping (listed : List Text) (now : Int) (db : Db) :
    stateAfter (housekeeping listed now) db =
      finish listed now (stateAfter (purge now) (stateAfter (sweep now) (tidy now db))) := rfl

omit [Unicode] in
/-- All that is left of the message is the row that suppresses re-download. -/
def IsTombstone (msgId : MsgId) (db : Db) : Prop :=
  (∃ msg ∈ db.msgs, msg.id = msgId) ∧ hasLiveMsg msgId db = false

omit [Unicode] in
/-- No side table of the profile has a row for the message. -/
structure Forgotten (msgId : MsgId) (profile : Profile) : Prop where
  rawMime : ∀ row ∈ profile.rawMime, row.msgId ≠ msgId
  recipients : ∀ row ∈ profile.db.msgRecipients, row.msgId ≠ msgId
  threads : ∀ row ∈ profile.threads.msgThreads, row.msgId ≠ msgId
  labels : ∀ row ∈ profile.db.msgLabels, row.msgId ≠ msgId
  hold : ∀ row ∈ profile.db.heldMsgs, row.msgId ≠ msgId
  deadline : ∀ row ∈ profile.db.trashedMsgs, row.msgId ≠ msgId
  structured : ∀ row ∈ profile.db.structuredData, row.msgId ≠ msgId
  importance : ∀ row ∈ profile.db.msgImportance, row.msgId ≠ msgId
  options : ∀ row ∈ profile.db.msgSendOptions, row.msgId ≠ msgId
  undelivered : ∀ row ∈ profile.db.msgUndelivered, row.msgId ≠ msgId

omit [Unicode] in
/-- What no step of the pass prunes is not there: the message has no structured
data, importance or send options, and it is not held while a sweep moves mail. -/
structure Prunable (now : Int) (msgId : MsgId) (db : Db) : Prop where
  structured : ∀ row ∈ db.structuredData, row.msgId ≠ msgId
  importance : ∀ row ∈ db.msgImportance, row.msgId ≠ msgId
  options : ∀ row ∈ db.msgSendOptions, row.msgId ≠ msgId
  hold : (∀ row ∈ db.heldMsgs, row.msgId ≠ msgId) ∨ holdDays db ≤ 0 ∨ elapsed now db = []

omit [Unicode] in
theorem pruned {α : Type} {msgId : MsgId} {db : Db} (dead : hasLiveMsg msgId db = false)
    (key : α → MsgId) (rows : List α) :
    ∀ row ∈ rows.filter (fun row => hasLiveMsg (key row) db), key row ≠ msgId := by
  rintro row member rfl
  rw [(List.mem_filter.mp member).2] at dead
  cases dead

/-! ## The sweep -/

variable {ids : Text → LabelId} {db : Db} {msgId : MsgId} (now : Int)

theorem swept_iff (ok : LabelsOk ids db) (dead : hasLiveMsg msgId db = false)
    (unlabelled : ∀ row ∈ db.msgLabels, row.msgId ≠ msgId) :
    ((∀ row ∈ (stateAfter (sweep now) db).msgLabels, row.msgId ≠ msgId) ∧
        ∀ row ∈ (stateAfter (sweep now) db).heldMsgs, row.msgId ≠ msgId) ↔
      (∀ row ∈ db.heldMsgs, row.msgId ≠ msgId) ∨ holdDays db ≤ 0 ∨ elapsed now db = [] := by
  obtain ⟨items, moreItems, after⟩ := stateAfter_sweep ok now
  by_cases idle : (decide (holdDays db ≤ 0) || (elapsed now db).isEmpty) = true
  · rw [after, if_pos idle]
    have calm : holdDays db ≤ 0 ∨ elapsed now db = [] := by simpa using idle
    exact iff_of_true ⟨unlabelled, pruned dead HeldMsg.msgId db.heldMsgs⟩ (Or.inr calm)
  · have busy : ¬(holdDays db ≤ 0 ∨ elapsed now db = []) := by simpa using idle
    constructor
    · rintro ⟨noLabel, noHold⟩
      refine Or.inl fun row member isMsg => ?_
      by_cases due : msgId ∈ elapsed now db
      · have days : 0 < holdDays db := Int.not_le.mp fun off => busy (Or.inl off)
        exact noLabel _ (labelled_of_sweep ok days due) rfl
      · rw [after, if_neg idle] at noHold
        refine noHold row (mem_deleteWhere.mpr ⟨member, ?_⟩) isMsg
        rw [isMsg]
        simpa using due
    · intro calm
      have unheld := calm.resolve_right busy
      have spared : msgId ∉ elapsed now db := by
        intro due
        obtain ⟨row, member, isMsg⟩ := List.mem_map.mp due
        exact unheld row (List.mem_filter.mp member).1 isMsg
      rw [after, if_neg idle]
      refine ⟨fun row member isMsg => ?_,
        fun row member => unheld row (mem_deleteWhere.mp member).1⟩
      rcases mem_setRows_true.mp (mem_setRows_false.mp member).1 with older | ⟨_, swept⟩
      · exact unlabelled row older isMsg
      · exact spared (isMsg ▸ swept)

omit [Unicode] in
theorem labelView_tidy (db : Db) : labelView (tidy now db) = labelView db := rfl

theorem swept_tidy_iff (ok : LabelsOk ids db) (dead : hasLiveMsg msgId db = false) :
    ((∀ row ∈ (stateAfter (sweep now) (tidy now db)).msgLabels, row.msgId ≠ msgId) ∧
        ∀ row ∈ (stateAfter (sweep now) (tidy now db)).heldMsgs, row.msgId ≠ msgId) ↔
      (∀ row ∈ db.heldMsgs, row.msgId ≠ msgId) ∨ holdDays db ≤ 0 ∨ elapsed now db = [] :=
  swept_iff now (ok.of_labelView (labelView_tidy now db)) dead
    (pruned dead MsgLabel.msgId db.msgLabels)

def bystanders (db : Db) : List MsgRecipient × List MsgUndelivered × List StructuredRow ×
    List MsgImportance × List MsgSendOptions :=
  (db.msgRecipients, db.msgUndelivered, db.structuredData, db.msgImportance, db.msgSendOptions)

theorem bystanders_sweep (ok : LabelsOk ids db) :
    bystanders (stateAfter (sweep now) db) = bystanders db ∧
      (stateAfter (sweep now) db).msgs = db.msgs ∧
      labelView (stateAfter (sweep now) db) = labelView db := by
  obtain ⟨items, moreItems, after⟩ := stateAfter_sweep ok now
  rw [after]
  split <;> exact ⟨rfl, rfl, rfl⟩

theorem bystanders_purge (ok : LabelsOk ids db) :
    bystanders (stateAfter (purge now) db) = bystanders db ∧
      (stateAfter (purge now) db).msgLabels = db.msgLabels ∧
      (stateAfter (purge now) db).heldMsgs = db.heldMsgs := by
  rw [stateAfter_purge ok]
  split <;> exact ⟨rfl, rfl, rfl⟩

theorem ids_purge (ok : LabelsOk ids db) (there : ∃ msg ∈ db.msgs, msg.id = msgId) :
    ∃ msg ∈ (stateAfter (purge now) db).msgs, msg.id = msgId := by
  obtain ⟨msg, member, isMsg⟩ := there
  rw [stateAfter_purge ok]
  split
  · exact ⟨msg, member, isMsg⟩
  · refine ⟨_, mem_updateWhere.mpr ⟨msg, member, rfl⟩, ?_⟩
    split <;> exact isMsg

theorem deadlines_purge (ok : LabelsOk ids db)
    (unlabelled : ∀ row ∈ db.msgLabels, row.msgId ≠ msgId) :
    ∀ row ∈ (stateAfter (purge now) db).trashedMsgs, row.msgId ≠ msgId := by
  have reconciled : ∀ row ∈ (reconcileRows (ids trashName) now db).trashedMsgs,
      row.msgId ≠ msgId :=
    fun row member => unlabelled _ (labelled_of_reconcileRows member)
  rw [stateAfter_purge ok]
  split
  · exact fun row member => reconciled row (List.mem_filter.mp member).1
  · exact fun row member => reconciled row (mem_deleteWhere.mp member).1

/-! ## The pass -/

omit [Unicode] in
theorem structured_finish (there : ∃ msg ∈ db.msgs, msg.id = msgId) (listed : List Text)
    {row : StructuredRow} (isMsg : row.msgId = msgId) :
    row ∈ (finish listed now db).structuredData ↔ row ∈ db.structuredData := by
  obtain ⟨msg, member, isId⟩ := there
  refine ⟨fun kept => (List.mem_filter.mp kept).1, fun kept => List.mem_filter.mpr ⟨kept, ?_⟩⟩
  exact List.any_eq_true.mpr ⟨msg, member, by simp [isId, isMsg]⟩

omit [Unicode] in
theorem bystanders_finish (listed : List Text) (db : Db) :
    bystanders (finish listed now db) =
      ((bystanders db).1, (bystanders db).2.1, (pruneStructured db).structuredData,
        (bystanders db).2.2.2) := rfl

omit [Unicode] in
theorem labels_finish (listed : List Text) (db : Db) :
    (finish listed now db).msgLabels = db.msgLabels ∧
      (finish listed now db).heldMsgs = db.heldMsgs ∧
      (finish listed now db).trashedMsgs = db.trashedMsgs := ⟨rfl, rfl, rfl⟩

omit [Unicode] in
theorem bystanders_tidy (db : Db) :
    bystanders (tidy now db) =
      ((pruneRecipients db).msgRecipients, (pruneUndelivered db).msgUndelivered,
        db.structuredData, db.msgImportance, db.msgSendOptions) := rfl

/-- What the pass makes of the tables that a tombstone may have rows in. -/
structure Passed (msgId : MsgId) (now : Int) (before after : Db) : Prop where
  recipients : after.msgRecipients = (pruneRecipients before).msgRecipients
  undelivered : after.msgUndelivered = (pruneUndelivered before).msgUndelivered
  importance : after.msgImportance = before.msgImportance
  options : after.msgSendOptions = before.msgSendOptions
  structured : ∀ row : StructuredRow, row.msgId = msgId →
    (row ∈ after.structuredData ↔ row ∈ before.structuredData)
  labels : after.msgLabels = (stateAfter (sweep now) (tidy now before)).msgLabels
  hold : after.heldMsgs = (stateAfter (sweep now) (tidy now before)).heldMsgs
  deadline : (∀ row ∈ after.msgLabels, row.msgId ≠ msgId) →
    ∀ row ∈ after.trashedMsgs, row.msgId ≠ msgId

theorem passed_housekeeping (ok : LabelsOk ids db) (there : ∃ msg ∈ db.msgs, msg.id = msgId)
    (listed : List Text) : Passed msgId now db (stateAfter (housekeeping listed now) db) := by
  have tidyOk := ok.of_labelView (labelView_tidy now db)
  obtain ⟨sweptRows, sweptMsgs, sweptLabels⟩ := bystanders_sweep now tidyOk
  have sweptOk := tidyOk.of_labelView sweptLabels
  obtain ⟨purgedRows, purgedLabels, purgedHold⟩ := bystanders_purge now sweptOk
  have still := ids_purge now sweptOk (sweptMsgs ▸ there)
  have rows := purgedRows.trans (sweptRows.trans (bystanders_tidy now db))
  have last := bystanders_finish now listed
    (stateAfter (purge now) (stateAfter (sweep now) (tidy now db)))
  obtain ⟨lastLabels, lastHold, lastDeadlines⟩ := labels_finish now listed
    (stateAfter (purge now) (stateAfter (sweep now) (tidy now db)))
  rw [rows] at last
  simp only [bystanders, Prod.mk.injEq] at rows last
  obtain ⟨recipients, undelivered, -, importance, options⟩ := last
  rw [stateAfter_housekeeping]
  refine ⟨recipients, undelivered, importance, options, fun row isMsg => ?_,
    lastLabels.trans purgedLabels, lastHold.trans purgedHold, fun unlabelled => ?_⟩
  · rw [structured_finish now still listed isMsg, rows.2.2.1]
  · rw [lastLabels, purgedLabels] at unlabelled
    rw [lastDeadlines]
    exact deadlines_purge now sweptOk unlabelled

/-- A housekeeping pass leaves nothing of a tombstone behind exactly if it has no
row that no step of the pass prunes. -/
theorem destroyed_leaves_nothing_iff {profile : Profile} {disk : Disk} {cited listed : List Text}
    (ok : LabelsOk ids profile.db) (gone : IsTombstone msgId profile.db) :
    Forgotten msgId (housekept disk cited listed now profile) ↔ Prunable now msgId profile.db := by
  obtain ⟨there, dead⟩ := gone
  have passed := passed_housekeeping now ok there listed
  rw [← db_housekept disk cited] at passed
  have sweptIff := swept_tidy_iff now ok dead
  rw [← passed.labels, ← passed.hold] at sweptIff
  constructor
  · intro forgotten
    refine ⟨fun row member isMsg => ?_, ?_, ?_, sweptIff.mp ⟨forgotten.labels, forgotten.hold⟩⟩
    · exact forgotten.structured row ((passed.structured row isMsg).mpr member) isMsg
    · rw [← passed.importance]
      exact forgotten.importance
    · rw [← passed.options]
      exact forgotten.options
  · intro prunable
    obtain ⟨unlabelled, unheld⟩ := sweptIff.mpr prunable.hold
    refine ⟨?_, ?_, ?_, unlabelled, unheld, passed.deadline unlabelled,
      fun row member isMsg => ?_, ?_, ?_, ?_⟩
    · rw [rawMime_housekept]
      exact pruned dead RawMimeRow.msgId _
    · rw [passed.recipients]
      exact pruned dead MsgRecipient.msgId _
    · rw [threads_housekept]
      exact pruned dead MsgThread.msgId _
    · exact prunable.structured row ((passed.structured row isMsg).mp member) isMsg
    · rw [passed.importance]
      exact prunable.importance
    · rw [passed.options]
      exact prunable.options
    · rw [passed.undelivered]
      exact pruned dead MsgUndelivered.msgId _

end

section

local instance : Unicode := asciiTables

def emptied : Profile :=
  { db :=
      { labels := migratedLabels
        nextLabelId := 4
        msgs := [{ id := 10, chatId := chatIdTrash, rfc724Mid := "a@b".toList }]
        msgRecipients := [⟨10, .to, "bob@example.org".toList, [], 0⟩]
        msgLabels := [{ msgId := 10, labelId := 1 }] }
    rawMime := [⟨10, "$BLOBDIR/a.eml".toList, 5, 0, none⟩] }

def emptiedInvoice : Profile :=
  { emptied with
    db := { emptied.db with structuredData := [⟨10, 0, "Invoice".toList, true, .alternative⟩] } }

def quietDisk : Disk := ⟨fun _ => none, fun _ => true⟩

theorem plain_message_is_forgotten :
    Forgotten 10 (housekept quietDisk [] ["a@b".toList] 5 emptied) := by
  have ok : LabelsOk migratedIds emptied.db := labelsOk_migrated rfl rfl
  have gone : IsTombstone 10 emptied.db := ⟨⟨_, List.mem_singleton.mpr rfl, rfl⟩, by decide⟩
  refine (destroyed_leaves_nothing_iff 5 ok gone).mpr ⟨?_, ?_, ?_, Or.inl ?_⟩
  all_goals
    intro row member
    cases member

theorem invoice_outlives_message :
    IsTombstone 10 emptiedInvoice.db ∧
      (housekept quietDisk [] ["a@b".toList] 5 emptiedInvoice).db.structuredData =
        [⟨10, 0, "Invoice".toList, true, .alternative⟩] := by
  refine ⟨⟨⟨_, List.mem_singleton.mpr rfl, rfl⟩, by decide⟩, ?_⟩
  rw [db_housekept]
  decide +kernel

end

end Eeemail.Tombstones
