import Eeemail.TrashWindow

/-! # A fired timer never destroys

`divert` and `select_expired_messages` ask the same question of a message.  The
first clears what it answers yes to, so the second finds nothing and no message
becomes a tombstone, as long as there is a recoverable window and messages are
not deleted by age. -/

set_option autoImplicit false

namespace Eeemail.Diversion

open Lib.Texts Lib.Actions Lib.Tables Store Labels ReservedLabels Trash Frames Housekeeping
open TrashSafety TrashWindow

def fired (now : Int) (msg : Message) : Bool :=
  msg.ephemeralTimestamp != 0 && msg.ephemeralTimestamp ≤ now && msg.isLive

def diverted (now : Int) (msg : Message) : Message :=
  if fired now msg then { msg with ephemeralTimestamp := 0 } else msg

section

variable {db : Db} {now : Int}

theorem isLive_diverted (msg : Message) : (diverted now msg).isLive = msg.isLive := by
  unfold diverted
  split <;> rfl

theorem id_diverted (msg : Message) : (diverted now msg).id = msg.id := by
  unfold diverted
  split <;> rfl

theorem fired_diverted (msg : Message) : fired now (diverted now msg) = false := by
  unfold diverted
  split
  next => simp [fired]
  next quiet => simpa using quiet

theorem mem_expired {msgId : MsgId} :
    msgId ∈ expired now db ↔ ∃ msg ∈ db.msgs, fired now msg = true ∧ msg.id = msgId := by
  simp only [expired, fired, List.mem_map, List.mem_filter, and_assoc]

theorem contains_expired (unique : (db.msgs.map (·.id)).Nodup) {msg : Message}
    (member : msg ∈ db.msgs) : (expired now db).contains msg.id = fired now msg := by
  rw [Bool.eq_iff_iff, List.contains_iff_mem, mem_expired]
  constructor
  · rintro ⟨other, isOther, hasFired, same⟩
    rw [← eq_of_key_eq unique isOther member same]
    exact hasFired
  · exact fun hasFired => ⟨msg, member, hasFired, rfl⟩

theorem clearTimers_expired (unique : (db.msgs.map (·.id)).Nodup) :
    (clearTimers (expired now db) db).msgs = db.msgs.map (diverted now) := by
  refine List.map_congr_left fun msg member => ?_
  simp only [contains_expired unique member]
  rfl

theorem expired_eq_nil_of_map {rows : List Message} (isMap : db.msgs = rows.map (diverted now)) :
    expired now db = [] := by
  refine List.eq_nil_iff_forall_not_mem.mpr fun msgId member => ?_
  obtain ⟨msg, isMsg, hasFired, _⟩ := mem_expired.mp member
  rw [isMap] at isMsg
  obtain ⟨old, _, rfl⟩ := List.mem_map.mp isMsg
  rw [fired_diverted] at hasFired
  cases hasFired

theorem trashRows_nil (onServer : Bool) (db : Db) : trashRows [] onServer db = db := by
  have same : updateWhere (fun msg : Message => ([] : List MsgId).contains msg.id)
      (tombstone onServer) db.msgs = db.msgs := by simp [updateWhere]
  rw [trashRows, same]

variable [Unicode] {ids : Text → LabelId}

theorem deleteExpired_eq (ok : LabelsOk ids db) (unique : (db.msgs.map (·.id)).Nodup)
    (window : 0 < purgeDays db) (keepsOld : configInt db.config.deleteDeviceAfter = 0)
    (now : Int) :
    ∃ items, stateAfter (deleteExpiredMessages now) db =
      clearTimers (expired now db)
        (trashed (ids trashName) (expired now db) .expired now items db) := by
  have unaged : ∀ after : Db, after.config = db.config → expiredByAge now after = [] := by
    intro after same
    simp only [expiredByAge, same, keepsOld, if_true]
  have noneLeft : ∀ after : Db, after.config = db.config →
      after.msgs = db.msgs.map (diverted now) →
      trashRows (selectExpiredMessages now after) false after = after := by
    intro after sameConfig isMap
    rw [selectExpiredMessages, unaged after sameConfig, expired_eq_nil_of_map isMap]
    exact trashRows_nil false after
  obtain ⟨items, moved⟩ := toTrash_run ok (expired now db) .expired now
  refine ⟨items, ?_⟩
  have isDiverted : stateAfter (divert now) db =
      clearTimers (expired now db)
        (trashed (ids trashName) (expired now db) .expired now items db) := by
    unfold divert
    rw [stateAfter_query_bind, if_neg (by omega), stateAfter_query_bind]
    split
    next none =>
      rw [List.isEmpty_iff.mp none] at moved ⊢
      have sameItems : items = db.syncItems := by
        have same := (EStateM.Result.ok.inj moved).2
        exact (congrArg Db.syncItems same).symm
      have sameMsgs : (clearTimers [] db).msgs = db.msgs := by simp [clearTimers, updateWhere]
      rw [stateAfter_pure, sameItems]
      exact congrArg (fun msgs => { db with msgs }) sameMsgs.symm
    next => rw [stateAfter_bind_of_ok moved, stateAfter_exec_bind, stateAfter_pure]
  unfold deleteExpiredMessages
  rw [stateAfter_bestEffort_bind, stateAfter_exec, isDiverted]
  exact noneLeft _ rfl (clearTimers_expired unique)

/-- Nothing becomes a tombstone; the messages whose timer has fired are in the trash
with a deadline and no timer, and all others are as they were. -/
theorem fired_timer_diverts (ok : LabelsOk ids db) (unique : (db.msgs.map (·.id)).Nodup)
    (window : 0 < purgeDays db) (keepsOld : configInt db.config.deleteDeviceAfter = 0)
    (now : Int) :
    (∀ msgId, Live (stateAfter (deleteExpiredMessages now) db) msgId ↔ Live db msgId) ∧
      ∀ msg ∈ db.msgs,
        (fired now msg = true →
          { msg with ephemeralTimestamp := 0 } ∈ (stateAfter (deleteExpiredMessages now) db).msgs ∧
          CarriesTrash (stateAfter (deleteExpiredMessages now) db) msg.id ∧
          HasDeadline (stateAfter (deleteExpiredMessages now) db) msg.id) ∧
        (fired now msg = false →
          msg ∈ (stateAfter (deleteExpiredMessages now) db).msgs ∧
          (∀ row : MsgLabel, row.msgId = msg.id →
            (row ∈ (stateAfter (deleteExpiredMessages now) db).msgLabels ↔ row ∈ db.msgLabels)) ∧
          ∀ row : TrashedMsg, row.msgId = msg.id →
            (row ∈ (stateAfter (deleteExpiredMessages now) db).trashedMsgs ↔
              row ∈ db.trashedMsgs)) := by
  obtain ⟨items, after⟩ := deleteExpired_eq ok unique window keepsOld now
  rw [after]
  have rows : (clearTimers (expired now db)
      (trashed (ids trashName) (expired now db) .expired now items db)).msgs =
      db.msgs.map (diverted now) := clearTimers_expired unique
  constructor
  · intro msgId
    unfold Live
    rw [rows]
    simp only [List.mem_map, exists_exists_and_eq_and, id_diverted, isLive_diverted]
  · intro msg member
    have isRow : diverted now msg ∈ (clearTimers (expired now db)
        (trashed (ids trashName) (expired now db) .expired now items db)).msgs :=
      rows ▸ List.mem_map_of_mem member
    constructor
    · intro hasFired
      have isExpired : msg.id ∈ expired now db := mem_expired.mpr ⟨msg, member, hasFired, rfl⟩
      rw [diverted, if_pos hasFired] at isRow
      refine ⟨isRow, ?_, ?_⟩
      · obtain ⟨label, isLabel, named, system, ident⟩ := ok.reserved trashName trashName_reserved
        refine ⟨label, isLabel, named, system, mem_setRows_true.mpr (Or.inr ⟨ident, isExpired⟩)⟩
      · by_cases had : ∃ row ∈ db.trashedMsgs, row.msgId = msg.id
        · obtain ⟨row, isRow, same⟩ := had
          exact ⟨row, mem_addDeadlines.mpr (Or.inl isRow), same⟩
        · refine ⟨⟨msg.id, now, deadline now db, .expired⟩, ?_, rfl⟩
          exact mem_addDeadlines.mpr
            (Or.inr ⟨isExpired, fun old isOld same => had ⟨old, isOld, same⟩, rfl⟩)
    · intro quiet
      have spared : msg.id ∉ expired now db := by
        intro isExpired
        obtain ⟨other, isOther, hasFired, same⟩ := mem_expired.mp isExpired
        rw [eq_of_key_eq unique isOther member same, quiet] at hasFired
        cases hasFired
      rw [diverted, if_neg (by simp [quiet])] at isRow
      refine ⟨isRow, fun row isIts => ?_, fun row isIts => ?_⟩
      · refine mem_setRows_true.trans ⟨fun either => ?_, Or.inl⟩
        rcases either with old | ⟨_, new⟩
        · exact old
        · exact absurd (isIts ▸ new) spared
      · refine mem_addDeadlines.trans ⟨fun either => ?_, Or.inl⟩
        rcases either with old | ⟨new, _⟩
        · exact old
        · exact absurd (isIts ▸ new) spared

end

section

local instance : Unicode := asciiTables

def ticking : Db :=
  { oneDay with
    msgs := [{ id := 10, rfc724Mid := "first".toList, chatId := 10, toId := 1, fromId := 10,
               ephemeralTimestamp := 5 }] }

theorem fired_timer_diverts_ticking :
    CarriesTrash (stateAfter (deleteExpiredMessages 7) ticking) 10 ∧
      Live (stateAfter (deleteExpiredMessages 7) ticking) 10 := by
  have ok : LabelsOk migratedIds ticking := labelsOk_migrated rfl rfl
  obtain ⟨live, rows⟩ := fired_timer_diverts ok (by decide) (by decide) (by decide) 7
  exact ⟨((rows _ List.mem_cons_self).1 (by decide)).2.1, (live 10).mpr (by decide)⟩

end

end Eeemail.Diversion
