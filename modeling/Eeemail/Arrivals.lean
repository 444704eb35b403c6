import Eeemail.LabelBoards
import Eeemail.ContactTable

/-! # A message arrives

What reception does to the label tables: the new row gets what was parked for its
Message-ID, `Unverified` if the gate holds it and `Trash` if its sender is on the
blocklist.  On other messages it at most takes `Unverified` off. -/

set_option autoImplicit false

namespace Eeemail.Arrivals

open Lib.Texts Lib.Actions Lib.Tables Store Labels ReservedLabels Contacts Trash Gating Reception
open Frames ContactTable LabelBoards
open Boards (Column Board Directory SameBut HasSystem)

variable {mail : Incoming} {now : Int} {db db' stored : Db} {msgId : MsgId}

section

variable [Unicode] {ids : Text → LabelId}

/-- Reception up to the hooks: the contacts, the chat and the row. -/
def storeRow (mail : Incoming) (now : Int) : DbAction (Option (ContactId × MsgId)) := do
  if (← query (rfc724MidExists mail.rfc724Mid)).isSome then pure none
  else
    match ← prepare mail with
    | none => pure none
    | some (fromId, chatId) =>
      let msgId ← execReturning (insertMsg mail fromId chatId now)
      onlyIf (!isSpecial fromId) (updateLastSeen fromId mail.timestampSent)
      pure (some (fromId, msgId))

def storedBy (mail : Incoming) (now : Int) (db : Db) : Db := stateAfter (storeRow mail now) db

theorem receive_eq_ok (success : (Reception.receive mail now).run db = .ok (some msgId) db') :
    ∃ fromId, (storeRow mail now).run db = .ok (some (fromId, msgId)) (storedBy mail now db) ∧
      db' = stateAfter (adopt mail) (storeStructured msgId mail.structured
        (stateAfter (hooks mail msgId now) (storedBy mail now db))) := by
  unfold Reception.receive at success
  obtain ⟨target, received, storing, success⟩ := bind_eq_ok.mp success
  cases target with
  | none => cases (pure_eq_ok.mp success).1
  | some target =>
    obtain ⟨fromId, newId⟩ := target
    obtain ⟨_, _, structured, success⟩ := bind_eq_ok.mp success
    obtain ⟨_, _, adopted, success⟩ := bind_eq_ok.mp success
    cases structured
    cases adopted
    obtain ⟨isId, rfl⟩ := pure_eq_ok.mp success
    cases isId
    obtain ⟨impossible, _⟩ | ⟨unknown, _, chatId, placed, seen, isTarget, prepares,
      sees, hooking⟩ :=
      storeMessage_eq_ok storing
    · cases impossible
    cases isTarget
    have stores : (storeRow mail now).run db =
        .ok (some (fromId, (insertMsg mail fromId chatId now placed).1)) seen := by
      unfold storeRow
      refine bind_eq_ok.mpr ⟨_, db, rfl, ?_⟩
      rw [if_neg unknown]
      refine bind_eq_ok.mpr ⟨_, placed, prepares, ?_⟩
      refine bind_eq_ok.mpr ⟨_, _, rfl, ?_⟩
      exact bind_eq_ok.mpr ⟨(), seen, sees, rfl⟩
    have isStored : storedBy mail now db = seen := stateAfter_of_ok stores
    rw [isStored]
    exact ⟨fromId, stores, by rw [stateAfter_of_ok hooking]⟩

/-! ## Before the hooks -/

structure Released (unverified : LabelId) (before after : List MsgLabel) : Prop where
  kept : ∀ row, row.labelId ≠ unverified → (row ∈ after ↔ row ∈ before)
  no_new : ∀ row ∈ after, row ∈ before

theorem blindToPrepare_released (rows : List MsgLabel) :
    BlindToPrepare fun db => LabelsOk ids db ∧ Released (ids unverifiedName) rows db.msgLabels := by
  refine ⟨?_, preserves_release fun msgs db good => ?_⟩
  · rintro db db' same ⟨ok, released⟩
    have labels : labelView (besidesPrepare db') = labelView (besidesPrepare db) :=
      congrArg labelView same
    have carried : (besidesPrepare db').msgLabels = (besidesPrepare db).msgLabels :=
      congrArg Db.msgLabels same
    refine ⟨ok.of_labelView (show labelView db' = labelView db from labels), ?_⟩
    rw [show db'.msgLabels = db.msgLabels from carried]
    exact released
  · obtain ⟨ok, released⟩ := good
    obtain ⟨items, done⟩ := unhold_run ok msgs
    rw [stateAfter_of_ok done]
    have labels : labelView (Frames.released (ids unverifiedName) msgs items db) =
        labelView db := rfl
    refine ⟨ok.of_labelView labels, ?_, ?_⟩
    · intro row other
      rw [← released.kept row other]
      refine mem_setRows_false.trans (and_iff_left ?_)
      exact fun hit => other hit.1
    · intro row member
      exact released.no_new row (mem_setRows_false.mp member).1

/-- What the hooks find: the row is the last one, and labels are as they were but for
released mail. -/
structure Stored (ids : Text → LabelId) (mail : Incoming) (msgId : MsgId)
    (db stored : Db) : Prop where
  labels : labelView stored = labelView db
  parked : stored.pendingMsgLabels = db.pendingMsgLabels
  carried : Released (ids unverifiedName) db.msgLabels stored.msgLabels
  isNext : msgId = db.nextMsgId
  next : stored.nextMsgId = db.nextMsgId + 1
  row : ∃ row : Message, row.id = msgId ∧ row.rfc724Mid = mail.rfc724Mid ∧ row.preRfc724Mid = [] ∧
    stored.msgs = db.msgs ++ [row]
  unknown : rfc724MidExists mail.rfc724Mid db = none

def rowView (db : Db) := (labelView db, db.pendingMsgLabels, db.msgs, db.nextMsgId)

theorem stored_of_storeRow {fromId : ContactId} (ok : LabelsOk ids db)
    (success : (storeRow mail now).run db = .ok (some (fromId, msgId)) stored) :
    Stored ids mail msgId db stored := by
  unfold storeRow at success
  obtain ⟨known, _, asked, success⟩ := bind_eq_ok.mp success
  cases asked
  split at success
  · cases (pure_eq_ok.mp success).1
  next unknown =>
  obtain ⟨prepared, placed, prepares, success⟩ := bind_eq_ok.mp success
  cases prepared with
  | none => cases (pure_eq_ok.mp success).1
  | some target =>
    obtain ⟨sender, chatId⟩ := target
    obtain ⟨_, inserted, inserts, success⟩ := bind_eq_ok.mp success
    cases inserts
    obtain ⟨_, seen, sees, success⟩ := bind_eq_ok.mp success
    obtain ⟨isTarget, rfl⟩ := pure_eq_ok.mp success
    cases isTarget
    have placedView := keeps_prepare mail db
    rw [stateAfter_of_ok prepares] at placedView
    obtain ⟨_, released⟩ := (blindToPrepare_released db.msgLabels).prepare mail db
      ⟨ok, fun _ _ => Iff.rfl, fun _ member => member⟩
    rw [stateAfter_of_ok prepares] at released
    have seenView := keeps_seen fromId mail.timestampSent
      (insertMsg mail fromId chatId now placed).2
    rw [stateAfter_of_ok sees] at seenView
    have placedTables : rowView placed = rowView db :=
      (congrArg rowView placedView : rowView (outsidePrepare placed) = rowView (outsidePrepare db))
    have seenTables : rowView seen = rowView (insertMsg mail fromId chatId now placed).2 :=
      (congrArg rowView seenView : rowView (besidesContacts seen) =
        rowView (besidesContacts (insertMsg mail fromId chatId now placed).2))
    have seenCarried : seen.msgLabels = placed.msgLabels :=
      (congrArg Db.msgLabels seenView : (besidesContacts seen).msgLabels =
        (besidesContacts (insertMsg mail fromId chatId now placed).2).msgLabels)
    simp only [rowView, Prod.mk.injEq] at placedTables seenTables
    obtain ⟨placedLabels, placedParked, placedMsgs, placedNext⟩ := placedTables
    obtain ⟨seenLabels, seenParked, seenMsgs, seenNext⟩ := seenTables
    refine ⟨seenLabels.trans placedLabels, seenParked.trans placedParked, seenCarried ▸ released,
      placedNext, seenNext.trans (congrArg (· + 1) placedNext), ?_, by simpa using unknown⟩
    refine ⟨_, ?_, ?_, ?_, seenMsgs.trans (congrArg (· ++ _) placedMsgs)⟩
    all_goals
      split <;> rfl

/-! ## The hooks -/

omit [Unicode] in
theorem contains_drained {mid : Text} {rows : List PendingMsgLabel}
    (nodup : (rows.map fun row => (row.rfc724Mid, row.labelId)).Nodup) (carried : List MsgLabel)
    (other : MsgId) (labelId : LabelId) :
    ((rows.filter fun row => row.rfc724Mid == mid).foldl
        (fun carried row => setRows [msgId] row.labelId row.apply carried) carried).contains
          { msgId := other, labelId } =
      if other = msgId then
        (parkedAt mid labelId rows).elim (carried.contains { msgId := other, labelId }) (·.1)
      else carried.contains { msgId := other, labelId } := by
  induction rows generalizing carried with
  | nil => simp [parkedAt]
  | cons row rest ih =>
    rw [List.map_cons, List.nodup_cons] at nodup
    have later := ih nodup.2
    by_cases isMid : row.rfc724Mid = mid
    · rw [List.filter_cons_of_pos (by simpa using isMid), List.foldl_cons, later,
        contains_setRows]
      by_cases isLabel : row.labelId = labelId
      · have once : parkedAt mid labelId rest = none := by
          rw [parkedAt, Option.map_eq_none_iff, List.find?_eq_none]
          intro again member same
          refine nodup.1 (List.mem_map.mpr ⟨again, member, ?_⟩)
          rw [isMid, isLabel]
          exact beq_iff_eq.mp same
        have here : parkedAt mid labelId (row :: rest) = some (row.apply, row.timestamp) := by
          simp [parkedAt, isMid, isLabel]
        rw [once, here]
        by_cases isMsg : other = msgId
        · simp [isMsg, isLabel]
        · simp [isMsg]
      · have skipped : parkedAt mid labelId (row :: rest) = parkedAt mid labelId rest := by
          simp [parkedAt, isLabel]
        have miss : ¬(labelId = row.labelId ∧ other ∈ [msgId]) := fun hit => isLabel hit.1.symm
        rw [skipped, if_neg miss]
    · have skipped : parkedAt mid labelId (row :: rest) = parkedAt mid labelId rest := by
        simp [parkedAt, isMid]
      rw [List.filter_cons_of_neg (by simpa using isMid), later, skipped]

def tagRows (db : Db) : List MsgLabel × List PendingMsgLabel := (db.msgLabels, db.pendingMsgLabels)

theorem tagRows_gate (ok : LabelsOk ids db) (msgId : MsgId) (now : Int) :
    tagRows (stateAfter (Gating.apply msgId now) db) =
      (if holds msgId db then setRows [msgId] (ids unverifiedName) true db.msgLabels
        else db.msgLabels, db.pendingMsgLabels) := by
  unfold Gating.apply
  rw [stateAfter_query_bind]
  split
  next =>
    obtain ⟨label, _, _, _, ident, read⟩ := ok.reserved_run unverifiedName_reserved
    rw [stateAfter_bind_of_ok read, stateAfter_exec_bind, stateAfter_exec, setExt_nosync, ident]
    rfl
  next => rfl

theorem tagRows_applyBlocklist (ok : LabelsOk ids db) (msgId : MsgId) (now : Int) :
    tagRows (stateAfter (applyBlocklist msgId now) db) =
      (if isBlocklisted msgId db then setRows [msgId] (ids trashName) true db.msgLabels
        else db.msgLabels, db.pendingMsgLabels) := by
  unfold applyBlocklist
  rw [stateAfter_query_bind]
  split
  next =>
    obtain ⟨items, done⟩ := toTrash_run ok [msgId] .blocked now
    rw [stateAfter_bind_of_ok done]
    rfl
  next => rfl

def judgedView (db : Db) : Config × List Message × List Contact × List BlocklistEntry :=
  (db.config, db.msgs, db.contacts, db.blocklist)

theorem judged_congr (same : judgedView db' = judgedView db) (msgId : MsgId) :
    holds msgId db' = holds msgId db ∧ isBlocklisted msgId db' = isBlocklisted msgId db := by
  simp only [judgedView, Prod.mk.injEq] at same
  obtain ⟨config, msgs, contacts, blocklist⟩ := same
  simp only [holds, isBlocklisted, senderOf, isTrusted, samePerson, isKnownRow, blocklistMatches,
    Db.msgById, Db.contactById, config, msgs, contacts, blocklist, and_self]

def sorts (ids : Text → LabelId) (msgId : MsgId) (labelId : LabelId) (stored : Db) : Bool :=
  (labelId == ids unverifiedName && holds msgId stored) ||
    (labelId == ids trashName && isBlocklisted msgId stored)

def markIf (flag : Bool) (msgId : MsgId) (labelId : LabelId) (carried : List MsgLabel) :
    List MsgLabel :=
  if flag then setRows [msgId] labelId true carried else carried

omit [Unicode] in
theorem contains_markIf (flag : Bool) (msgId : MsgId) (labelId : LabelId) (carried : List MsgLabel)
    (other : MsgId) (label : LabelId) :
    (markIf flag msgId labelId carried).contains { msgId := other, labelId := label } =
      ((decide (other = msgId) && (label == labelId && flag)) ||
        carried.contains { msgId := other, labelId := label }) := by
  cases flag with
  | false => simp [markIf]
  | true =>
    rw [markIf, if_pos rfl, contains_setRows]
    by_cases isOwn : other = msgId <;> by_cases isLabel : label = labelId <;>
      simp [isOwn, isLabel]

omit [Unicode] in
theorem besides_drainPending (msgId : MsgId) (db : Db) :
    judgedView (drainPending msgId db) = judgedView db ∧
      labelView (drainPending msgId db) = labelView db := by
  unfold drainPending
  split
  · exact ⟨rfl, rfl⟩
  · split <;> exact ⟨rfl, rfl⟩

theorem tagRows_hooks (ok : LabelsOk ids stored) (mail : Incoming) (msgId : MsgId) (now : Int) :
    tagRows (stateAfter (hooks mail msgId now) stored) =
      (markIf (isBlocklisted msgId stored) msgId (ids trashName)
          (markIf (holds msgId stored) msgId (ids unverifiedName)
            (drainPending msgId stored).msgLabels),
        (drainPending msgId stored).pendingMsgLabels) := by
  unfold hooks
  rw [stateAfter_exec_bind, stateAfter_exec_bind, stateAfter_bestEffort_bind, stateAfter_exec_bind,
    stateAfter_bestEffort]
  have drained : tagRows (drainPending msgId
    (Recipients.store msgId mail.headerRecipients stored)) =
      tagRows (drainPending msgId stored) := by
    unfold drainPending
    rw [show (Recipients.store msgId mail.headerRecipients stored).msgById msgId =
      stored.msgById msgId from rfl]
    split
    · rfl
    · split <;> rfl
  obtain ⟨seenByGate, labelsAtGate⟩ := besides_drainPending msgId
    (Recipients.store msgId mail.headerRecipients stored)
  replace labelsAtGate := labelsAtGate.trans (show labelView _ = labelView stored from rfl)
  generalize drainPending msgId (Recipients.store msgId mail.headerRecipients stored) = drainedDb
    at drained seenByGate labelsAtGate ⊢
  have gated := tagRows_gate (ok.of_labelView labelsAtGate) msgId now
  have besides := keeps_gate msgId now drainedDb
  generalize stateAfter (Gating.apply msgId now) drainedDb = gatedDb at gated besides ⊢
  have importance : tagRows (Recipients.setImportance msgId mail.importance gatedDb) =
      tagRows gatedDb := by
    cases mail.importance <;> rfl
  have seenByList : judgedView (Recipients.setImportance msgId mail.importance gatedDb) =
      judgedView stored := by
    refine Eq.trans ?_ ((congrArg judgedView besides : judgedView (outsideHold gatedDb) =
      judgedView (outsideHold drainedDb)).trans seenByGate)
    cases mail.importance <;> rfl
  have labelsAtList : labelView (Recipients.setImportance msgId mail.importance gatedDb) =
      labelView stored := by
    refine Eq.trans ?_ ((congrArg labelView besides : labelView (outsideHold gatedDb) =
      labelView (outsideHold drainedDb)).trans labelsAtGate)
    cases mail.importance <;> rfl
  rw [tagRows_applyBlocklist (ok.of_labelView labelsAtList) msgId now,
    (judged_congr seenByList msgId).2]
  rw [(judged_congr seenByGate msgId).1] at gated
  simp only [tagRows, Prod.mk.injEq] at gated drained importance ⊢
  rw [importance.1, importance.2, gated.1, gated.2, drained.1, drained.2]
  exact ⟨rfl, rfl⟩

omit [Unicode] in
theorem tagRows_drainPending {msg : Message} (found : db.msgById msgId = some msg)
    (named : msg.rfc724Mid ≠ []) :
    tagRows (drainPending msgId db) =
      ((db.pendingMsgLabels.filter fun row => row.rfc724Mid == msg.rfc724Mid).foldl
          (fun carried row => setRows [msgId] row.labelId row.apply carried) db.msgLabels,
        deleteWhere (fun row => row.rfc724Mid == msg.rfc724Mid) db.pendingMsgLabels) := by
  unfold drainPending
  rw [found]
  simp only [List.isEmpty_iff, named, if_false]
  rfl

theorem contains_hooks (mail : Incoming) {msg : Message} (now : Int) (ok : LabelsOk ids stored)
    (nodup : (stored.pendingMsgLabels.map fun row => (row.rfc724Mid, row.labelId)).Nodup)
    (found : stored.msgById msgId = some msg) (named : msg.rfc724Mid ≠ []) (other : MsgId)
    (labelId : LabelId) :
    (stateAfter (hooks mail msgId now) stored).msgLabels.contains { msgId := other, labelId } =
      if other = msgId then
        sorts ids msgId labelId stored ||
          (parkedAt msg.rfc724Mid labelId stored.pendingMsgLabels).elim
            (stored.msgLabels.contains { msgId := other, labelId }) (·.1)
      else stored.msgLabels.contains { msgId := other, labelId } := by
  have hooked := congrArg Prod.fst (tagRows_hooks ok mail msgId now)
  have drained := congrArg Prod.fst (tagRows_drainPending found named)
  simp only [tagRows] at hooked drained
  rw [hooked, contains_markIf, contains_markIf, drained, contains_drained nodup]
  by_cases isOwn : other = msgId
  · rw [if_pos isOwn, if_pos isOwn, sorts, decide_eq_true isOwn, Bool.true_and, Bool.true_and,
      ← Bool.or_assoc, Bool.or_comm (labelId == ids trashName && _)]
  · rw [if_neg isOwn, if_neg isOwn, decide_eq_false isOwn, Bool.false_and, Bool.false_and,
      Bool.false_or, Bool.false_or]

/-! ## The message is there -/

structure Numbered (db : Db) : Prop where
  msgs : ∀ msg ∈ db.msgs, msg.id < db.nextMsgId
  carried : ∀ row ∈ db.msgLabels, row.msgId < db.nextMsgId

structure Arrived (ids : Text → LabelId) (mail : Incoming) (now : Int) (msgId : MsgId)
    (db db' : Db) : Prop where
  labels : labelView db' = labelView db
  isNext : msgId = db.nextMsgId
  next : db'.nextMsgId = db.nextMsgId + 1
  row : ∃ row : Message, row.id = msgId ∧ row.rfc724Mid = mail.rfc724Mid ∧ row.preRfc724Mid = [] ∧
    db'.msgs = db.msgs ++ [row]
  unknown : rfc724MidExists mail.rfc724Mid db = none
  parked : db'.pendingMsgLabels =
    deleteWhere (fun row => row.rfc724Mid == mail.rfc724Mid) db.pendingMsgLabels
  own : ∀ labelId, db'.msgLabels.contains { msgId, labelId } =
    (sorts ids msgId labelId (storedBy mail now db) ||
      (parkedAt mail.rfc724Mid labelId db.pendingMsgLabels).elim false (·.1))
  others : ∀ other labelId, other ≠ msgId → labelId ≠ ids unverifiedName →
    db'.msgLabels.contains { msgId := other, labelId } =
      db.msgLabels.contains { msgId := other, labelId }
  no_new : ∀ row ∈ db'.msgLabels, row.msgId ≠ msgId → row ∈ db.msgLabels

def arrivalView (db : Db) := (labelView db, tagRows db, db.msgs, db.nextMsgId)

theorem arrived_of_receive (filed : Filed ids db) (numbered : Numbered db)
    (named : mail.rfc724Mid ≠ [])
    (success : (Reception.receive mail now).run db = .ok (some msgId) db') :
    Arrived ids mail now msgId db db' := by
  obtain ⟨fromId, stores, isAfter⟩ := receive_eq_ok success
  have stored := stored_of_storeRow filed.labels stores
  have hookedView := keeps_hooks mail msgId now (storedBy mail now db)
  have adopted := keeps_adopt mail (storeStructured msgId mail.structured
    (stateAfter (hooks mail msgId now) (storedBy mail now db)))
  rw [← isAfter] at adopted
  obtain ⟨row, isRow, isMid, noPre, msgs⟩ := stored.row
  have found : (storedBy mail now db).msgById msgId = some row := by
    rw [Db.msgById, msgs, List.find?_append, List.find?_eq_none.mpr, Option.none_or]
    · simp [isRow]
    · intro msg member isMsg
      have below := numbered.msgs msg member
      rw [beq_iff_eq.mp isMsg, stored.isNext] at below
      exact Nat.lt_irrefl _ below
  have ok : LabelsOk ids (storedBy mail now db) := filed.labels.of_labelView stored.labels
  have nodup : ((storedBy mail now db).pendingMsgLabels.map fun row =>
      (row.rfc724Mid, row.labelId)).Nodup := by
    rw [stored.parked]
    exact filed.parked_nodup
  have named' : row.rfc724Mid ≠ [] := isMid ▸ named
  have rows := contains_hooks mail now ok nodup found named'
  have drained : (drainPending msgId (storedBy mail now db)).pendingMsgLabels =
      deleteWhere (fun parked => parked.rfc724Mid == row.rfc724Mid)
        (storedBy mail now db).pendingMsgLabels :=
    congrArg Prod.snd (tagRows_drainPending found named')
  have waiting : (stateAfter (hooks mail msgId now) (storedBy mail now db)).pendingMsgLabels =
      (drainPending msgId (storedBy mail now db)).pendingMsgLabels :=
    congrArg Prod.snd (tagRows_hooks ok mail msgId now)
  rw [drained] at waiting
  generalize stateAfter (hooks mail msgId now) (storedBy mail now db) = hooked
    at hookedView adopted rows waiting
  have tables : arrivalView db' = arrivalView hooked :=
    (congrArg arrivalView adopted : arrivalView (besidesPrepare db') =
      arrivalView (besidesPrepare (storeStructured msgId mail.structured hooked)))
  have beside : (labelView hooked, hooked.msgs, hooked.nextMsgId) =
      (labelView (storedBy mail now db), (storedBy mail now db).msgs,
        (storedBy mail now db).nextMsgId) :=
    (congrArg (fun db => (labelView db, db.msgs, db.nextMsgId)) hookedView :
      (fun db : Db => (labelView db, db.msgs, db.nextMsgId)) (outsideHooks hooked) =
        (fun db : Db => (labelView db, db.msgs, db.nextMsgId))
          (outsideHooks (storedBy mail now db)))
  simp only [arrivalView, tagRows, Prod.mk.injEq] at tables beside
  obtain ⟨labels, ⟨carried, parked⟩, sameMsgs, next⟩ := tables
  have blank : ∀ labelId, (storedBy mail now db).msgLabels.contains { msgId, labelId } = false := by
    intro labelId
    refine Bool.eq_false_iff.mpr fun there => ?_
    have member := stored.carried.no_new _ (List.contains_iff_mem.mp there)
    have below := numbered.carried _ member
    rw [stored.isNext] at below
    exact Nat.lt_irrefl _ below
  refine
    { labels := labels.trans (beside.1.trans stored.labels)
      isNext := stored.isNext
      next := next.trans (beside.2.2.trans stored.next)
      row := ⟨row, isRow, isMid, noPre, sameMsgs.trans (beside.2.1.trans msgs)⟩
      unknown := stored.unknown
      parked := ?_
      own := ?_
      others := ?_
      no_new := ?_ }
  · rw [parked, waiting, stored.parked, isMid]
  · intro labelId
    rw [carried, rows, if_pos rfl, blank, isMid, stored.parked]
  · intro other labelId isOther notUnverified
    rw [carried, rows, if_neg isOther, Bool.eq_iff_iff, List.contains_iff_mem,
      List.contains_iff_mem]
    exact stored.carried.kept _ notUnverified
  · intro carriedRow member isOther
    rw [carried] at member
    have there := rows carriedRow.msgId carriedRow.labelId
    rw [if_neg isOther] at there
    have before := there.symm.trans (List.contains_iff_mem.mpr member)
    exact stored.carried.no_new _ (List.contains_iff_mem.mp before)

theorem Arrived.filed (arrived : Arrived ids mail now msgId db db') (filed : Filed ids db) :
    Filed ids db' := by
  obtain ⟨_, next⟩ := Prod.mk.inj arrived.labels
  have reserved_lt : ∀ name ∈ reservedNames, ids name < db.nextLabelId := by
    intro name isReserved
    obtain ⟨label, member, _, _, ident⟩ := filed.labels.reserved name isReserved
    rw [← ident]
    exact filed.labels.ids_lt label member
  refine ⟨filed.labels.of_labelView arrived.labels, ?_, ?_, ?_⟩
  · rintro ⟨rowMsg, labelId⟩ member
    rw [next]
    by_cases isOther : rowMsg = msgId
    · subst isOther
      have there := (arrived.own labelId).symm.trans (List.contains_iff_mem.mpr member)
      rw [sorts, Bool.or_eq_true, Bool.or_eq_true, Bool.and_eq_true, Bool.and_eq_true, beq_iff_eq,
        beq_iff_eq] at there
      rcases there with (⟨rfl, _⟩ | ⟨rfl, _⟩) | waited
      · exact reserved_lt _ unverifiedName_reserved
      · exact reserved_lt _ trashName_reserved
      · cases parked : parkedAt mail.rfc724Mid labelId db.pendingMsgLabels with
        | none => simp [parked] at waited
        | some change =>
          obtain ⟨parkedRow, isParked, _, isLabel, _⟩ := parkedAt_eq_some parked
          exact isLabel ▸ filed.parked_lt parkedRow isParked
    · exact filed.carried_lt _ (arrived.no_new _ member isOther)
  · intro row member
    rw [arrived.parked] at member
    rw [next]
    exact filed.parked_lt row (mem_deleteWhere.mp member).1
  · rw [arrived.parked]
    exact filed.parked_nodup.sublist (List.filter_sublist.map _)

theorem Arrived.numbered (arrived : Arrived ids mail now msgId db db') (numbered : Numbered db) :
    Numbered db' := by
  obtain ⟨row, isRow, _, _, msgs⟩ := arrived.row
  have isLast : msgId < db'.nextMsgId := by
    rw [arrived.next, arrived.isNext]
    exact Nat.lt_succ_self _
  constructor
  · intro msg member
    rw [msgs, List.mem_append, List.mem_singleton] at member
    rcases member with old | rfl
    · rw [arrived.next]
      exact Nat.lt_succ_of_lt (numbered.msgs msg old)
    · rw [isRow]
      exact isLast
  · intro carried member
    by_cases isOwn : carried.msgId = msgId
    · rw [isOwn]
      exact isLast
    · rw [arrived.next]
      exact Nat.lt_succ_of_lt (numbered.carried carried (arrived.no_new carried member isOwn))

/-! ## The board -/

omit [Unicode] in
theorem parkedAt_drained (mid other : Text) (labelId : LabelId) (rows : List PendingMsgLabel) :
    parkedAt other labelId (deleteWhere (fun row => row.rfc724Mid == mid) rows) =
      if other = mid then none else parkedAt other labelId rows := by
  split
  next isMid =>
    rw [parkedAt, Option.map_eq_none_iff, List.find?_eq_none]
    intro row member isKey
    have kept := (mem_deleteWhere.mp member).2
    rw [(Prod.mk.inj (beq_iff_eq.mp isKey)).1, isMid] at kept
    simp at kept
  next isOther =>
    rw [parkedAt, deleteWhere, List.find?_filter, parkedAt]
    congr 2
    funext row
    cases isKey : (row.rfc724Mid, row.labelId) == (other, labelId) with
    | false => simp
    | true =>
      have isMid := (Prod.mk.inj (beq_iff_eq.mp isKey)).1
      simp [isMid, isOther]

def sortingNames : List Text := [normalize unverifiedName, normalize trashName]

theorem hasSystem_view (filed : Filed ids db) (row : MsgId → MsgId) {norm : Text}
    (member : norm ∈ sortingNames) : HasSystem norm (view row db) := by
  have named : ∃ name ∈ reservedNames, norm = normalize name := by
    rcases List.mem_pair.mp member with rfl | rfl
    · exact ⟨_, unverifiedName_reserved, rfl⟩
    · exact ⟨_, trashName_reserved, rfl⟩
  obtain ⟨name, isReserved, rfl⟩ := named
  obtain ⟨label, isLabel, rfl, system, _⟩ := filed.labels.reserved name isReserved
  refine ⟨columnOf row db label, ?_, system⟩
  rw [← filed.labels.norms label isLabel]
  exact filed.view_of_mem isLabel

theorem not_sorted (filed : Filed ids db) {label : Label} (member : label ∈ db.labels)
    (outside : label.nameNorm ∉ sortingNames) :
    label.id ≠ ids unverifiedName ∧ label.id ≠ ids trashName := by
  have differs : ∀ name ∈ reservedNames, normalize name ∈ sortingNames → label.id ≠ ids name := by
    intro name isReserved isSorting same
    obtain ⟨system, isSystem, rfl, _, ident⟩ := filed.labels.reserved name isReserved
    have isSame : label = system := List.inj_on_of_nodup_map filed.labels.ids_nodup member
      isSystem (same.trans ident.symm)
    rw [isSame, filed.labels.norms system isSystem] at outside
    exact outside isSorting
  exact ⟨differs _ unverifiedName_reserved (by simp [sortingNames]),
    differs _ trashName_reserved (by simp [sortingNames])⟩

theorem Arrived.sameBut (arrived : Arrived ids mail now msgId db db') (filed : Filed ids db)
    (numbered : Numbered db) :
    SameBut sortingNames (view id db') (Boards.arrive msgId mail.rfc724Mid (view id db)) := by
  have filed' := arrived.filed filed
  obtain ⟨labels, _⟩ := Prod.mk.inj arrived.labels
  refine ⟨fun norm outside => ?_, fun norm member => hasSystem_view filed' id member,
    fun norm member => ?_⟩
  · by_cases there : ∃ label ∈ db.labels, label.nameNorm = norm
    · obtain ⟨label, member, rfl⟩ := there
      obtain ⟨notUnverified, notTrash⟩ := not_sorted filed member outside
      rw [filed'.view_of_mem (labels.symm ▸ member), Boards.arrive, Boards.mapColumns,
        filed.view_of_mem member,
        Option.map_some, Option.some.injEq, Column.arrive]
      have on : (columnOf id db' label).on = Function.update (columnOf id db label).on msgId
          (((columnOf id db label).parked mail.rfc724Mid).elim ((columnOf id db label).on msgId)
            (·.1)) := by
        funext other
        by_cases isOwn : other = msgId
        · subst isOwn
          have blank : (columnOf id db label).on other = false := by
            refine Bool.eq_false_iff.mpr fun there => ?_
            have below := numbered.carried _ (List.contains_iff_mem.mp there)
            rw [arrived.isNext] at below
            exact Nat.lt_irrefl _ below
          rw [Function.update_self, blank]
          refine (arrived.own label.id).trans ?_
          simp [sorts, notUnverified, notTrash, columnOf]
        · rw [Function.update_of_ne isOwn]
          exact arrived.others other label.id isOwn notUnverified
      have parked : (columnOf id db' label).parked =
          Function.update (columnOf id db label).parked mail.rfc724Mid none := by
        funext other
        simp only [columnOf, arrived.parked, parkedAt_drained, Function.update_apply]
      rw [← on, ← parked]
      rfl
    · have absent : view id db norm = none :=
        view_eq_none.mpr fun label member same => there ⟨label, member, same⟩
      have absent' : view id db' norm = none :=
        view_eq_none.mpr fun label member same => there ⟨label, labels ▸ member, same⟩
      rw [Boards.arrive, Boards.mapColumns, absent, absent', Option.map_none]
  · obtain ⟨column, found, system⟩ := hasSystem_view filed id member
    refine ⟨column.arrive msgId mail.rfc724Mid, ?_, system⟩
    rw [Boards.arrive, Boards.mapColumns, found, Option.map_some]

/-! ## The directory -/

def bare (mid : Text) : Text := trimEndBy (· == '>') (trimStartBy (· == '<') mid)

omit [Unicode] in
theorem rfc724MidExists_eq (mid : Text) (db : Db) :
    rfc724MidExists mid db =
      if bare mid = [] then none
      else (db.msgs.find? fun msg => msg.rfc724Mid == bare mid || msg.preRfc724Mid == bare mid).map
        (·.id) :=
  if_congr List.isEmpty_iff rfl rfl

omit [Unicode] in
theorem mem_of_rfc724MidExists {mid : Text} (finds : rfc724MidExists mid db = some msgId) :
    ∃ msg ∈ db.msgs, msg.id = msgId := by
  rw [rfc724MidExists_eq] at finds
  split at finds
  · cases finds
  · obtain ⟨msg, found, isMsg⟩ := Option.map_eq_some_iff.mp finds
    exact ⟨msg, List.mem_of_find?_eq_some found, isMsg⟩

theorem Arrived.lookup (arrived : Arrived ids mail now msgId db db') (named : mail.rfc724Mid ≠ [])
    (mid : Text) :
    rfc724MidExists mid db' =
      (rfc724MidExists mid db).or (if bare mid = mail.rfc724Mid then some msgId else none) := by
  obtain ⟨row, isRow, isMid, noPre, msgs⟩ := arrived.row
  rw [rfc724MidExists_eq, rfc724MidExists_eq]
  by_cases empty : bare mid = []
  · rw [if_pos empty, if_pos empty, empty, if_neg named.symm]
    rfl
  · rw [if_neg empty, if_neg empty, msgs, List.find?_append, Option.map_or]
    congr 1
    by_cases same : bare mid = mail.rfc724Mid
    · simp [isMid, isRow, same]
    · have differs : mail.rfc724Mid ≠ bare mid := fun isSame => same isSame.symm
      simp [isMid, noPre, same, differs, empty]

theorem Arrived.absent (arrived : Arrived ids mail now msgId db db') (numbered : Numbered db)
    (mid : Text) : rfc724MidExists mid db ≠ some msgId := by
  intro finds
  obtain ⟨msg, member, isMsg⟩ := mem_of_rfc724MidExists finds
  have below := numbered.msgs msg member
  rw [isMsg, arrived.isNext] at below
  exact Nat.lt_irrefl _ below

/-- Every text among these that finds the message is its Message-ID, and that finds it. -/
def Plain (mid : Text) (mids : List Text) : Prop := ∀ other ∈ mids, bare other = mid ↔ other = mid

instance (mid : Text) (mids : List Text) : Decidable (Plain mid mids) :=
  inferInstanceAs (Decidable (∀ other ∈ mids, _))

theorem Arrived.arrives (arrived : Arrived ids mail now msgId db db') (numbered : Numbered db)
    (named : mail.rfc724Mid ≠ []) {mids : List Text} (plain : Plain mail.rfc724Mid mids) :
    Boards.Arrives msgId mail.rfc724Mid (directory id db) (directory id db') mids := by
  have absent := arrived.absent numbered
  have known : ∀ {other found}, rfc724MidExists other db = some found →
      rfc724MidExists other db' = some found ∧ other ≠ mail.rfc724Mid ∧ found ≠ msgId := by
    intro other found finds
    refine ⟨by rw [arrived.lookup named, finds, Option.some_or], ?_, ?_⟩
    · rintro rfl
      rw [arrived.unknown] at finds
      cases finds
    · rintro rfl
      exact absent other finds
  have unknown : ∀ {other}, other ∈ mids → rfc724MidExists other db = none →
      rfc724MidExists other db' = if other = mail.rfc724Mid then some msgId else none := by
    intro other member finds
    rw [arrived.lookup named, finds, Option.none_or, if_congr (plain other member) rfl rfl]
  refine ⟨fun other _ => ?_, ?_, fun other member => ?_, fun other member someone isOther => ?_,
    fun other member => ?_⟩
  · simpa [directory] using absent other
  · simp [directory, arrived.unknown]
  · cases finds : rfc724MidExists other db with
    | none =>
      simp only [directory, unknown member finds, id]
      split <;> simp_all
    | some found =>
      obtain ⟨finds', differs, notOwn⟩ := known finds
      simp [directory, finds', differs, notOwn]
  · cases finds : rfc724MidExists other db with
    | none =>
      simp only [directory, unknown member finds, finds, id]
      split <;> simp [isOther.symm]
    | some found => simp [directory, known finds, finds]
  · cases finds : rfc724MidExists other db with
    | none =>
      simp only [directory, unknown member finds, finds]
      split <;> simp_all
    | some found => simp [directory, known finds, finds]

end

end Eeemail.Arrivals
