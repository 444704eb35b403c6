import Eeemail.Refusals
import Eeemail.TrashSafety

/-! # The default timer of a conversation

`apply_default_timer` of `core/src/email/receipts.rs` gives a conversation its
timer when it is written to for the first time.  Whether it was written to
before is read off the messages that are left: while one stays that was sent
there before the one that is sent now, no send turns a timer on that was turned
off, and when the last one is destroyed the next send does. -/

set_option autoImplicit false

namespace Eeemail.DefaultTimer

open Lib.Texts Lib.Actions Lib.Tables Lib.Runs Store Labels Trash Gating Housekeeping
open Reception Chats Sending Frames ContactTable Drafting Mailbox TrashSafety Accounting
open Refusals

/-! ## What was sent -/

/-- The message was sent in the chat, and it shows there. -/
def IsSent (chatId : ChatId) (msg : Message) : Prop :=
  msg.chatId = chatId ∧ msg.fromId = ContactId.self ∧ msg.hidden = false ∧ msg.state ≠ .outDraft

instance (chatId : ChatId) (msg : Message) : Decidable (IsSent chatId msg) :=
  inferInstanceAs (Decidable (_ ∧ _ ∧ _ ∧ _))

def SentIn (chatId : ChatId) (msgId : MsgId) (db : Db) : Prop :=
  msgId < db.nextMsgId ∧ ∃ msg ∈ db.msgs, msg.id = msgId ∧ IsSent chatId msg

instance (chatId : ChatId) (msgId : MsgId) (db : Db) : Decidable (SentIn chatId msgId db) :=
  inferInstanceAs (Decidable (_ ∧ _))

def Evolves (chatId : ChatId) (gone : MsgId → Prop) (before after : Db) : Prop :=
  ∀ msgId, SentIn chatId msgId before → ¬gone msgId → SentIn chatId msgId after

def rowsView (db : Db) : List Message × MsgId := (db.msgs, db.nextMsgId)

variable {msgId : MsgId} {α : Type}

section Rows

variable {chatId : ChatId} {gone : MsgId → Prop} {db db' : Db}

theorem Evolves.trans {db'' : Db} (first : Evolves chatId gone db db')
    (second : Evolves chatId gone db' db'') : Evolves chatId gone db db'' :=
  fun msgId sent stays => second msgId (first msgId sent stays) stays

theorem SentIn.of_rows (sent : SentIn chatId msgId db)
    (same : rowsView db' = rowsView db) : SentIn chatId msgId db' := by
  obtain ⟨msgs, next⟩ := Prod.mk.inj same
  unfold SentIn
  rw [msgs, next]
  exact sent

theorem evolves_of_keeps {x : DbAction α} (keeps : Keeps rowsView x) :
    Respects (Evolves chatId gone) x :=
  Respects.of_keeps (fun _ _ same _ sent _ => sent.of_rows same) keeps

theorem evolves_bind {β : Type} {x : DbAction α} {f : α → DbAction β}
    (first : Respects (Evolves chatId gone) x)
    (second : ∀ a, Respects (Evolves chatId gone) (f a)) :
    Respects (Evolves chatId gone) (x >>= f) :=
  Respects.bind Evolves.trans first second

theorem Evolves.update {p : Message → Bool} {f : Message → Message}
    (kept : ∀ msg, p msg = true → ¬gone msg.id → IsSent chatId msg →
      (f msg).id = msg.id ∧ IsSent chatId (f msg)) :
    Evolves chatId gone db { db with msgs := updateWhere p f db.msgs } := by
  rintro msgId ⟨below, msg, member, rfl, isSent⟩ stays
  refine ⟨below, _, mem_updateWhere.mpr ⟨msg, member, rfl⟩, ?_⟩
  split
  next passes => exact kept msg passes stays isSent
  next => exact ⟨rfl, isSent⟩

theorem Evolves.delete {p : Message → Bool} (spares : ∀ msg, IsSent chatId msg → p msg = false) :
    Evolves chatId gone db { db with msgs := deleteWhere p db.msgs } := by
  rintro msgId ⟨below, msg, member, rfl, isSent⟩ _
  exact ⟨below, msg, mem_deleteWhere.mpr ⟨member, spares msg isSent⟩, rfl, isSent⟩

theorem SentIn.insert (sent : SentIn chatId msgId db) (row : Message) :
    SentIn chatId msgId { db with msgs := db.msgs ++ [row], nextMsgId := db.nextMsgId + 1 } := by
  obtain ⟨below, msg, member, facts⟩ := sent
  exact ⟨Nat.lt_succ_of_lt below, msg, List.mem_append_left _ member, facts⟩

theorem evolves_clearTimers (msgs : List MsgId) : Evolves chatId gone db (clearTimers msgs db) :=
  .update fun _ _ _ isSent => ⟨rfl, isSent⟩

theorem evolves_trashRows {msgs : List MsgId} (onServer : Bool) (destroyed : ∀ id ∈ msgs, gone id) :
    Evolves chatId gone db (trashRows msgs onServer db) := by
  refine .update fun msg listed stays _ => ?_
  exact absurd (destroyed msg.id (List.contains_iff_mem.mp listed)) stays

theorem evolves_destroy {msgs : List MsgId} (destroyed : ∀ id ∈ msgs, gone id) :
    Evolves chatId gone db (destroy msgs db).2 :=
  fun msgId sent stays => (evolves_trashRows true destroyed msgId sent stays).of_rows rfl

theorem evolves_markseenMsgs (msgs : List MsgId) (now : Int) :
    Evolves chatId gone db (markseenMsgs msgs now db) := by
  unfold markseenMsgs
  simp only
  refine Evolves.trans ?_ (.update fun msg seen _ isSent => ?_)
  · split
    · exact .update fun _ _ _ isSent => ⟨rfl, isSent⟩
    · exact fun _ sent _ => sent
  · exact ⟨rfl, isSent.1, isSent.2.1, isSent.2.2.1, nofun⟩

theorem evolves_finish (real : chatIdLastSpecial < chatId) (listed : List Text) (now : Int) :
    Evolves chatId gone db (finish listed now db) := by
  have timers : Evolves chatId gone db (startEphemeralTimers now (pruneStructured db)) := by
    have pruned : Evolves chatId gone db (pruneStructured db) := fun _ sent _ => sent.of_rows rfl
    exact pruned.trans (.update fun _ _ _ isSent => ⟨rfl, isSent⟩)
  refine timers.trans (.delete fun msg isSent => ?_)
  have live : msg.isLive = true := by
    rw [Message.isLive, isSent.1, bne_iff_ne]
    exact fun trash => absurd (trash ▸ real) (by decide)
  rw [live]
  rfl

end Rows

section

variable [Unicode] {chatId : ChatId} {gone : MsgId → Prop} {db : Db}

/-! ## What is done to mail -/

theorem evolves_toTrash (msgs : List MsgId) (reason : Reason) (now : Int) :
    Respects (Evolves chatId gone) (toTrash msgs reason now) :=
  evolves_of_keeps ((ContactTable.keeps_toTrash msgs reason now).coarser rowsView)

omit [Unicode] in
theorem evolves_label {read : Db → Except Text Label} {f : Label → DbAction Unit}
    (keeps : ∀ label, Keeps rowsView (f label)) :
    Respects (Evolves chatId gone) (queryExcept read >>= f) :=
  evolves_of_keeps (Keeps.bind (Keeps.queryExcept _) keeps)

theorem evolves_restore (msgs : List MsgId) : Respects (Evolves chatId gone) (restore msgs) := by
  unfold restore
  split
  · exact evolves_of_keeps (Keeps.pure _)
  · refine evolves_bind (evolves_of_keeps (Keeps.queryExcept _)) fun label => ?_
    refine evolves_bind (evolves_of_keeps ((keeps_setExt msgs label false .sync).coarser rowsView))
      fun _ => ?_
    refine evolves_bind (evolves_of_keeps (Keeps.exec fun _ => rfl)) fun _ => ?_
    exact fun _ => evolves_clearTimers msgs

theorem evolves_divert (now : Int) : Respects (Evolves chatId gone) (divert now) := by
  refine evolves_bind (evolves_of_keeps (Keeps.query _)) fun days => ?_
  split
  · exact evolves_of_keeps (Keeps.pure _)
  · refine evolves_bind (evolves_of_keeps (Keeps.query _)) fun fired => ?_
    split
    · exact evolves_of_keeps (Keeps.pure _)
    · refine evolves_bind (evolves_toTrash fired .expired now) fun _ => ?_
      exact evolves_bind (fun _ => evolves_clearTimers fired) fun _ =>
        evolves_of_keeps (Keeps.pure _)

theorem evolves_sweep (now : Int) : Respects (Evolves chatId gone) (sweep now) := by
  refine evolves_bind (evolves_of_keeps (Keeps.query _)) fun days => ?_
  refine evolves_bind (evolves_of_keeps (Keeps.query _)) fun swept => ?_
  split
  · exact evolves_bind (evolves_of_keeps (Keeps.exec fun _ => rfl)) fun _ =>
      evolves_of_keeps (Keeps.pure _)
  · exact evolves_bind (evolves_toTrash swept .unaccepted now) fun _ =>
      evolves_of_keeps ((keeps_unhold swept).coarser rowsView)

theorem evolves_setEnabled (enabled : Bool) :
    Respects (Evolves chatId gone) (setEnabled enabled) := by
  refine evolves_of_keeps (Keeps.bind (Keeps.exec fun _ => rfl) fun _ => ?_)
  refine Keeps.ite (Keeps.pure _) (Keeps.bind ?_ fun _ => Keeps.pure _)
  exact Keeps.bind (Keeps.query _) fun msgs => (keeps_unhold msgs).coarser rowsView

theorem evolves_receive (mail : Incoming) (now : Int) :
    Respects (Evolves chatId gone) (Reception.receive mail now) := by
  refine evolves_bind ?_ fun stored => ?_
  · refine evolves_bind (evolves_of_keeps (Keeps.query _)) fun known => ?_
    split
    · exact evolves_of_keeps (Keeps.pure _)
    · refine evolves_bind (evolves_of_keeps ((keeps_prepare mail).coarser rowsView))
        fun placed => ?_
      split
      · exact evolves_of_keeps (Keeps.pure _)
      · refine evolves_bind (fun db _ sent _ => sent.insert _) fun msgId => ?_
        refine evolves_bind (evolves_of_keeps ((keeps_seen _ _).coarser rowsView)) fun _ => ?_
        exact evolves_bind (evolves_of_keeps ((keeps_hooks mail msgId now).coarser rowsView))
          fun _ => evolves_of_keeps (Keeps.pure _)
  · split
    · exact evolves_of_keeps (Keeps.pure _)
    · refine evolves_bind (evolves_of_keeps (Keeps.exec fun _ => rfl)) fun _ => ?_
      refine evolves_bind (evolves_of_keeps ?_) fun _ => evolves_of_keeps (Keeps.pure _)
      exact Keeps.bestEffort ((keeps_adopt mail).coarser rowsView)

def destroyed (db : Db) (event : Event) : List MsgId :=
  match event.op with
  | .destroyNow msgs =>
    ((byName trashName db).toList.flatMap fun label => labelled label.id db).filter msgs.contains
  | .emptyTrash => (byName trashName db).toList.flatMap fun label => msgsWith label.id db
  | .purge => (byName trashName db).toList.flatMap fun label =>
    due event.now (reconcileRows label.id event.now db)
  | .deleteExpired => selectExpiredMessages event.now (stateAfter (divert event.now) db)
  | _ => []

theorem stateAfter_reserved_bind (f : Label → DbAction α) :
    stateAfter (reserved trashName >>= f) db =
      match byName trashName db with
      | some label => stateAfter (f label) db
      | none => db := by
  unfold reserved
  rw [stateAfter_queryExcept_bind]
  cases byName trashName db <;> rfl

theorem evolves_reconcile_bind {now : Int} {f : Unit → DbAction α}
    (rest : ∀ label, byName trashName db = some label →
      Evolves chatId gone (reconcileRows label.id now db)
        (stateAfter (f ()) (reconcileRows label.id now db))) :
    Evolves chatId gone db (stateAfter (reconcile now >>= f) db) := by
  unfold reconcile
  rw [bind_assoc, stateAfter_reserved_bind]
  cases found : byName trashName db with
  | none => exact fun _ sent _ => sent
  | some label => exact fun msgId sent => rest label found msgId (sent.of_rows rfl)

theorem evolves_step (real : chatIdLastSpecial < chatId) (db : Db) (event : Event) :
    Evolves chatId (· ∈ destroyed db event) db (step db event) := by
  obtain ⟨now, op⟩ := event
  unfold step
  cases op with
  | trash msgs => exact evolves_toTrash msgs .deleted now db
  | restore msgs => exact evolves_restore msgs db
  | destroyNow msgs =>
    rw [perform, stateAfter_run, Trash.destroyNow]
    split
    · exact fun _ sent _ => sent
    · refine evolves_reconcile_bind fun label found => ?_
      refine evolves_destroy fun id picked => ?_
      obtain ⟨listed, dated⟩ := List.mem_filter.mp picked
      obtain ⟨row, member, same⟩ := List.any_eq_true.mp dated
      have carries := mem_labelled.mpr (labelled_of_reconcileRows member)
      rw [beq_iff_eq.mp same] at carries
      simp only [destroyed, found, Option.toList_some, List.flatMap_singleton]
      exact List.mem_filter.mpr ⟨carries, List.contains_iff_mem.mpr listed⟩
  | emptyTrash =>
    rw [perform, stateAfter_run, Trash.empty]
    refine evolves_reconcile_bind fun label found => ?_
    have same : byName trashName (reconcileRows label.id now db) = some label := found
    rw [inTrash, bind_assoc, stateAfter_reserved_bind, same]
    refine evolves_destroy fun id picked => ?_
    simp only [destroyed, found, Option.toList_some, List.flatMap_singleton]
    exact picked
  | purge =>
    rw [perform, stateAfter_run, Trash.purge]
    refine evolves_reconcile_bind fun label found => ?_
    rw [stateAfter_execReturning]
    split
    · exact fun _ sent _ => sent.of_rows rfl
    · refine evolves_destroy fun id picked => ?_
      simp only [destroyed, found, Option.toList_some, List.flatMap_singleton]
      exact picked
  | setPurgeDays days => exact fun _ sent _ => sent.of_rows rfl
  | setMessageTimer msgId duration => exact .update fun _ _ _ isSent => ⟨rfl, isSent⟩
  | divert =>
    rw [perform, stateAfter_run]
    exact evolves_divert now db
  | createLabel name color =>
    rw [perform, stateAfter_run]
    exact evolves_of_keeps ((keeps_createExt name color .sync now).coarser rowsView) db
  | renameLabel id newName =>
    exact evolves_label (fun label => (keeps_renameExt label newName .sync).coarser rowsView) db
  | setLabelColor id color =>
    exact evolves_label (fun label => (keeps_setColorExt label color .sync).coarser rowsView) db
  | deleteLabel id =>
    exact evolves_label (fun label => (keeps_deleteExt label .sync).coarser rowsView) db
  | applyLabel msgs id =>
    exact evolves_label (fun label => (keeps_setExt msgs label true .sync).coarser rowsView) db
  | unapplyLabel msgs id =>
    exact evolves_label (fun label => (keeps_setExt msgs label false .sync).coarser rowsView) db
  | archive msgs =>
    exact evolves_label (fun label => (keeps_setExt msgs label true .sync).coarser rowsView) db
  | unarchive msgs =>
    exact evolves_label (fun label => (keeps_setExt msgs label false .sync).coarser rowsView) db
  | syncItem item timestamp =>
    exact evolves_of_keeps ((keeps_executeSyncItem item timestamp now).coarser rowsView) db
  | receive mail =>
    rw [perform, stateAfter_run]
    exact evolves_receive mail now db
  | setGating enabled => exact evolves_setEnabled enabled db
  | setHoldDays days => exact fun _ sent _ => sent.of_rows rfl
  | sweep =>
    rw [perform, stateAfter_run]
    exact evolves_sweep now db
  | markseen msgs => exact evolves_markseenMsgs msgs now
  | deleteExpired =>
    rw [perform, deleteExpiredMessages, stateAfter_bestEffort_bind]
    exact (evolves_divert now db).trans (evolves_trashRows false fun _ picked => picked)
  | tidy => exact fun _ sent _ => sent.of_rows rfl
  | finish listed => exact evolves_finish real listed now

/-! ## Sending -/

/-- A message that was sent in the chat is there, and the chat has the timer. -/
def Settled (chatId : ChatId) (msgId : MsgId) (timer : Nat) (db : Db) : Prop :=
  SentIn chatId msgId db ∧ ephemeralTimer chatId db = timer

section Settled

variable {msgId : MsgId} {timer : Nat}

section

omit [Unicode]

theorem Settled.of_view {db' : Db} (settled : Settled chatId msgId timer db)
    (same : mailView db' = mailView db) : Settled chatId msgId timer db' := by
  obtain ⟨msgs, rest⟩ := Prod.mk.inj same
  obtain ⟨chats, next⟩ := Prod.mk.inj rest
  refine ⟨settled.1.of_rows (Prod.ext msgs next), ?_⟩
  rw [← settled.2]
  unfold ephemeralTimer Db.chatById
  rw [chats]

theorem Settled.updateChats {p : Chat → Bool} {f : Chat → Chat}
    (settled : Settled chatId msgId timer db) (keepsId : ∀ chat, (f chat).id = chat.id)
    (kept : ∀ chat, p chat = true → chat.id = chatId →
      (f chat).ephemeralTimer = chat.ephemeralTimer) :
    Settled chatId msgId timer { db with chats := updateWhere p f db.chats } := by
  refine ⟨settled.1.of_rows rfl, ?_⟩
  rw [← settled.2, ephemeralTimer, ephemeralTimer, Db.chatById, Db.chatById,
    find?_updateWhere Chat.id keepsId]
  cases found : db.chats.find? fun chat => chat.id == chatId with
  | none => rfl
  | some chat =>
    have isChat : chat.id = chatId := by simpa using List.find?_some found
    simp only [Option.map_some, Option.getD_some]
    split
    next passes => exact kept chat passes isChat
    next => rfl

theorem Settled.insertChat (settled : Settled chatId msgId timer db) (contactId : ContactId) :
    Settled chatId msgId timer (insertChat contactId db).2 := by
  refine ⟨settled.1.of_rows rfl, ?_⟩
  rw [← settled.2, ephemeralTimer, ephemeralTimer, Db.chatById, Db.chatById, Chats.insertChat,
    List.find?_append]
  cases db.chats.find? fun chat => chat.id == chatId with
  | some chat => rfl
  | none =>
    rw [Option.none_or, List.find?_singleton]
    split <;> rfl

theorem settled_applyDefaultTimer {newId : MsgId} {other : ChatId}
    (earlier : other = chatId → msgId < newId) (contacts : List ContactId)
    (settled : Settled chatId msgId timer db) :
    Settled chatId msgId timer (applyDefaultTimer other newId contacts db) := by
  obtain ⟨⟨below, msg, member, rfl, isSent⟩, isTimer⟩ := settled
  unfold applyDefaultTimer
  simp only
  split
  next => exact ⟨⟨below, msg, member, rfl, isSent⟩, isTimer⟩
  next fresh =>
    have settled : Settled chatId msg.id timer db := ⟨⟨below, msg, member, rfl, isSent⟩, isTimer⟩
    refine settled.updateChats (fun _ => rfl) fun chat isOther isChat => ?_
    -- The chat is the one being written to: the earlier message is found.
    have same : chat.id = other := beq_iff_eq.mp isOther
    refine absurd (Or.inr (Or.inr (List.any_eq_true.mpr ⟨msg, member, ?_⟩))) fresh
    simp [isSent.1, isSent.2.1, isSent.2.2.1, ← same, isChat, earlier (same.symm.trans isChat)]

theorem sendStable_settled {newId : MsgId} {other : ChatId} (distinct : msgId ≠ newId)
    (earlier : other = chatId → msgId < newId) :
    SendStable newId other (Settled chatId msgId timer) where
  view _ _ same settled := settled.of_view same
  update f db keepsId _ settled := by
    obtain ⟨⟨below, msg, member, rfl, isSent⟩, isTimer⟩ := settled
    refine ⟨⟨below, msg, mem_updateWhere.mpr ⟨msg, member, ?_⟩, rfl, isSent⟩, isTimer⟩
    rw [if_neg]
    simpa using distinct
  info _ _ _ _ _ _ _ settled := ⟨settled.1.insert _, settled.2⟩
  timer contacts _ settled := settled_applyDefaultTimer earlier contacts settled

theorem sendStable_of_lt {newId : MsgId} {other : ChatId} (earlier : msgId < newId) :
    SendStable newId other (Settled chatId msgId timer) :=
  sendStable_settled (Nat.ne_of_lt earlier) fun _ => earlier

end

theorem settled_createForContact (contactId : ContactId) (noticeMid : Text) (now : Int) :
    Preserves (Settled chatId msgId timer) (createForContact contactId noticeMid now) := by
  refine SendFrames.preserves_createForContact (fun db chat settled => ?_) (fun db settled => ?_)
    (fun db _ settled => ?_) ?_
  · exact settled.updateChats (fun _ => rfl) fun _ _ _ => rfl
  · exact settled.insertChat contactId
  · exact ⟨settled.1.insert _, settled.2⟩
  · exact Preserves.of_keeps (fun _ _ same settled => settled.of_view same)
      ((keeps_scaleupOrigin _ _).coarser mailView)

omit [Unicode] in
theorem settled_setDraft (other : ChatId) (msg : Message) (now : Int) :
    Preserves (Settled chatId msgId timer) (setDraft other msg now) := by
  refine Preserves.ite (Preserves.pure _) ?_
  refine Preserves.bind (Preserves.ensure _ _) fun _ =>
    Preserves.bind (Preserves.ensure _ _) fun _ => ?_
  refine Preserves.execReturning fun db settled => ⟨?_, settled.2⟩
  have kept : SentIn chatId msgId
      { db with
        msgs := deleteWhere (fun msg =>
          msg.chatId == other && msg.state == .outDraft) db.msgs } := by
    obtain ⟨below, sent, member, isMsg, isSent⟩ := settled.1
    refine ⟨below, sent, mem_deleteWhere.mpr ⟨member, ?_⟩, isMsg, isSent⟩
    simp [isSent.2.2.2]
  exact kept.insert _

theorem setDraft_id {other : ChatId} {mail : Composition} {mid : Text} {now : Int} {draft : Message}
    {drafted : Db} (stored : (setDraft other (newMessage mail mid) now).run db =
      .ok draft drafted) :
    draft.id = 0 ∨ draft.id = db.nextMsgId := by
  unfold setDraft at stored
  split at stored
  · obtain ⟨rfl, _⟩ := pure_eq_ok.mp stored
    exact Or.inl rfl
  · obtain ⟨_, stored⟩ := ensure_bind_eq_ok.mp stored
    obtain ⟨_, stored⟩ := ensure_bind_eq_ok.mp stored
    rw [execReturning_run, EStateM.Result.ok.injEq] at stored
    rw [← stored.1]
    exact Or.inr rfl

theorem settled_send (mail : Composition) (draws : Draws) (now : Int) :
    Preserves (Settled chatId msgId timer) (send mail draws now) := by
  cases typed : mail.recipients.toAddrs with
  | nil =>
    unfold send
    rw [typed]
    exact Preserves.bind (Preserves.ensure _ _) fun _ =>
      Preserves.of_keeps (fun _ _ same settled => settled.of_view same) (Keeps.fail _)
  | cons primary rest =>
    rw [send_eq_of_cons typed]
    refine Preserves.bind (Preserves.queryExcept _) fun _ => ?_
    refine Preserves.bind ?_ fun contactId => ?_
    · exact Preserves.of_keeps (fun _ _ same settled => settled.of_view same)
        ((keeps_resolvePrimary primary).coarser mailView)
    · refine Preserves.bind (settled_createForContact contactId draws.noticeMid now) fun other => ?_
      refine Preserves.bind_of_ok (settled_setDraft _ _ _)
        fun db draft drafted before stored after => ?_
      rcases setDraft_id stored with unset | isNext
      · rw [afterDraft, stateAfter_ensure_bind, unset]
        exact after
      · refine (sendStable_of_lt ?_).afterDraft rfl mail draws now drafted after
        rw [isNext]
        exact before.1.1

end Settled

/-! ## Messages that are not composed -/

/-- `prepare_msg_raw` for a message that gets a new row. -/
def insertRaw (chat : Chat) (msg : Message) (now : Int) (db : Db) : Message × Db :=
  let sent := (prepareMsgRaw chat { msg with id := db.nextMsgId } now db).1
  let sent :=
    if msg.param.cmd = .ephemeralTimerChanged then
      { sent with ephemeralTimer := 0, ephemeralTimestamp := 0 }
    else sent
  let row : Message :=
    { sent with
      preRfc724Mid := [], timestampSent := 0, timestampRcvd := 0, error := []
      downloadDone := true, deleted := false }
  (sent, { db with msgs := db.msgs ++ [row], nextMsgId := db.nextMsgId + 1 })

/-- `send_msg` of a message that is not a draft of the chat; `forward_msgs` ends the same way. -/
def sendNew (chatId : ChatId) (msg : Message) (draws : Draws) (now : Int) : DbAction Unit := do
  let isNew := msg.state == .undefined
  ensure (chatIdLastSpecial < chatId)
    ("chat_id cannot be a special chat: ".toList ++ displayChatId chatId)
  let chat ← loadChat chatId
  match ← query (whyCantSend chat (isNew && msg.param.forcePlaintext)) with
  | some reason =>
    fail ("Cannot send to ".toList ++ displayChatId chatId ++ ": ".toList ++ reason.text)
  | none => do
    let encrypted ← query (isEncrypted chat)
    let msg ← execReturning (insertRaw chat
      { msg with
        rfc724Mid := if msg.rfc724Mid.isEmpty then draws.mid else msg.rfc724Mid
        hidden := msg.hidden && msg.state != .outDraft
        state := .outPending
        timestamp := now
        param := { msg.param with
          guaranteeE2ee := isNew && (msg.param.guaranteeE2ee || encrypted)
          forcePlaintext := isNew && msg.param.forcePlaintext } }
      now)
    onError (createSendMsgJobs msg draws now) (fun _ db => db)
      ("Failed to create send jobs: ".toList ++ ·)

def getDraft (chatId : ChatId) (db : Db) : Option Message :=
  if chatId ≤ chatIdLastSpecial then none
  else db.msgs.find? fun msg => msg.chatId == chatId && msg.state == .outDraft

/-- `misc_send_draft`: the message keeps the id of the draft. -/
def sendDraft (chatId : ChatId) (draws : Draws) (now : Int) : DbAction Unit := do
  match ← query (getDraft chatId) with
  | some draft => Sending.sendMsg chatId draft draws now
  | none =>
    fail ("chat with id ".toList ++ (toString chatId).toList ++
      " doesn't have draft message".toList)

def isInfo (msg : Message) : Bool :=
  msg.fromId == ContactId.info || msg.toId == ContactId.info || msg.param.cmd != .unknown

def stateText : MessageState → Text
  | .undefined => "Undefined".toList
  | .inFresh => "Fresh".toList
  | .inNoticed => "Noticed".toList
  | .inSeen => "Seen".toList
  | .outDraft => "Draft".toList
  | .outPending => "Pending".toList
  | .outFailed => "Failed".toList
  | .outDelivered => "Delivered".toList
  | .outMdnRcvd => "Read".toList

def loadOwn (msgId : MsgId) : DbAction Message := do
  let msg ← querySome (fun db => db.msgs.find? fun msg => msg.id == msgId && msg.isLive)
    ("Message Msg#".toList ++ (toString msgId).toList ++ " does not exist".toList)
  ensure (msg.fromId == ContactId.self) "can resend only own messages".toList
  ensure (!isInfo msg) "cannot resend info messages".toList
  pure msg

def setPending (msgId : MsgId) (db : Db) : Db :=
  { db with
    msgs := updateWhere (fun row => row.id == msgId)
      (fun row => { row with state := .outPending, error := [] }) db.msgs }

def resendMsg (msg : Message) (draws : Draws) (now : Int) : DbAction Unit := do
  ensure ([.outPending, .outFailed, .outDelivered, .outMdnRcvd].contains msg.state)
    ("Unexpected message state ".toList ++ stateText msg.state)
  exec (setPending msg.id)
  createSendMsgJobs msg draws now

def resendMsgs (msgIds : List MsgId) (draws : MsgId → Draws) (now : Int) : DbAction Unit := do
  let msgs ← collect loadOwn msgIds
  forEach (fun msg => resendMsg msg (draws msg.id) now) msgs

omit [Unicode] in
theorem insertRaw_id (chat : Chat) (msg : Message) (now : Int) (db : Db) :
    (insertRaw chat msg now db).1.id = db.nextMsgId := by
  unfold insertRaw
  simp only
  split <;> rfl

theorem settled_sendNew {timer : Nat} (other : ChatId) (msg : Message) (draws : Draws)
    (now : Int) : Preserves (Settled chatId msgId timer) (sendNew other msg draws now) := by
  refine Preserves.bind (Preserves.ensure _ _) fun _ => ?_
  refine Preserves.bind (Preserves.queryExcept _) fun chat => ?_
  refine Preserves.bind (Preserves.query _) fun reason => ?_
  cases reason with
  | some reason =>
    exact Preserves.of_keeps (fun _ _ same settled => settled.of_view same) (Keeps.fail _)
  | none =>
    refine Preserves.bind (Preserves.query _) fun encrypted => ?_
    refine Preserves.bind_of_ok (Preserves.execReturning fun db settled => ?_)
      fun db sent _ before inserted after => ?_
    · exact ⟨settled.1.insert _, settled.2⟩
    · rw [execReturning_run, EStateM.Result.ok.injEq] at inserted
      have isNext : sent.id = db.nextMsgId := inserted.1 ▸ insertRaw_id chat _ now db
      have stable : SendStable sent.id sent.chatId (Settled chatId msgId timer) :=
        sendStable_of_lt (isNext ▸ before.1.1)
      exact Preserves.onError (stable.createSendMsgJobs rfl rfl draws now) (fun _ _ inv => inv) _
        after

/-! ### Messages that were sent before -/

def Older (chatId : ChatId) (msgId : MsgId) (again : List MsgId) (db : Db) : Prop :=
  ∀ row ∈ db.msgs, row.chatId = chatId → row.id ∈ again → msgId < row.id

section Older

variable {timer : Nat} {again : List MsgId} {row : Message}

omit [Unicode] in
theorem Older.sendStable (older : Older chatId msgId again db) (sent : SentIn chatId msgId db)
    (member : row ∈ db.msgs) (isAgain : row.id ∈ again) :
    SendStable row.id row.chatId (Settled chatId msgId timer) := by
  refine sendStable_settled ?_ fun inChat => older row member inChat isAgain
  -- The older message is itself in the chat, so it is not sent again.
  rintro rfl
  obtain ⟨_, msg, isMsg, sameId, isSent⟩ := sent
  exact Nat.lt_irrefl _ (sameId ▸ older msg isMsg isSent.1 (sameId.symm ▸ isAgain))

omit [Unicode] in
theorem mem_of_getDraft {other : ChatId} (found : getDraft other db = some row) :
    row ∈ db.msgs ∧ row.chatId = other := by
  unfold getDraft at found
  split at found
  · cases found
  · have passes := List.find?_some found
    simp only [Bool.and_eq_true, beq_iff_eq] at passes
    exact ⟨List.mem_of_find?_eq_some found, passes.1⟩

theorem settled_sendDraft {other : ChatId} {draws : Draws} {now : Int}
    (older : Older chatId msgId ((getDraft other db).toList.map (·.id)) db)
    (settled : Settled chatId msgId timer db) :
    Settled chatId msgId timer (stateAfter (sendDraft other draws now) db) := by
  unfold sendDraft
  rw [stateAfter_query_bind]
  cases found : getDraft other db with
  | none => exact settled
  | some draft =>
    obtain ⟨member, rfl⟩ := mem_of_getDraft found
    have stable : SendStable draft.id draft.chatId (Settled chatId msgId timer) :=
      older.sendStable settled.1 member (by simp [found])
    exact stable.sendMsg rfl draws now db settled

omit [Unicode] in
theorem loadOwn_eq_ok {id : MsgId} {db' : Db} (loaded : (loadOwn id).run db = .ok row db') :
    row ∈ db.msgs ∧ row.id = id ∧ db' = db := by
  obtain ⟨msg, found, loaded⟩ := querySome_bind_eq_ok.mp loaded
  obtain ⟨_, loaded⟩ := ensure_bind_eq_ok.mp loaded
  obtain ⟨_, loaded⟩ := ensure_bind_eq_ok.mp loaded
  obtain ⟨rfl, rfl⟩ := pure_eq_ok.mp loaded
  have passes := List.find?_some found
  simp only [Bool.and_eq_true, beq_iff_eq] at passes
  exact ⟨List.mem_of_find?_eq_some found, passes.1, rfl⟩

omit [Unicode] in
theorem mem_of_collect_loadOwn {msgs : List Message} {db' : Db}
    (loaded : (collect loadOwn again).run db = .ok msgs db') :
    db' = db ∧ ∀ msg ∈ msgs, msg ∈ db.msgs ∧ msg.id ∈ again := by
  induction again generalizing msgs db' with
  | nil =>
    obtain ⟨rfl, rfl⟩ := pure_eq_ok.mp loaded
    exact ⟨rfl, by simp⟩
  | cons id rest ih =>
    obtain ⟨msg, _, first, more⟩ := bind_eq_ok.mp loaded
    obtain ⟨member, isId, rfl⟩ := loadOwn_eq_ok first
    obtain ⟨others, _, later, returned⟩ := bind_eq_ok.mp more
    obtain ⟨rfl, facts⟩ := ih later
    obtain ⟨rfl, rfl⟩ := pure_eq_ok.mp returned
    refine ⟨rfl, List.forall_mem_cons.mpr ⟨⟨member, isId ▸ List.mem_cons_self⟩, ?_⟩⟩
    exact fun other isOther => (facts other isOther).imp_right (List.mem_cons_of_mem id)

theorem settled_resendMsgs {draws : MsgId → Draws} {now : Int}
    (older : Older chatId msgId again db) (settled : Settled chatId msgId timer db) :
    Settled chatId msgId timer (stateAfter (resendMsgs again draws now) db) := by
  unfold resendMsgs
  rw [stateAfter_bind]
  cases loaded : (collect loadOwn again).run db with
  | error e db' =>
    have kept : Preserves (Settled chatId msgId timer) (collect loadOwn again) := by
      refine Preserves.collect (fun _ => ?_) again
      refine Preserves.bind (Preserves.queryExcept _) fun _ => ?_
      refine Preserves.bind (Preserves.ensure _ _) fun _ => ?_
      exact Preserves.bind (Preserves.ensure _ _) fun _ => Preserves.pure _
    rw [← stateAfter_of_error loaded]
    exact kept db settled
  | ok msgs db' =>
    obtain ⟨rfl, facts⟩ := mem_of_collect_loadOwn loaded
    refine Preserves.forEach_of_mem (fun msg isMsg => ?_) _ settled
    obtain ⟨member, isAgain⟩ := facts msg isMsg
    have stable : SendStable msg.id msg.chatId (Settled chatId msgId timer) :=
      older.sendStable settled.1 member isAgain
    refine Preserves.bind (Preserves.ensure _ _) fun _ =>
      Preserves.bind (Preserves.exec ?_) fun _ =>
      stable.createSendMsgJobs rfl rfl _ now
    exact fun db inv => stable.update _ db (fun _ => rfl) (fun _ ours => ours) inv

end Older

/-- `inner_set_ephemeral_timer`, on behalf of either side. -/
def innerSetEphemeralTimer (chatId : ChatId) (timer : Nat) : DbAction Unit := do
  ensure (!(chatId ≤ chatIdLastSpecial)) "Invalid chat ID".toList
  exec fun db =>
    { db with
      chats := updateWhere (fun chat => chat.id == chatId)
        (fun chat => { chat with ephemeralTimer := timer }) db.chats }

def timerChange (text : Text) : Message :=
  { id := 0, viewtype := .text, text, param := { cmd := .ephemeralTimerChanged } }

/-- `set_ephemeral_timer`; `text` is the stock string for the new timer. -/
def setEphemeralTimer (chatId : ChatId) (timer : Nat) (text : Text) (draws : Draws) (now : Int) :
    DbAction Unit := do
  let current ← querySome (fun db => (db.chatById chatId).map (·.ephemeralTimer))
    ("Chat ".toList ++ displayChatId chatId ++ " not found".toList)
  if timer = current then pure ()
  else do
    innerSetEphemeralTimer chatId timer
    bestEffort (sendNew chatId (timerChange text) draws now)

/-! ## Runs -/

/-- What can be sent: a new message, composed or not, a draft, and messages once more. -/
inductive Post where
  | composed (mail : Composition) (draws : Draws)
  | message (chatId : ChatId) (msg : Message) (draws : Draws)
  | draft (chatId : ChatId) (draws : Draws)
  | again (msgIds : List MsgId) (draws : MsgId → Draws)

def posted (now : Int) (db : Db) : Post → Db
  | .composed mail draws => stateAfter (Sending.send mail draws now) db
  | .message chatId msg draws => stateAfter (sendNew chatId msg draws now) db
  | .draft chatId draws => stateAfter (sendDraft chatId draws now) db
  | .again msgIds draws => stateAfter (resendMsgs msgIds draws now) db

def keptIds (db : Db) : Post → List MsgId
  | .composed .. | .message .. => []
  | .draft chatId _ => (getDraft chatId db).toList.map (·.id)
  | .again msgIds _ => msgIds

inductive Turn where
  | mailbox (event : Event)
  | send (post : Post) (now : Int)
  | setDraft (chatId : ChatId) (msg : Message) (now : Int)
  /-- The user chooses a timer; `text` is what the other side is told. -/
  | setTimer (chatId : ChatId) (timer : Nat) (text : Text) (draws : Draws) (now : Int)
  /-- A message says that the other side chose a timer. -/
  | timerReceived (chatId : ChatId) (timer : Nat)

def turn (db : Db) : Turn → Db
  | .mailbox event => step db event
  | .send post now => posted now db post
  | .setDraft chatId msg now => stateAfter (Chats.setDraft chatId msg now) db
  | .setTimer chatId timer text draws now =>
    stateAfter (setEphemeralTimer chatId timer text draws now) db
  | .timerReceived chatId timer => stateAfter (innerSetEphemeralTimer chatId timer) db

/-- No operation destroys all that was sent in the chat, and a message of the chat that
keeps its id is not the first one there. -/
def Spares (chatId : ChatId) (db : Db) : Turn → Prop
  | .mailbox event => ∃ msg ∈ db.msgs, msg.id < db.nextMsgId ∧ IsSent chatId msg ∧
      msg.id ∉ destroyed db event
  | .send post _ => ∀ row ∈ db.msgs, row.chatId = chatId → row.id ∈ keptIds db post →
      ∃ msgId < row.id, SentIn chatId msgId db
  | _ => True

instance (chatId : ChatId) (db : Db) : ∀ op, Decidable (Spares chatId db op)
  | .mailbox _ => inferInstanceAs (Decidable (∃ msg ∈ db.msgs, _))
  | .send _ _ => inferInstanceAs (Decidable (∀ row ∈ db.msgs, _ → _ → _))
  | .setDraft .. | .setTimer .. | .timerReceived .. => inferInstanceAs (Decidable True)

/-- No send turns the timer of the chat on: neither what the user sends, nor the message
that says which timer they chose. -/
def Sticks (chatId : ChatId) (db : Db) : Turn → Prop
  | .send post now =>
    ephemeralTimer chatId db = 0 → ephemeralTimer chatId (turn db (.send post now)) = 0
  | .setTimer other timer text draws now =>
    (if other = chatId then timer else ephemeralTimer chatId db) = 0 →
      ephemeralTimer chatId (turn db (.setTimer other timer text draws now)) = 0
  | _ => True

/-! ## What a turn leaves -/

omit [Unicode] in
theorem Settled.sentIn {x : DbAction α}
    (settled : ∀ timer, Preserves (Settled chatId msgId timer) x) :
    Preserves (SentIn chatId msgId) x :=
  fun db sent => (settled (ephemeralTimer chatId db) db ⟨sent, rfl⟩).1

omit [Unicode] in
theorem keeps_innerSetEphemeralTimer (other : ChatId) (timer : Nat) :
    Keeps rowsView (innerSetEphemeralTimer other timer) :=
  Keeps.bind (Keeps.ensure _ _) fun _ => Keeps.exec fun _ => rfl

theorem sentIn_setEphemeralTimer (msgId : MsgId) (other : ChatId) (timer : Nat) (text : Text)
    (draws : Draws) (now : Int) :
    Preserves (SentIn chatId msgId) (setEphemeralTimer other timer text draws now) := by
  refine Preserves.bind (Preserves.queryExcept _) fun current => ?_
  refine Preserves.ite (Preserves.pure _) (Preserves.bind ?_ fun _ => ?_)
  · exact Preserves.of_keeps (fun _ _ same sent => sent.of_rows same)
      (keeps_innerSetEphemeralTimer other timer)
  · exact Preserves.bestEffort (Settled.sentIn fun _ => settled_sendNew other _ draws now)

theorem settled_posted {post : Post} {now : Int} (sent : ∃ msgId, SentIn chatId msgId db)
    (spares : Spares chatId db (.send post now)) :
    ∃ msgId, Settled chatId msgId (ephemeralTimer chatId db) (posted now db post) := by
  have older : Older chatId (Nat.find sent) (keptIds db post) db := by
    intro row member inChat isKept
    obtain ⟨msgId, below, isSent⟩ := spares row member inChat isKept
    exact Nat.lt_of_le_of_lt (Nat.find_min' sent isSent) below
  have settled : Settled chatId (Nat.find sent) (ephemeralTimer chatId db) db :=
    ⟨Nat.find_spec sent, rfl⟩
  refine ⟨Nat.find sent, ?_⟩
  cases post with
  | composed mail draws => exact settled_send mail draws now db settled
  | message other msg draws => exact settled_sendNew other msg draws now db settled
  | draft other draws => exact settled_sendDraft older settled
  | again msgIds draws => exact settled_resendMsgs older settled

section

variable (real : chatIdLastSpecial < chatId)

include real

theorem sent_turn (sent : ∃ msgId, SentIn chatId msgId db)
    {op : Turn} (spares : Spares chatId db op) : ∃ msgId, SentIn chatId msgId (turn db op) := by
  cases op with
  | mailbox event =>
    obtain ⟨msg, member, below, isSent, stays⟩ := spares
    exact ⟨msg.id, evolves_step real db event msg.id ⟨below, msg, member, rfl, isSent⟩ stays⟩
  | send post now => exact (settled_posted sent spares).imp fun _ settled => settled.1
  | setDraft other msg now =>
    exact sent.imp fun _ => Settled.sentIn (fun _ => settled_setDraft other msg now) db
  | setTimer other timer text draws now =>
    exact sent.imp fun msgId => sentIn_setEphemeralTimer msgId other timer text draws now db
  | timerReceived other timer =>
    exact sent.imp fun _ sent => sent.of_rows (keeps_innerSetEphemeralTimer other timer db)

omit [Unicode] in
theorem settled_innerSetEphemeralTimer {other : ChatId} {timer : Nat}
    (sent : SentIn chatId msgId db)
    (off : (if other = chatId then timer else ephemeralTimer chatId db) = 0) :
    Settled chatId msgId 0 (stateAfter (innerSetEphemeralTimer other timer) db) := by
  unfold innerSetEphemeralTimer
  rw [stateAfter_ensure_bind]
  split_ifs at off with isChat
  · rw [isChat, off, if_pos (by simpa using real), stateAfter_exec]
    refine ⟨sent.of_rows rfl, ?_⟩
    rw [ephemeralTimer, Db.chatById, find?_updateWhere Chat.id]
    · cases found : db.chats.find? fun chat => chat.id == chatId with
      | none => rfl
      | some chat =>
        have isChat : chat.id = chatId := by simpa using List.find?_some found
        simp [isChat]
    · exact fun _ => rfl
  · have settled : Settled chatId msgId 0 db := ⟨sent, off⟩
    split
    · refine settled.updateChats (fun _ => rfl) fun chat isOther same => ?_
      exact absurd (same ▸ (beq_iff_eq.mp isOther).symm) isChat
    · exact settled

theorem settled_setEphemeralTimer {other : ChatId} {timer : Nat} {text : Text}
    {draws : Draws} {now : Int} (sent : SentIn chatId msgId db)
    (off : (if other = chatId then timer else ephemeralTimer chatId db) = 0) :
    ephemeralTimer chatId (stateAfter (setEphemeralTimer other timer text draws now) db) = 0 := by
  have still (current : ephemeralTimer other db = 0 ∨ ephemeralTimer other db = timer) :
      ephemeralTimer chatId db = 0 := by
    split_ifs at off with isChat
    · subst isChat
      exact current.elim id fun same => same.trans off
    · exact off
  unfold setEphemeralTimer querySome
  rw [stateAfter_queryExcept_bind]
  cases found : db.chatById other with
  | none =>
    simp only [found, Option.map_none]
    exact still (Or.inl (by rw [ephemeralTimer, found]; rfl))
  | some chat =>
    simp only [found, Option.map_some]
    split
    next same => exact still (Or.inr (by rw [ephemeralTimer, found, same]; rfl))
    next =>
      have chosen := settled_innerSetEphemeralTimer real sent off
      rw [stateAfter_bind]
      cases result : (innerSetEphemeralTimer other timer).run db with
      | ok _ db' =>
        rw [stateAfter_of_ok result] at chosen
        exact (settled_sendNew other _ draws now db' chosen).2
      | error e db' =>
        rw [stateAfter_of_error result] at chosen
        exact chosen.2

theorem sticks_turn (sent : ∃ msgId, SentIn chatId msgId db) {op : Turn}
    (spares : Spares chatId db op) : Sticks chatId db op := by
  cases op with
  | send post now =>
    obtain ⟨_, _, same⟩ := settled_posted sent spares
    exact fun off => same.trans off
  | setTimer other timer text draws now => exact settled_setEphemeralTimer real sent.choose_spec
  | mailbox _ => trivial
  | setDraft _ _ _ => trivial
  | timerReceived _ _ => trivial

end

/-- As long as something that was sent before in a conversation is left, no send gives it
a timer again once it has none. -/
theorem turning_timer_off_sticks (real : chatIdLastSpecial < chatId) {msgId : MsgId}
    (sent : SentIn chatId msgId db) {turns : List Turn}
    (spared : MeetsAll turn (Spares chatId) db turns) : MeetsAll turn (Sticks chatId) db turns := by
  refine meetsAll_mono (fun db op (sent : ∃ msgId, SentIn chatId msgId db) spares => ?_) turns db
    ⟨msgId, sent⟩ spared
  exact ⟨sticks_turn real sent spares, sent_turn real sent spares⟩

end

section

local instance : Unicode := asciiTables

def expiring : Db :=
  { account with
    config := { account.config with ephemeralDefaultSeconds := 3600 }
    labels := ReservedLabels.migratedLabels
    nextLabelId := 4 }

def letter : Composition :=
  { recipients := { toAddrs := ["a@x.org".toList] }, text := "hi".toList }

def turnedOff : Db :=
  runAll turn expiring
    [.send (.composed letter { mid := "m".toList }) 1000,
     .setTimer 10 0 "You disabled message deletion timer.".toList { mid := "n".toList } 2000]

/-- The first letter is destroyed; the message that told of the choice is left, and the
letter after it is sent twice. -/
theorem timer_stays_off_beside_announcement :
    MeetsAll turn (Sticks 10) turnedOff
      [.mailbox { now := 3000, op := .trash [10] }, .mailbox { now := 3000, op := .emptyTrash },
       .send (.composed letter { mid := "o".toList }) 4000,
       .send (.again [12] fun _ => { mid := [] }) 5000] :=
  turning_timer_off_sticks (by decide) (by decide +kernel : SentIn 10 10 turnedOff)
    (by decide +kernel)

/-- Both are destroyed, and the next letter turns the timer on again; so does the first
letter itself, sent once more. -/
theorem emptied_trash_turns_timer_on :
    SentIn 10 10 turnedOff ∧ ephemeralTimer 10 turnedOff = 0 ∧
      ephemeralTimer 10 (runAll turn turnedOff
        [.mailbox { now := 3000, op := .trash [10, 11] },
         .mailbox { now := 3000, op := .emptyTrash },
         .send (.composed letter { mid := "o".toList }) 4000]) = 3600 ∧
      ephemeralTimer 10 (turn turnedOff (.send (.again [10] fun _ => { mid := [] }) 3000)) =
        3600 := by
  decide +kernel

end

end Eeemail.DefaultTimer
