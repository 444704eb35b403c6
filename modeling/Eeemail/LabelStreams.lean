import Eeemail.Arrivals
import Eeemail.Threading
import Eeemail.Lib.Runs

/-! # A message arrives somewhere in the stream of label changes

The changes another device announced are executed one after another, and at some point
the message they are about is received.  Where that point is should not matter: a change
that comes before the message is parked, and done when it arrives. -/

set_option autoImplicit false

namespace Eeemail.LabelStreams

open Lib.Texts Lib.Actions Lib.Tables Lib.Runs Store Labels ReservedLabels Reception Frames
open LabelBoards Arrivals
open Boards (Column Board Directory SameBut HasSystem NoneNewer midsOf)

structure Delivered where
  item : LabelSyncItem
  timestamp : Int
  now : Int
  deriving DecidableEq, Repr

variable {db : Db}

section

variable [Unicode] {ids : Text → LabelId}

/-- One step of `execute_sync_items`: an item that fails is passed over. -/
def deliver (db : Db) (delivered : Delivered) : Db :=
  stateAfter (executeSyncItem delivered.item delivered.timestamp delivered.now) db

/-! ## What a delivery keeps -/

omit [Unicode] in
theorem Numbered.of_keeps {α : Type} {x : DbAction α} (keeps : Keeps besidesLabels x) :
    Preserves Numbered x := by
  intro db numbered
  have msgs : (stateAfter x db).msgs = db.msgs := (keeps.coarser Db.msgs) db
  have next : (stateAfter x db).nextMsgId = db.nextMsgId := (keeps.coarser Db.nextMsgId) db
  have carried : (stateAfter x db).msgLabels = db.msgLabels := (keeps.coarser Db.msgLabels) db
  constructor
  · rw [msgs, next]
    exact numbered.msgs
  · rw [carried, next]
    exact numbered.carried

theorem numbered_syncSet (mids : List Text) (name : Text) (apply : Bool) (timestamp now : Int) :
    Preserves Numbered (syncSet mids name apply timestamp now) := by
  refine Preserves.bind (Numbered.of_keeps (keeps_labelForSync (fun _ _ _ => rfl) name none now))
    fun label db numbered => ?_
  rw [stateAfter_query_bind, stateAfter_query_bind, stateAfter_exec_bind, stateAfter_exec,
    setExt_nosync]
  refine ⟨numbered.msgs, fun row member => ?_⟩
  cases apply with
  | false => exact numbered.carried row (mem_setRows_false.mp member).1
  | true =>
    rcases mem_setRows_true.mp member with old | ⟨_, resolved⟩
    · exact numbered.carried row old
    · obtain ⟨mid, _, finds⟩ := List.mem_filterMap.mp resolved
      obtain ⟨msg, isMsg, isRow⟩ := mem_of_rfc724MidExists finds
      exact isRow ▸ numbered.msgs msg isMsg

theorem numbered_executeSyncItem (item : LabelSyncItem) (timestamp now : Int) :
    Preserves Numbered (executeSyncItem item timestamp now) := by
  cases item with
  | create name color =>
    exact Preserves.bind (Numbered.of_keeps (keeps_createExt name color .nosync now)) fun _ =>
      Preserves.pure _
  | rename source target =>
    refine Preserves.bind (Preserves.query _) fun found => ?_
    cases found with
    | some label => exact Numbered.of_keeps (keeps_renameExt label target .nosync)
    | none =>
      exact Preserves.bind (Numbered.of_keeps (keeps_createExt target none .nosync now)) fun _ =>
        Preserves.pure _
  | delete name =>
    refine Preserves.bind (Preserves.query _) fun found => ?_
    cases found with
    | none => exact Preserves.pure _
    | some label =>
      refine Preserves.bind (Preserves.ensure _ _) fun _ => ?_
      refine Preserves.bind (Preserves.exec fun db numbered => ?_) fun _ =>
        Numbered.of_keeps (keeps_announce _ _)
      exact ⟨numbered.msgs, fun row member => numbered.carried row (mem_deleteWhere.mp member).1⟩
  | setColor name color =>
    exact Numbered.of_keeps (Keeps.bind (keeps_labelForSync (fun _ _ _ => rfl) name color now)
      fun label =>
      keeps_setColorExt label color .nosync)
  | apply mids name => exact numbered_syncSet mids name true timestamp now
  | unapply mids name => exact numbered_syncSet mids name false timestamp now

structure Ready (ids : Text → LabelId) (db : Db) : Prop where
  filed : Filed ids db
  numbered : Numbered db

theorem Ready.deliver (ready : Ready ids db) (delivered : Delivered) :
    Ready ids (deliver db delivered) :=
  ⟨(executeSyncItem_refines id ready.filed delivered.item delivered.timestamp delivered.now).1,
    numbered_executeSyncItem delivered.item delivered.timestamp delivered.now db ready.numbered⟩

theorem Ready.deliverAll (ready : Ready ids db) (stream : List Delivered) :
    Ready ids (runAll LabelStreams.deliver db stream) := by
  refine invariant_of_step (fun _ delivered good => ?_) stream db ready
  exact Ready.deliver good delivered

theorem msgs_deliver (db : Db) (delivered : Delivered) :
    (deliver db delivered).msgs = db.msgs ∧ (deliver db delivered).nextMsgId = db.nextMsgId := by
  have keeps := keeps_executeSyncItem delivered.item delivered.timestamp delivered.now
  exact ⟨(keeps.coarser Db.msgs) db, (keeps.coarser Db.nextMsgId) db⟩

theorem msgs_deliverAll (db : Db) (stream : List Delivered) :
    (runAll deliver db stream).msgs = db.msgs ∧
      (runAll deliver db stream).nextMsgId = db.nextMsgId := by
  induction stream generalizing db with
  | nil => exact ⟨rfl, rfl⟩
  | cons delivered rest ih =>
    obtain ⟨msgs, next⟩ := ih (deliver db delivered)
    obtain ⟨kept, keptNext⟩ := msgs_deliver db delivered
    exact ⟨msgs.trans kept, next.trans keptNext⟩

/-! ## The stream on the board -/

variable {μ : Type} {stream : List Delivered}

def replayStep (directory : Directory μ) (board : Board μ) (delivered : Delivered) : Board μ :=
  Boards.replay directory delivered.timestamp delivered.item board

theorem view_deliverAll (row : μ → MsgId) (filed : Filed ids db) (stream : List Delivered) :
    view row (runAll deliver db stream) =
      runAll (replayStep (directory row db)) (view row db) stream := by
  induction stream generalizing db with
  | nil => rfl
  | cons delivered rest ih =>
    obtain ⟨filed', refines⟩ : Filed ids (deliver db delivered) ∧
        view row (deliver db delivered) = replayStep (directory row db) (view row db) delivered :=
      executeSyncItem_refines row filed delivered.item delivered.timestamp delivered.now
    rw [runAll_cons, ih filed', runAll_cons, directory_congr (msgs_deliver db delivered).1, refines]

theorem replayAll_arrive [DecidableEq μ] {msg : μ} {mid : Text} {before after : Directory μ}
    (arrives : ∀ delivered ∈ stream, Boards.Arrives msg mid before after (midsOf delivered.item))
    (inOrder : stream.Pairwise fun first second => first.timestamp ≤ second.timestamp)
    {board : Board μ} (older : ∀ delivered ∈ stream, NoneNewer mid delivered.timestamp board) :
    runAll (replayStep after) (Boards.arrive msg mid board) stream =
      Boards.arrive msg mid (runAll (replayStep before) board stream) := by
  induction stream generalizing board with
  | nil => rfl
  | cons delivered rest ih =>
    rw [List.pairwise_cons] at inOrder
    have step : replayStep after (Boards.arrive msg mid board) delivered =
        Boards.arrive msg mid (replayStep before board delivered) :=
      Boards.replay_arrive (arrives delivered List.mem_cons_self)
        (older delivered List.mem_cons_self)
    rw [runAll_cons, step, runAll_cons]
    refine ih (fun other member => arrives other (List.mem_cons_of_mem _ member)) inOrder.2 ?_
    intro other member
    have here : NoneNewer mid delivered.timestamp (replayStep before board delivered) :=
      (older delivered List.mem_cons_self).replay delivered.item
    exact here.later (inOrder.1 other member)

theorem SameBut.replayAll {names : List Text} {board other : Board μ}
    (same : SameBut names board other) (directory : Directory μ) (stream : List Delivered) :
    SameBut names (runAll (replayStep directory) board stream)
      (runAll (replayStep directory) other stream) := by
  induction stream generalizing board other with
  | nil => exact same
  | cons delivered rest ih => exact ih (same.replay directory delivered.timestamp delivered.item)

theorem noneNewer_replayAll {directory : Directory μ} {mid : Text} {later : List Delivered}
    (inOrder : (stream ++ later).Pairwise fun first second => first.timestamp ≤ second.timestamp)
    {board : Board μ}
    (older : ∀ delivered ∈ stream ++ later, NoneNewer mid delivered.timestamp board) :
    ∀ delivered ∈ later, NoneNewer mid delivered.timestamp
      (runAll (replayStep directory) board stream) := by
  induction stream generalizing board with
  | nil => exact older
  | cons first rest ih =>
    rw [List.cons_append, List.pairwise_cons] at inOrder
    refine ih inOrder.2 fun delivered member => ?_
    have here : NoneNewer mid first.timestamp (replayStep directory board first) :=
      (older first List.mem_cons_self).replay first.item
    exact here.later (inOrder.1 delivered member)

/-! ## Wherever the message arrives -/

/-- The message arrives after `i` items, and then comes the rest of the stream. -/
def Lands (mail : Incoming) (clock : Int) (stream : List Delivered) (i : Nat) (db : Db)
    (msgId : MsgId) (final : Db) : Prop :=
  ∃ arrived, (Reception.receive mail clock).run (runAll deliver db (stream.take i)) =
      .ok (some msgId) arrived ∧ final = runAll deliver arrived (stream.drop i)

def landing (mail : Incoming) (clock : Int) (stream : List Delivered) (i : Nat) (db : Db) : Db :=
  runAll deliver (stateAfter (Reception.receive mail clock) (runAll deliver db (stream.take i)))
    (stream.drop i)

theorem lands_landing {mail : Incoming} {clock : Int} {i : Nat} {msgId : MsgId}
    (success : returns (Reception.receive mail clock) (runAll deliver db (stream.take i))
      (some msgId) = true) :
    Lands mail clock stream i db msgId (landing mail clock stream i db) :=
  ⟨_, run_of_returns success, rfl⟩

omit [Unicode] in
theorem noneNewer_view {mid : Text} {timestamp : Int}
    (older : ∀ row ∈ db.pendingMsgLabels, row.rfc724Mid = mid → row.timestamp ≤ timestamp)
    (row : μ → MsgId) : NoneNewer mid timestamp (view row db) := by
  intro norm column found was since parked
  obtain ⟨label, _, rfl⟩ := Option.map_eq_some_iff.mp found
  obtain ⟨parkedRow, isParked, isMid, _, isSince⟩ := parkedAt_eq_some parked
  exact isSince ▸ older parkedRow isParked isMid

theorem board_of_lands {final : Db} {mail : Incoming} {clock : Int}
    {i : Nat} {msgId : MsgId} (ready : Ready ids db) (named : mail.rfc724Mid ≠ [])
    (inOrder : stream.Pairwise fun first second => first.timestamp ≤ second.timestamp)
    (older : ∀ row ∈ db.pendingMsgLabels, row.rfc724Mid = mail.rfc724Mid →
      ∀ delivered ∈ stream, row.timestamp ≤ delivered.timestamp)
    (plain : ∀ delivered ∈ stream, Plain mail.rfc724Mid (midsOf delivered.item))
    (lands : Lands mail clock stream i db msgId final) :
    msgId = db.nextMsgId ∧ Ready ids final ∧
      SameBut sortingNames (view id final)
        (Boards.arrive msgId mail.rfc724Mid
          (runAll (replayStep (directory id db)) (view id db) stream)) := by
  obtain ⟨arrivedDb, success, rfl⟩ := lands
  have start := ready.deliverAll (stream.take i)
  obtain ⟨msgs, next⟩ := msgs_deliverAll db (stream.take i)
  have startView := view_deliverAll id ready.filed (stream.take i)
  generalize runAll deliver db (stream.take i) = startDb at success start msgs next startView
  have arrived := arrived_of_receive start.filed start.numbered named success
  have after : Ready ids arrivedDb :=
    ⟨arrived.filed start.filed, arrived.numbered start.numbered⟩
  refine ⟨arrived.isNext.trans next, after.deliverAll _, ?_⟩
  have noneNewer : ∀ delivered ∈ stream,
    NoneNewer mail.rfc724Mid delivered.timestamp (view id db) :=
    fun delivered member => noneNewer_view (fun row isRow isMid =>
      older row isRow isMid delivered member) id
  have whole := List.take_append_drop i stream
  have noneNewerStart : ∀ delivered ∈ stream.drop i,
      NoneNewer mail.rfc724Mid delivered.timestamp (view id startDb) := by
    rw [startView]
    exact noneNewer_replayAll (whole.symm ▸ inOrder) (whole.symm ▸ noneNewer)
  have swapped : runAll (replayStep (directory id arrivedDb))
      (Boards.arrive msgId mail.rfc724Mid (view id startDb)) (stream.drop i) = _ :=
    replayAll_arrive
      (fun delivered member => arrived.arrives start.numbered named
        (plain delivered (List.mem_of_mem_drop member)))
      (inOrder.sublist (List.drop_sublist i stream)) noneNewerStart
  have same := SameBut.replayAll (arrived.sameBut start.filed start.numbered)
    (directory id arrivedDb)
    (stream.drop i)
  rw [← view_deliverAll id after.filed, swapped, startView, directory_congr msgs, ← runAll_append,
    whole] at same
  exact same

def Carries (msgId : MsgId) (name : Text) (db : Db) : Prop :=
  ∃ label ∈ db.labels, label.name = name ∧ { msgId, labelId := label.id } ∈ db.msgLabels

instance (msgId : MsgId) (name : Text) (db : Db) : Decidable (Carries msgId name db) :=
  inferInstanceAs (Decidable (∃ label ∈ db.labels, _))

theorem carries_iff (filed : Filed ids db) (msgId : MsgId) (name : Text) :
    Carries msgId name db ↔ ∃ column, view id db (normalize name) = some column ∧
      column.name = name ∧ column.on msgId = true := by
  constructor
  · rintro ⟨label, member, rfl, carried⟩
    refine ⟨columnOf id db label, ?_, rfl, List.contains_iff_mem.mpr carried⟩
    rw [← filed.labels.norms label member]
    exact filed.view_of_mem member
  · rintro ⟨column, found, isName, on⟩
    obtain ⟨label, isLabel, rfl⟩ := Option.map_eq_some_iff.mp found
    exact ⟨label, List.mem_of_find?_eq_some isLabel, isName, List.contains_iff_mem.mp on⟩

/-- Changes that name the message by its Message-ID, and nothing else by a text that finds
it, are not lost and not doubled, wherever in the stream the message arrives. -/
theorem labels_same_wherever_it_arrives {db here there : Db} {mail : Incoming} {clock other : Int}
    {stream : List Delivered} {i j : Nat} {msgId otherId : MsgId} (ready : Ready ids db)
    (named : mail.rfc724Mid ≠ [])
    (inOrder : stream.Pairwise fun first second => first.timestamp ≤ second.timestamp)
    (older : ∀ row ∈ db.pendingMsgLabels, row.rfc724Mid = mail.rfc724Mid →
      ∀ delivered ∈ stream, row.timestamp ≤ delivered.timestamp)
    (plain : ∀ delivered ∈ stream, Plain mail.rfc724Mid (midsOf delivered.item))
    (lands : Lands mail clock stream i db msgId here)
    (landsOther : Lands mail other stream j db otherId there) :
    msgId = otherId ∧ ∀ name, normalize name ∉ sortingNames →
      (Carries msgId name here ↔ Carries otherId name there) := by
  obtain ⟨isNext, readyHere, sameHere⟩ := board_of_lands ready named inOrder older plain lands
  obtain ⟨isNextToo, readyThere, sameThere⟩ :=
    board_of_lands ready named inOrder older plain landsOther
  have sameId : msgId = otherId := isNext.trans isNextToo.symm
  subst sameId
  refine ⟨rfl, fun name outside => ?_⟩
  rw [carries_iff readyHere.filed, carries_iff readyThere.filed,
    (sameHere.trans sameThere.symm).same _ outside]

end

section

local instance : Unicode := asciiTables

def emptyAccount : Db :=
  { labels := migratedLabels, nextLabelId := 4, nextMsgId := 10, nextContactId := 10,
    nextChatId := 10 }

theorem filed_migrated (labels : db.labels = migratedLabels) (next : db.nextLabelId = 4)
    (uncarried : db.msgLabels = []) (unparked : db.pendingMsgLabels = []) :
    Filed migratedIds db := by
  refine ⟨labelsOk_migrated labels next, ?_, ?_, ?_⟩
  · simp [uncarried]
  · simp [unparked]
  · simp [unparked]

theorem ready_migrated (labels : db.labels = migratedLabels) (next : db.nextLabelId = 4)
    (noMsgs : db.msgs = []) (uncarried : db.msgLabels = []) (unparked : db.pendingMsgLabels = []) :
    Ready migratedIds db := by
  refine ⟨filed_migrated labels next uncarried unparked, ?_, ?_⟩
  · simp [noMsgs]
  · simp [uncarried]

theorem ready_emptyAccount : Ready migratedIds emptyAccount := ready_migrated rfl rfl rfl rfl rfl

def bracketed : Incoming := { rfc724Mid := "<a@b>".toList, fromAddr := "bob@example.org".toList }

def workOnBracketed : List Delivered :=
  [{ item := .apply ["<a@b>".toList] "Work".toList, timestamp := 5, now := 6 }]

/-- The Message-ID is stored without one pair of brackets and looked up without any: what
comes before the message is done to it, and what comes after waits for ever. -/
theorem bracketed_change_is_lost :
    Threading.parseMessageIds "<<a@b>>".toList = [bracketed.rfc724Mid] ∧
      Lands bracketed 7 workOnBracketed 1 emptyAccount 10
        (landing bracketed 7 workOnBracketed 1 emptyAccount) ∧
      Lands bracketed 7 workOnBracketed 0 emptyAccount 10
        (landing bracketed 7 workOnBracketed 0 emptyAccount) ∧
      Carries 10 "Work".toList (landing bracketed 7 workOnBracketed 1 emptyAccount) ∧
      ¬Carries 10 "Work".toList (landing bracketed 7 workOnBracketed 0 emptyAccount) := by
  refine ⟨by decide +kernel, lands_landing (by decide +kernel), lands_landing (by decide +kernel),
    by decide +kernel, by decide +kernel⟩

def plainMail : Incoming := { rfc724Mid := "a@b".toList, fromAddr := "bob@example.org".toList }

/-- The label is put on, renamed, deleted and made again. -/
def renamedMeanwhile : List Delivered :=
  [{ item := .apply ["a@b".toList] "Work".toList, timestamp := 5, now := 6 },
   { item := .rename "Work".toList "Job".toList, timestamp := 6, now := 6 },
   { item := .delete "job".toList, timestamp := 7, now := 7 },
   { item := .apply ["a@b".toList, "c@d".toList] "JOB".toList, timestamp := 8, now := 9 }]

theorem renamed_meanwhile_is_kept :
    Carries 10 "JOB".toList (landing plainMail 10 renamedMeanwhile 3 emptyAccount) ∧
      Carries 10 "JOB".toList (landing plainMail 7 renamedMeanwhile 1 emptyAccount) := by
  have late : Lands plainMail 10 renamedMeanwhile 3 emptyAccount 10 _ :=
    lands_landing (by decide +kernel)
  have early : Lands plainMail 7 renamedMeanwhile 1 emptyAccount 10 _ :=
    lands_landing (by decide +kernel)
  have same := labels_same_wherever_it_arrives ready_emptyAccount (by decide)
    (by decide) (by decide)
    (by decide +kernel) late early
  exact ⟨by decide +kernel, (same.2 _ (by decide +kernel)).mp (by decide +kernel)⟩

end

end Eeemail.LabelStreams
