import Eeemail.ThreadGroups
import Eeemail.TrashSafety

/-! # Pruning never changes a conversation

Messages are placed in threads, turned into tombstones and pruned in any order.
A prune removes what only tombstones used.  The threads of live messages and all
Message-IDs of those threads stay, so that a message that comes later finds them
as it would have before. -/

set_option autoImplicit false

namespace Eeemail.ThreadPruning

open Lib.Texts Lib.Tables Lib.Runs Store Trash Housekeeping Mailbox Threading TrashSafety
open ThreadGroups

/-! ## What a prune keeps -/

section Prune

variable {db : Db} {tables : ThreadTables}

theorem hasLiveMsg_iff {msgId : MsgId} : hasLiveMsg msgId db = true ↔ Live db msgId := by
  simp only [hasLiveMsg, List.any_eq_true, Bool.and_eq_true, beq_iff_eq]
  exact Iff.rfl

def Occupied (db : Db) (tables : ThreadTables) (threadId : ThreadId) : Prop :=
  ∃ msgId, Live db msgId ∧ tables.threadOf msgId = some threadId

section

variable (ok : TablesOk tables) {threadId : ThreadId}

include ok

theorem threadOf_prune (msgId : MsgId) : (pruneThreads db tables).threadOf msgId =
      (tables.threadOf msgId).filter fun _ => hasLiveMsg msgId db := by
  have found := find?_filter_of_nodup (p := fun row => hasLiveMsg row.msgId db) ok.msgs_nodup msgId
  unfold ThreadTables.threadOf pruneThreads
  simp only [found]
  cases isRow : tables.msgThreads.find? fun row => row.msgId == msgId with
  | none => rfl
  | some row =>
    obtain rfl : row.msgId = msgId := by simpa using List.find?_some isRow
    exact (Option.filter_map (x := some row) (f := MsgThread.threadId)
      (p := fun _ => hasLiveMsg row.msgId db)).symm

theorem threadOf_prune_of_live {msgId : MsgId} (live : Live db msgId) :
    (pruneThreads db tables).threadOf msgId = tables.threadOf msgId := by
  rw [threadOf_prune ok, hasLiveMsg_iff.mpr live]
  cases tables.threadOf msgId with
  | none => rfl
  | some threadId => rfl

theorem live_of_threadOf_prune {msgId : MsgId}
    (isIn : (pruneThreads db tables).threadOf msgId = some threadId) :
    Live db msgId ∧ tables.threadOf msgId = some threadId := by
  rw [threadOf_prune ok, Option.filter_eq_some_iff] at isIn
  exact ⟨hasLiveMsg_iff.mp isIn.2, isIn.1⟩

theorem mem_threads_prune {thread : Thread} :
    thread ∈ (pruneThreads db tables).threads ↔
      thread ∈ tables.threads ∧ Occupied db tables thread.id := by
  simp only [pruneThreads, List.mem_filter, List.any_eq_true, beq_iff_eq]
  refine and_congr_right fun _ => ⟨?_, ?_⟩
  · rintro ⟨row, ⟨member, alive⟩, same⟩
    refine ⟨row.msgId, hasLiveMsg_iff.mp alive, ?_⟩
    rw [ThreadTables.threadOf, find?_of_nodup ok.msgs_nodup member, Option.map_some, same]
  · rintro ⟨msgId, live, isIn⟩
    obtain ⟨row, isRow, same⟩ := Option.map_eq_some_iff.mp isIn
    obtain rfl : row.msgId = msgId := by simpa using List.find?_some isRow
    exact ⟨row, ⟨List.mem_of_find?_eq_some isRow, hasLiveMsg_iff.mpr live⟩, same⟩

omit ok in
theorem activity_of_mem {thread : Thread} (member : thread ∈ tables.threads) :
    (activity tables thread.id).isSome := by
  rw [activity, Option.isSome_map, List.find?_isSome]
  exact ⟨thread, member, beq_self_eq_true _⟩

theorem refOf_prune (mid : Text) : (pruneThreads db tables).refOf mid =
      (tables.refOf mid).filter fun threadId =>
        (pruneThreads db tables).threads.any fun thread => thread.id == threadId := by
  have found := find?_filter_of_nodup (p := fun ref => (pruneThreads db tables).threads.any
    fun thread => thread.id == ref.threadId) ok.refs_nodup mid
  have refs : (pruneThreads db tables).threadRefs =
      tables.threadRefs.filter fun ref => (pruneThreads db tables).threads.any
        fun thread => thread.id == ref.threadId := rfl
  unfold ThreadTables.refOf
  rw [refs, found]
  exact (Option.filter_map (f := ThreadRef.threadId) (p := fun threadId =>
    (pruneThreads db tables).threads.any fun thread => thread.id == threadId)).symm

omit ok in
theorem refOf_prune_of_occupied (rooted : Rooted tables) {mid : Text}
    (occupied : Occupied db tables threadId) (isRef : tables.refOf mid = some threadId) :
    (pruneThreads db tables).refOf mid = some threadId := by
  rw [refOf_prune rooted.ok, isRef, Option.filter_some_pos]
  obtain ⟨thread, isThread, rfl⟩ := exists_of_activity (rooted.refs mid threadId isRef)
  refine List.any_eq_true.mpr ⟨thread, ?_, beq_self_eq_true _⟩
  exact (mem_threads_prune rooted.ok).mpr ⟨isThread, occupied⟩

theorem exists_of_refOf_prune {mid : Text}
    (isRef : (pruneThreads db tables).refOf mid = some threadId) :
    tables.refOf mid = some threadId ∧
      ∃ thread ∈ (pruneThreads db tables).threads, thread.id = threadId := by
  rw [refOf_prune ok, Option.filter_eq_some_iff, List.any_eq_true] at isRef
  obtain ⟨before, thread, member, same⟩ := isRef
  exact ⟨before, thread, member, beq_iff_eq.mp same⟩

theorem tablesOk_prune (db : Db) : TablesOk (pruneThreads db tables) :=
  ⟨ok.ids_nodup.sublist (List.filter_sublist.map _),
    fun thread member => ok.ids_lt thread (List.mem_filter.mp member).1,
    ok.refs_nodup.sublist (List.filter_sublist.map _),
    ok.msgs_nodup.sublist (List.filter_sublist.map _)⟩

end

theorem rooted_prune (rooted : Rooted tables) (db : Db) : Rooted (pruneThreads db tables) := by
  refine ⟨tablesOk_prune rooted.ok db, fun mid threadId isRef => ?_, fun msgId threadId isIn => ?_⟩
  · obtain ⟨_, thread, member, rfl⟩ := exists_of_refOf_prune rooted.ok isRef
    exact activity_of_mem member
  · obtain ⟨live, before⟩ := live_of_threadOf_prune rooted.ok isIn
    obtain ⟨thread, isThread, rfl⟩ := exists_of_activity (rooted.msgs msgId threadId before)
    exact activity_of_mem ((mem_threads_prune rooted.ok).mpr ⟨isThread, msgId, live, before⟩)

end Prune

/-! ## Runs -/

structure Conversations where
  db : Db
  tables : ThreadTables

/-- What happens to them.  A message is placed with the headers it has then. -/
inductive ThreadOp where
  | mailbox (event : Event)
  | tombstone (msgs : List MsgId) (onServer : Bool)
  | assign (msgId : MsgId) (headers : ThreadHeaders)
  | prune

section Runs

variable [Unicode]

def turn (state : Conversations) : ThreadOp → Conversations
  | .mailbox event => { state with db := step state.db event }
  | .tombstone msgs onServer => { state with db := trashRows msgs onServer state.db }
  | .assign msgId headers => { state with tables := (assign msgId headers state.tables).2 }
  | .prune => { state with tables := pruneThreads state.db state.tables }

def reached (db : Db) (ops : List ThreadOp) : Conversations :=
  runAll turn { db, tables := {} } ops

theorem rooted_turn (state : Conversations) (op : ThreadOp) (rooted : Rooted state.tables) :
    Rooted (turn state op).tables := by
  cases op with
  | mailbox event => exact rooted
  | tombstone msgs onServer => exact rooted
  | assign msgId headers => exact rooted.assign msgId headers
  | prune => exact rooted_prune rooted state.db

theorem rooted_reached (db : Db) (ops : List ThreadOp) : Rooted (reached db ops).tables := by
  have kept : ∀ ops (state : Conversations), Rooted state.tables →
      Rooted (runAll turn state ops).tables := invariant_of_step rooted_turn
  exact kept ops _ (grouped_empty fun _ => {}).rooted

/-! ## What a later message finds -/

def SameThread (tables : ThreadTables) (first second : MsgId) : Prop :=
  ∃ threadId, tables.threadOf first = some threadId ∧ tables.threadOf second = some threadId

/-- A Message-ID that the headers link belongs to the thread of the message. -/
def LinkedTo (tables : ThreadTables) (headers : ThreadHeaders) (msgId : MsgId) : Prop :=
  ∃ mid ∈ headers.linkedIds, ∃ threadId,
    tables.refOf mid = some threadId ∧ tables.threadOf msgId = some threadId

def StartsThread (msgId : MsgId) (headers : ThreadHeaders) (before tables : ThreadTables) : Prop :=
  (∀ thread ∈ before.threads, thread.id ≠ assigned msgId headers tables) ∧
    ∀ other, other ≠ msgId →
      (assign msgId headers tables).2.threadOf other ≠ some (assigned msgId headers tables)

variable {tables : ThreadTables} {msgId other : MsgId} {headers : ThreadHeaders}

theorem linkedTo_prune {db : Db} (rooted : Rooted tables) (live : Live db other)
    (linked : LinkedTo tables headers other) : LinkedTo (pruneThreads db tables) headers other := by
  obtain ⟨mid, inside, threadId, isRef, isIn⟩ := linked
  refine ⟨mid, inside, threadId, ?_, (threadOf_prune_of_live rooted.ok live).trans isIn⟩
  exact refOf_prune_of_occupied rooted ⟨other, live, isIn⟩ isRef

theorem sameThread_assign (rooted : Rooted tables) (linked : LinkedTo tables headers other) :
    SameThread (assign msgId headers tables).2 msgId other := by
  obtain ⟨mid, inside, threadId, isRef, isIn⟩ := linked
  refine ⟨assigned msgId headers tables, threadOf_assign_self msgId headers, ?_⟩
  by_cases isOne : other = msgId
  · rw [isOne]
    exact threadOf_assign_self msgId headers
  · rw [rooted.follows_ref isOne isIn isRef, refOf_assign, if_pos inside]

theorem startsThread_of_unoccupied {db : Db} (rooted : Rooted tables)
    (unoccupied : ∀ mid ∈ headers.linkedIds, ∀ threadId, tables.refOf mid = some threadId →
      ¬Occupied db tables threadId) (msgId : MsgId) :
    StartsThread msgId headers tables (pruneThreads db tables) := by
  have pruned := rooted_prune rooted db
  have none : existingThreads headers.linkedIds (pruneThreads db tables) = [] := by
    refine List.eq_nil_iff_forall_not_mem.mpr fun threadId member => ?_
    obtain ⟨mid, inside, isRef⟩ := mem_existingThreads.mp member
    obtain ⟨before, thread, isThread, rfl⟩ := exists_of_refOf_prune rooted.ok isRef
    exact unoccupied mid inside _ before ((mem_threads_prune rooted.ok).mp isThread).2
  -- The counter of thread ids is not set back by a prune.
  have isNew : assigned msgId headers (pruneThreads db tables) = tables.nextThreadId := by
    rcases (pruned.chosen msgId headers).isOne with found | ⟨_, isNew⟩
    · rw [none] at found
      cases found
    · exact isNew
  refine ⟨fun thread member same => ?_, fun other different isIn => ?_⟩
  · have old := rooted.ok.ids_lt thread member
    rw [same, isNew] at old
    exact lt_irrefl _ old
  · rw [pruned.threadOf_of_ne different, none, map_redirect_nil] at isIn
    obtain ⟨a, isActive⟩ := Option.isSome_iff_exists.mp (pruned.msgs other _ isIn)
    have old := lt_of_activity pruned.ok isActive
    rw [isNew] at old
    exact lt_irrefl _ old

/-- A placed message belongs to the thread of each Message-ID it links. -/
def Placed (msgId : MsgId) (headers : ThreadHeaders) (tables : ThreadTables) : Prop :=
  ∃ threadId, tables.threadOf msgId = some threadId ∧
    ∀ mid ∈ headers.linkedIds, tables.refOf mid = some threadId

/-- The message is not placed anew, and no prune finds it gone. -/
def Stays (msgId : MsgId) (state : Conversations) : ThreadOp → Prop
  | .mailbox _ | .tombstone _ _ => True
  | .assign other _ => other ≠ msgId
  | .prune => Live state.db msgId

theorem placed_turn (state : Conversations) (op : ThreadOp)
    (placed : Rooted state.tables ∧ Placed msgId headers state.tables)
    (stays : Stays msgId state op) :
    Rooted (turn state op).tables ∧ Placed msgId headers (turn state op).tables := by
  obtain ⟨rooted, threadId, isIn, isRef⟩ := placed
  refine ⟨rooted_turn state op rooted, ?_⟩
  cases op with
  | mailbox event => exact ⟨threadId, isIn, isRef⟩
  | tombstone msgs onServer => exact ⟨threadId, isIn, isRef⟩
  | assign other later =>
    have moved : (assign other later state.tables).2.threadOf msgId =
        some (redirect (existingThreads later.linkedIds state.tables)
          (assigned other later state.tables) threadId) := by
      rw [rooted.threadOf_of_ne (Ne.symm stays), isIn, Option.map_some]
    refine ⟨_, moved, fun mid inside => ?_⟩
    exact (rooted.follows_ref (Ne.symm stays) isIn (isRef mid inside)).symm.trans moved
  | prune =>
    refine ⟨threadId, (threadOf_prune_of_live rooted.ok stays).trans isIn, fun mid inside => ?_⟩
    exact refOf_prune_of_occupied rooted ⟨msgId, stays, isIn⟩ (isRef mid inside)

theorem placed_assign (msgId : MsgId) (headers : ThreadHeaders) (tables : ThreadTables) :
    Placed msgId headers (assign msgId headers tables).2 :=
  ⟨assigned msgId headers tables, threadOf_assign_self msgId headers, fun mid inside => by
    rw [refOf_assign, if_pos inside]⟩

theorem linkedTo_of_shared {db : Db} {early later : List ThreadOp} {otherHeaders : ThreadHeaders}
    (stays : MeetsAll turn (Stays other) (reached db (early ++ [.assign other otherHeaders])) later)
    {mid : Text} (inside : mid ∈ headers.linkedIds) (shared : mid ∈ otherHeaders.linkedIds) :
    LinkedTo (reached db (early ++ .assign other otherHeaders :: later)).tables headers other := by
  have start : Placed other otherHeaders
      (reached db (early ++ [.assign other otherHeaders])).tables := by
    rw [reached, runAll_snoc]
    exact placed_assign other otherHeaders _
  have split : reached db (early ++ .assign other otherHeaders :: later) =
      runAll turn (reached db (early ++ [.assign other otherHeaders])) later := by
    rw [reached, reached, ← runAll_append, List.append_assoc, List.singleton_append]
  obtain ⟨_, threadId, isIn, isRef⟩ :=
    invariant_of_meetsAll placed_turn later _ ⟨rooted_reached db _, start⟩ stays
  rw [split]
  exact ⟨mid, inside, threadId, isRef mid shared, isIn⟩

/-- In every run, a prune leaves live messages together exactly as they were, every
thread it leaves has a live message, and every Message-ID it leaves names one of
these threads.  The next message joins the thread of any live message that it was
linked to, and gets a new one if what it links belonged to tombstones only; and it
was linked to every live message with a Message-ID in common. -/
theorem pruning_keeps_conversations (db : Db) (ops : List ThreadOp) (msgId : MsgId)
    (headers : ThreadHeaders) :
    (∀ first second, Live (reached db ops).db first → Live (reached db ops).db second →
      (SameThread (reached db (ops ++ [.prune])).tables first second ↔
        SameThread (reached db ops).tables first second)) ∧
    (∀ thread ∈ (reached db (ops ++ [.prune])).tables.threads,
      Occupied (reached db ops).db (reached db (ops ++ [.prune])).tables thread.id) ∧
    (∀ ref ∈ (reached db (ops ++ [.prune])).tables.threadRefs,
      ∃ thread ∈ (reached db (ops ++ [.prune])).tables.threads, thread.id = ref.threadId) ∧
    (∀ other, Live (reached db ops).db other →
      LinkedTo (reached db ops).tables headers other →
        SameThread (assign msgId headers (reached db (ops ++ [.prune])).tables).2 msgId other) ∧
    ((∀ mid ∈ headers.linkedIds, ∀ threadId, (reached db ops).tables.refOf mid = some threadId →
        ¬Occupied (reached db ops).db (reached db ops).tables threadId) →
      StartsThread msgId headers (reached db ops).tables
        (reached db (ops ++ [.prune])).tables) ∧
    ∀ early other otherHeaders later, ops = early ++ .assign other otherHeaders :: later →
      MeetsAll turn (Stays other) (reached db (early ++ [.assign other otherHeaders])) later →
      (∃ mid ∈ headers.linkedIds, mid ∈ otherHeaders.linkedIds) →
        LinkedTo (reached db ops).tables headers other := by
  have pruned : (reached db (ops ++ [.prune])).tables =
      pruneThreads (reached db ops).db (reached db ops).tables := by
    rw [reached, runAll_snoc]
    rfl
  have rooted := rooted_reached db ops
  rw [pruned]
  refine ⟨fun first second isFirst isSecond => ?_, fun thread member => ?_, fun ref member => ?_,
    fun other live linked => ?_,
      fun unoccupied => startsThread_of_unoccupied rooted unoccupied msgId,
    ?_⟩
  · unfold SameThread
    rw [threadOf_prune_of_live rooted.ok isFirst, threadOf_prune_of_live rooted.ok isSecond]
  · obtain ⟨_, other, live, isIn⟩ := (mem_threads_prune rooted.ok).mp member
    exact ⟨other, live, (threadOf_prune_of_live rooted.ok live).trans isIn⟩
  · obtain ⟨_, known⟩ := List.mem_filter.mp member
    obtain ⟨thread, isThread, same⟩ := List.any_eq_true.mp known
    exact ⟨thread, isThread, beq_iff_eq.mp same⟩
  · exact sameThread_assign (rooted_prune rooted _) (linkedTo_prune rooted live linked)
  · rintro early other otherHeaders later rfl stays ⟨mid, inside, shared⟩
    exact linkedTo_of_shared stays inside shared

end Runs

section

local instance : Unicode := asciiTables

def halfDeleted : List ThreadOp :=
  [.assign 10 { rfc724Mid := "a".toList },
   .assign 11 { rfc724Mid := "b".toList, references := "<a>".toList },
   .assign 12 { rfc724Mid := "c".toList },
   .tombstone [10, 12] true]

def threeMessages : Db :=
  { msgs := [{ id := 10, chatId := 10 }, { id := 11, chatId := 10 }, { id := 12, chatId := 10 }] }

/-- A reply to the destroyed message joins the one that is left; a reply into the
destroyed conversation is on its own. -/
theorem pruning_keeps_half : SameThread (assign 13 { references := "<a>".toList }
        (reached threeMessages (halfDeleted ++ [.prune])).tables).2 13 11 ∧
      StartsThread 13 { references := "<c>".toList } (reached threeMessages halfDeleted).tables
        (reached threeMessages (halfDeleted ++ [.prune])).tables := by
  refine ⟨(pruning_keeps_conversations threeMessages halfDeleted 13 _).2.2.2.1 11 (by decide)
    ⟨"a".toList, by decide, 1, by decide, by decide⟩,
    (pruning_keeps_conversations threeMessages halfDeleted 13 _).2.2.2.2.1 ?_⟩
  intro mid inside threadId isRef
  have links : ThreadHeaders.linkedIds { references := "<c>".toList } = ["c".toList] := by decide
  rw [links, List.mem_singleton] at inside
  subst inside
  have elsewhere : ∀ msg ∈ (reached threeMessages halfDeleted).db.msgs, msg.isLive = true →
      (reached threeMessages halfDeleted).tables.threadOf msg.id ≠
        (reached threeMessages halfDeleted).tables.refOf "c".toList := by decide
  rintro ⟨other, ⟨msg, member, rfl, isLive⟩, isIn⟩
  exact elsewhere msg member isLive (isIn.trans isRef.symm)

end

end Eeemail.ThreadPruning
