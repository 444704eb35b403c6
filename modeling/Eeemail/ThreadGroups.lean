import Eeemail.Threading
import Eeemail.Lib.Components
import Eeemail.Lib.Runs

/-! # Threads are connected components

`assign` keeps a labelling of Message-IDs up to date: the label of an ID is its
thread, and two IDs have one label exactly if messages that were assigned link
them.  So the grouping does not depend on the order in which messages came. -/

set_option autoImplicit false

namespace Eeemail.ThreadGroups

open Lib.Texts Lib.Tables Lib.Components Lib.Runs Store Threading MimeFactory

variable {existing : List ThreadId} {threadId : ThreadId} {a : Int} {other : MsgId} {mid : Text}

/-! ## What merging does -/

section Merging

variable {tables : ThreadTables} {survivor loser : ThreadId}

def activity (tables : ThreadTables) (threadId : ThreadId) : Option Int :=
  (tables.threads.find? fun row => row.id == threadId).map (·.lastActivity)

/-- The thread that takes the place of those that are merged. -/
def redirect (existing : List ThreadId) (survivor threadId : ThreadId) : ThreadId :=
  if threadId ∈ existing then survivor else threadId

theorem redirect_of_mem (member : threadId ∈ existing) :
    redirect existing survivor threadId = survivor :=
  if_pos member

theorem redirect_of_not_mem (apart : threadId ∉ existing) :
    redirect existing survivor threadId = threadId :=
  if_neg apart

theorem find?_relabel {α κ : Type} [BEq κ] (key : α → κ) (get : α → ThreadId)
    (set : α → α) (sameKey : ∀ row, key (set row) = key row)
    (isSet : ∀ row, get (set row) = survivor) (rows : List α) (value : κ) :
    ((updateWhere (fun row => get row == loser) set rows).find? fun row =>
      key row == value).map get =
      ((rows.find? fun row => key row == value).map get).map (redirect [loser] survivor) := by
  rw [find?_updateWhere key sameKey]
  cases rows.find? fun row => key row == value with
  | none => rfl
  | some row =>
    by_cases isLoser : get row = loser
    · simp [redirect, isLoser, isSet]
    · simp [redirect, isLoser]

theorem refOf_retarget (mid : Text) : (retarget survivor loser tables).refOf mid =
      (tables.refOf mid).map (redirect [loser] survivor) :=
  find?_relabel ThreadRef.rfc724Mid ThreadRef.threadId
    (fun row => { row with threadId := survivor })
    (fun _ => rfl) (fun _ => rfl) tables.threadRefs mid

theorem threadOf_retarget (msgId : MsgId) : (retarget survivor loser tables).threadOf msgId =
      (tables.threadOf msgId).map (redirect [loser] survivor) :=
  find?_relabel MsgThread.msgId MsgThread.threadId (fun row => { row with threadId := survivor })
    (fun _ => rfl) (fun _ => rfl) tables.msgThreads msgId

theorem activity_deleteWhere_self (threads : List Thread) :
    (deleteWhere (fun row => row.id == loser) threads).find? (fun row => row.id == loser) =
      none := by
  rw [List.find?_eq_none]
  intro row member
  obtain ⟨_, different⟩ := mem_deleteWhere.mp member
  simpa using different

theorem find?_deleteWhere_ne {threads : List Thread} (different : threadId ≠ loser) :
    (deleteWhere (fun row => row.id == loser) threads).find? (fun row => row.id == threadId) =
      threads.find? fun row => row.id == threadId := by
  unfold deleteWhere
  rw [List.find?_filter]
  congr 1
  funext row
  by_cases same : row.id = threadId
  · simp [same, different]
  · simp [same]

theorem activity_mergeThread_of_ne (notLoser : threadId ≠ loser)
    (notSurvivor : threadId ≠ survivor) :
    activity (mergeThread survivor tables loser) threadId = activity tables threadId := by
  unfold activity mergeThread
  rw [find?_deleteWhere_ne notLoser, find?_updateWhere_ne]
  intro row isSurvivor
  have same : row.id = survivor := by simpa using isSurvivor
  exact ⟨same ▸ notSurvivor.symm, same ▸ notSurvivor.symm⟩

theorem activity_mergeThread_loser : activity (mergeThread survivor tables loser) loser = none := by
  unfold activity mergeThread
  rw [activity_deleteWhere_self]
  rfl

theorem activity_mergeThread_survivor (different : survivor ≠ loser) {b : Int}
    (ofSurvivor : activity tables survivor = some a) (ofLoser : activity tables loser = some b) :
    activity (mergeThread survivor tables loser) survivor = some (max a b) := by
  unfold activity at ofSurvivor ofLoser
  obtain ⟨row, isRow, rfl⟩ := Option.map_eq_some_iff.mp ofSurvivor
  obtain ⟨lost, isLost, rfl⟩ := Option.map_eq_some_iff.mp ofLoser
  have sameId : row.id = survivor := by simpa using List.find?_some isRow
  have sameKey : ∀ thread, (Thread.absorb (some lost) thread).id = thread.id := fun _ => rfl
  unfold activity mergeThread
  rw [find?_deleteWhere_ne different, isLost, find?_updateWhere Thread.id sameKey, isRow]
  simp [sameId, Thread.absorb]

/-- Several threads are merged into one, one after the other. -/
structure MergedInto (survivor : ThreadId) (losers : List ThreadId)
    (before after : ThreadTables) : Prop where
  refs : ∀ mid, after.refOf mid = (before.refOf mid).map (redirect losers survivor)
  msgs : ∀ msgId, after.threadOf msgId = (before.threadOf msgId).map (redirect losers survivor)
  gone : ∀ threadId ∈ losers, activity after threadId = none
  others : ∀ threadId, threadId ≠ survivor → threadId ∉ losers →
    activity after threadId = activity before threadId
  latest : ∀ a, activity before survivor = some a →
    (∀ loser ∈ losers, (activity before loser).isSome) →
    ∃ b, activity after survivor = some b ∧
      (∃ threadId ∈ survivor :: losers, activity before threadId = some b) ∧
      ∀ threadId ∈ survivor :: losers, ∀ c, activity before threadId = some c → c ≤ b

theorem map_redirect_nil (survivor : ThreadId) (threadId : Option ThreadId) :
    threadId.map (redirect [] survivor) = threadId := by
  cases threadId with
  | none => rfl
  | some threadId => simp [redirect]

theorem map_redirect_redirect (loser : ThreadId) {losers : List ThreadId}
    (notLoser : survivor ∉ losers) (threadId : Option ThreadId) :
    (threadId.map (redirect [loser] survivor)).map (redirect losers survivor) =
      threadId.map (redirect (loser :: losers) survivor) := by
  rw [Option.map_map]
  congr 1
  funext threadId
  by_cases isLoser : threadId = loser
  · simp [redirect, isLoser, notLoser]
  · simp [redirect, isLoser]

theorem mergedInto_foldl {losers : List ThreadId} (distinct : (survivor :: losers).Nodup)
    (tables : ThreadTables) :
    MergedInto survivor losers tables (losers.foldl (mergeThread survivor) tables) := by
  induction losers generalizing tables with
  | nil =>
    refine ⟨fun mid => ?_, fun msgId => ?_, fun _ member => ?_, fun _ _ _ => rfl,
      fun a isLatest _ => ?_⟩
    · exact (map_redirect_nil survivor _).symm
    · exact (map_redirect_nil survivor _).symm
    · cases member
    · refine ⟨a, isLatest, ⟨survivor, List.mem_cons_self, isLatest⟩,
        fun threadId member c isC => ?_⟩
      rw [List.mem_singleton.mp member, isLatest] at isC
      exact (Option.some.inj isC).ge
  | cons loser rest ih =>
    simp only [List.nodup_cons, List.mem_cons, not_or] at distinct
    obtain ⟨⟨notLoser, notRest⟩, loserOnce, restDistinct⟩ := distinct
    have later := ih (List.nodup_cons.mpr ⟨notRest, restDistinct⟩)
      (mergeThread survivor tables loser)
    rw [List.foldl_cons]
    refine ⟨fun mid => ?_, fun msgId => ?_, fun threadId member => ?_,
      fun threadId notSurvivor notMember => ?_, fun a isLatest exist => ?_⟩
    · rw [later.refs]
      change ((retarget survivor loser tables).refOf mid).map _ = _
      rw [refOf_retarget, map_redirect_redirect loser notRest]
    · rw [later.msgs]
      change ((retarget survivor loser tables).threadOf msgId).map _ = _
      rw [threadOf_retarget, map_redirect_redirect loser notRest]
    · rcases List.mem_cons.mp member with rfl | isRest
      · rw [later.others threadId (Ne.symm notLoser) loserOnce]
        exact activity_mergeThread_loser
      · exact later.gone threadId isRest
    · rw [List.mem_cons, not_or] at notMember
      rw [later.others threadId notSurvivor notMember.2]
      exact activity_mergeThread_of_ne notMember.1 notSurvivor
    · obtain ⟨b, isLost⟩ := Option.isSome_iff_exists.mp (exist loser List.mem_cons_self)
      have unchanged : ∀ threadId ∈ rest,
          activity (mergeThread survivor tables loser) threadId = activity tables threadId := by
        intro threadId member
        exact activity_mergeThread_of_ne (fun same => loserOnce (same ▸ member))
          (fun same => notRest (same ▸ member))
      have merged := activity_mergeThread_survivor notLoser isLatest isLost
      obtain ⟨c, isMax, ⟨from_, isFrom, fromMax⟩, bound⟩ := later.latest _ merged
        fun other member => by
          rw [unchanged other member]
          exact exist other (List.mem_cons_of_mem _ member)
      have overBoth : max a b ≤ c := bound survivor List.mem_cons_self _ merged
      refine ⟨c, isMax, ?_, fun threadId member d isD => ?_⟩
      · rcases List.mem_cons.mp isFrom with rfl | isRest
        · rw [merged] at fromMax
          rcases le_total a b with less | more
          · exact ⟨loser, by simp, by rw [isLost, ← fromMax, max_eq_right less]⟩
          · exact ⟨from_, by simp, by rw [isLatest, ← fromMax, max_eq_left more]⟩
        · exact ⟨from_, by simp [isRest], by rw [← unchanged from_ isRest, fromMax]⟩
      · rcases List.mem_cons.mp member with rfl | isLater
        · cases isLatest.symm.trans isD
          exact (le_max_left a b).trans overBoth
        · rcases List.mem_cons.mp isLater with rfl | isRest
          · cases isLost.symm.trans isD
            exact (le_max_right a b).trans overBoth
          · exact bound threadId (List.mem_cons_of_mem _ isRest) d
              (by rw [unchanged threadId isRest, isD])

end Merging

/-! ## What assigning does -/

section Assigning

variable {tables : ThreadTables} {linked : List Text}

theorem collect_spec (ids : List Text) {found : List ThreadId} (distinct : found.Nodup) :
    (ids.foldl (collectThread tables) found).Nodup ∧
      ∀ threadId, threadId ∈ ids.foldl (collectThread tables) found ↔
        threadId ∈ found ∨ Touched ids tables.refOf threadId := by
  induction ids generalizing found with
  | nil => exact ⟨distinct, fun threadId => by simp [Touched]⟩
  | cons id rest ih =>
    have touched : ∀ threadId, Touched (id :: rest) tables.refOf threadId ↔
        tables.refOf id = some threadId ∨ Touched rest tables.refOf threadId := by
      intro threadId
      simp [Touched]
    simp only [List.foldl_cons, touched]
    cases isRef : tables.refOf id with
    | none =>
      have same : collectThread tables found id = found := by simp [collectThread, isRef]
      rw [same]
      simpa using ih distinct
    | some first =>
      by_cases known : first ∈ found
      · have same : collectThread tables found id = found := by
          simp [collectThread, isRef, known]
        obtain ⟨nodup, members⟩ := ih distinct
        rw [same]
        refine ⟨nodup, fun threadId => ?_⟩
        rw [members, Option.some.injEq]
        constructor
        · exact Or.imp_right Or.inr
        · rintro (old | rfl | later)
          · exact Or.inl old
          · exact Or.inl known
          · exact Or.inr later
      · have longer : collectThread tables found id = found ++ [first] := by
          simp [collectThread, isRef, known]
        have stillDistinct : (found ++ [first]).Nodup :=
          List.nodup_append.mpr ⟨distinct, List.nodup_singleton _, fun a isOld b isNew same =>
            known (List.mem_singleton.mp isNew ▸ same ▸ isOld)⟩
        obtain ⟨nodup, members⟩ := ih stillDistinct
        rw [longer]
        refine ⟨nodup, fun threadId => ?_⟩
        rw [members, Option.some.injEq, List.mem_append, List.mem_singleton, or_assoc,
          eq_comm (a := threadId)]

theorem nodup_existingThreads (ids : List Text) (tables : ThreadTables) :
    (existingThreads ids tables).Nodup :=
  (List.perm_insertionSort _ _).nodup_iff.mpr (collect_spec ids List.nodup_nil).1

theorem mem_existingThreads {ids : List Text} :
    threadId ∈ existingThreads ids tables ↔ Touched ids tables.refOf threadId := by
  unfold existingThreads
  rw [(List.perm_insertionSort _ _).mem_iff, (collect_spec ids List.nodup_nil).2]
  simp

theorem refOf_foldl_upsert (linked : List Text) (rows : List ThreadRef) (mid : Text) :
    ((linked.foldl (fun rows mid => upsert (·.rfc724Mid) { rfc724Mid := mid, threadId } rows)
      rows).find? fun row => row.rfc724Mid == mid).map (·.threadId) =
      if mid ∈ linked then some threadId
      else (rows.find? fun row => row.rfc724Mid == mid).map (·.threadId) := by
  induction linked generalizing rows with
  | nil => simp
  | cons first rest ih =>
    rw [List.foldl_cons, ih]
    by_cases isRest : mid ∈ rest
    · simp [isRest]
    · by_cases isFirst : mid = first
      · subst isFirst
        let row : ThreadRef := { rfc724Mid := mid, threadId }
        have inserted : (upsert (·.rfc724Mid) row rows).find?
            (fun old => old.rfc724Mid == row.rfc724Mid) = some row := find?_upsert
        rw [if_neg isRest, if_pos List.mem_cons_self, inserted]
        rfl
      · have other : ThreadRef.rfc724Mid { rfc724Mid := first, threadId } ≠ mid := Ne.symm isFirst
        rw [if_neg isRest, if_neg (by simp [isRest, isFirst]), find?_upsert_ne other]

structure TablesOk (tables : ThreadTables) : Prop where
  ids_nodup : (tables.threads.map (·.id)).Nodup
  ids_lt : ∀ thread ∈ tables.threads, thread.id < tables.nextThreadId
  refs_nodup : (tables.threadRefs.map (·.rfc724Mid)).Nodup
  msgs_nodup : (tables.msgThreads.map (·.msgId)).Nodup

section

variable (ok : TablesOk tables)

include ok

theorem lt_of_activity (isActive : activity tables threadId = some a) :
    threadId < tables.nextThreadId := by
  obtain ⟨row, isRow, _⟩ := Option.map_eq_some_iff.mp isActive
  have sameId : row.id = threadId := by simpa using List.find?_some isRow
  exact sameId ▸ ok.ids_lt row (List.mem_of_find?_eq_some isRow)

theorem TablesOk.lt_of_sameIds {threads : List Thread} {thread : Thread}
    (same : threads.map (·.id) = tables.threads.map (·.id)) (member : thread ∈ threads) :
    thread.id < tables.nextThreadId := by
  have isOld := List.mem_map_of_mem (f := Thread.id) member
  rw [same] at isOld
  obtain ⟨old, isThread, sameId⟩ := List.mem_map.mp isOld
  exact sameId ▸ ok.ids_lt old isThread

theorem TablesOk.mergeThread (survivor loser : ThreadId) :
    TablesOk (mergeThread survivor tables loser) := by
  have sameKeys : ∀ lost, (updateWhere (fun row => row.id == survivor) (Thread.absorb lost)
      tables.threads).map (·.id) = tables.threads.map (·.id) :=
    fun lost => map_updateWhere fun _ => rfl
  have sameRefs : (Threading.mergeThread survivor tables loser).threadRefs.map (·.rfc724Mid) =
      tables.threadRefs.map (·.rfc724Mid) := by
    apply map_updateWhere
    exact fun _ => rfl
  have sameMsgs : (Threading.mergeThread survivor tables loser).msgThreads.map (·.msgId) =
      tables.msgThreads.map (·.msgId) := by
    apply map_updateWhere
    exact fun _ => rfl
  refine ⟨nodup_map_deleteWhere ?_, fun thread member => ?_, ?_, ?_⟩
  · rw [sameKeys]
    exact ok.ids_nodup
  · exact ok.lt_of_sameIds (sameKeys _) (mem_deleteWhere.mp member).1
  · rw [sameRefs]
    exact ok.refs_nodup
  · rw [sameMsgs]
    exact ok.msgs_nodup

theorem TablesOk.mergeAll (survivor : ThreadId) (losers : List ThreadId) :
    TablesOk (losers.foldl (Threading.mergeThread survivor) tables) := by
  induction losers generalizing tables with
  | nil => exact ok
  | cons loser rest ih => exact ih (ok.mergeThread survivor loser)

theorem TablesOk.chooseThread (existing : List ThreadId) (subjectNorm : Text)
    (timestamp : Int) : TablesOk (chooseThread existing subjectNorm timestamp tables).2 := by
  cases existing with
  | cons survivor losers => exact ok.mergeAll survivor losers
  | nil =>
    refine ⟨?_, fun thread member => ?_, ok.refs_nodup, ok.msgs_nodup⟩
    · simp only [Threading.chooseThread]
      rw [List.map_append, List.nodup_append]
      refine ⟨ok.ids_nodup, List.nodup_singleton _, fun id isOld other isNew => ?_⟩
      obtain ⟨thread, isThread, rfl⟩ := List.mem_map.mp isOld
      rw [List.map_singleton, List.mem_singleton] at isNew
      exact isNew ▸ (ok.ids_lt thread isThread).ne
    · rcases List.mem_append.mp member with isOld | isNew
      · exact Nat.lt_succ_of_lt (ok.ids_lt thread isOld)
      · rw [List.mem_singleton.mp isNew]
        exact Nat.lt_succ_self _

end

/-- One thread was chosen for what some threads held, and they were merged into it. -/
structure Chosen (existing : List ThreadId) (timestamp : Int) (threadId : ThreadId)
    (before after : ThreadTables) : Prop where
  refs : ∀ mid, after.refOf mid = (before.refOf mid).map (redirect existing threadId)
  msgs : ∀ msgId, after.threadOf msgId = (before.threadOf msgId).map (redirect existing threadId)
  gone : ∀ other ∈ existing, other ≠ threadId → activity after other = none
  others : ∀ other, other ≠ threadId → other ∉ existing →
    activity after other = activity before other
  isOne : threadId ∈ existing ∨ existing = [] ∧ threadId = before.nextThreadId
  latest : ∃ a, activity after threadId = some a ∧
    ((existing = [] ∧ a = timestamp) ∨ ∃ other ∈ existing, activity before other = some a) ∧
    ∀ other ∈ existing, ∀ b, activity before other = some b → b ≤ a

theorem redirect_cons_self (survivor : ThreadId) (losers : List ThreadId) :
    redirect (survivor :: losers) survivor = redirect losers survivor := by
  funext threadId
  by_cases isSurvivor : threadId = survivor
  · simp [redirect, isSurvivor]
  · simp [redirect, isSurvivor]

theorem chosen_chooseThread (ok : TablesOk tables) (distinct : existing.Nodup)
    (exist : ∀ other ∈ existing, (activity tables other).isSome) (subjectNorm : Text)
    (timestamp : Int) :
    Chosen existing timestamp (chooseThread existing subjectNorm timestamp tables).1 tables
      (chooseThread existing subjectNorm timestamp tables).2 := by
  cases existing with
  | cons survivor losers =>
    have merged := mergedInto_foldl distinct tables
    obtain ⟨a, isLatest⟩ := Option.isSome_iff_exists.mp (exist survivor List.mem_cons_self)
    obtain ⟨b, isMax, fromOne, bound⟩ := merged.latest a isLatest fun other member =>
      exist other (List.mem_cons_of_mem _ member)
    refine ⟨?_, ?_, fun other member different => ?_, fun other different apart => ?_,
      Or.inl List.mem_cons_self, b, isMax, Or.inr fromOne, bound⟩
    · simp only [Threading.chooseThread, redirect_cons_self]
      exact merged.refs
    · simp only [Threading.chooseThread, redirect_cons_self]
      exact merged.msgs
    · exact merged.gone other ((List.mem_cons.mp member).resolve_left different)
    · exact merged.others other different fun member => apart (List.mem_cons_of_mem _ member)
  | nil =>
    have absent : tables.threads.find? (fun row => row.id == tables.nextThreadId) = none := by
      rw [List.find?_eq_none]
      intro thread member
      simpa using (ok.ids_lt thread member).ne
    refine ⟨fun mid => (map_redirect_nil _ _).symm, fun msgId => (map_redirect_nil _ _).symm,
      fun _ member => ?_, fun other different _ => ?_, Or.inr ⟨rfl, rfl⟩, timestamp, ?_,
      Or.inl ⟨rfl, rfl⟩, fun _ member => ?_⟩
    · cases member
    · have notNew : tables.nextThreadId ≠ other := Ne.symm different
      simp [activity, Threading.chooseThread, List.find?_append, notNew]
    · simp [activity, Threading.chooseThread, List.find?_append, absent]
    · cases member

end Assigning

/-! ## The invariant -/

section Grouped

variable [Unicode] {tables : ThreadTables} {headers : MsgId → ThreadHeaders} {seen : List MsgId}

def assigned (msgId : MsgId) (headers : ThreadHeaders) (tables : ThreadTables) : ThreadId :=
  (assign msgId headers tables).1

def prepared (headers : ThreadHeaders) (tables : ThreadTables) : ThreadTables :=
  (chooseThread (existingThreads headers.linkedIds tables) (removeSubjectPrefix headers.subject)
    headers.timestamp tables).2

theorem refOf_assign (msgId : MsgId) (headers : ThreadHeaders) (mid : Text) :
    (assign msgId headers tables).2.refOf mid =
      if mid ∈ headers.linkedIds then some (assigned msgId headers tables)
      else (prepared headers tables).refOf mid :=
  refOf_foldl_upsert _ _ _

theorem threadOf_assign_self (msgId : MsgId) (headers : ThreadHeaders) :
    (assign msgId headers tables).2.threadOf msgId = some (assigned msgId headers tables) := by
  let row : MsgThread := { msgId, threadId := assigned msgId headers tables }
  have inserted : ∀ rows : List MsgThread, (upsert (·.msgId) row rows).find?
      (fun old => old.msgId == row.msgId) = some row := fun rows => find?_upsert
  exact congrArg (Option.map (·.threadId)) (inserted _)

theorem threadOf_assign_of_ne {msgId : MsgId} (different : other ≠ msgId)
    (headers : ThreadHeaders) :
    (assign msgId headers tables).2.threadOf other = (prepared headers tables).threadOf other := by
  let row : MsgThread := { msgId, threadId := assigned msgId headers tables }
  have kept : ∀ rows : List MsgThread, (upsert (·.msgId) row rows).find?
      (fun old => old.msgId == other) = rows.find? fun old => old.msgId == other :=
    fun rows => find?_upsert_ne (Ne.symm different)
  exact congrArg (Option.map (·.threadId)) (kept _)

omit [Unicode] in
theorem activity_touch (threads : List Thread) (one threadId : ThreadId) (subjectNorm : Text)
    (timestamp : Int) :
    ((updateWhere (fun row => row.id == one) (Thread.touch subjectNorm timestamp) threads).find?
      fun row => row.id == threadId).map (·.lastActivity) =
      ((threads.find? fun row => row.id == threadId).map (·.lastActivity)).map
        fun a => if threadId = one then max a timestamp else a := by
  have sameKey : ∀ thread, (Thread.touch subjectNorm timestamp thread).id = thread.id :=
    fun _ => rfl
  rw [find?_updateWhere Thread.id sameKey]
  cases found : threads.find? fun row => row.id == threadId with
  | none => rfl
  | some thread =>
    have sameId : thread.id = threadId := by simpa using List.find?_some found
    by_cases isOne : threadId = one
    · simp [sameId, isOne, Thread.touch]
    · simp [sameId, isOne]

theorem activity_assign (msgId : MsgId) (headers : ThreadHeaders) (threadId : ThreadId) :
    activity (assign msgId headers tables).2 threadId =
      (activity (prepared headers tables) threadId).map fun a =>
        if threadId = assigned msgId headers tables then max a headers.timestamp else a :=
  activity_touch _ _ _ _ _

theorem TablesOk.assign (ok : TablesOk tables) (msgId : MsgId) (headers : ThreadHeaders) :
    TablesOk (assign msgId headers tables).2 := by
  have chosen : TablesOk (prepared headers tables) := ok.chooseThread _ _ _
  have sameIds : (Threading.assign msgId headers tables).2.threads.map (·.id) =
      (prepared headers tables).threads.map (·.id) := by
    apply map_updateWhere
    exact fun _ => rfl
  refine ⟨?_, fun thread member => ?_, ?_, nodup_map_upsert chosen.msgs_nodup⟩
  · rw [sameIds]
    exact chosen.ids_nodup
  · exact chosen.lt_of_sameIds sameIds member
  · have kept : ∀ (mids : List Text) (rows : List ThreadRef), (rows.map (·.rfc724Mid)).Nodup →
        ((mids.foldl (fun rows mid => upsert (·.rfc724Mid)
          { rfc724Mid := mid, threadId := assigned msgId headers tables } rows) rows).map
          (·.rfc724Mid)).Nodup := by
      intro mids
      induction mids with
      | nil => exact fun rows nodup => nodup
      | cons mid rest ih => exact fun rows nodup => ih _ (nodup_map_upsert nodup)
    exact kept _ _ chosen.refs_nodup

/-! ### Every thread in use exists -/

/-- What a Message-ID or a message names is a thread that exists. -/
structure Rooted (tables : ThreadTables) : Prop where
  ok : TablesOk tables
  refs : ∀ mid threadId, tables.refOf mid = some threadId → (activity tables threadId).isSome
  msgs : ∀ msgId threadId, tables.threadOf msgId = some threadId →
    (activity tables threadId).isSome

section Rooted

variable {message : ThreadHeaders} {msgId : MsgId} (rooted : Rooted tables)

include rooted

theorem Rooted.chosen (msgId : MsgId) (message : ThreadHeaders) :
    Chosen (existingThreads message.linkedIds tables) message.timestamp
      (assigned msgId message tables) tables (prepared message tables) := by
  refine chosen_chooseThread rooted.ok (nodup_existingThreads _ _) (fun threadId member => ?_) _ _
  obtain ⟨mid, _, isRef⟩ := mem_existingThreads.mp member
  exact rooted.refs mid threadId isRef

theorem Rooted.threadOf_of_ne (different : other ≠ msgId) :
    (assign msgId message tables).2.threadOf other =
      (tables.threadOf other).map (redirect (existingThreads message.linkedIds tables)
        (assigned msgId message tables)) := by
  rw [threadOf_assign_of_ne different]
  exact (rooted.chosen msgId message).msgs other

theorem Rooted.refOf_of_not_mem (apart : mid ∉ message.linkedIds) :
    (assign msgId message tables).2.refOf mid =
      (tables.refOf mid).map (redirect (existingThreads message.linkedIds tables)
        (assigned msgId message tables)) := by
  rw [refOf_assign, if_neg apart]
  exact (rooted.chosen msgId message).refs mid

theorem Rooted.mem_existing (msgId : MsgId) (isRef : tables.refOf mid = some threadId)
    (isOne : redirect (existingThreads message.linkedIds tables)
      (assigned msgId message tables) threadId = assigned msgId message tables) :
    threadId ∈ existingThreads message.linkedIds tables := by
  by_contra apart
  rw [redirect_of_not_mem apart] at isOne
  rcases (rooted.chosen msgId message).isOne with found | ⟨_, isNew⟩
  · exact apart (isOne ▸ found)
  · obtain ⟨a, isActive⟩ := Option.isSome_iff_exists.mp (rooted.refs mid threadId isRef)
    have old := lt_of_activity rooted.ok isActive
    rw [isOne, isNew] at old
    exact lt_irrefl _ old

theorem Rooted.activity_one (msgId : MsgId) (message : ThreadHeaders) :
    ∃ a, activity (assign msgId message tables).2 (assigned msgId message tables) =
        some (max a message.timestamp) ∧
      activity (prepared message tables) (assigned msgId message tables) = some a := by
  obtain ⟨a, isLatest, _⟩ := (rooted.chosen msgId message).latest
  refine ⟨a, ?_, isLatest⟩
  rw [activity_assign, isLatest, Option.map_some, if_pos rfl]

theorem Rooted.activity_of_ne (different : threadId ≠ assigned msgId message tables) :
    activity (assign msgId message tables).2 threadId =
      if threadId ∈ existingThreads message.linkedIds tables then none
      else activity tables threadId := by
  have same : activity (assign msgId message tables).2 threadId =
      activity (prepared message tables) threadId := by
    rw [activity_assign]
    simp [different]
  rw [same]
  split
  next member => exact (rooted.chosen msgId message).gone threadId member different
  next apart => exact (rooted.chosen msgId message).others threadId different apart

theorem Rooted.isSome_redirect {old : ThreadId} (existed : (activity tables old).isSome)
    (same : redirect (existingThreads message.linkedIds tables) (assigned msgId message tables)
      old = threadId) : (activity (assign msgId message tables).2 threadId).isSome := by
  by_cases isOne : threadId = assigned msgId message tables
  · obtain ⟨a, isLatest, _⟩ := rooted.activity_one msgId message
    rw [isOne, isLatest]
    rfl
  · have apart : old ∉ existingThreads message.linkedIds tables := by
      intro member
      rw [redirect_of_mem member] at same
      exact isOne same.symm
    rw [redirect_of_not_mem apart] at same
    subst same
    rw [rooted.activity_of_ne isOne, if_neg apart]
    exact existed

theorem Rooted.isSome_assigned (msgId : MsgId) (message : ThreadHeaders) :
    (activity (assign msgId message tables).2 (assigned msgId message tables)).isSome := by
  obtain ⟨a, isLatest, _⟩ := rooted.activity_one msgId message
  rw [isLatest]
  rfl

theorem Rooted.follows_ref (different : other ≠ msgId)
    (isIn : tables.threadOf other = some threadId) (isRef : tables.refOf mid = some threadId) :
    (assign msgId message tables).2.threadOf other =
      (assign msgId message tables).2.refOf mid := by
  rw [rooted.threadOf_of_ne different, isIn]
  by_cases inside : mid ∈ message.linkedIds
  · rw [refOf_assign, if_pos inside, Option.map_some,
      redirect_of_mem (mem_existingThreads.mpr ⟨mid, inside, isRef⟩)]
  · rw [rooted.refOf_of_not_mem inside, isRef]

theorem Rooted.assign (msgId : MsgId) (message : ThreadHeaders) :
    Rooted (assign msgId message tables).2 := by
  refine ⟨rooted.ok.assign msgId message, fun mid threadId isRef => ?_,
    fun other threadId isIn => ?_⟩
  · by_cases inside : mid ∈ message.linkedIds
    · rw [refOf_assign, if_pos inside] at isRef
      exact Option.some.inj isRef ▸ rooted.isSome_assigned msgId message
    · rw [rooted.refOf_of_not_mem inside] at isRef
      obtain ⟨old, isOld, same⟩ := Option.map_eq_some_iff.mp isRef
      exact rooted.isSome_redirect (rooted.refs mid old isOld) same
  · by_cases isOne : other = msgId
    · rw [isOne, threadOf_assign_self] at isIn
      exact Option.some.inj isIn ▸ rooted.isSome_assigned msgId message
    · rw [rooted.threadOf_of_ne isOne] at isIn
      obtain ⟨old, isOld, same⟩ := Option.map_eq_some_iff.mp isIn
      exact rooted.isSome_redirect (rooted.msgs other old isOld) same

end Rooted

/-- The activity of the thread is that of its latest message. -/
def IsLatest (headers : MsgId → ThreadHeaders) (seen : List MsgId) (tables : ThreadTables)
    (threadId : ThreadId) (a : Int) : Prop :=
  (∃ msgId ∈ seen, tables.threadOf msgId = some threadId ∧ (headers msgId).timestamp = a) ∧
    ∀ msgId ∈ seen, tables.threadOf msgId = some threadId → (headers msgId).timestamp ≤ a

/-- The messages seen so far are grouped by the Message-IDs they link. -/
structure Grouped (headers : MsgId → ThreadHeaders) (seen : List MsgId)
    (tables : ThreadTables) : Prop where
  ok : TablesOk tables
  named : ∀ msgId ∈ seen, (headers msgId).rfc724Mid ≠ []
  labels : Labels (seen.map fun msgId => (headers msgId).linkedIds) tables.refOf
  members : ∀ msgId ∈ seen, ∀ mid ∈ (headers msgId).linkedIds,
    tables.threadOf msgId = tables.refOf mid
  strangers : ∀ msgId, msgId ∉ seen → tables.threadOf msgId = none
  exist : ∀ mid threadId, tables.refOf mid = some threadId → (activity tables threadId).isSome
  latest : ∀ threadId a, activity tables threadId = some a →
    IsLatest headers seen tables threadId a

theorem grouped_empty (headers : MsgId → ThreadHeaders) : Grouped headers [] {} := by
  refine ⟨⟨List.nodup_nil, fun _ member => ?_, List.nodup_nil, List.nodup_nil⟩,
    fun _ member => ?_, Labels.nil, fun _ member => ?_, fun _ _ => rfl, fun _ _ found => ?_,
    fun _ _ found => ?_⟩
  · cases member
  · cases member
  · cases member
  · cases found
  · cases found

theorem mem_linkedIds {message : ThreadHeaders} (named : message.rfc724Mid ≠ []) :
    message.rfc724Mid ∈ message.linkedIds := by
  unfold ThreadHeaders.linkedIds
  rw [List.mem_eraseDups, List.mem_filter]
  exact ⟨List.mem_cons_self, by simpa using named⟩

/-! ### One message more -/

section Step

variable {msgId : MsgId} (grouped : Grouped headers seen tables)

include grouped

theorem Grouped.refOf_own (wasSeen : other ∈ seen) :
    tables.refOf (headers other).rfc724Mid = tables.threadOf other :=
  (grouped.members other wasSeen _ (mem_linkedIds (grouped.named other wasSeen))).symm

theorem Grouped.rooted : Rooted tables := by
  refine ⟨grouped.ok, grouped.exist, fun other threadId isIn => ?_⟩
  by_cases wasSeen : other ∈ seen
  · exact grouped.exist _ threadId ((grouped.refOf_own wasSeen).trans isIn)
  · rw [grouped.strangers other wasSeen] at isIn
    cases isIn

theorem Grouped.labels_assign :
    Labels ((msgId :: seen).map fun msgId => (headers msgId).linkedIds)
      (assign msgId (headers msgId) tables).2.refOf := by
  rw [List.map_cons]
  refine grouped.labels.cons ?_ (t := assigned msgId (headers msgId) tables) fun mid isRef => ?_
  · refine ⟨fun mid near => ?_, fun mid far => ?_⟩
    · by_cases inside : mid ∈ (headers msgId).linkedIds
      · rw [refOf_assign, if_pos inside]
      · rcases near with inside' | ⟨threadId, isRef, touched⟩
        · exact absurd inside' inside
        · rw [grouped.rooted.refOf_of_not_mem inside, isRef, Option.map_some,
            redirect_of_mem (mem_existingThreads.mpr touched)]
    · have outside : mid ∉ (headers msgId).linkedIds := fun inside => far (Or.inl inside)
      rw [grouped.rooted.refOf_of_not_mem outside]
      cases isRef : tables.refOf mid with
      | none => rfl
      | some threadId =>
        have apart : threadId ∉ existingThreads (headers msgId).linkedIds tables :=
          fun member => far (Or.inr ⟨threadId, isRef, mem_existingThreads.mp member⟩)
        rw [Option.map_some, redirect_of_not_mem apart]
  · refine Or.inr ⟨_, isRef, mem_existingThreads.mp (grouped.rooted.mem_existing msgId isRef ?_)⟩
    unfold redirect
    split
    · rfl
    · rfl

theorem Grouped.members_assign (member : other ∈ msgId :: seen)
    (isLinked : mid ∈ (headers other).linkedIds) :
    (assign msgId (headers msgId) tables).2.threadOf other =
      (assign msgId (headers msgId) tables).2.refOf mid := by
  by_cases isOne : other = msgId
  · subst isOne
    rw [threadOf_assign_self, refOf_assign, if_pos isLinked]
  · have wasSeen : other ∈ seen := (List.mem_cons.mp member).resolve_left isOne
    obtain ⟨threadId, isRef⟩ := (grouped.labels.covered mid).mpr
      ⟨_, List.mem_map_of_mem wasSeen, isLinked⟩
    exact grouped.rooted.follows_ref isOne
      ((grouped.members other wasSeen mid isLinked).trans isRef) isRef

theorem Grouped.le_chosen (wasSeen : other ∈ seen) (different : other ≠ msgId)
    (isLatest : activity (prepared (headers msgId) tables)
      (assigned msgId (headers msgId) tables) = some a)
    (isOne : (assign msgId (headers msgId) tables).2.threadOf other =
      some (assigned msgId (headers msgId) tables)) : (headers other).timestamp ≤ a := by
  rw [grouped.rooted.threadOf_of_ne different] at isOne
  obtain ⟨old, isOld, same⟩ := Option.map_eq_some_iff.mp isOne
  have isRef := (grouped.refOf_own wasSeen).trans isOld
  have found := grouped.rooted.mem_existing msgId isRef same
  obtain ⟨b, isActive⟩ := Option.isSome_iff_exists.mp (grouped.exist _ old isRef)
  obtain ⟨c, isChosen, _, bound⟩ := (grouped.rooted.chosen msgId (headers msgId)).latest
  cases isLatest.symm.trans isChosen
  exact ((grouped.latest old b isActive).2 other wasSeen isOld).trans (bound old found b isActive)

theorem Grouped.latest_one (isActive : activity (assign msgId (headers msgId) tables).2
      (assigned msgId (headers msgId) tables) = some a) :
    IsLatest headers (msgId :: seen) (assign msgId (headers msgId) tables).2
      (assigned msgId (headers msgId) tables) a := by
  obtain ⟨b, isMax, isLatest⟩ := grouped.rooted.activity_one msgId (headers msgId)
  cases isActive.symm.trans isMax
  have own : (Threading.assign msgId (headers msgId) tables).2.threadOf msgId =
      some (assigned msgId (headers msgId) tables) := threadOf_assign_self msgId (headers msgId)
  refine ⟨?_, fun other member isOne => ?_⟩
  · rcases le_total b (headers msgId).timestamp with newer | older
    · exact ⟨msgId, List.mem_cons_self, own, (max_eq_right newer).symm⟩
    · rw [max_eq_left older]
      obtain ⟨c, isChosen, source, _⟩ := (grouped.rooted.chosen msgId (headers msgId)).latest
      cases isLatest.symm.trans isChosen
      rcases source with ⟨_, isNew⟩ | ⟨old, found, isOld⟩
      · exact ⟨msgId, List.mem_cons_self, own, isNew.symm⟩
      · obtain ⟨⟨other, wasSeen, wasIn, isTime⟩, _⟩ := grouped.latest old b isOld
        by_cases isOne : other = msgId
        · exact ⟨msgId, List.mem_cons_self, own, isOne ▸ isTime⟩
        · refine ⟨other, List.mem_cons_of_mem _ wasSeen, ?_, isTime⟩
          rw [grouped.rooted.threadOf_of_ne isOne, wasIn, Option.map_some, redirect_of_mem found]
  · by_cases same : other = msgId
    · rw [same]
      exact le_max_right _ _
    · have wasSeen := (List.mem_cons.mp member).resolve_left same
      exact (grouped.le_chosen wasSeen same isLatest isOne).trans (le_max_left _ _)

theorem Grouped.latest_of_ne (named : (headers msgId).rfc724Mid ≠ [])
    (different : threadId ≠ assigned msgId (headers msgId) tables)
    (isActive : activity (assign msgId (headers msgId) tables).2 threadId = some a) :
    IsLatest headers (msgId :: seen) (assign msgId (headers msgId) tables).2 threadId a := by
  rw [grouped.rooted.activity_of_ne different] at isActive
  split at isActive
  · cases isActive
  next apart =>
    obtain ⟨⟨other, wasSeen, wasIn, isTime⟩, bound⟩ := grouped.latest threadId a isActive
    refine ⟨⟨other, List.mem_cons_of_mem _ wasSeen, ?_, isTime⟩, fun late member isIn => ?_⟩
    · have notOne : other ≠ msgId := by
        rintro rfl
        exact apart (mem_existingThreads.mpr
          ⟨_, mem_linkedIds named, (grouped.refOf_own wasSeen).trans wasIn⟩)
      rw [grouped.rooted.threadOf_of_ne notOne, wasIn, Option.map_some, redirect_of_not_mem apart]
    · have notOne : late ≠ msgId := by
        rintro rfl
        rw [threadOf_assign_self] at isIn
        exact different (Option.some.inj isIn).symm
      rw [grouped.rooted.threadOf_of_ne notOne] at isIn
      obtain ⟨old, isOld, same⟩ := Option.map_eq_some_iff.mp isIn
      have notFound : old ∉ existingThreads (headers msgId).linkedIds tables := by
        intro found
        rw [redirect_of_mem found] at same
        exact different same.symm
      rw [redirect_of_not_mem notFound] at same
      exact bound late ((List.mem_cons.mp member).resolve_left notOne) (same ▸ isOld)

theorem Grouped.assign (named : (headers msgId).rfc724Mid ≠ []) :
    Grouped headers (msgId :: seen) (assign msgId (headers msgId) tables).2 := by
  refine ⟨grouped.ok.assign msgId _, fun other member => ?_, grouped.labels_assign,
    fun other member mid isLinked => grouped.members_assign member isLinked,
    fun other apart => ?_, (grouped.rooted.assign msgId _).refs,
    fun threadId a isActive => ?_⟩
  · rcases List.mem_cons.mp member with rfl | wasSeen
    · exact named
    · exact grouped.named other wasSeen
  · rw [List.mem_cons, not_or] at apart
    rw [grouped.rooted.threadOf_of_ne apart.1, grouped.strangers other apart.2]
    rfl
  · by_cases isOne : threadId = assigned msgId (headers msgId) tables
    · subst isOne
      exact grouped.latest_one isActive
    · exact grouped.latest_of_ne named isOne isActive

end Step

/-! ## Every order of arrival -/

def arrive (headers : MsgId → ThreadHeaders) (tables : ThreadTables) (msgId : MsgId) :
    ThreadTables := (Threading.assign msgId (headers msgId) tables).2

theorem grouped_runAll (headers : MsgId → ThreadHeaders) (arrivals : List MsgId)
    (named : ∀ msgId ∈ arrivals, (headers msgId).rfc724Mid ≠ []) :
    Grouped headers arrivals.reverse (runAll (arrive headers) {} arrivals) := by
  induction arrivals using List.reverseRecOn with
  | nil => exact grouped_empty headers
  | append_singleton before msgId ih =>
    rw [List.reverse_append, runAll_append]
    have grouped := ih fun other member => named other (List.mem_append_left _ member)
    exact grouped.assign (named msgId (by simp))

def ShareId (headers : MsgId → ThreadHeaders) (arrivals : List MsgId)
    (first second : MsgId) : Prop :=
  first ∈ arrivals ∧ second ∈ arrivals ∧
    ∃ mid ∈ (headers first).linkedIds, mid ∈ (headers second).linkedIds

/-- Messages are linked by a chain exactly if their Message-IDs are joined. -/
theorem chain_iff_joined {arrivals : List MsgId} {first second : MsgId}
    (named : ∀ msgId ∈ arrivals, (headers msgId).rfc724Mid ≠ [])
    (isFirst : first ∈ arrivals) (isSecond : second ∈ arrivals) :
    Relation.ReflTransGen (ShareId headers arrivals) first second ↔
      Joined (arrivals.reverse.map fun msgId => (headers msgId).linkedIds)
        (headers first).rfc724Mid (headers second).rfc724Mid := by
  have isSet : ∀ msgId ∈ arrivals, (headers msgId).linkedIds ∈
      arrivals.reverse.map fun msgId => (headers msgId).linkedIds :=
    fun msgId member => List.mem_map_of_mem (List.mem_reverse.mpr member)
  have own : ∀ msgId ∈ arrivals, (headers msgId).rfc724Mid ∈ (headers msgId).linkedIds :=
    fun msgId member => mem_linkedIds (named msgId member)
  constructor
  · intro chain
    induction chain with
    | refl => exact .refl
    | @tail middle last _ share ih =>
      obtain ⟨isMiddle, isLast, mid, inMiddle, inLast⟩ := share
      have toShared : Joined _ (headers middle).rfc724Mid mid :=
        .single ⟨_, isSet middle isMiddle, own middle isMiddle, inMiddle⟩
      have toLast : Joined _ mid (headers last).rfc724Mid :=
        .single ⟨_, isSet last isLast, inLast, own last isLast⟩
      exact ((ih isMiddle).trans toShared).trans toLast
  · -- Along the chain of Message-IDs, the message that links the last one is reached.
    have reached : ∀ mid, Joined (arrivals.reverse.map fun msgId => (headers msgId).linkedIds)
        (headers first).rfc724Mid mid → ∃ msgId ∈ arrivals, mid ∈ (headers msgId).linkedIds ∧
          Relation.ReflTransGen (ShareId headers arrivals) first msgId := by
      intro mid joined
      induction joined with
      | refl => exact ⟨first, isFirst, own first isFirst, .refl⟩
      | tail _ meets ih =>
        obtain ⟨msgId, isMsg, linked, chain⟩ := ih
        obtain ⟨set, isSet, left, right⟩ := meets
        obtain ⟨next, isNext, rfl⟩ := List.mem_map.mp isSet
        have isNext := List.mem_reverse.mp isNext
        exact ⟨next, isNext, right, chain.tail ⟨isMsg, isNext, _, linked, left⟩⟩
    intro joined
    obtain ⟨msgId, isMsg, linked, chain⟩ := reached _ joined
    exact chain.tail ⟨isMsg, isSecond, _, linked, own second isSecond⟩

def grouping (headers : MsgId → ThreadHeaders) (arrivals : List MsgId) : ThreadTables :=
  runAll (arrive headers) {} arrivals

omit [Unicode] in
theorem exists_of_activity (exists' : (activity tables threadId).isSome) :
    ∃ thread ∈ tables.threads, thread.id = threadId := by
  obtain ⟨a, isActive⟩ := Option.isSome_iff_exists.mp exists'
  obtain ⟨thread, found, _⟩ := Option.map_eq_some_iff.mp isActive
  exact ⟨thread, List.mem_of_find?_eq_some found, by simpa using List.find?_some found⟩

/-- In whatever order messages arrive, and however often, two of them are in one
thread exactly if a chain of messages links them; a Message-ID has one thread,
every thread in use exists, and its activity is that of its latest message. -/
theorem threads_are_components (headers : MsgId → ThreadHeaders) (arrivals : List MsgId)
    (named : ∀ msgId ∈ arrivals, (headers msgId).rfc724Mid ≠ []) :
    (∀ first ∈ arrivals, ∀ second ∈ arrivals,
        ((grouping headers arrivals).threadOf first = (grouping headers arrivals).threadOf second ↔
          Relation.ReflTransGen (ShareId headers arrivals) first second)) ∧
      (∀ msgId ∈ arrivals, ∀ mid ∈ (headers msgId).linkedIds,
        ∃ threadId, (grouping headers arrivals).threadOf msgId = some threadId ∧
          { rfc724Mid := mid, threadId } ∈ (grouping headers arrivals).threadRefs) ∧
      ((grouping headers arrivals).threadRefs.map (·.rfc724Mid)).Nodup ∧
      (∀ row ∈ (grouping headers arrivals).threadRefs,
        ∃ thread ∈ (grouping headers arrivals).threads, thread.id = row.threadId) ∧
      (∀ row ∈ (grouping headers arrivals).msgThreads,
        ∃ thread ∈ (grouping headers arrivals).threads, thread.id = row.threadId) ∧
      ∀ thread ∈ (grouping headers arrivals).threads,
        (∃ msgId ∈ arrivals, (grouping headers arrivals).threadOf msgId = some thread.id ∧
          (headers msgId).timestamp = thread.lastActivity) ∧
        ∀ msgId ∈ arrivals, (grouping headers arrivals).threadOf msgId = some thread.id →
          (headers msgId).timestamp ≤ thread.lastActivity := by
  have grouped : Grouped headers arrivals.reverse (grouping headers arrivals) :=
    grouped_runAll headers arrivals named
  generalize grouping headers arrivals = tables at grouped ⊢
  have wasSeen : ∀ msgId ∈ arrivals, msgId ∈ arrivals.reverse := fun _ => List.mem_reverse.mpr
  have isRef : ∀ msgId ∈ arrivals, ∀ mid ∈ (headers msgId).linkedIds,
      ∃ threadId, tables.threadOf msgId = some threadId ∧ tables.refOf mid = some threadId := by
    intro msgId isMsg mid isLinked
    obtain ⟨threadId, found⟩ := (grouped.labels.covered mid).mpr
      ⟨_, List.mem_map_of_mem (wasSeen msgId isMsg), isLinked⟩
    exact ⟨threadId, (grouped.members msgId (wasSeen msgId isMsg) mid isLinked).trans found, found⟩
  refine ⟨fun first isFirst second isSecond => ?_, fun msgId isMsg mid isLinked => ?_,
    grouped.ok.refs_nodup, fun row member => ?_, fun row member => ?_, fun thread member => ?_⟩
  · obtain ⟨threadId, ofFirst, found⟩ := isRef first isFirst _ (mem_linkedIds (named first isFirst))
    rw [chain_iff_joined named isFirst isSecond, ← grouped.labels.agree found, ofFirst,
      grouped.refOf_own (wasSeen second isSecond), eq_comm]
  · obtain ⟨threadId, ofMsg, found⟩ := isRef msgId isMsg mid isLinked
    refine ⟨threadId, ofMsg, ?_⟩
    obtain ⟨row, isRow, rfl⟩ := Option.map_eq_some_iff.mp found
    have sameMid : row.rfc724Mid = mid := by simpa using List.find?_some isRow
    exact sameMid ▸ List.mem_of_find?_eq_some isRow
  · have found : tables.refOf row.rfc724Mid = some row.threadId :=
      congrArg (Option.map ThreadRef.threadId) (find?_of_nodup grouped.ok.refs_nodup member)
    exact exists_of_activity (grouped.exist _ _ found)
  · have found : tables.threadOf row.msgId = some row.threadId :=
      congrArg (Option.map MsgThread.threadId) (find?_of_nodup grouped.ok.msgs_nodup member)
    have isSeen : row.msgId ∈ arrivals.reverse := by
      by_contra notSeen
      rw [grouped.strangers _ notSeen] at found
      cases found
    exact exists_of_activity (grouped.exist _ _ ((grouped.refOf_own isSeen).trans found))
  · have isActive : activity tables thread.id = some thread.lastActivity :=
      congrArg (Option.map Thread.lastActivity) (find?_of_nodup grouped.ok.ids_nodup member)
    obtain ⟨⟨msgId, isMsg, isIn, isTime⟩, bound⟩ := grouped.latest _ _ isActive
    exact ⟨⟨msgId, List.mem_reverse.mp isMsg, isIn, isTime⟩,
      fun other isOther => bound other (wasSeen other isOther)⟩

end Grouped

section

local instance : Unicode := asciiTables

def linkHeaders : MsgId → ThreadHeaders
  | 10 => { rfc724Mid := "a".toList, timestamp := 5 }
  | 11 => { rfc724Mid := "b".toList, timestamp := 7 }
  | _ => { rfc724Mid := "c".toList, references := "<a> <b>".toList, timestamp := 6 }

theorem missing_link_joins :
    (grouping linkHeaders [10, 11]).threadOf 10 ≠ (grouping linkHeaders [10, 11]).threadOf 11 ∧
      (grouping linkHeaders [10, 11, 12]).threadOf 10 =
        (grouping linkHeaders [10, 11, 12]).threadOf 11 := by
  have named : ∀ msgId ∈ [10, 11, 12], (linkHeaders msgId).rfc724Mid ≠ [] := by decide
  refine ⟨by decide, ((threads_are_components linkHeaders [10, 11, 12] named).1 10 (by decide) 11
    (by decide)).mpr ?_⟩
  exact .tail (.single ⟨by decide, by decide, "a".toList, by decide, by decide⟩)
    (⟨by decide, by decide, "b".toList, by decide, by decide⟩ : ShareId _ _ 12 11)

end

end Eeemail.ThreadGroups
