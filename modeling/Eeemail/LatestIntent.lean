import Eeemail.LabelStreams

/-! # Which change decides

A label is on a message at the end of a stream because of one change.  Of the changes that
came before the message the newest is kept; reception then adds the label if it sorts the
message under it; and of the changes that come after the message the last one stands,
whatever its time. -/

set_option autoImplicit false

namespace Eeemail.LatestIntent

open Lib.Texts Lib.Runs Store Labels ReservedLabels Gating Reception
open LabelBoards Arrivals LabelStreams
open Boards (Column Board Directory HasSystem latestIntent)

variable {name norm mid : Text} {stream : List Delivered} {db : Db} {mail : Incoming}
variable {msgId : MsgId}

structure Tag where
  on : Bool
  parked : Option (Bool × Int)

section

variable [Unicode] {ids : Text → LabelId} {μ : Type}

/-- The change an item makes to the label of this name: where, and whether it is put on. -/
def changeOf (norm : Text) : LabelSyncItem → Option (List Text × Bool)
  | .apply mids name => if normalize name = norm then some (mids, true) else none
  | .unapply mids name => if normalize name = norm then some (mids, false) else none
  | _ => none

omit [Unicode] in
def tagOf (msg : μ) (mid : Text) (column : Option (Column μ)) : Tag :=
  column.elim ⟨false, none⟩ fun column => ⟨column.on msg, column.parked mid⟩

def Tag.change (directory : Directory μ) (msg : μ) (mid : Text) (mids : List Text) (apply : Bool)
    (timestamp : Int) (tag : Tag) : Tag where
  on := if mids.any (directory.names · msg) then apply else tag.on
  parked :=
    if mids.contains mid && directory.unknown mid then latestIntent apply timestamp tag.parked
    else tag.parked

def tagStep (directory : Directory μ) (msg : μ) (mid norm : Text) (tag : Tag)
    (delivered : Delivered) : Tag :=
  match changeOf norm delivered.item with
  | none => tag
  | some (mids, puts) => tag.change directory msg mid mids puts delivered.timestamp

/-- The label is reserved, or the item is a change to it. -/
def Steady (norm : Text) (board : Board μ) (item : LabelSyncItem) : Prop :=
  HasSystem norm board ∨ (norm ≠ [] ∧ (changeOf norm item).isSome)

theorem tagOf_set (directory : Directory μ) (msg : μ) (mid name : Text) (mids : List Text)
    (apply : Bool) (timestamp : Int) (board : Board μ)
    (there : ¬(trim name).isEmpty ∨ (board (normalize name)).isSome) :
    tagOf msg mid (Boards.set directory mids name apply timestamp board (normalize name)) =
      (tagOf msg mid (board (normalize name))).change directory msg mid mids apply timestamp := by
  rw [Boards.set, Boards.modify_apply, if_pos rfl]
  cases found : board (normalize name) with
  | some column =>
    rw [Boards.create_of_some found]
    rfl
  | none =>
    have fresh : ¬(trim name).isEmpty := by
      rcases there with fresh | there
      · exact fresh
      · rw [found] at there
        cases there
    rw [Boards.create, found]
    simp only [fresh, Option.isSome_none, Bool.or_false, Bool.false_eq_true, if_false,
      Function.update_self, Option.map_some]
    rfl

theorem trim_of_normalize (named : normalize name ≠ []) : ¬(trim name).isEmpty := by
  intro blank
  rw [Labels.normalize, List.isEmpty_iff.mp blank] at named
  exact named Unicode.lowercase_nil

theorem tagOf_set_of_ne (directory : Directory μ) (differs : norm ≠ normalize name)
    (mids : List Text) (puts : Bool) (timestamp : Int) {board : Board μ}
    (has : HasSystem norm board) :
    Boards.set directory mids name puts timestamp board norm = board norm := by
  obtain ⟨column, found, _⟩ := has
  rw [Boards.set, Boards.modify_apply, if_neg differs, Boards.create_of_some found, found]

theorem tagOf_replay (directory : Directory μ) (msg : μ) (mid : Text) {board : Board μ}
    (delivered : Delivered) (steady : Steady norm board delivered.item) :
    tagOf msg mid (replayStep directory board delivered norm) =
      tagStep directory msg mid norm (tagOf msg mid (board norm)) delivered := by
  obtain ⟨item, timestamp, now⟩ := delivered
  have changes : ∀ mids name puts, (HasSystem norm board ∨ normalize name = norm ∧ norm ≠ []) →
      tagOf msg mid (Boards.set directory mids name puts timestamp board norm) =
        if normalize name = norm then
          (tagOf msg mid (board norm)).change directory msg mid mids puts timestamp
        else tagOf msg mid (board norm) := by
    intro mids name puts steady
    by_cases isName : normalize name = norm
    · subst isName
      rw [if_pos rfl]
      refine tagOf_set directory msg mid name mids puts timestamp board ?_
      rcases steady with ⟨column, found, _⟩ | ⟨_, named⟩
      · exact Or.inr (by rw [found]; rfl)
      · exact Or.inl (trim_of_normalize named)
    · rw [if_neg isName]
      rcases steady with has | ⟨same, _⟩
      · rw [tagOf_set_of_ne directory (Ne.symm isName) mids puts timestamp has]
      · exact absurd same isName
  unfold Steady at steady
  simp only [replayStep, tagStep]
  cases item with
  | create name color =>
    obtain ⟨column, found, _⟩ := steady.resolve_right fun change => by cases change.2
    rw [Boards.replay, Boards.create_of_some found, found]
    rfl
  | rename source target =>
    have has := steady.resolve_right fun change => by cases change.2
    rw [Boards.replay, has.rename_eq]
    rfl
  | delete name =>
    have has := steady.resolve_right fun change => by cases change.2
    rw [Boards.replay, has.delete_eq]
    rfl
  | setColor name color =>
    obtain ⟨column, found, _⟩ := steady.resolve_right fun change => by cases change.2
    rw [Boards.replay, Boards.setColor, Boards.modify_apply, Boards.create_of_some found, found]
    split <;> rfl
  | apply mids name =>
    rw [Boards.replay, changes mids name true]
    · simp only [changeOf]
      split <;> simp_all
    · refine steady.imp_right fun change => ⟨?_, change.1⟩
      by_contra differs
      simp [changeOf, differs] at change
  | unapply mids name =>
    rw [Boards.replay, changes mids name false]
    · simp only [changeOf]
      split <;> simp_all
    · refine steady.imp_right fun change => ⟨?_, change.1⟩
      by_contra differs
      simp [changeOf, differs] at change

theorem tagOf_replayAll (directory : Directory μ) (msg : μ) (mid : Text) {board : Board μ}
    (steady : HasSystem norm board ∨
      norm ≠ [] ∧ ∀ delivered ∈ stream, (changeOf norm delivered.item).isSome) :
    tagOf msg mid (runAll (replayStep directory) board stream norm) =
      runAll (tagStep directory msg mid norm) (tagOf msg mid (board norm)) stream := by
  induction stream generalizing board with
  | nil => rfl
  | cons delivered rest ih =>
    have step := tagOf_replay directory msg mid delivered
      (steady.imp_right fun change => ⟨change.1, change.2 delivered List.mem_cons_self⟩)
    rw [runAll_cons, runAll_cons, ← step]
    refine ih ?_
    rcases steady with has | ⟨named, change⟩
    · exact Or.inl (has.replay directory delivered.timestamp delivered.item)
    · exact Or.inr ⟨named, fun other member => change other (List.mem_cons_of_mem _ member)⟩

def sortsAs (norm : Text) (msgId : MsgId) (stored : Db) : Bool :=
  (norm == normalize unverifiedName && holds msgId stored) ||
    (norm == normalize trashName && isBlocklisted msgId stored)

theorem id_beq_reserved (ok : LabelsOk ids db) {label : Label} (member : label ∈ db.labels)
    (isReserved : name ∈ reservedNames) :
    (label.id == ids name) = (label.nameNorm == normalize name) := by
  obtain ⟨system, isSystem, rfl, _, ident⟩ := ok.reserved name isReserved
  rw [Bool.eq_iff_iff, beq_iff_eq, beq_iff_eq, ← ident, ← ok.norms system isSystem]
  constructor
  · intro same
    rw [List.inj_on_of_nodup_map ok.ids_nodup member isSystem same]
  · intro same
    rw [List.inj_on_of_nodup_map ok.norms_nodup member isSystem same]

theorem sorts_eq_sortsAs (ok : LabelsOk ids db) {label : Label} (member : label ∈ db.labels)
    (msgId : MsgId) (stored : Db) :
    sorts ids msgId label.id stored = sortsAs label.nameNorm msgId stored := by
  rw [sorts, sortsAs, id_beq_reserved ok member unverifiedName_reserved,
    id_beq_reserved ok member trashName_reserved]

theorem tagOf_arrived {now : Int} {db' : Db} (arrived : Arrived ids mail now msgId db db')
    (filed : Filed ids db) (norm : Text) :
    tagOf msgId mail.rfc724Mid (view id db' norm) =
      ⟨sortsAs norm msgId (storedBy mail now db) ||
        (tagOf msgId mail.rfc724Mid (view id db norm)).parked.elim false (·.1), none⟩ := by
  have filed' := arrived.filed filed
  obtain ⟨labels, _⟩ := Prod.mk.inj arrived.labels
  by_cases there : ∃ label ∈ db.labels, label.nameNorm = norm
  · obtain ⟨label, member, rfl⟩ := there
    rw [filed'.view_of_mem (labels.symm ▸ member), filed.view_of_mem member]
    have on : (columnOf id db' label).on msgId = _ := arrived.own label.id
    have parked : (columnOf id db' label).parked mail.rfc724Mid = none := by
      simp [columnOf, arrived.parked, parkedAt_drained]
    simp only [tagOf, Option.elim_some, on, parked, sorts_eq_sortsAs filed.labels member]
    rfl
  · have absent : view id db norm = none :=
      view_eq_none.mpr fun label member same => there ⟨label, member, same⟩
    have absent' : view id db' norm = none :=
      view_eq_none.mpr fun label member same => there ⟨label, labels ▸ member, same⟩
    have unsorted : sortsAs norm msgId (storedBy mail now db) = false := by
      have differs : ∀ name ∈ reservedNames, (norm == normalize name) = false := by
        intro name isReserved
        obtain ⟨system, isSystem, rfl, _, _⟩ := filed.labels.reserved name isReserved
        refine beq_eq_false_iff_ne.mpr fun same => there ⟨system, isSystem, ?_⟩
        rw [filed.labels.norms system isSystem, same]
      rw [sortsAs, differs _ unverifiedName_reserved, differs _ trashName_reserved]
      rfl
    rw [absent, absent', unsorted]
    rfl

/-! ## Before it and after it -/

def waits (mid norm : Text) (delivered : Delivered) : Option Bool :=
  (changeOf norm delivered.item).bind fun change =>
    if change.1.contains mid then some change.2 else none

def parkedBy (mid norm : Text) (stream : List Delivered) (parked : Option (Bool × Int)) :
    Option (Bool × Int) :=
  stream.foldl
    (fun parked delivered =>
      (waits mid norm delivered).elim parked (latestIntent · delivered.timestamp parked))
    parked

def reaches (mid norm : Text) (delivered : Delivered) : Option Bool :=
  (changeOf norm delivered.item).bind fun change =>
    if change.1.any (bare · == mid) then some change.2 else none

theorem tag_before {directory : Directory μ} {msg : μ}
    (absent : ∀ other, directory.names other msg = false) (unknown : directory.unknown mid = true)
    (norm : Text) (stream : List Delivered) (parked : Option (Bool × Int)) :
    runAll (tagStep directory msg mid norm) ⟨false, parked⟩ stream =
      ⟨false, parkedBy mid norm stream parked⟩ := by
  induction stream generalizing parked with
  | nil => rfl
  | cons delivered rest ih =>
    have step : tagStep directory msg mid norm ⟨false, parked⟩ delivered =
        ⟨false, (waits mid norm delivered).elim parked
          (latestIntent · delivered.timestamp parked)⟩ := by
      unfold tagStep waits
      cases changeOf norm delivered.item with
      | none => rfl
      | some change =>
        by_cases here : mid ∈ change.1 <;> simp [Tag.change, absent, unknown, here]
    rw [runAll_cons, step, ih]
    rfl

theorem tag_after {directory : Directory μ} {msg : μ}
    (names : ∀ other, directory.names other msg = (bare other == mid)) (norm : Text)
    (stream : List Delivered) (tag : Tag) :
    (runAll (tagStep directory msg mid norm) tag stream).on =
      ((stream.filterMap (reaches mid norm)).getLast?).getD tag.on := by
  induction stream generalizing tag with
  | nil => rfl
  | cons delivered rest ih =>
    have step : (tagStep directory msg mid norm tag delivered).on =
        (reaches mid norm delivered).getD tag.on := by
      unfold tagStep reaches
      cases changeOf norm delivered.item with
      | none => rfl
      | some change =>
        by_cases here : ∃ other ∈ change.1, bare other = mid <;> simp [Tag.change, names, here]
    rw [runAll_cons, ih, step, List.filterMap_cons]
    cases reaches mid norm delivered with
    | none => rfl
    | some puts =>
      rw [List.getLast?_cons]
      cases (rest.filterMap (reaches mid norm)).getLast? <;> rfl

/-! ## The whole stream -/

omit [Unicode] in
theorem bare_bare (mid : Text) : bare (bare mid) = bare mid := by
  have start : trimStartBy (· == '<') (bare mid) = bare mid := by
    refine trimStartBy_eq_self _ fun c head => ?_
    obtain ⟨rest, split⟩ := trimEndBy_prefix (· == '>') (trimStartBy (· == '<') mid)
    refine head?_trimStartBy (· == '<') (s := mid) ?_
    rw [← split, List.head?_append, show (trimEndBy (· == '>') (trimStartBy (· == '<') mid)).head? =
      some c from head]
    rfl
  have ended := trimStartBy_trimStartBy (· == '>') (trimStartBy (· == '<') mid).reverse
  simp only [trimStartBy] at ended
  rw [bare, start, bare, trimEndBy, trimEndBy, List.reverse_reverse, trimStartBy, ended]

theorem names_arrived {now : Int} {db' : Db} (arrived : Arrived ids mail now msgId db db')
    (numbered : Numbered db) (named : mail.rfc724Mid ≠ []) (other : Text) :
    (directory id db').names other msgId = (bare other == mail.rfc724Mid) := by
  simp only [directory, id, arrived.lookup named]
  by_cases same : bare other = mail.rfc724Mid
  · have unknown : rfc724MidExists other db = none := by
      rw [← arrived.unknown, rfc724MidExists_eq, rfc724MidExists_eq, ← same, bare_bare]
    simp [unknown, same]
  · have absent := arrived.absent numbered other
    simpa [same] using absent

def Tagged (msgId : MsgId) (norm : Text) (db : Db) : Prop :=
  ∃ label ∈ db.labels, label.nameNorm = norm ∧ { msgId, labelId := label.id } ∈ db.msgLabels

instance (msgId : MsgId) (norm : Text) (db : Db) : Decidable (Tagged msgId norm db) :=
  inferInstanceAs (Decidable (∃ label ∈ db.labels, _))

theorem tagged_row (row : μ → MsgId) (filed : Filed ids db) (msg : μ) (mid norm : Text) :
    Tagged (row msg) norm db ↔ (tagOf msg mid (view row db norm)).on = true := by
  constructor
  · rintro ⟨label, member, rfl, carried⟩
    rw [filed.view_of_mem member]
    exact List.contains_iff_mem.mpr carried
  · intro on
    cases found : view row db norm with
    | none =>
      rw [found] at on
      cases on
    | some column =>
      rw [found] at on
      obtain ⟨label, isLabel, rfl⟩ := Option.map_eq_some_iff.mp found
      have isNorm := List.find?_some isLabel
      exact ⟨label, List.mem_of_find?_eq_some isLabel, beq_iff_eq.mp isNorm,
        List.contains_iff_mem.mp on⟩

theorem tagged_iff (filed : Filed ids db) (msgId : MsgId) (mid norm : Text) :
    Tagged msgId norm db ↔ (tagOf msgId mid (view id db norm)).on = true :=
  tagged_row id filed msgId mid norm

theorem tagged_of_lands {final : Db} {clock : Int} {i : Nat} (ready : Ready ids db)
    (named : mail.rfc724Mid ≠ [])
    (unparked : ∀ row ∈ db.pendingMsgLabels, row.rfc724Mid ≠ mail.rfc724Mid)
    (steady : norm ∈ sortingNames ∨
      norm ≠ [] ∧ ∀ delivered ∈ stream, (changeOf norm delivered.item).isSome)
    (lands : Lands mail clock stream i db msgId final) :
    Tagged msgId norm final ↔
      (((stream.drop i).filterMap (reaches mail.rfc724Mid norm)).getLast?).getD
        (sortsAs norm msgId (storedBy mail clock (runAll deliver db (stream.take i))) ||
          (parkedBy mail.rfc724Mid norm (stream.take i) none).elim false (·.1)) = true := by
  obtain ⟨arrivedDb, success, rfl⟩ := lands
  have start := ready.deliverAll (stream.take i)
  obtain ⟨msgs, next⟩ := msgs_deliverAll db (stream.take i)
  have startView := view_deliverAll id ready.filed (stream.take i)
  generalize runAll deliver db (stream.take i) = startDb at success start msgs next startView ⊢
  have arrived := arrived_of_receive start.filed start.numbered named success
  have after : Ready ids arrivedDb :=
    ⟨arrived.filed start.filed, arrived.numbered start.numbered⟩
  have blank : tagOf msgId mail.rfc724Mid (view id db norm) = ⟨false, none⟩ := by
    cases found : view id db norm with
    | none => rfl
    | some column =>
      obtain ⟨label, _, rfl⟩ := Option.map_eq_some_iff.mp found
      have off : (columnOf id db label).on msgId = false := by
        refine Bool.eq_false_iff.mpr fun there => ?_
        have below := ready.numbered.carried _ (List.contains_iff_mem.mp there)
        rw [arrived.isNext, next] at below
        exact Nat.lt_irrefl _ below
      have nothing : (columnOf id db label).parked mail.rfc724Mid = none := by
        cases waiting : (columnOf id db label).parked mail.rfc724Mid with
        | none => rfl
        | some change =>
          obtain ⟨row, member, isMid, _⟩ := parkedAt_eq_some waiting
          exact absurd isMid (unparked row member)
      rw [tagOf, Option.elim_some, off, nothing]
  have steadyBefore : HasSystem norm (view id db) ∨
      norm ≠ [] ∧ ∀ delivered ∈ stream.take i, (changeOf norm delivered.item).isSome :=
    steady.imp (hasSystem_view ready.filed id) fun change =>
      ⟨change.1, fun delivered member => change.2 delivered (List.mem_of_mem_take member)⟩
  have steadyAfter : HasSystem norm (view id arrivedDb) ∨
      norm ≠ [] ∧ ∀ delivered ∈ stream.drop i, (changeOf norm delivered.item).isSome :=
    steady.imp (hasSystem_view after.filed id) fun change =>
      ⟨change.1, fun delivered member => change.2 delivered (List.mem_of_mem_drop member)⟩
  have absent : ∀ other, (directory id db).names other msgId = false := by
    intro other
    rw [← directory_congr msgs]
    simpa [directory] using arrived.absent start.numbered other
  have unknown : (directory id db).unknown mail.rfc724Mid = true := by
    rw [← directory_congr msgs]
    simp [directory, arrived.unknown]
  have before := tagOf_replayAll (directory id db) msgId mail.rfc724Mid steadyBefore
  rw [← startView, blank, tag_before absent unknown] at before
  have sorted := tagOf_arrived arrived start.filed norm
  rw [before] at sorted
  rw [tagged_iff (after.deliverAll _).filed msgId mail.rfc724Mid, view_deliverAll id after.filed,
    tagOf_replayAll _ _ _ steadyAfter,
    tag_after (names_arrived arrived start.numbered named), sorted]

/-! ## The newest change -/

def puts (norm : Text) (delivered : Delivered) : Bool := (changeOf norm delivered.item).any (·.2)

def newestPuts (norm : Text) (stream : List Delivered) : Bool :=
  stream.any fun delivered =>
    puts norm delivered && stream.all fun other => decide (other.timestamp ≤ delivered.timestamp)

theorem waits_eq_puts {delivered : Delivered} (concerns : (waits mid norm delivered).isSome) :
    waits mid norm delivered = some (puts norm delivered) := by
  unfold waits at concerns ⊢
  unfold puts
  cases change : changeOf norm delivered.item with
  | none =>
    rw [change] at concerns
    cases concerns
  | some change' =>
    rw [change] at concerns
    simp only [Option.bind_some] at concerns ⊢
    split at concerns
    next => simp_all
    next => cases concerns

theorem parkedBy_append (mid norm : Text) (stream : List Delivered) (last : Delivered) :
    parkedBy mid norm (stream ++ [last]) none =
      (waits mid norm last).elim (parkedBy mid norm stream none)
        (latestIntent · last.timestamp (parkedBy mid norm stream none)) := by
  simp [parkedBy]

theorem parkedBy_newest (concerns : ∀ delivered ∈ stream, (waits mid norm delivered).isSome)
    (some' : stream ≠ []) :
    ∃ newest ∈ stream, parkedBy mid norm stream none = some (puts norm newest, newest.timestamp) ∧
      ∀ other ∈ stream, other.timestamp ≤ newest.timestamp := by
  induction stream using List.reverseRecOn with
  | nil => exact absurd rfl some'
  | append_singleton early last ih =>
    have isChange := waits_eq_puts (concerns last (by simp))
    rw [parkedBy_append, isChange, Option.elim_some]
    by_cases first : early = []
    · subst first
      exact ⟨last, by simp, rfl, by simp⟩
    · obtain ⟨newest, member, waiting, greatest⟩ := ih
        (fun other isEarly => concerns other (List.mem_append_left _ isEarly)) first
      rw [waiting, latestIntent]
      by_cases later : newest.timestamp ≤ last.timestamp
      · rw [if_pos later]
        refine ⟨last, by simp, rfl, fun other isOther => ?_⟩
        rcases List.mem_append.mp isOther with isEarly | isLast
        · exact (greatest other isEarly).trans later
        · rw [List.mem_singleton.mp isLast]
      · rw [if_neg later]
        refine ⟨newest, List.mem_append_left _ member, rfl, fun other isOther => ?_⟩
        rcases List.mem_append.mp isOther with isEarly | isLast
        · exact greatest other isEarly
        · rw [List.mem_singleton.mp isLast]
          exact le_of_not_ge later

theorem newestPuts_of_newest {newest : Delivered} (distinct : (stream.map (·.timestamp)).Nodup)
    (member : newest ∈ stream) (greatest : ∀ other ∈ stream, other.timestamp ≤ newest.timestamp) :
    newestPuts norm stream = puts norm newest := by
  rw [Bool.eq_iff_iff, newestPuts, List.any_eq_true]
  constructor
  · rintro ⟨other, isOther, isNewest⟩
    rw [Bool.and_eq_true, List.all_eq_true] at isNewest
    have below := decide_eq_true_iff.mp (isNewest.2 newest member)
    rw [← List.inj_on_of_nodup_map distinct isOther member
      ((greatest other isOther).antisymm below)]
    exact isNewest.1
  · intro on
    refine ⟨newest, member, ?_⟩
    rw [Bool.and_eq_true, List.all_eq_true]
    exact ⟨on, fun other isOther => decide_eq_true (greatest other isOther)⟩

theorem parkedBy_eq_newestPuts (concerns : ∀ delivered ∈ stream, (waits mid norm delivered).isSome)
    (distinct : (stream.map (·.timestamp)).Nodup) :
    (parkedBy mid norm stream none).elim false (·.1) = newestPuts norm stream := by
  by_cases nothing : stream = []
  · subst nothing
    rfl
  · obtain ⟨newest, member, waiting, greatest⟩ := parkedBy_newest concerns nothing
    rw [waiting, newestPuts_of_newest distinct member greatest]
    rfl

theorem reaches_of_waits {delivered : Delivered} (concerns : (waits mid norm delivered).isSome) :
    reaches mid norm delivered = if bare mid = mid then some (puts norm delivered) else none := by
  unfold waits at concerns
  unfold reaches puts
  cases change : changeOf norm delivered.item with
  | none =>
    rw [change] at concerns
    cases concerns
  | some change' =>
    rw [change] at concerns
    simp only [Option.bind_some] at concerns ⊢
    have member : mid ∈ change'.1 := by
      split at concerns
      next here => exact List.contains_iff_mem.mp here
      next => cases concerns
    by_cases plain : bare mid = mid
    · have found : (change'.1.any (bare · == mid)) = true :=
        List.any_eq_true.mpr ⟨mid, member, beq_iff_eq.mpr plain⟩
      rw [found, if_pos rfl, if_pos plain, Option.any_some]
    · have lost : ¬(change'.1.any (bare · == mid)) = true := by
        rw [List.any_eq_true]
        rintro ⟨other, _, same⟩
        rw [beq_iff_eq] at same
        rw [← same, bare_bare] at plain
        exact plain rfl
      rw [if_neg lost, if_neg plain]

/-- The last change after the message came agrees with the newest one; if none came after
it, or none finds it, what was parked and reception do. -/
def Agreeing (mid norm : Text) (before after : List Delivered) (sorted : Bool)
    (newest : Delivered) : Prop :=
  match after.getLast? with
  | none => sorted = true → puts norm newest = true
  | some last =>
    if bare mid = mid then puts norm last = puts norm newest
    else (sorted || newestPuts norm before) = puts norm newest

theorem newest_wins_iff {db final : Db} {mail : Incoming} {clock : Int} {stream : List Delivered}
    {i : Nat} {msgId : MsgId} {norm : Text} {newest : Delivered} (ready : Ready ids db)
    (named : mail.rfc724Mid ≠ [])
    (unparked : ∀ row ∈ db.pendingMsgLabels, row.rfc724Mid ≠ mail.rfc724Mid) (isLabel : norm ≠ [])
    (concerns : ∀ delivered ∈ stream, (waits mail.rfc724Mid norm delivered).isSome)
    (distinct : (stream.map (·.timestamp)).Nodup) (member : newest ∈ stream)
    (greatest : ∀ delivered ∈ stream, delivered.timestamp ≤ newest.timestamp)
    (lands : Lands mail clock stream i db msgId final) :
    (Tagged msgId norm final ↔ puts norm newest = true) ↔
      Agreeing mail.rfc724Mid norm (stream.take i) (stream.drop i)
        (sortsAs norm msgId (storedBy mail clock (runAll deliver db (stream.take i)))) newest := by
  have changes : ∀ delivered ∈ stream, (changeOf norm delivered.item).isSome := by
    intro delivered isChange
    have there := concerns delivered isChange
    unfold waits at there
    cases change : changeOf norm delivered.item with
    | none =>
      rw [change] at there
      cases there
    | some _ => rfl
  rw [tagged_of_lands ready named unparked (Or.inr ⟨isLabel, changes⟩) lands,
    parkedBy_eq_newestPuts (fun delivered isEarly =>
      concerns delivered (List.mem_of_mem_take isEarly))
      (distinct.sublist ((List.take_sublist i stream).map _)), ← Bool.eq_iff_iff]
  have found : (stream.drop i).filterMap (reaches mail.rfc724Mid norm) =
      if bare mail.rfc724Mid = mail.rfc724Mid then (stream.drop i).map (puts norm) else [] := by
    have each : ∀ delivered ∈ stream.drop i, reaches mail.rfc724Mid norm delivered = _ :=
      fun delivered isLate => reaches_of_waits (concerns delivered (List.mem_of_mem_drop isLate))
    rw [List.filterMap_congr each]
    split
    · rw [List.filterMap_eq_map']
    · simp
  unfold Agreeing
  cases last : (stream.drop i).getLast? with
  | none =>
    have nothing := List.getLast?_eq_none_iff.mp last
    have all : stream.take i = stream := by
      have whole := List.take_append_drop i stream
      rwa [nothing, List.append_nil] at whole
    rw [found, nothing, all, newestPuts_of_newest distinct member greatest]
    cases sortsAs norm msgId (storedBy mail clock (runAll deliver db stream)) <;> simp
  | some final' =>
    rw [found]
    split
    · rw [List.getLast?_map, last]
      rfl
    · rfl

/-! ## A label taken off elsewhere -/

theorem parkedBy_inOrder
    (inOrder : stream.Pairwise fun first second => first.timestamp ≤ second.timestamp) :
    (parkedBy mid norm stream none).map (·.1) = (stream.filterMap (waits mid norm)).getLast? ∧
      ∀ change, parkedBy mid norm stream none = some change →
        ∃ delivered ∈ stream, delivered.timestamp = change.2 := by
  induction stream using List.reverseRecOn with
  | nil => exact ⟨rfl, fun _ none => by cases none⟩
  | append_singleton early last ih =>
    rw [List.pairwise_append] at inOrder
    obtain ⟨isLast, isOld⟩ := ih inOrder.1
    rw [parkedBy_append, List.filterMap_append, List.filterMap_cons, List.filterMap_nil]
    cases change : waits mid norm last with
    | none =>
      refine ⟨by simpa using isLast, fun change waiting => ?_⟩
      obtain ⟨delivered, member, since⟩ := isOld change waiting
      exact ⟨delivered, List.mem_append_left _ member, since⟩
    | some on =>
      have replaced : latestIntent on last.timestamp (parkedBy mid norm early none) =
          some (on, last.timestamp) := by
        cases waiting : parkedBy mid norm early none with
        | none => rfl
        | some old =>
          obtain ⟨delivered, member, since⟩ := isOld old waiting
          have older := inOrder.2.2 delivered member last (List.mem_singleton_self last)
          rw [since] at older
          exact if_pos older
      rw [Option.elim_some, replaced]
      refine ⟨by simp, fun change waiting => ⟨last, by simp, ?_⟩⟩
      rw [← Option.some.inj waiting]

/-- The last change after the message came that finds it takes the label off; or none finds
it, reception does not put the label on, and nothing that was parked does either. -/
def StaysOff (mid norm : Text) (before after : List Delivered) (sorted : Bool) : Prop :=
  match (after.filterMap (reaches mid norm)).getLast? with
  | some on => on = false
  | none =>
    sorted = false ∧
      (bare mid = mid ∨ (before.filterMap (waits mid norm)).getLast? ≠ some true)

/-- A label that another device took off last stays off here, unless reception puts it on. -/
theorem restored_iff_staysOff {db final : Db} {mail : Incoming} {clock : Int}
    {stream : List Delivered} {i : Nat} {msgId : MsgId} {norm : Text} (ready : Ready ids db)
    (named : mail.rfc724Mid ≠ [])
    (unparked : ∀ row ∈ db.pendingMsgLabels, row.rfc724Mid ≠ mail.rfc724Mid)
    (isSorting : norm ∈ sortingNames)
    (inOrder : stream.Pairwise fun first second => first.timestamp ≤ second.timestamp)
    (restored : (stream.filterMap (waits mail.rfc724Mid norm)).getLast? = some false)
    (lands : Lands mail clock stream i db msgId final) :
    ¬Tagged msgId norm final ↔
      StaysOff mail.rfc724Mid norm (stream.take i) (stream.drop i)
        (sortsAs norm msgId (storedBy mail clock (runAll deliver db (stream.take i)))) := by
  rw [tagged_of_lands ready named unparked (Or.inl isSorting) lands, StaysOff]
  cases last : ((stream.drop i).filterMap (reaches mail.rfc724Mid norm)).getLast? with
  | some on => simp
  | none =>
    have waiting : (parkedBy mail.rfc724Mid norm (stream.take i) none).map (·.1) = _ :=
      (parkedBy_inOrder (inOrder.sublist (List.take_sublist i stream))).1
    have parked : (parkedBy mail.rfc724Mid norm (stream.take i) none).elim false (·.1) =
        (((stream.take i).filterMap (waits mail.rfc724Mid norm)).getLast?).getD false := by
      rw [← waiting]
      cases parkedBy mail.rfc724Mid norm (stream.take i) none <;> rfl
    rw [parked, Option.getD_none, Bool.or_eq_true, not_or, Bool.not_eq_true, Bool.not_eq_true]
    refine and_congr_right fun _ => ?_
    by_cases plain : bare mail.rfc724Mid = mail.rfc724Mid
    · have nothingAfter : (stream.drop i).filterMap (waits mail.rfc724Mid norm) = [] := by
        rw [List.filterMap_eq_nil_iff]
        intro delivered member
        cases waits' : waits mail.rfc724Mid norm delivered with
        | none => rfl
        | some on =>
          have found := reaches_of_waits
            (waits' ▸ rfl : (waits mail.rfc724Mid norm delivered).isSome)
          have unfound := List.filterMap_eq_nil_iff.mp (List.getLast?_eq_none_iff.mp last)
            delivered member
          rw [found, if_pos plain] at unfound
          cases unfound
      have isLast : ((stream.take i).filterMap (waits mail.rfc724Mid norm)).getLast? =
          some false := by
        rw [← restored]
        conv_rhs => rw [← List.take_append_drop i stream]
        rw [List.filterMap_append, nothingAfter, List.append_nil]
      simp [isLast, plain]
    · simp only [plain, false_or]
      cases ((stream.take i).filterMap (waits mail.rfc724Mid norm)).getLast? with
      | none => simp
      | some on => simp

end

section

local instance : Unicode := asciiTables

def newerUnapply : Delivered :=
  { item := .unapply ["a@b".toList] "Work".toList, timestamp := 2000, now := 2001 }

def olderApply : Delivered :=
  { item := .apply ["a@b".toList] "Work".toList, timestamp := 1000, now := 2002 }

/-- The message is here, and the changes come the wrong way round. -/
theorem older_change_wins :
    (∀ delivered ∈ [newerUnapply, olderApply], delivered.timestamp ≤ newerUnapply.timestamp) ∧
      puts "work".toList newerUnapply = false ∧
      Lands plainMail 10 [newerUnapply, olderApply] 0 emptyAccount 10
        (landing plainMail 10 [newerUnapply, olderApply] 0 emptyAccount) ∧
      Tagged 10 "work".toList (landing plainMail 10 [newerUnapply, olderApply] 0 emptyAccount) :=
  ⟨by decide, by decide +kernel, lands_landing (by decide +kernel), by decide +kernel⟩

/-- Parked, the newer one is kept. -/
theorem newer_change_wins_when_parked :
    ¬Tagged 10 "work".toList
      (landing plainMail 2003 [newerUnapply, olderApply] 2 emptyAccount) := by
  have lands : Lands plainMail 2003 [newerUnapply, olderApply] 2 emptyAccount 10 _ :=
    lands_landing (by decide +kernel)
  have concerns : ∀ delivered ∈ [newerUnapply, olderApply],
      (waits plainMail.rfc724Mid "work".toList delivered).isSome := by decide +kernel
  have greatest : ∀ delivered ∈ [newerUnapply, olderApply],
      delivered.timestamp ≤ newerUnapply.timestamp := by decide
  have wins := newest_wins_iff ready_emptyAccount (by decide) (by decide) (by decide) concerns
    (by decide) (by decide) greatest lands
  have agreeing := wins.mpr fun sorted => absurd sorted (by decide +kernel)
  exact fun tagged => absurd (agreeing.mp tagged) (by decide +kernel)

def gatedMailbox : Db := { emptyAccount with config := { inboxGating := true } }

def blockingMailbox : Db :=
  { emptyAccount with
    blocklist := [{ id := 1, pattern := "bob@example.org".toList,
                    patternNorm := "bob@example.org".toList, added := 0 }] }

def takenOff (name : Text) : List Delivered :=
  [{ item := .apply ["a@b".toList] name, timestamp := 4, now := 6 },
   { item := .unapply ["a@b".toList] name, timestamp := 5, now := 6 }]

/-- Reception does not ask what another device decided: the message is held, or thrown
away, again. -/
theorem restored_message_sorted_again :
    Lands plainMail 10 (takenOff unverifiedName) 2 gatedMailbox 10
        (landing plainMail 10 (takenOff unverifiedName) 2 gatedMailbox) ∧
      Tagged 10 "unverified".toList
        (landing plainMail 10 (takenOff unverifiedName) 2 gatedMailbox) ∧
      ¬Tagged 10 "unverified".toList
        (landing plainMail 3 (takenOff unverifiedName) 0 gatedMailbox) ∧
      Lands plainMail 10 (takenOff trashName) 2 blockingMailbox 10
        (landing plainMail 10 (takenOff trashName) 2 blockingMailbox) ∧
      Tagged 10 "trash".toList (landing plainMail 10 (takenOff trashName) 2 blockingMailbox) :=
  ⟨lands_landing (by decide +kernel), by decide +kernel, by decide +kernel,
    lands_landing (by decide +kernel), by decide +kernel⟩

theorem restored_message_stays_off :
    ¬Tagged 10 "unverified".toList
      (landing plainMail 3 (takenOff unverifiedName) 1 gatedMailbox) := by
  have lands : Lands plainMail 3 (takenOff unverifiedName) 1 gatedMailbox 10 _ :=
    lands_landing (by decide +kernel)
  have isSorting : "unverified".toList ∈ sortingNames := by decide +kernel
  have ready : Ready migratedIds gatedMailbox := ready_migrated rfl rfl rfl rfl rfl
  exact (restored_iff_staysOff ready (by decide) (by decide) isSorting (by decide +kernel)
    (by decide +kernel) lands).mpr (by decide +kernel : _ = false)

end

end Eeemail.LatestIntent
