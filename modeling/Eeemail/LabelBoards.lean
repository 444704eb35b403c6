import Eeemail.Boards
import Eeemail.Frames

/-! # The label tables are a board

`labels`, `msg_labels` and `pending_msg_labels` are read as a board.  Replaying what
another device announced does to the tables what it does to the board. -/

set_option autoImplicit false

namespace Eeemail.LabelBoards

open Lib.Texts Lib.Actions Lib.Tables Store Labels ReservedLabels
open Frames (keeps_createExt)
open Boards (Column Board Directory latestIntent)

variable {labelId : LabelId} {rows : List PendingMsgLabel} {db db' : Db} {label : Label}
variable {name : Text} {timestamp : Int}

def parkedAt (mid : Text) (labelId : LabelId) (rows : List PendingMsgLabel) : Option (Bool × Int) :=
  (rows.find? fun parked => (parked.rfc724Mid, parked.labelId) == (mid, labelId)).map fun parked =>
    (parked.apply, parked.timestamp)

theorem parkedAt_eq_some {mid : Text} {was : Bool} {since : Int}
    (parked : parkedAt mid labelId rows = some (was, since)) :
    ∃ row ∈ rows, row.rfc724Mid = mid ∧ row.labelId = labelId ∧ row.timestamp = since := by
  obtain ⟨row, found, change⟩ := Option.map_eq_some_iff.mp parked
  have isKey := List.find?_some found
  obtain ⟨isMid, isLabel⟩ := Prod.mk.inj (beq_iff_eq.mp isKey)
  exact ⟨row, List.mem_of_find?_eq_some found, isMid, isLabel, (Prod.mk.inj change).2⟩

theorem parkedAt_deleteWhere (mid : Text) {other : LabelId} (differs : other ≠ labelId)
    (rows : List PendingMsgLabel) :
    parkedAt mid other (deleteWhere (fun row => row.labelId == labelId) rows) =
      parkedAt mid other rows := by
  rw [parkedAt, deleteWhere, List.find?_filter, parkedAt]
  congr 2
  funext parked
  cases isKey : (parked.rfc724Mid, parked.labelId) == (mid, other) with
  | false => simp
  | true =>
    have isOther := (Prod.mk.inj (beq_iff_eq.mp isKey)).2
    simp [isOther, differs]

section

variable {μ : Type} {row : μ → MsgId}

def columnOf (row : μ → MsgId) (db : Db) (label : Label) : Column μ where
  name := label.name
  color := label.color
  system := label.system
  on := fun msg => db.msgLabels.contains { msgId := row msg, labelId := label.id }
  parked := fun mid => parkedAt mid label.id db.pendingMsgLabels

/-- The tables as a board, for messages that are the given rows. -/
def view (row : μ → MsgId) (db : Db) : Board μ := fun norm =>
  (db.labels.find? fun label => label.nameNorm == norm).map (columnOf row db)

def directory (row : μ → MsgId) (db : Db) : Directory μ where
  names := fun mid msg => rfc724MidExists mid db == some (row msg)
  unknown := fun mid => (rfc724MidExists mid db).isNone

def tagTables (db : Db) : List Label × List MsgLabel × List PendingMsgLabel :=
  (db.labels, db.msgLabels, db.pendingMsgLabels)

theorem columnOf_congr (label : Label)
    (carried : ∀ msg, db'.msgLabels.contains { msgId := row msg, labelId := label.id } =
      db.msgLabels.contains { msgId := row msg, labelId := label.id })
    (parked : ∀ mid, parkedAt mid label.id db'.pendingMsgLabels =
      parkedAt mid label.id db.pendingMsgLabels) :
    columnOf row db' label = columnOf row db label := by
  simp only [columnOf, carried, parked]

theorem view_congr (same : tagTables db' = tagTables db) : view row db' = view row db := by
  simp only [tagTables, Prod.mk.injEq] at same
  obtain ⟨labels, carried, parked⟩ := same
  funext norm
  unfold view columnOf
  rw [labels, carried, parked]

theorem view_eq_none {norm : Text} :
    view row db norm = none ↔ ∀ label ∈ db.labels, label.nameNorm ≠ norm := by
  simp [view, List.find?_eq_none]

variable [Unicode] {ids : Text → LabelId}

/-- The tables are in order: rows belong to labels that were handed out, and a change
is parked once. -/
structure Filed (ids : Text → LabelId) (db : Db) : Prop where
  labels : LabelsOk ids db
  carried_lt : ∀ row ∈ db.msgLabels, row.labelId < db.nextLabelId
  parked_lt : ∀ row ∈ db.pendingMsgLabels, row.labelId < db.nextLabelId
  parked_nodup : (db.pendingMsgLabels.map fun row => (row.rfc724Mid, row.labelId)).Nodup

section

variable (filed : Filed ids db)

include filed

theorem Filed.of_tables (same : tagTables db' = tagTables db)
    (next : db'.nextLabelId = db.nextLabelId) : Filed ids db' := by
  simp only [tagTables, Prod.mk.injEq] at same
  obtain ⟨labels, carried, parked⟩ := same
  refine ⟨filed.labels.of_labelView (by rw [labelView, labels, next]; rfl), ?_, ?_, ?_⟩
  · rw [carried, next]
    exact filed.carried_lt
  · rw [parked, next]
    exact filed.parked_lt
  · rw [parked]
    exact filed.parked_nodup

theorem Filed.view_of_mem (member : label ∈ db.labels) :
    view row db label.nameNorm = some (columnOf row db label) := by
  rw [view, find?_of_nodup filed.labels.norms_nodup member]
  rfl

theorem Filed.view_named (member : label ∈ db.labels) (named : label.nameNorm = normalize name) :
    view row db (normalize name) = some (columnOf row db label) :=
  named ▸ filed.view_of_mem member

omit filed in
theorem view_byName (name : Text) :
    view row db (normalize name) = (byName name db).map (columnOf row db) := rfl

theorem Filed.view_eq (filed' : Filed ids db') {norm : Text}
    (kept : ∀ label ∈ db.labels, label.nameNorm = norm →
      label ∈ db'.labels ∧ columnOf row db' label = columnOf row db label)
    (noNew : ∀ label ∈ db'.labels, label.nameNorm = norm → ∃ old ∈ db.labels, old.nameNorm = norm) :
    view row db' norm = view row db norm := by
  by_cases there : ∃ label ∈ db.labels, label.nameNorm = norm
  · obtain ⟨label, member, rfl⟩ := there
    obtain ⟨member', same⟩ := kept label member rfl
    rw [filed.view_of_mem member, filed'.view_of_mem member', same]
  · have absent : view row db norm = none :=
      view_eq_none.mpr fun label member same => there ⟨label, member, same⟩
    rw [absent, view_eq_none]
    intro label member same
    exact there (noNew label member same)

/-! ## Creating -/

omit filed in
omit [Unicode] in
theorem tagTables_announce (mode : Sync) (item : LabelSyncItem) (db : Db) :
    tagTables (announce mode item db) = tagTables db ∧
      (announce mode item db).nextLabelId = db.nextLabelId := by
  obtain ⟨items, announced⟩ := announce_eq mode item db
  rw [announced]
  exact ⟨rfl, rfl⟩

theorem Filed.announce (mode : Sync) (item : LabelSyncItem) :
    Filed ids (announce mode item db) := by
  obtain ⟨tables, next⟩ := tagTables_announce mode item db
  exact filed.of_tables tables next

omit filed in
omit [Unicode] in
theorem view_announce (row : μ → MsgId) (mode : Sync) (item : LabelSyncItem) (db : Db) :
    view row (announce mode item db) = view row db :=
  view_congr (tagTables_announce mode item db).1

theorem Filed.insertLabel (name : Text) (color : Option Nat) (now : Int) :
    Filed ids (insertLabel (trim name) (normalize name) color now db) := by
  have labels := filed.labels.insertLabel (trim name) color now
  rw [normalize_trim] at labels
  have grown : db.nextLabelId ≤
      (Labels.insertLabel (trim name) (normalize name) color now db).nextLabelId := by
    unfold Labels.insertLabel
    split
    · exact Nat.le_refl _
    · exact Nat.le_succ _
  have same : ((Labels.insertLabel (trim name) (normalize name) color now db).msgLabels,
      (Labels.insertLabel (trim name) (normalize name) color now db).pendingMsgLabels) =
      (db.msgLabels, db.pendingMsgLabels) := by
    unfold Labels.insertLabel
    split <;> rfl
  obtain ⟨carried, parked⟩ := Prod.mk.inj same
  refine ⟨labels, ?_, ?_, ?_⟩
  · intro row member
    exact Nat.lt_of_lt_of_le (filed.carried_lt row (carried ▸ member)) grown
  · intro row member
    exact Nat.lt_of_lt_of_le (filed.parked_lt row (parked ▸ member)) grown
  · rw [parked]
    exact filed.parked_nodup

theorem view_insertLabel (color : Option Nat) (now : Int) (absent : byName name db = none) :
    view row (insertLabel (trim name) (normalize name) color now db) =
      Function.update (view row db) (normalize name)
        (some (Column.blank (trim name) color)) := by
  have filed' := filed.insertLabel name color now
  have fresh : ¬(db.labels.any fun label => label.nameNorm == normalize name) = true := by
    simpa using byName_eq_none absent
  unfold insertLabel at filed' ⊢
  rw [if_neg fresh] at filed' ⊢
  funext norm
  by_cases isName : norm = normalize name
  · subst isName
    rw [Function.update_self]
    refine (filed'.view_of_mem (List.mem_append_right _ (List.mem_singleton.mpr rfl))).trans ?_
    rw [columnOf, Column.blank]
    congr 2
    · funext msg
      rw [List.contains_eq_mem, decide_eq_false_iff_not]
      intro member
      exact Nat.lt_irrefl _ (filed.carried_lt _ member)
    · funext mid
      rw [parkedAt, Option.map_eq_none_iff, List.find?_eq_none]
      intro parked member same
      have isNext := (Prod.mk.inj (beq_iff_eq.mp same)).2
      exact Nat.lt_irrefl _ (isNext ▸ filed.parked_lt parked member)
  · rw [Function.update_of_ne isName]
    refine filed.view_eq filed' ?_ ?_
    · intro label member _
      exact ⟨List.mem_append_left _ member, rfl⟩
    · intro label member same
      rcases List.mem_append.mp member with old | new
      · exact ⟨label, old, same⟩
      · rw [List.mem_singleton.mp new] at same
        exact absurd same.symm isName

theorem Filed.createExt (name : Text) (color : Option Nat) (mode : Sync)
    (now : Int) : Filed ids (stateAfter (createExt name color mode now) db) := by
  rw [stateAfter_createExt]
  split
  · exact filed
  · exact (filed.insertLabel name color now).announce mode _

omit filed in
theorem view_createExt (row : μ → MsgId) (filed : Filed ids db) (name : Text) (color : Option Nat)
    (mode : Sync) (now : Int) :
    view row (stateAfter (createExt name color mode now) db) =
      Boards.create name color (view row db) := by
  rw [stateAfter_createExt, Boards.create, view_byName, Option.isSome_map]
  split
  next => rfl
  next fresh =>
    simp only [Bool.or_eq_true, not_or, Bool.not_eq_true, Option.isSome_eq_false_iff,
      Option.isNone_iff_eq_none] at fresh
    rw [view_announce, view_insertLabel filed color now fresh.2]

/-! ## Renaming, deleting, recolouring -/

theorem Filed.renamed {newName : Text} (member : label ∈ db.labels)
    (notSystem : label.system = false)
    (free : ∀ other ∈ db.labels, other.nameNorm = normalize newName → other.id = label.id) :
    Filed ids (renamed label newName db) :=
  ⟨filed.labels.renamed member notSystem free, filed.carried_lt,
    filed.parked_lt, filed.parked_nodup⟩

theorem Filed.id_ne (member : label ∈ db.labels) {norm : Text}
    (differs : norm ≠ label.nameNorm) {other : Label} (isOther : other ∈ db.labels)
    (named : other.nameNorm = norm) : other.id ≠ label.id := by
  intro isId
  rw [eq_of_key_eq filed.labels.ids_nodup isOther member isId] at named
  exact differs named.symm

theorem view_renamed {newName : Text}
    (member : label ∈ db.labels) (notSystem : label.system = false)
    (free : ∀ other ∈ db.labels, other.nameNorm = normalize newName → other.id = label.id) :
    view row (renamed label newName db) =
      Function.update (Function.update (view row db) label.nameNorm none) (normalize newName)
        (some { columnOf row db label with name := newName }) := by
  have filed' := filed.renamed member notSystem free
  funext norm
  by_cases isNew : norm = normalize newName
  · subst isNew
    rw [Function.update_self]
    have isRow := mem_updateWhere (p := fun row => row.id == label.id)
      (f := fun row => { row with name := newName, nameNorm := normalize newName }).mpr
      ⟨label, member, if_pos (by simp)⟩
    exact filed'.view_of_mem isRow
  rw [Function.update_of_ne isNew]
  by_cases isOld : norm = label.nameNorm
  · subst isOld
    rw [Function.update_self, view_eq_none]
    intro other isOther same
    obtain ⟨before, isBefore, rfl⟩ := mem_updateWhere.mp isOther
    split at same
    next => exact isNew same.symm
    next differs =>
      rw [eq_of_key_eq filed.labels.norms_nodup isBefore member same] at differs
      simp at differs
  · rw [Function.update_of_ne isOld]
    refine filed.view_eq filed' ?_ ?_
    · intro other isOther same
      have differs := filed.id_ne member isOld isOther same
      exact ⟨mem_updateWhere.mpr ⟨other, isOther, if_neg (by simpa using differs)⟩, rfl⟩
    · intro other isOther same
      obtain ⟨before, isBefore, rfl⟩ := mem_updateWhere.mp isOther
      split at same
      next => exact absurd same.symm isNew
      next => exact ⟨before, isBefore, same⟩

theorem Filed.renameExt (member : label ∈ db.labels) (newName : Text)
    (mode : Sync) : Filed ids (stateAfter (renameExt label newName mode) db) := by
  rw [stateAfter_renameExt]
  split
  next may =>
    simp only [Bool.and_eq_true, Bool.not_eq_true', filed.labels.free_iff,
      ← normalize_trim newName] at may
    exact (filed.renamed member may.1.1 may.2).announce mode _
  next => exact filed

omit filed in
theorem view_renameExt (row : μ → MsgId) (filed : Filed ids db) (member : label ∈ db.labels)
    {source : Text} (named : label.nameNorm = normalize source) (newName : Text) (mode : Sync) :
    view row (stateAfter (renameExt label newName mode) db) =
      Boards.rename source newName (view row db) := by
  have found : view row db (normalize source) = some (columnOf row db label) :=
    named ▸ filed.view_of_mem member
  have allowed : (byName newName db).all (fun existing => existing.id == label.id) =
      (normalize newName == normalize source || (view row db (normalize newName)).isNone) := by
    rw [Bool.eq_iff_iff, filed.labels.free_iff, Bool.or_eq_true, beq_iff_eq,
      Option.isNone_iff_eq_none, view_eq_none, ← named]
    constructor
    · intro free
      by_cases taken : ∃ other ∈ db.labels, other.nameNorm = normalize newName
      · obtain ⟨other, isOther, same⟩ := taken
        have isLabel := eq_of_key_eq filed.labels.ids_nodup isOther member (free other isOther same)
        exact Or.inl (by rw [← same, isLabel])
      · exact Or.inr fun other isOther same => taken ⟨other, isOther, same⟩
    · rintro (own | nobody) other isOther same
      · rw [eq_of_key_eq filed.labels.norms_nodup isOther member (same.trans own)]
      · exact absurd same (nobody other isOther)
  have sameFlag : (columnOf row db label).system = label.system := rfl
  rw [stateAfter_renameExt]
  simp only [Boards.rename, found, Boards.mayRename, ← allowed, sameFlag]
  split
  next may =>
    simp only [Bool.and_eq_true, Bool.not_eq_true', filed.labels.free_iff,
      ← normalize_trim newName] at may
    rw [view_announce, view_renamed filed member may.1.1 may.2, named, normalize_trim]
    rfl
  next => rfl

theorem Filed.dropped (member : label ∈ db.labels)
    (notSystem : label.system = false) : Filed ids (dropped label db) := by
  refine ⟨filed.labels.dropped member notSystem, ?_, ?_,
    nodup_map_deleteWhere filed.parked_nodup⟩
  · intro row isRow
    exact filed.carried_lt row (mem_deleteWhere.mp isRow).1
  · intro row isRow
    exact filed.parked_lt row (mem_deleteWhere.mp isRow).1

theorem view_dropped (member : label ∈ db.labels) (notSystem : label.system = false) :
    view row (dropped label db) = Function.update (view row db) label.nameNorm none := by
  have filed' := filed.dropped member notSystem
  funext norm
  by_cases isName : norm = label.nameNorm
  · subst isName
    rw [Function.update_self, view_eq_none]
    intro other isOther same
    obtain ⟨isBefore, differs⟩ := mem_deleteWhere.mp isOther
    rw [eq_of_key_eq filed.labels.norms_nodup isBefore member same] at differs
    simp at differs
  · rw [Function.update_of_ne isName]
    refine filed.view_eq filed' ?_ ?_
    · intro other isOther same
      have differs := filed.id_ne member isName isOther same
      refine ⟨mem_deleteWhere.mpr ⟨isOther, by simpa using differs⟩, ?_⟩
      refine columnOf_congr other (fun msg => ?_) fun mid => ?_
      · simp only [dropped, List.contains_eq_mem, mem_deleteWhere]
        simp [differs]
      · exact parkedAt_deleteWhere mid differs _
    · intro other isOther same
      exact ⟨other, (mem_deleteWhere.mp isOther).1, same⟩

theorem Filed.deleteExt (member : label ∈ db.labels) (mode : Sync) :
    Filed ids (stateAfter (deleteExt label mode) db) := by
  rw [stateAfter_deleteExt]
  split
  next allowed => exact (filed.dropped member (by simpa using allowed)).announce mode _
  next => exact filed

omit filed in
theorem view_deleteExt (row : μ → MsgId) (filed : Filed ids db) (member : label ∈ db.labels)
    (named : label.nameNorm = normalize name) (mode : Sync) :
    view row (stateAfter (deleteExt label mode) db) = Boards.delete name (view row db) := by
  have found : view row db (normalize name) = some (columnOf row db label) :=
    named ▸ filed.view_of_mem member
  rw [stateAfter_deleteExt]
  simp only [Boards.delete, found, Option.any_some]
  have sameFlag : (columnOf row db label).system = label.system := rfl
  rw [sameFlag]
  split
  next allowed => rw [view_announce, view_dropped filed member (by simpa using allowed), named]
  next => rfl

theorem Filed.recoloured (label : Label) (color : Option Nat) :
    Filed ids (recoloured label color db) :=
  ⟨filed.labels.recoloured label color, filed.carried_lt, filed.parked_lt,
    filed.parked_nodup⟩

theorem Filed.setColorExt (label : Label) (color : Option Nat)
    (mode : Sync) : Filed ids (setColorExt label color mode db) :=
  (filed.recoloured label color).announce mode _

end

theorem view_setColorExt (row : μ → MsgId) (filed : Filed ids db) (member : label ∈ db.labels)
    (named : label.nameNorm = normalize name) (color : Option Nat) (mode : Sync) :
    view row (setColorExt label color mode db) =
      Boards.modify name (fun column => { column with color }) (view row db) := by
  have filed' := filed.recoloured label color
  unfold setColorExt
  rw [view_announce, Boards.modify, ← named, filed.view_of_mem member]
  funext norm
  by_cases isName : norm = label.nameNorm
  · subst isName
    rw [Function.update_self]
    have isRow := mem_updateWhere (p := fun row => row.id == label.id)
      (f := fun row => { row with color }).mpr ⟨label, member, if_pos (by simp)⟩
    exact filed'.view_of_mem isRow
  · rw [Function.update_of_ne isName]
    refine filed.view_eq filed' ?_ ?_
    · intro other isOther same
      have differs := filed.id_ne member isName isOther same
      exact ⟨mem_updateWhere.mpr ⟨other, isOther, if_neg (by simpa using differs)⟩, rfl⟩
    · intro other isOther same
      obtain ⟨before, isBefore, rfl⟩ := mem_updateWhere.mp isOther
      refine ⟨before, isBefore, ?_⟩
      split at same <;> exact same

/-! ## Putting a label on messages -/

omit [Unicode] in
theorem contains_setRows (msgs : List MsgId) (labelId : LabelId) (apply : Bool)
    (rows : List MsgLabel) (msgId : MsgId) (other : LabelId) :
    (setRows msgs labelId apply rows).contains { msgId, labelId := other } =
      if other = labelId ∧ msgId ∈ msgs then apply
      else rows.contains { msgId, labelId := other } := by
  rw [Bool.eq_iff_iff, List.contains_eq_mem, decide_eq_true_iff]
  cases apply with
  | true =>
    rw [mem_setRows_true]
    split
    next hit => simp [hit]
    next miss => simp [miss]
  | false =>
    rw [mem_setRows_false]
    split
    next hit => simp [hit]
    next miss => simp [miss]

omit [Unicode] in
theorem parkedAt_parkRow (mid : Text) (labelId : LabelId) (apply : Bool) (timestamp : Int)
    (rows : List PendingMsgLabel) (other : Text) (otherId : LabelId) :
    parkedAt other otherId (parkRow mid labelId apply timestamp rows) =
      if other = mid ∧ otherId = labelId then
        latestIntent apply timestamp (parkedAt other otherId rows)
      else parkedAt other otherId rows := by
  unfold parkRow
  split
  next there =>
    rw [parkedAt, find?_updateWhere (f := fun row => { row with apply, timestamp })
      (fun row : PendingMsgLabel => (row.rfc724Mid, row.labelId)) (fun _ => rfl), parkedAt]
    cases found : rows.find? fun row => (row.rfc724Mid, row.labelId) == (other, otherId) with
    | none =>
      have isOther : ¬(other = mid ∧ otherId = labelId) := by
        rintro ⟨rfl, rfl⟩
        obtain ⟨row, member, isKey⟩ := List.any_eq_true.mp there
        refine List.find?_eq_none.mp found row member ?_
        simpa using isKey
      rw [if_neg isOther]
      rfl
    | some row =>
      have isKey : row.rfc724Mid = other ∧ row.labelId = otherId := by
        simpa using List.find?_some found
      simp only [Option.map_some, isKey.1, isKey.2]
      by_cases here : other = mid ∧ otherId = labelId
      · simp only [here.1, here.2, beq_self_eq_true, Bool.true_and, and_self, if_true, latestIntent,
          decide_eq_true_eq]
        split <;> rfl
      · rw [if_neg here, if_neg]
        simp only [Bool.and_eq_true, beq_iff_eq]
        exact fun hit => here hit.1
  next absent =>
    rw [parkedAt, List.find?_append, parkedAt]
    cases found : rows.find? fun row => (row.rfc724Mid, row.labelId) == (other, otherId) with
    | some row =>
      have isKey : row.rfc724Mid = other ∧ row.labelId = otherId := by
        simpa using List.find?_some found
      have isOther : ¬(other = mid ∧ otherId = labelId) := by
        rintro ⟨rfl, rfl⟩
        refine absent (List.any_eq_true.mpr ⟨row, List.mem_of_find?_eq_some found, ?_⟩)
        simpa using isKey
      rw [if_neg isOther]
      rfl
    | none =>
      by_cases here : other = mid ∧ otherId = labelId
      · simp [here.1, here.2, latestIntent]
      · have isOther : ¬((mid, labelId) == (other, otherId)) = true := by
          rw [beq_iff_eq, Prod.mk.injEq]
          rintro ⟨rfl, rfl⟩
          exact here ⟨rfl, rfl⟩
        simp [here, isOther]

def parkRows (mids : List Text) (labelId : LabelId) (apply : Bool) (timestamp : Int)
    (rows : List PendingMsgLabel) : List PendingMsgLabel :=
  mids.foldl (fun rows mid => parkRow mid labelId apply timestamp rows) rows

section

omit [Unicode]

theorem latestIntent_idem (apply : Bool) (timestamp : Int) (old : Option (Bool × Int)) :
    latestIntent apply timestamp (latestIntent apply timestamp old) =
      latestIntent apply timestamp old := by
  cases old with
  | none => simp [latestIntent]
  | some change =>
    obtain ⟨was, since⟩ := change
    by_cases later : since ≤ timestamp
    · simp [latestIntent, later]
    · simp [latestIntent, later]

theorem parkedAt_parkRows (mids : List Text) (labelId : LabelId) (apply : Bool) (timestamp : Int)
    (rows : List PendingMsgLabel) (mid : Text) (other : LabelId) :
    parkedAt mid other (parkRows mids labelId apply timestamp rows) =
      if mid ∈ mids ∧ other = labelId then latestIntent apply timestamp (parkedAt mid other rows)
      else parkedAt mid other rows := by
  induction mids generalizing rows with
  | nil => simp [parkRows]
  | cons first rest ih =>
    have step : parkRows (first :: rest) labelId apply timestamp rows =
        parkRows rest labelId apply timestamp (parkRow first labelId apply timestamp rows) := rfl
    rw [step, ih, parkedAt_parkRow]
    by_cases isLabel : other = labelId
    · by_cases isFirst : mid = first
      · by_cases again : mid ∈ rest
        · simp [isLabel, isFirst, isFirst ▸ again, latestIntent_idem]
        · simp [isLabel, isFirst, isFirst ▸ again]
      · simp [isLabel, isFirst]
    · simp [isLabel]

theorem nodup_parkRow {mid : Text} {apply : Bool}
    (nodup : (rows.map fun row => (row.rfc724Mid, row.labelId)).Nodup) :
    ((parkRow mid labelId apply timestamp rows).map fun row =>
      (row.rfc724Mid, row.labelId)).Nodup := by
  unfold parkRow
  split
  next =>
    rw [map_updateWhere (f := fun row : PendingMsgLabel => { row with apply, timestamp })
      fun _ => rfl]
    exact nodup
  next absent =>
    refine nodup_map_append nodup ?_
    intro row member same
    rw [Prod.mk.injEq] at same
    exact absent (List.any_eq_true.mpr ⟨row, member, by simp [same.1, same.2]⟩)

theorem nodup_parkRows (mids : List Text) {apply : Bool}
    (nodup : (rows.map fun row => (row.rfc724Mid, row.labelId)).Nodup) :
    ((parkRows mids labelId apply timestamp rows).map fun row =>
      (row.rfc724Mid, row.labelId)).Nodup := by
  induction mids generalizing rows with
  | nil => exact nodup
  | cons mid rest ih => exact ih (nodup_parkRow nodup)

theorem mem_parkRows {mids : List Text} {apply : Bool} {row : PendingMsgLabel}
    (member : row ∈ parkRows mids labelId apply timestamp rows) :
    row ∈ rows ∨ row.labelId = labelId := by
  induction mids generalizing rows with
  | nil => exact Or.inl member
  | cons mid rest ih =>
    rcases ih member with before | isLabel
    · rcases mem_parkRow before with old | ⟨isLabel, _⟩
      · exact Or.inl old
      · exact Or.inr isLabel
    · exact Or.inr isLabel

end

def written (resolved : List MsgId) (pending : List Text) (labelId : LabelId) (apply : Bool)
    (timestamp : Int) (db : Db) : Db :=
  { db with
    msgLabels := setRows resolved labelId apply db.msgLabels
    pendingMsgLabels := parkRows pending labelId apply timestamp db.pendingMsgLabels }

theorem Filed.written (filed : Filed ids db) (member : label ∈ db.labels) (resolved : List MsgId)
    (pending : List Text) (apply : Bool) (timestamp : Int) :
    Filed ids (written resolved pending label.id apply timestamp db) := by
  have below := filed.labels.ids_lt label member
  have labels : labelView (LabelBoards.written resolved pending label.id apply timestamp db) =
      labelView db := rfl
  refine ⟨filed.labels.of_labelView labels, ?_, ?_, ?_⟩
  · intro row isRow
    cases apply with
    | true =>
      rcases mem_setRows_true.mp isRow with old | ⟨isLabel, _⟩
      · exact filed.carried_lt row old
      · exact isLabel ▸ below
    | false => exact filed.carried_lt row (mem_setRows_false.mp isRow).1
  · intro row isRow
    rcases mem_parkRows isRow with old | isLabel
    · exact filed.parked_lt row old
    · exact isLabel ▸ below
  · exact nodup_parkRows pending filed.parked_nodup

theorem view_written (row : μ → MsgId) (filed : Filed ids db) (member : label ∈ db.labels)
    (named : label.nameNorm = normalize name) (resolved : List MsgId) (pending : List Text)
    (apply : Bool) (timestamp : Int) :
    view row (written resolved pending label.id apply timestamp db) =
      Boards.modify name
        (fun column =>
          { column with
            on := fun msg => if row msg ∈ resolved then apply else column.on msg
            parked := fun mid =>
              if mid ∈ pending then latestIntent apply timestamp (column.parked mid)
              else column.parked mid })
        (view row db) := by
  have filed' := filed.written member resolved pending apply timestamp
  rw [Boards.modify, ← named, filed.view_of_mem member]
  funext norm
  by_cases isName : norm = label.nameNorm
  · subst isName
    rw [Function.update_self, filed'.view_of_mem member, Option.map_some]
    congr 1
    unfold columnOf written
    congr 1
    · funext msg
      rw [contains_setRows]
      simp only [true_and]
    · funext mid
      rw [parkedAt_parkRows]
      simp only [and_true]
  · rw [Function.update_of_ne isName]
    refine filed.view_eq filed' ?_ ?_
    · intro other isOther same
      have differs := filed.id_ne member isName isOther same
      refine ⟨isOther, columnOf_congr other (fun msg => ?_) fun mid => ?_⟩
      · rw [written, contains_setRows, if_neg fun hit => differs hit.1]
      · rw [written, parkedAt_parkRows, if_neg fun hit => differs hit.2]
    · intro other isOther same
      exact ⟨other, isOther, same⟩

theorem view_resolved (row : μ → MsgId) (filed : Filed ids db) (member : label ∈ db.labels)
    (named : label.nameNorm = normalize name) (mids : List Text) (apply : Bool) (timestamp : Int) :
    view row (written (mids.filterMap fun mid => rfc724MidExists mid db)
        (mids.filter fun mid => (rfc724MidExists mid db).isNone) label.id apply timestamp db) =
      Boards.modify name (Column.set (directory row db) mids apply timestamp) (view row db) := by
  rw [view_written row filed member named]
  congr 1
  funext column
  unfold Column.set
  congr 1
  · funext msg
    simp [directory]
  · funext mid
    simp [directory, List.mem_filter]

/-! ## Replaying -/

theorem createExt_run (color : Option Nat) (mode : Sync) (now : Int)
    (filled : (trim name).isEmpty = false) (absent : byName name db = none) :
    ∃ label, (createExt name color mode now).run db =
      .ok label (stateAfter (createExt name color mode now) db) := by
  have found : ∃ label, byName name (announce mode (.create (trim name) color)
      (insertLabel (trim name) (normalize name) color now db)) = some label := by
    obtain ⟨items, announced⟩ := announce_eq mode (.create (trim name) color)
      (insertLabel (trim name) (normalize name) color now db)
    have fresh : ¬(db.labels.any fun label => label.nameNorm == normalize name) = true := by
      simpa using byName_eq_none absent
    unfold byName at absent
    rw [announced, byName, insertLabel, if_neg fresh, List.find?_append, absent]
    simp
  obtain ⟨label, found⟩ := found
  refine ⟨label, ?_⟩
  rw [stateAfter_createExt, filled, absent]
  unfold createExt
  simp only [EStateM.run_bind, filled, Bool.not_false, ensure, if_true, EStateM.run_pure, query_run,
    normalize_trim, byName_normalize, absent, exec_run, Option.isSome_none, Bool.or_false,
    Bool.false_eq_true, if_false]
  refine (queryExcept_eq_ok _).mpr ⟨?_, rfl⟩
  rw [found]

theorem labelForSync_cases (name : Text) (color : Option Nat) (now : Int) (db : Db) :
    (∃ e, (labelForSync name color now).run db = .error e db ∧ (trim name).isEmpty = true ∧
        byName name db = none) ∨
      ∃ label, (labelForSync name color now).run db =
          .ok label (stateAfter (createExt name color .nosync now) db) := by
  unfold labelForSync
  rw [EStateM.run_bind, query_run]
  cases found : byName name db with
  | some label =>
    refine Or.inr ⟨label, ?_⟩
    rw [stateAfter_createExt, found]
    simp
  | none =>
    cases blank : (trim name).isEmpty with
    | true =>
      refine Or.inl ⟨"label name cannot be empty".toList, ?_, rfl, rfl⟩
      simp only [createExt, blank, EStateM.run_bind]
      rfl
    | false =>
      obtain ⟨label, created⟩ := createExt_run color .nosync now blank found
      exact Or.inr ⟨label, created⟩

theorem Filed.labelForSync_bind {α : Type} {P : Db → Prop} (color : Option Nat) (now : Int)
    {f : Label → DbAction α} (filed : Filed ids db)
    (missing : (trim name).isEmpty = true → byName name db = none → P db)
    (found : ∀ db' label, db' = stateAfter (Labels.createExt name color .nosync now) db →
      Filed ids db' →
      label ∈ db'.labels → label.nameNorm = normalize name → P (stateAfter (f label) db')) :
    P (stateAfter (labelForSync name color now >>= f) db) := by
  rcases labelForSync_cases name color now db with ⟨e, failed, blank, absent⟩ | ⟨label, run⟩
  · rw [stateAfter_bind, failed]
    exact missing blank absent
  · rw [stateAfter_bind_of_ok run]
    obtain ⟨member, named⟩ := labelForSync_eq_ok run
    exact found _ label rfl (filed.createExt name color .nosync now) member named

omit [Unicode] in
theorem modify_none {board : Board μ} (f : Column μ → Column μ) [Unicode]
    (absent : board (normalize name) = none) : Boards.modify name f board = board := by
  rw [Boards.modify, absent, Option.map_none, ← absent, Function.update_eq_self]

omit [Unicode] in
theorem directory_congr (same : db'.msgs = db.msgs) : directory row db' = directory row db := by
  unfold directory rfc724MidExists
  rw [same]

theorem syncSet_refines (row : μ → MsgId) (filed : Filed ids db) (mids : List Text) (name : Text)
    (apply : Bool) (timestamp now : Int) :
    Filed ids (stateAfter (syncSet mids name apply timestamp now) db) ∧
      view row (stateAfter (syncSet mids name apply timestamp now) db) =
        Boards.set (directory row db) mids name apply timestamp (view row db) := by
  unfold syncSet
  refine filed.labelForSync_bind (P := fun after => Filed ids after ∧ view row after = _) none now
    ?_ ?_
  · intro blank absent
    have noColumn : view row db (normalize name) = none := by rw [view_byName, absent]; rfl
    refine ⟨filed, ?_⟩
    rw [Boards.set, Boards.create, blank, Bool.true_or, if_pos rfl, modify_none _ noColumn]
  · rintro db' label isDb' filed' member named
    have sameMsgs : db'.msgs = db.msgs :=
      isDb' ▸ congrArg (·.msgs) (keeps_createExt name none .nosync now db)
    simp only [stateAfter_query_bind, stateAfter_exec_bind, stateAfter_exec, setExt_nosync]
    refine ⟨filed'.written member (mids.filterMap fun mid => rfc724MidExists mid db')
      (mids.filter fun mid => (rfc724MidExists mid db').isNone) apply timestamp, ?_⟩
    refine (view_resolved row filed' member named mids apply timestamp).trans ?_
    rw [directory_congr sameMsgs, isDb', view_createExt row filed, Boards.set]

/-- Replaying an item does to the tables what it does to the board. -/
theorem executeSyncItem_refines (row : μ → MsgId) (filed : Filed ids db) (item : LabelSyncItem)
    (timestamp now : Int) :
    Filed ids (stateAfter (executeSyncItem item timestamp now) db) ∧
      view row (stateAfter (executeSyncItem item timestamp now) db) =
        Boards.replay (directory row db) timestamp item (view row db) := by
  cases item with
  | create name color =>
    simp only [executeSyncItem, stateAfter_bind_pure, Boards.replay]
    exact ⟨filed.createExt name color .nosync now, view_createExt row filed name color .nosync now⟩
  | rename source target =>
    simp only [executeSyncItem, stateAfter_query_bind, Boards.replay]
    cases found : byName source db with
    | none =>
      have absent : view row db (normalize source) = none := by rw [view_byName, found]; rfl
      simp only [stateAfter_bind_pure, Boards.rename, absent]
      exact ⟨filed.createExt target none .nosync now,
        view_createExt row filed target none .nosync now⟩
    | some label =>
      obtain ⟨member, named⟩ := byName_eq_some found
      exact ⟨filed.renameExt member target .nosync,
        view_renameExt row filed member named target .nosync⟩
  | delete name =>
    simp only [executeSyncItem, stateAfter_query_bind, Boards.replay]
    cases found : byName name db with
    | none =>
      have absent : view row db (normalize name) = none := by rw [view_byName, found]; rfl
      simp only [stateAfter_pure, Boards.delete, absent]
      exact ⟨filed, rfl⟩
    | some label =>
      obtain ⟨member, named⟩ := byName_eq_some found
      exact ⟨filed.deleteExt member .nosync, view_deleteExt row filed member named .nosync⟩
  | setColor name color =>
    simp only [executeSyncItem, Boards.replay]
    refine filed.labelForSync_bind
      (P := fun after => Filed ids after ∧ view row after = _) color now
      ?_ ?_
    · intro blank absent
      have noColumn : view row db (normalize name) = none := by rw [view_byName, absent]; rfl
      refine ⟨filed, ?_⟩
      rw [Boards.setColor, Boards.create, blank, Bool.true_or, if_pos rfl, modify_none _ noColumn]
    · rintro db' label isDb' filed' member named
      rw [stateAfter_exec]
      refine ⟨filed'.setColorExt label color .nosync, ?_⟩
      rw [view_setColorExt row filed' member named, isDb', view_createExt row filed,
        Boards.setColor]
  | apply mids name => exact syncSet_refines row filed mids name true timestamp now
  | unapply mids name => exact syncSet_refines row filed mids name false timestamp now

end

end Eeemail.LabelBoards
