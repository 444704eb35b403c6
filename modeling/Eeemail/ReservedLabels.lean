import Eeemail.Labels

/-! # The reserved labels

Three labels exist in every migrated database and cannot be renamed, deleted or
shadowed.  `TableOk` is the shape of the label table; whatever a user does, and
whatever another device announces, keeps it, so a name of a reserved label
always finds the system label of that name. -/

set_option autoImplicit false

namespace Eeemail.ReservedLabels

open Lib.Texts Lib.Actions Lib.Tables Store Labels

variable {db db' : Db} {name : Text} {label : Label}

theorem trashName_reserved : trashName ∈ reservedNames := by simp [reservedNames]

theorem unverifiedName_reserved : unverifiedName ∈ reservedNames := by simp [reservedNames]

def labelView (db : Db) : List Label × LabelId := (db.labels, db.nextLabelId)

section

variable [Unicode] {names : List Text} {ids : Text → LabelId}

theorem normalize_normalize (name : Text) : normalize (normalize name) = normalize name := by
  simp only [Labels.normalize]
  rw [← lowercase_trim (trim name), lowercase_lowercase, trim_trim]

theorem normalize_trim (name : Text) : normalize (trim name) = normalize name := by
  simp only [Labels.normalize, trim_trim]

/-- A label table whose system labels have the given names and ids. -/
structure TableOk (names : List Text) (ids : Text → LabelId) (db : Db) : Prop where
  ids_nodup : (db.labels.map (·.id)).Nodup
  ids_lt : ∀ label ∈ db.labels, label.id < db.nextLabelId
  norms : ∀ label ∈ db.labels, label.nameNorm = normalize label.name
  norms_nodup : (db.labels.map (·.nameNorm)).Nodup
  reserved : ∀ name ∈ names, ∃ label ∈ db.labels,
    label.name = name ∧ label.system = true ∧ label.id = ids name
  system : ∀ label ∈ db.labels, label.system = true → label.name ∈ names

theorem TableOk.of_labelView (same : labelView db' = labelView db) (ok : TableOk names ids db) :
    TableOk names ids db' := by
  obtain ⟨labels, next⟩ := Prod.mk.inj same
  constructor
  · rw [labels]
    exact ok.ids_nodup
  · rw [labels, next]
    exact ok.ids_lt
  · rw [labels]
    exact ok.norms
  · rw [labels]
    exact ok.norms_nodup
  · rw [labels]
    exact ok.reserved
  · rw [labels]
    exact ok.system

theorem TableOk.preserves_of_keeps {α : Type} {x : DbAction α} (keeps : Keeps labelView x) :
    Preserves (TableOk names ids) x :=
  Preserves.of_keeps (fun _ _ same ok => ok.of_labelView same) keeps

/-! ## Looking a label up -/

theorem byName_eq_some (found : byName name db = some label) :
    label ∈ db.labels ∧ label.nameNorm = normalize name :=
  ⟨List.mem_of_find?_eq_some found, by simpa using List.find?_some found⟩

theorem byName_eq_none (absent : byName name db = none) :
    ∀ label ∈ db.labels, label.nameNorm ≠ normalize name := by
  intro label member same
  have differs := List.find?_eq_none.mp absent label member
  simp [same] at differs

omit [Unicode] in
theorem stateAfter_load_bind {P : Db → Prop} {α : Type} {id : LabelId} {f : Label → DbAction α}
    (unchanged : P db) (found : ∀ label ∈ db.labels, label.id = id → P (stateAfter (f label) db)) :
    P (stateAfter (load id >>= f) db) := by
  unfold load
  rw [stateAfter_queryExcept_bind]
  cases lookup : db.labels.find? (fun row => row.id == id) with
  | none => exact unchanged
  | some label =>
    exact found label (List.mem_of_find?_eq_some lookup) (by simpa using List.find?_some lookup)

theorem createExt_eq_ok {color : Option Nat} {mode : Sync} {now : Int}
    (created : (createExt name color mode now).run db = .ok label db') :
    label ∈ db'.labels ∧ label.nameNorm = normalize name := by
  have normal : normalize (normalize (trim name)) = normalize name := by
    rw [normalize_normalize, normalize_trim]
  unfold createExt at created
  obtain ⟨_, ensured, checked, created⟩ := bind_eq_ok.mp created
  obtain ⟨found, _, looked, created⟩ := bind_eq_ok.mp created
  cases looked
  cases lookup : byName (normalize (trim name)) ensured with
  | some existing =>
    simp only [lookup] at created
    obtain ⟨rfl, rfl⟩ := pure_eq_ok.mp created
    obtain ⟨member, named⟩ := byName_eq_some lookup
    exact ⟨member, named.trans normal⟩
  | none =>
    simp only [lookup] at created
    obtain ⟨_, inserted, _, created⟩ := bind_eq_ok.mp created
    obtain ⟨_, announced, _, created⟩ := bind_eq_ok.mp created
    obtain ⟨result, rfl⟩ := (queryExcept_eq_ok _).mp created
    cases again : byName (normalize (trim name)) announced with
    | none => simp [again] at result
    | some row =>
      simp only [again, Except.ok.injEq] at result
      obtain ⟨member, named⟩ := byName_eq_some again
      exact ⟨result ▸ member, result ▸ named.trans normal⟩

theorem labelForSync_eq_ok {color : Option Nat} {now : Int}
    (found : (labelForSync name color now).run db = .ok label db') :
    label ∈ db'.labels ∧ label.nameNorm = normalize name := by
  unfold labelForSync at found
  obtain ⟨_, _, looked, found⟩ := bind_eq_ok.mp found
  cases looked
  cases lookup : byName name db with
  | some existing =>
    simp only [lookup] at found
    obtain ⟨rfl, rfl⟩ := pure_eq_ok.mp found
    exact byName_eq_some lookup
  | none =>
    simp only [lookup] at found
    exact createExt_eq_ok found

/-! ## The statements that write labels -/

def renamed (label : Label) (newName : Text) (db : Db) : Db :=
  { db with
    labels := updateWhere (fun row => row.id == label.id)
      (fun row => { row with name := newName, nameNorm := normalize newName }) db.labels }

def recoloured (label : Label) (color : Option Nat) (db : Db) : Db :=
  { db with
    labels := updateWhere (fun row => row.id == label.id)
      (fun row => { row with color }) db.labels }

def dropped (label : Label) (db : Db) : Db :=
  { db with
    msgLabels := deleteWhere (fun row => row.labelId == label.id) db.msgLabels
    pendingMsgLabels := deleteWhere (fun row => row.labelId == label.id) db.pendingMsgLabels
    labels := deleteWhere (fun row => row.id == label.id) db.labels }

theorem TableOk.keys_append (ok : TableOk names ids db) (label : Label)
    (isNext : label.id = db.nextLabelId) (norm : label.nameNorm = normalize label.name)
    (free : ∀ other ∈ db.labels, other.nameNorm ≠ label.nameNorm) :
    ((db.labels ++ [label]).map (·.id)).Nodup ∧
      (∀ row ∈ db.labels ++ [label], row.id < db.nextLabelId + 1) ∧
      (∀ row ∈ db.labels ++ [label], row.nameNorm = normalize row.name) ∧
      ((db.labels ++ [label]).map (·.nameNorm)).Nodup := by
  refine ⟨nodup_map_append ok.ids_nodup fun row member => ?_, ?_, ?_,
    nodup_map_append ok.norms_nodup free⟩
  · exact isNext ▸ Nat.ne_of_lt (ok.ids_lt row member)
  · intro row member
    rcases List.mem_append.mp member with old | new
    · exact Nat.lt_succ_of_lt (ok.ids_lt row old)
    · rw [List.mem_singleton.mp new, isNext]
      exact Nat.lt_succ_self _
  · intro row member
    rcases List.mem_append.mp member with old | new
    · exact ok.norms row old
    · rw [List.mem_singleton.mp new]
      exact norm

theorem TableOk.keys_update (ok : TableOk names ids db) {p : Label → Bool} {newName nameNorm : Text}
    (norm : normalize newName = nameNorm)
    (one : ∀ a ∈ db.labels, ∀ b ∈ db.labels, p a = true → p b = true → a = b)
    (free : ∀ other ∈ db.labels, other.nameNorm = nameNorm → p other = true) :
    let labels := updateWhere p (fun row => { row with name := newName, nameNorm }) db.labels
    (labels.map (·.id)).Nodup ∧ (∀ row ∈ labels, row.id < db.nextLabelId) ∧
      (∀ row ∈ labels, row.nameNorm = normalize row.name) ∧ (labels.map (·.nameNorm)).Nodup := by
  refine ⟨?_, ?_, ?_, ?_⟩
  · rw [map_updateWhere]
    · exact ok.ids_nodup
    · exact fun _ => rfl
  · intro row member
    obtain ⟨old, oldMember, rfl⟩ := mem_updateWhere.mp member
    have below := ok.ids_lt old oldMember
    split <;> exact below
  · intro row member
    obtain ⟨old, oldMember, rfl⟩ := mem_updateWhere.mp member
    split
    · exact norm.symm
    · exact ok.norms old oldMember
  · simp only [updateWhere, List.map_map]
    refine List.Nodup.map_on ?_ (List.Nodup.of_map _ ok.ids_nodup)
    intro a aMember b bMember same
    simp only [Function.comp_apply] at same
    by_cases isA : p a = true <;> by_cases isB : p b = true
    · exact one a aMember b bMember isA isB
    · rw [if_pos isA, if_neg isB] at same
      exact absurd (free b bMember same.symm) isB
    · rw [if_neg isA, if_pos isB] at same
      exact absurd (free a aMember same) isA
    · rw [if_neg isA, if_neg isB] at same
      exact eq_of_key_eq ok.norms_nodup aMember bMember same

theorem TableOk.insertLabel (ok : TableOk names ids db) (name : Text) (color : Option Nat)
    (now : Int) : TableOk names ids (insertLabel name (normalize name) color now db) := by
  unfold Labels.insertLabel
  split
  next => exact ok
  next fresh =>
    simp only [List.any_eq_true, beq_iff_eq, not_exists, not_and] at fresh
    obtain ⟨idsNodup, idsLt, norms, normsNodup⟩ := ok.keys_append
      ⟨db.nextLabelId, name, normalize name, color, false, now⟩ rfl rfl fresh
    refine ⟨idsNodup, idsLt, norms, normsNodup, ?_, ?_⟩
    · intro reservedName isReserved
      obtain ⟨label, member, found⟩ := ok.reserved reservedName isReserved
      exact ⟨label, List.mem_append_left _ member, found⟩
    · intro label member system
      rcases List.mem_append.mp member with old | new
      · exact ok.system label old system
      · rw [List.mem_singleton.mp new] at system
        exact absurd system Bool.false_ne_true

theorem TableOk.renamed (ok : TableOk names ids db) {newName : Text} (member : label ∈ db.labels)
    (notSystem : label.system = false)
    (free : ∀ other ∈ db.labels, other.nameNorm = normalize newName → other.id = label.id) :
    TableOk names ids (renamed label newName db) := by
  have only : ∀ row ∈ db.labels, (row.id == label.id) = true → row = label := by
    intro row rowMember same
    exact eq_of_key_eq ok.ids_nodup rowMember member (beq_iff_eq.mp same)
  obtain ⟨idsNodup, idsLt, norms, normsNodup⟩ := ok.keys_update (p := fun row => row.id == label.id)
    rfl (fun a aMember b bMember isA isB => (only a aMember isA).trans (only b bMember isB).symm)
    fun other isOther same => beq_iff_eq.mpr (free other isOther same)
  refine ⟨idsNodup, idsLt, norms, normsNodup, ?_, ?_⟩
  · intro reservedName isReserved
    obtain ⟨kept, keptMember, named, system, ident⟩ := ok.reserved reservedName isReserved
    refine ⟨kept, mem_updateWhere.mpr ⟨kept, keptMember, if_neg fun same => ?_⟩, named,
      system, ident⟩
    -- The system label is not the one that is renamed.
    rw [only kept keptMember same, notSystem] at system
    exact absurd system Bool.false_ne_true
  · intro row rowMember system
    obtain ⟨old, oldMember, rfl⟩ := mem_updateWhere.mp rowMember
    split at system
    next isLabel =>
      rw [only old oldMember isLabel, notSystem] at system
      exact absurd system Bool.false_ne_true
    next isOther =>
      rw [if_neg isOther]
      exact ok.system old oldMember system

theorem TableOk.recoloured (ok : TableOk names ids db) (label : Label) (color : Option Nat) :
    TableOk names ids (recoloured label color db) := by
  have same : ∀ row : Label,
      let row' := if row.id == label.id then { row with color } else row
      row'.id = row.id ∧ row'.name = row.name ∧ row'.nameNorm = row.nameNorm ∧
        row'.system = row.system := by
    intro row
    dsimp only
    split <;> exact ⟨rfl, rfl, rfl, rfl⟩
  unfold ReservedLabels.recoloured
  constructor
  · rw [map_updateWhere]
    · exact ok.ids_nodup
    · exact fun _ => rfl
  · intro row member
    obtain ⟨old, oldMember, rfl⟩ := mem_updateWhere.mp member
    rw [(same old).1]
    exact ok.ids_lt old oldMember
  · intro row member
    obtain ⟨old, oldMember, rfl⟩ := mem_updateWhere.mp member
    rw [(same old).2.1, (same old).2.2.1]
    exact ok.norms old oldMember
  · rw [map_updateWhere]
    · exact ok.norms_nodup
    · exact fun _ => rfl
  · intro reservedName isReserved
    obtain ⟨kept, member, named, system, ident⟩ := ok.reserved reservedName isReserved
    refine ⟨_, mem_updateWhere.mpr ⟨kept, member, rfl⟩, ?_⟩
    rw [(same kept).1, (same kept).2.1, (same kept).2.2.2]
    exact ⟨named, system, ident⟩
  · intro row member
    obtain ⟨old, oldMember, rfl⟩ := mem_updateWhere.mp member
    rw [(same old).2.1, (same old).2.2.2]
    exact ok.system old oldMember

theorem TableOk.dropped (ok : TableOk names ids db) (member : label ∈ db.labels)
    (notSystem : label.system = false) : TableOk names ids (dropped label db) := by
  constructor
  · exact nodup_map_deleteWhere ok.ids_nodup
  · intro row rowMember
    exact ok.ids_lt row (mem_deleteWhere.mp rowMember).1
  · intro row rowMember
    exact ok.norms row (mem_deleteWhere.mp rowMember).1
  · exact nodup_map_deleteWhere ok.norms_nodup
  · intro reservedName isReserved
    obtain ⟨kept, keptMember, named, system, ident⟩ := ok.reserved reservedName isReserved
    refine ⟨kept, mem_deleteWhere.mpr ⟨keptMember, ?_⟩, named, system, ident⟩
    rw [beq_eq_false_iff_ne]
    intro same
    rw [eq_of_key_eq ok.ids_nodup keptMember member same, notSystem] at system
    exact absurd system Bool.false_ne_true
  · intro row rowMember
    exact ok.system row (mem_deleteWhere.mp rowMember).1

/-! ## The operations on labels -/

omit [Unicode] in
theorem keeps_announce (mode : Sync) (item : LabelSyncItem) :
    Keeps labelView (exec (announce mode item) : DbAction Unit) := by
  intro db
  obtain ⟨items, announced⟩ := announce_eq mode item db
  rw [stateAfter_exec, announced]
  rfl

omit [Unicode] in
theorem keeps_setExt (msgs : List MsgId) (label : Label) (apply : Bool) (mode : Sync) :
    Keeps labelView (exec (setExt msgs label apply mode) : DbAction Unit) := by
  intro db
  obtain ⟨items, written⟩ := setExt_eq msgs label apply mode db
  rw [stateAfter_exec, written]
  rfl

omit [Unicode] in
theorem setExt_nosync (msgs : List MsgId) (label : Label) (apply : Bool) (db : Db) :
    setExt msgs label apply .nosync db =
      { db with msgLabels := setRows msgs label.id apply db.msgLabels } := by
  unfold setExt
  split
  next none =>
    rw [List.isEmpty_iff.mp none]
    rfl
  next =>
    simp only [announce]
    split <;> rfl

theorem keeps_reserved (name : Text) : Keeps labelView (reserved name) := Keeps.queryExcept _

omit [Unicode] in
theorem keeps_load (id : LabelId) : Keeps labelView (load id) := Keeps.queryExcept _

theorem byName_normalize (name : Text) : byName (normalize name) = byName name := by
  funext db
  unfold byName
  rw [normalize_normalize]

theorem stateAfter_createExt (name : Text) (color : Option Nat) (mode : Sync)
    (now : Int) (db : Db) :
    stateAfter (createExt name color mode now) db =
      if (trim name).isEmpty || (byName name db).isSome then db
      else announce mode (.create (trim name) color)
        (insertLabel (trim name) (normalize name) color now db) := by
  unfold createExt
  rw [stateAfter_ensure_bind, stateAfter_query_bind, normalize_trim, byName_normalize]
  cases blank : (trim name).isEmpty with
  | true => rfl
  | false =>
    cases found : byName name db with
    | some existing => rfl
    | none =>
      simp only [Bool.not_false, if_true, stateAfter_exec_bind, stateAfter_queryExcept,
        Option.isSome_none, Bool.or_false, Bool.false_eq_true, if_false]

theorem stateAfter_renameExt (label : Label) (newName : Text) (mode : Sync) (db : Db) :
    stateAfter (renameExt label newName mode) db =
      if !label.system && !(trim newName).isEmpty &&
          (byName newName db).all (fun existing => existing.id == label.id) then
        announce mode (.rename label.name (trim newName)) (renamed label (trim newName) db)
      else db := by
  have sameName : byName (normalize (trim newName)) = byName newName := by
    rw [normalize_trim, byName_normalize]
  unfold renameExt
  rw [stateAfter_ensure_bind, stateAfter_ensure_bind, stateAfter_query_bind,
    stateAfter_ensure_bind, stateAfter_exec_bind, stateAfter_exec, sameName]
  cases label.system <;> cases (trim newName).isEmpty <;> rfl

omit [Unicode] in
theorem stateAfter_deleteExt (label : Label) (mode : Sync) (db : Db) :
    stateAfter (deleteExt label mode) db =
      if !label.system then announce mode (.delete label.name) (dropped label db) else db := by
  unfold deleteExt
  rw [stateAfter_ensure_bind]
  cases label.system <;> rfl

theorem TableOk.free_iff (ok : TableOk names ids db) (label : Label) (newName : Text) :
    (byName newName db).all (fun existing => existing.id == label.id) = true ↔
      ∀ other ∈ db.labels, other.nameNorm = normalize newName → other.id = label.id := by
  cases found : byName newName db with
  | none => simpa using fun other isOther same => absurd same (byName_eq_none found other isOther)
  | some existing =>
    obtain ⟨isExisting, named⟩ := byName_eq_some found
    simp only [Option.all_some, beq_iff_eq]
    constructor
    · intro isLabel other isOther same
      rw [eq_of_key_eq ok.norms_nodup isOther isExisting (same.trans named.symm)]
      exact isLabel
    · intro free
      exact free existing isExisting named

theorem TableOk.announce (ok : TableOk names ids db) (mode : Sync) (item : LabelSyncItem) :
    TableOk names ids (announce mode item db) :=
  ok.of_labelView (keeps_announce mode item db)

theorem TableOk.preserves_createExt (name : Text) (color : Option Nat) (mode : Sync) (now : Int) :
    Preserves (TableOk names ids) (createExt name color mode now) := by
  intro db ok
  rw [stateAfter_createExt, ← normalize_trim name]
  split
  · exact ok
  · exact (ok.insertLabel (trim name) color now).announce mode _

theorem TableOk.renameExt (ok : TableOk names ids db) (member : label ∈ db.labels) (newName : Text)
    (mode : Sync) : TableOk names ids (stateAfter (renameExt label newName mode) db) := by
  rw [stateAfter_renameExt]
  split
  next may =>
    simp only [Bool.and_eq_true, Bool.not_eq_true', ok.free_iff, ← normalize_trim newName] at may
    exact (ok.renamed member may.1.1 may.2).announce mode _
  next => exact ok

theorem TableOk.deleteExt (ok : TableOk names ids db) (member : label ∈ db.labels) (mode : Sync) :
    TableOk names ids (stateAfter (deleteExt label mode) db) := by
  rw [stateAfter_deleteExt]
  split
  next may => exact (ok.dropped member (by simpa using may)).announce mode _
  next => exact ok

theorem TableOk.setColorExt (ok : TableOk names ids db) (label : Label) (color : Option Nat)
    (mode : Sync) : TableOk names ids (setColorExt label color mode db) :=
  (ok.recoloured label color).announce mode _

theorem TableOk.preserves_load_bind {α : Type} {f : Label → DbAction α} (id : LabelId)
    (next : ∀ db label, label ∈ db.labels → TableOk names ids db →
      TableOk names ids (stateAfter (f label) db)) :
    Preserves (TableOk names ids) (load id >>= f) :=
  fun db ok => stateAfter_load_bind ok fun label member _ => next db label member ok

theorem TableOk.preserves_rename (id : LabelId) (newName : Text) :
    Preserves (TableOk names ids) (rename id newName) :=
  TableOk.preserves_load_bind id fun _ _ member ok => ok.renameExt member newName .sync

theorem TableOk.preserves_setColor (id : LabelId) (color : Option Nat) :
    Preserves (TableOk names ids) (setColor id color) :=
  TableOk.preserves_load_bind id fun _ label _ ok => ok.setColorExt label color .sync

theorem TableOk.preserves_delete (id : LabelId) : Preserves (TableOk names ids) (delete id) :=
  TableOk.preserves_load_bind id fun _ _ member ok => ok.deleteExt member .sync

omit [Unicode] in
theorem keeps_apply (msgs : List MsgId) (id : LabelId) : Keeps labelView (apply msgs id) :=
  Keeps.bind (keeps_load id) fun label => keeps_setExt msgs label true .sync

omit [Unicode] in
theorem keeps_unapply (msgs : List MsgId) (id : LabelId) : Keeps labelView (unapply msgs id) :=
  Keeps.bind (keeps_load id) fun label => keeps_setExt msgs label false .sync

theorem keeps_archive (msgs : List MsgId) : Keeps labelView (archive msgs) :=
  Keeps.bind (keeps_reserved archiveName) fun label => keeps_setExt msgs label true .sync

theorem keeps_unarchive (msgs : List MsgId) : Keeps labelView (unarchive msgs) :=
  Keeps.bind (keeps_reserved archiveName) fun label => keeps_setExt msgs label false .sync

theorem TableOk.preserves_labelForSync (name : Text) (color : Option Nat) (now : Int) :
    Preserves (TableOk names ids) (labelForSync name color now) := by
  refine Preserves.bind (TableOk.preserves_of_keeps (Keeps.query _)) ?_
  intro found
  cases found with
  | some label => exact TableOk.preserves_of_keeps (Keeps.pure label)
  | none => exact TableOk.preserves_createExt name color .nosync now

theorem TableOk.preserves_syncSet (mids : List Text) (labelName : Text) (apply : Bool)
    (timestamp now : Int) : Preserves (TableOk names ids)
      (syncSet mids labelName apply timestamp now) := by
  refine Preserves.bind (TableOk.preserves_labelForSync labelName none now) ?_
  intro label
  refine TableOk.preserves_of_keeps (Keeps.bind (Keeps.query _) fun resolved => ?_)
  refine Keeps.bind (Keeps.query _) fun pending => ?_
  refine Keeps.bind (keeps_setExt resolved label apply .nosync) fun _ => ?_
  exact Keeps.exec fun _ => rfl

theorem TableOk.preserves_executeSyncItem (item : LabelSyncItem) (timestamp now : Int) :
    Preserves (TableOk names ids) (executeSyncItem item timestamp now) := by
  cases item with
  | create name color =>
    refine Preserves.bind (TableOk.preserves_createExt name color .nosync now) ?_
    intro _
    exact TableOk.preserves_of_keeps (Keeps.pure ())
  | rename source target =>
    intro db ok
    simp only [executeSyncItem]
    rw [stateAfter_query_bind]
    cases found : byName source db with
    | some label => exact ok.renameExt (byName_eq_some found).1 target .nosync
    | none =>
      refine Preserves.bind (TableOk.preserves_createExt target none .nosync now) ?_ db ok
      intro _
      exact TableOk.preserves_of_keeps (Keeps.pure ())
  | delete name =>
    intro db ok
    simp only [executeSyncItem]
    rw [stateAfter_query_bind]
    cases found : byName name db with
    | some label => exact ok.deleteExt (byName_eq_some found).1 .nosync
    | none => exact ok
  | setColor name color =>
    refine Preserves.bind (TableOk.preserves_labelForSync name color now) ?_
    intro label
    exact Preserves.exec fun db ok => ok.setColorExt label color .nosync
  | apply msgs label => exact TableOk.preserves_syncSet msgs label true timestamp now
  | unapply msgs label => exact TableOk.preserves_syncSet msgs label false timestamp now

/-! ## The table of a migrated database -/

/-- The label table of a migrated database, whose reserved labels have the given ids. -/
abbrev LabelsOk (ids : Text → LabelId) (db : Db) : Prop := TableOk reservedNames ids db

section

variable (ok : LabelsOk ids db)

include ok

theorem TableOk.byName_reserved (isReserved : name ∈ reservedNames) :
    ∃ label, byName name db = some label ∧ label ∈ db.labels ∧ label.name = name ∧
      label.system = true ∧ label.id = ids name := by
  obtain ⟨label, member, named, system, ident⟩ := ok.reserved name isReserved
  refine ⟨label, ?_, member, named, system, ident⟩
  cases found : byName name db with
  | none =>
    have differs := byName_eq_none found label member
    rw [ok.norms label member, named] at differs
    exact absurd rfl differs
  | some other =>
    obtain ⟨otherMember, norm⟩ := byName_eq_some found
    have same : other.nameNorm = label.nameNorm := by
      rw [norm, ok.norms label member, named]
    rw [eq_of_key_eq ok.norms_nodup otherMember member same]

theorem TableOk.exists_unique :
    ∀ name ∈ reservedNames, ∃! label, label ∈ db.labels ∧ label.system = true ∧
      label.name = name := by
  intro name isReserved
  obtain ⟨label, member, named, system, _⟩ := ok.reserved name isReserved
  refine ⟨label, ⟨member, system, named⟩, ?_⟩
  rintro other ⟨otherMember, _, otherNamed⟩
  refine eq_of_key_eq ok.norms_nodup otherMember member ?_
  rw [ok.norms other otherMember, ok.norms label member, otherNamed, named]

theorem TableOk.ids_ne {first second : Text}
    (firstReserved : first ∈ reservedNames) (secondReserved : second ∈ reservedNames)
    (differ : first ≠ second) : ids first ≠ ids second := by
  obtain ⟨a, aMember, aNamed, _, aIdent⟩ := ok.reserved first firstReserved
  obtain ⟨b, bMember, bNamed, _, bIdent⟩ := ok.reserved second secondReserved
  intro same
  have sameRow := eq_of_key_eq ok.ids_nodup aMember bMember (by rw [aIdent, bIdent, same])
  exact differ (by rw [← aNamed, sameRow, bNamed])

theorem TableOk.reserved_run (isReserved : name ∈ reservedNames) :
    ∃ label ∈ db.labels, label.name = name ∧ label.system = true ∧ label.id = ids name ∧
      (Labels.reserved name).run db = .ok label db := by
  obtain ⟨label, found, member, named, system, ident⟩ := ok.byName_reserved isReserved
  refine ⟨label, member, named, system, ident, (queryExcept_eq_ok _).mpr ⟨?_, rfl⟩⟩
  rw [found]

end

end

/-- The labels the migrations leave behind. -/
def migratedLabels : List Label :=
  [{ id := 1, name := archiveName, nameNorm := "archive".toList, system := true },
   { id := 2, name := trashName, nameNorm := "trash".toList, system := true },
   { id := 3, name := unverifiedName, nameNorm := "unverified".toList, system := true }]

def migratedIds (name : Text) : LabelId :=
  if name = archiveName then 1 else if name = trashName then 2 else 3

section

local instance : Unicode := asciiTables

theorem labelsOk_migrated (labels : db.labels = migratedLabels) (next : db.nextLabelId = 4) :
    LabelsOk migratedIds db := by
  constructor
  · rw [labels]
    decide
  · rw [labels, next]
    decide
  · rw [labels]
    decide
  · rw [labels]
    decide
  · rw [labels]
    decide
  · rw [labels]
    decide

end

end Eeemail.ReservedLabels
