import Eeemail.LatestIntent
import Eeemail.Lib.Replicas

/-! # Two devices

Two devices of one user hold the same messages under row ids of their own.  What one of
them does to labels it announces by name and Message-ID, and the other replays. -/

set_option autoImplicit false

namespace Eeemail.DeviceSync

open Lib.Texts Lib.Actions Lib.Tables Lib.Runs Store Labels ReservedLabels Frames LabelBoards
open LabelStreams LatestIntent
open Boards (Column Board Directory namesOf midsOf)

variable {db a b : Db} {label : Label} {on : Bool} {item : LabelSyncItem} {mid : Text}

section

variable {μ : Type} {row rowA rowB : μ → MsgId}

structure SameMessages (rowA rowB : μ → MsgId) (a b : Db) : Prop where
  injA : Function.Injective rowA
  injB : Function.Injective rowB
  ontoA : ∀ msg ∈ a.msgs, ∃ m, rowA m = msg.id
  ontoB : ∀ msg ∈ b.msgs, ∃ m, rowB m = msg.id
  same : ∀ m, ∃ here ∈ a.msgs, ∃ there ∈ b.msgs, here.id = rowA m ∧ there.id = rowB m ∧
    here.rfc724Mid = there.rfc724Mid ∧ here.preRfc724Mid = there.preRfc724Mid ∧
    here.isLive = there.isLive

def IsLive (msgId : MsgId) (db : Db) : Prop := ∃ msg ∈ db.msgs, msg.id = msgId ∧ msg.isLive = true

/-! ## A change made here -/

def announced (msgs : List MsgId) (label : Label) (on : Bool) (db : Db) : List LabelSyncItem :=
  if (rfc724Mids msgs db).isEmpty then []
  else [if on then .apply (rfc724Mids msgs db) label.name
    else .unapply (rfc724Mids msgs db) label.name]

theorem setExt_sync (sends : shouldSendSyncMsgs db = true) (msgs : List MsgId) (label : Label)
    (on : Bool) :
    setExt msgs label on .sync db =
      { db with
        msgLabels := setRows msgs label.id on db.msgLabels
        syncItems := db.syncItems ++ announced msgs label on db } := by
  have mids : ∀ rows, rfc724Mids msgs { db with msgLabels := rows } = rfc724Mids msgs db :=
    fun _ => rfl
  unfold setExt
  split
  next none =>
    rw [List.isEmpty_iff.mp none]
    simp [setRows, announced, rfc724Mids]
  next =>
    simp only [mids]
    split
    next nothing => simp [announced, nothing]
    next something =>
      have sends' : shouldSendSyncMsgs
          { db with msgLabels := setRows msgs label.id on db.msgLabels } = true := sends
      simp only [announce, addSyncItem, sends', if_true, announced, something, Bool.false_eq_true,
        if_false]

def change (msgs : List MsgId) (id : LabelId) (on : Bool) : DbAction Unit :=
  if on then Labels.apply msgs id else Labels.unapply msgs id

theorem stateAfter_change {ids : Text → LabelId} [Unicode] (ok : LabelsOk ids db)
    (member : label ∈ db.labels) (msgs : List MsgId) (on : Bool) :
    stateAfter (change msgs label.id on) db = setExt msgs label on .sync db := by
  have loads : (Labels.load label.id).run db = .ok label db := by
    refine (queryExcept_eq_ok _).mpr ⟨?_, rfl⟩
    rw [find?_of_nodup ok.ids_nodup member]
  unfold change
  cases on with
  | true => exact stateAfter_bind_of_ok loads
  | false => exact stateAfter_bind_of_ok loads

variable [Unicode] {ids idsB : Text → LabelId} {msgs : List MsgId} {common : Directory μ}

theorem tagged_setRows {db' : Db} (filed : Filed ids db) (member : label ∈ db.labels)
    (labels : db'.labels = db.labels)
    (carried : db'.msgLabels = setRows msgs label.id on db.msgLabels) (msgId : MsgId)
    (norm : Text) :
    Tagged msgId norm db' ↔
      if norm = label.nameNorm ∧ msgId ∈ msgs then on = true else Tagged msgId norm db := by
  have rows : ∀ other : Label, { msgId, labelId := other.id } ∈ db'.msgLabels ↔
      if other.id = label.id ∧ msgId ∈ msgs then on = true
      else { msgId, labelId := other.id } ∈ db.msgLabels := by
    intro other
    rw [← List.contains_iff_mem, carried, contains_setRows]
    split
    · rfl
    · exact List.contains_iff_mem
  have sameLabel : ∀ other ∈ db.labels, other.nameNorm = label.nameNorm ↔ other.id = label.id := by
    intro other isOther
    constructor
    · intro same
      rw [List.inj_on_of_nodup_map filed.labels.norms_nodup isOther member same]
    · intro same
      rw [List.inj_on_of_nodup_map filed.labels.ids_nodup isOther member same]
  unfold Tagged
  simp only [labels, rows]
  by_cases hit : norm = label.nameNorm ∧ msgId ∈ msgs
  · rw [if_pos hit]
    constructor
    · rintro ⟨other, isOther, rfl, on⟩
      rwa [if_pos ⟨(sameLabel other isOther).mp hit.1, hit.2⟩] at on
    · intro on
      exact ⟨label, member, hit.1.symm, by rw [if_pos ⟨rfl, hit.2⟩]; exact on⟩
  · rw [if_neg hit]
    have unchanged : ∀ other ∈ db.labels, other.nameNorm = norm →
        ¬(other.id = label.id ∧ msgId ∈ msgs) := by
      rintro other isOther rfl ⟨same, chosen⟩
      exact hit ⟨(sameLabel other isOther).mpr same, chosen⟩
    constructor
    · rintro ⟨other, isOther, isNorm, on⟩
      rw [if_neg (unchanged other isOther isNorm)] at on
      exact ⟨other, isOther, isNorm, on⟩
    · rintro ⟨other, isOther, isNorm, on⟩
      exact ⟨other, isOther, isNorm, by rw [if_neg (unchanged other isOther isNorm)]; exact on⟩

/-! ## A change replayed there -/

def replayed (before after : Db) (timestamp now : Int) : List Delivered :=
  (after.syncItems.drop before.syncItems.length).map fun item => { item, timestamp, now }

theorem tagged_syncSet (filed : Filed ids db) {name : Text}
    (there : ∃ label ∈ db.labels, label.nameNorm = normalize name) (mids : List Text) (on : Bool)
    (timestamp now : Int) (msgId : MsgId) (norm : Text) :
    Tagged msgId norm (stateAfter (syncSet mids name on timestamp now) db) ↔
      if norm = normalize name ∧ ∃ mid ∈ mids, rfc724MidExists mid db = some msgId then on = true
      else Tagged msgId norm db := by
  obtain ⟨filed', refines⟩ := syncSet_refines id filed mids name on timestamp now
  obtain ⟨label, member, isName⟩ := there
  have found : view id db (normalize name) = some (columnOf id db label) := by
    rw [← isName]
    exact filed.view_of_mem member
  rw [tagged_iff filed' msgId [], tagged_iff filed msgId [], refines]
  by_cases isNorm : norm = normalize name
  · subst isNorm
    rw [tagOf_set _ _ _ _ _ _ _ _ (Or.inr (by rw [found]; rfl))]
    simp only [Tag.change, directory, id, List.any_eq_true, beq_iff_eq, true_and]
    split <;> rfl
  · rw [if_neg fun hit => isNorm hit.1, Boards.set, Boards.modify_apply, if_neg isNorm,
      Boards.create_of_ne isNorm]

/-- The same messages, and on them the same labels, by name. -/
structure Mirrored (rowA rowB : μ → MsgId) (a b : Db) : Prop
    extends SameMessages rowA rowB a b where
  names : ∀ norm, (∃ label ∈ a.labels, label.nameNorm = norm) ↔
    ∃ label ∈ b.labels, label.nameNorm = norm
  carried : ∀ m norm, Tagged (rowA m) norm a ↔ Tagged (rowB m) norm b

/-- A live message that is to change is among the chosen rows exactly if the Message-ID of a
chosen row finds it on the other device. -/
def Replayable (rowA rowB : μ → MsgId) (a b : Db) (label : Label) (msgs : List MsgId) (on : Bool) :
    Prop :=
  ∀ m, IsLive (rowA m) a → ¬(Tagged (rowA m) label.nameNorm a ↔ on = true) →
    (rowA m ∈ msgs ↔ ∃ mid ∈ rfc724Mids msgs a, rfc724MidExists mid b = some (rowB m))

theorem replay_reproduces_iff {rowA rowB : μ → MsgId} {a b : Db} (filedA : Filed ids a)
    (filedB : Filed idsB b) (mirrored : Mirrored rowA rowB a b)
    (sends : shouldSendSyncMsgs a = true)
    {label : Label} (member : label ∈ a.labels) (msgs : List MsgId) (on : Bool)
    (timestamp now : Int) :
    (∀ m, IsLive (rowA m) a → ∀ norm,
      (Tagged (rowA m) norm (stateAfter (change msgs label.id on) a) ↔
        Tagged (rowB m) norm (runAll deliver b
          (replayed a (stateAfter (change msgs label.id on) a) timestamp now)))) ↔
      Replayable rowA rowB a b label msgs on := by
  have changed := stateAfter_change filedA.labels member msgs on
  rw [setExt_sync sends] at changed
  have sameLabels : (stateAfter (change msgs label.id on) a).labels = a.labels := by rw [changed]
  have carried : (stateAfter (change msgs label.id on) a).msgLabels =
      setRows msgs label.id on a.msgLabels := by rw [changed]
  have here := tagged_setRows filedA member sameLabels carried
  have isLabel : label.nameNorm = normalize label.name := filedA.labels.norms label member
  have there : ∀ m norm, Tagged (rowB m) norm (runAll deliver b
      (replayed a (stateAfter (change msgs label.id on) a) timestamp now)) ↔
      if norm = label.nameNorm ∧
        ∃ mid ∈ rfc724Mids msgs a, rfc724MidExists mid b = some (rowB m) then
        on = true
      else Tagged (rowB m) norm b := by
    intro m norm
    have known := (mirrored.names label.nameNorm).mp ⟨label, member, rfl⟩
    rw [isLabel] at known ⊢
    rw [replayed, changed]
    simp only [List.drop_left, announced]
    split
    next nothing =>
      rw [List.isEmpty_iff.mp nothing]
      simp
    next =>
      rw [← tagged_syncSet filedB known (rfc724Mids msgs a) on timestamp now (rowB m) norm]
      cases on <;> rfl
  constructor
  · intro same m live pending
    have reached := same m live label.nameNorm
    rw [here, there, mirrored.carried m] at reached
    rw [mirrored.carried m] at pending
    simp only [true_and] at reached
    by_cases chosen : rowA m ∈ msgs <;>
      by_cases found : ∃ mid ∈ rfc724Mids msgs a, rfc724MidExists mid b = some (rowB m) <;>
        simp_all
  · intro replayable m live norm
    rw [here, there, mirrored.carried m]
    by_cases isNorm : norm = label.nameNorm
    · subst isNorm
      simp only [true_and]
      by_cases settled : Tagged (rowA m) label.nameNorm a ↔ on = true
      · rw [mirrored.carried m] at settled
        split <;> split <;> simp [settled]
      · rw [if_congr (replayable m live settled) rfl rfl]
    · simp [isNorm]

/-! ## What a device does by itself -/

inductive Deed where
  | create (name : Text) (color : Option Nat) (now : Int)
  | rename (id : LabelId) (newName : Text)
  | setColor (id : LabelId) (color : Option Nat)
  | delete (id : LabelId)
  | change (msgs : List MsgId) (id : LabelId) (on : Bool)
  deriving DecidableEq, Repr

def perform : Deed → DbAction Unit
  | .create name color now => do
    let _ ← Labels.create name color now
    pure ()
  | .rename id newName => Labels.rename id newName
  | .setColor id color => Labels.setColor id color
  | .delete id => Labels.delete id
  | .change msgs id on => change msgs id on

def normOf (id : LabelId) (db : Db) : List Text :=
  (db.labels.filter fun label => label.id == id).map (·.nameNorm)

def Deed.names (db : Db) : Deed → List Text
  | .create name _ _ => [normalize name]
  | .rename id newName => normalize newName :: normOf id db
  | .setColor id _ => normOf id db
  | .delete id => normOf id db
  | .change _ id _ => normOf id db

def Deed.picks : Deed → List MsgId
  | .change msgs _ _ => msgs
  | _ => []

structure Told (ids : Text → LabelId) (row : μ → MsgId) (db : Db) (deed : Deed) (after : Db)
    (said : Option LabelSyncItem) : Prop where
  filed : Filed ids after
  msgs : after.msgs = db.msgs
  config : after.config = db.config
  items : after.syncItems = db.syncItems ++ said.toList
  shown : Boards.faces (view row after) = said.elim (Boards.faces (view row db)) fun item =>
    Boards.faces (Boards.replay (directory row db) 0 item (view row db))
  about : ∀ item ∈ said, ∀ norm ∈ namesOf item, norm ∈ deed.names db
  mids : ∀ item ∈ said, ∀ mid ∈ midsOf item, mid ∈ rfc724Mids deed.picks db

theorem told_nothing (filed : Filed ids db) (deed : Deed) : Told ids row db deed db none := by
  refine ⟨filed, rfl, rfl, by simp, rfl, ?_, ?_⟩
  · rintro item ⟨⟩
  · rintro item ⟨⟩

theorem told_announce {after : Db} {deed : Deed}
    (sends : shouldSendSyncMsgs db = true) (filed : Filed ids (announce .sync item after))
    (msgs : after.msgs = db.msgs) (config : after.config = db.config)
    (items : after.syncItems = db.syncItems)
    (shown : Boards.faces (view row (announce .sync item after)) =
      Boards.faces (Boards.replay (directory row db) 0 item (view row db)))
    (about : ∀ norm ∈ namesOf item, norm ∈ deed.names db)
    (mids : ∀ mid ∈ midsOf item, mid ∈ rfc724Mids deed.picks db) :
    Told ids row db deed (announce .sync item after) (some item) := by
  have sends' : shouldSendSyncMsgs after = true := by
    unfold shouldSendSyncMsgs at sends ⊢
    rw [config]
    exact sends
  have said : announce .sync item after =
      { after with syncItems := after.syncItems ++ [item] } := by
    simp only [announce, addSyncItem, sends', if_true]
  refine ⟨filed, ?_, ?_, ?_, shown, ?_, ?_⟩
  · rw [said]
    exact msgs
  · rw [said]
    exact config
  · rw [said, ← items]
    rfl
  · rintro _ ⟨⟩
    exact about
  · rintro _ ⟨⟩
    exact mids

theorem create_trim (name : Text) (color : Option Nat) (board : Board μ) :
    Boards.create (trim name) color board = Boards.create name color board := by
  rw [Boards.create, Boards.create, trim_trim, normalize_trim]

theorem rename_trim (source target : Text) (board : Board μ) :
    Boards.rename source (trim target) board = Boards.rename source target board := by
  rw [Boards.rename, Boards.rename]
  cases board (normalize source) with
  | none => exact create_trim target none board
  | some column =>
    simp only [Boards.mayRename, trim_trim, normalize_trim]
    rfl

omit [Unicode] in
theorem normOf_of_mem (member : label ∈ db.labels) : label.nameNorm ∈ normOf label.id db :=
  List.mem_map.mpr ⟨label, List.mem_filter.mpr ⟨member, beq_self_eq_true label.id⟩, rfl⟩

theorem mem_normOf (filed : Filed ids db) (member : label ∈ db.labels) {norm : Text}
    (isName : norm ∈ [normalize label.name]) : norm ∈ normOf label.id db := by
  rw [List.mem_singleton.mp isName, ← filed.labels.norms label member]
  exact normOf_of_mem member

theorem told_create (filed : Filed ids db) (sends : shouldSendSyncMsgs db = true)
    (name : Text) (color : Option Nat) (now : Int) :
    ∃ said, Told ids row db (.create name color now)
      (stateAfter (perform (.create name color now)) db) said := by
  have filed' := filed.createExt name color .sync now
  have shown := view_createExt row filed name color .sync now
  rw [perform, stateAfter_bind_pure, Labels.create]
  rw [stateAfter_createExt] at filed' shown ⊢
  split at shown
  next nothing =>
    rw [if_pos nothing]
    exact ⟨none, told_nothing filed _⟩
  next fresh =>
    rw [if_neg fresh] at filed' ⊢
    have inserted : insertLabel (trim name) (normalize name) color now db =
        { db with
          labels := (insertLabel (trim name) (normalize name) color now db).labels
          nextLabelId := (insertLabel (trim name) (normalize name) color now db).nextLabelId } := by
      unfold insertLabel
      split <;> rfl
    refine ⟨some (.create (trim name) color), told_announce sends filed' ?_ ?_ ?_ ?_ ?_ ?_⟩
    · rw [inserted]
    · rw [inserted]
    · rw [inserted]
    · rw [shown, Boards.replay, create_trim]
    · intro norm member
      rw [namesOf, normalize_trim] at member
      exact member
    · intro mid member
      cases member

theorem told_rename (filed : Filed ids db) (sends : shouldSendSyncMsgs db = true) (id : LabelId)
    (newName : Text) :
    ∃ said, Told ids row db (.rename id newName)
      (stateAfter (perform (.rename id newName)) db) said := by
  refine stateAfter_load_bind (P := fun after => ∃ said, Told ids row db _ after said)
    ⟨none, told_nothing filed _⟩ ?_
  rintro label member rfl
  have named := filed.labels.norms label member
  have filed' := filed.renameExt member newName .sync
  have shown := view_renameExt row filed member named newName .sync
  rw [stateAfter_renameExt] at filed' shown ⊢
  split at shown
  next may =>
    rw [if_pos may] at filed' ⊢
    refine ⟨some (.rename label.name (trim newName)),
      told_announce sends filed' rfl rfl rfl ?_ ?_ ?_⟩
    · rw [shown, Boards.replay, rename_trim]
    · intro norm isName
      rw [namesOf, normalize_trim, ← named] at isName
      rcases List.mem_pair.mp isName with rfl | rfl
      · exact List.mem_cons_of_mem _ (normOf_of_mem member)
      · exact List.mem_cons_self
    · rintro mid ⟨⟩
  next refused =>
    rw [if_neg refused]
    exact ⟨none, told_nothing filed _⟩

theorem told_setColor (filed : Filed ids db) (sends : shouldSendSyncMsgs db = true) (id : LabelId)
    (color : Option Nat) :
    ∃ said, Told ids row db (.setColor id color)
      (stateAfter (perform (.setColor id color)) db) said := by
  refine stateAfter_load_bind (P := fun after => ∃ said, Told ids row db _ after said)
    ⟨none, told_nothing filed _⟩ ?_
  rintro label member rfl
  have named := filed.labels.norms label member
  refine ⟨some (.setColor label.name color),
    told_announce sends (filed.setColorExt label color .sync)
    rfl rfl rfl ?_ (fun _ => mem_normOf filed member) ?_⟩
  · have there : Boards.create label.name color (view row db) = view row db := by
      simp [Boards.create, filed.view_named member named]
    rw [Boards.replay, Boards.setColor, there]
    exact congrArg Boards.faces (view_setColorExt row filed member named color .sync)
  · rintro mid ⟨⟩

theorem told_delete (filed : Filed ids db) (sends : shouldSendSyncMsgs db = true) (id : LabelId) :
    ∃ said, Told ids row db (.delete id) (stateAfter (perform (.delete id)) db) said := by
  refine stateAfter_load_bind (P := fun after => ∃ said, Told ids row db _ after said)
    ⟨none, told_nothing filed _⟩ ?_
  rintro label member rfl
  have filed' := filed.deleteExt member .sync
  have shown := view_deleteExt row filed member (filed.labels.norms label member) .sync
  rw [stateAfter_deleteExt] at filed' shown ⊢
  split at shown
  next may =>
    rw [if_pos may] at filed' ⊢
    refine ⟨some (.delete label.name), told_announce sends filed' rfl rfl rfl ?_
      (fun _ => mem_normOf filed member) ?_⟩
    · rw [shown, Boards.replay]
    · rintro mid ⟨⟩
  next refused =>
    rw [if_neg refused]
    exact ⟨none, told_nothing filed _⟩

def FoundHere (row : μ → MsgId) (db : Db) (msgId : MsgId) : Prop :=
  ∃ m msg, row m = msgId ∧ db.msgById msgId = some msg ∧
    rfc724MidExists msg.rfc724Mid db = some (row m)

omit [Unicode] in
theorem mid_ne_nil {msgId : MsgId} (finds : rfc724MidExists mid db = some msgId) : mid ≠ [] := by
  rintro rfl
  cases finds

omit [Unicode] in
theorem mem_rfc724Mids :
    mid ∈ rfc724Mids msgs db ↔
      ∃ msgId ∈ msgs, ∃ msg, db.msgById msgId = some msg ∧ msg.rfc724Mid = mid ∧ mid ≠ [] := by
  simp only [rfc724Mids, List.mem_filter, List.mem_filterMap, Option.map_eq_some_iff,
    Bool.not_eq_true', List.isEmpty_eq_false_iff]
  constructor
  · rintro ⟨⟨msgId, chosen, msg, found, isMid⟩, named⟩
    exact ⟨msgId, chosen, msg, found, isMid, named⟩
  · rintro ⟨msgId, chosen, msg, found, isMid, named⟩
    exact ⟨⟨msgId, chosen, msg, found, isMid⟩, named⟩

omit [Unicode] in
theorem named_iff_chosen (found : ∀ msgId ∈ msgs, FoundHere row db msgId) (m : μ) :
    (∃ mid ∈ rfc724Mids msgs db, rfc724MidExists mid db = some (row m)) ↔ row m ∈ msgs := by
  constructor
  · rintro ⟨mid, isMid, finds⟩
    obtain ⟨msgId, chosen, msg, isMsg, rfl, _⟩ := mem_rfc724Mids.mp isMid
    obtain ⟨other, msg', isOther, isMsg', finds'⟩ := found msgId chosen
    rw [isMsg] at isMsg'
    cases isMsg'
    rw [finds] at finds'
    rw [Option.some.inj finds', isOther]
    exact chosen
  · intro chosen
    obtain ⟨other, msg, isOther, isMsg, finds⟩ := found (row m) chosen
    refine ⟨msg.rfc724Mid, mem_rfc724Mids.mpr
      ⟨row m, chosen, msg, isMsg, rfl, mid_ne_nil finds⟩, ?_⟩
    rw [finds, isOther]

theorem replay_change (directory : Directory μ) (timestamp : Int) (mids : List Text) (name : Text)
    (on : Bool) (board : Board μ) :
    Boards.replay directory timestamp (if on then .apply mids name else .unapply mids name) board =
      Boards.set directory mids name on timestamp board := by
  cases on <;> rfl

theorem announced_names (said : item ∈ announced msgs label on db) :
    namesOf item = [normalize label.name] := by
  unfold announced at said
  split at said
  · cases said
  · rw [List.mem_singleton.mp said]
    cases on <;> rfl

omit [Unicode] in
theorem announced_mids (said : item ∈ announced msgs label on db) :
    midsOf item = rfc724Mids msgs db := by
  unfold announced at said
  split at said
  · cases said
  · rw [List.mem_singleton.mp said]
    cases on <;> rfl

theorem told_change (filed : Filed ids db) (sends : shouldSendSyncMsgs db = true)
    (found : ∀ msgId ∈ msgs, FoundHere row db msgId) (id : LabelId)
    (on : Bool) :
    ∃ said, Told ids row db (.change msgs id on)
      (stateAfter (perform (.change msgs id on)) db) said := by
  have loads : perform (.change msgs id on) =
      (load id >>= fun label => exec (setExt msgs label on .sync)) := by cases on <;> rfl
  rw [loads]
  refine stateAfter_load_bind (P := fun after => ∃ said, Told ids row db _ after said)
    ⟨none, told_nothing filed _⟩ ?_
  rintro label member rfl
  have named := filed.labels.norms label member
  rw [stateAfter_exec, setExt_sync sends]
  have view' : view row { db with
      msgLabels := setRows msgs label.id on db.msgLabels
      syncItems := db.syncItems ++ announced msgs label on db } =
      view row (written msgs [] label.id on 0 db) := view_congr rfl
  have filed' : Filed ids { db with
      msgLabels := setRows msgs label.id on db.msgLabels
      syncItems := db.syncItems ++ announced msgs label on db } :=
    (filed.written member msgs [] on 0).of_tables rfl rfl
  have chosen := named_iff_chosen found
  refine ⟨(announced msgs label on db).head?, filed', rfl, rfl, ?_, ?_, ?_, ?_⟩
  · unfold announced
    split <;> rfl
  · rw [view', view_written row filed member named]
    unfold announced
    split
    next nothing =>
      have unchosen : ∀ m, row m ∉ msgs := by
        intro m isChosen
        obtain ⟨mid, isMid, _⟩ := (chosen m).mpr isChosen
        rw [List.isEmpty_iff.mp nothing] at isMid
        cases isMid
      simp [unchosen, Boards.modify]
    next =>
      have there : Boards.create label.name none (view row db) = view row db := by
        simp [Boards.create, filed.view_named member named]
      rw [List.head?_cons, Option.elim_some, replay_change, Boards.set, there]
      refine Boards.faces_modify_congr (fun column => ?_) _ _
      have on' : ∀ m, (rfc724Mids msgs db).any ((directory row db).names · m) =
          decide (row m ∈ msgs) := by
        intro m
        rw [Bool.eq_iff_iff, List.any_eq_true, decide_eq_true_iff, ← chosen m]
        simp only [directory, beq_iff_eq]
      simp only [Column.face, Column.set, on', decide_eq_true_eq]
  · intro item isItem norm isName
    rw [announced_names (List.mem_of_mem_head? isItem)] at isName
    exact mem_normOf filed member isName
  · intro item isItem mid isMid
    rw [announced_mids (List.mem_of_mem_head? isItem)] at isMid
    exact isMid

theorem told_of_deed (filed : Filed ids db) (sends : shouldSendSyncMsgs db = true)
    (deed : Deed) (found : ∀ msgId ∈ deed.picks, FoundHere row db msgId) :
    ∃ said, Told ids row db deed (stateAfter (perform deed) db) said := by
  cases deed with
  | create name color now => exact told_create filed sends name color now
  | rename id newName => exact told_rename filed sends id newName
  | setColor id color => exact told_setColor filed sends id color
  | delete id => exact told_delete filed sends id
  | change msgs id on => exact told_change filed sends found id on

/-! ## The devices as replicas -/

def operations (directory : Directory μ) :
    Lib.Replicas.Operations Text (Option (Boards.Face μ)) LabelSyncItem where
  act shown item := Boards.faces (Boards.replay directory 0 item (Boards.columns shown))
  touches item norm := norm ∈ namesOf item
  outside := by
    intro shown item norm outside
    simp only [Boards.faces, Boards.replay_outside directory 0 _ outside, Boards.columns]
    cases shown norm <;> rfl
  inside := by
    intro shown other item same norm member
    have agree : ∀ norm ∈ namesOf item, Boards.columns shown norm = Boards.columns other norm := by
      intro norm isName
      simp only [Boards.columns, same norm isName]
    simp only [Boards.faces, Boards.replay_inside directory 0 agree norm member]

structure Devices where
  a : Db
  b : Db
  toldB : Nat
  toldA : Nat
  deriving DecidableEq

def Devices.swap (devices : Devices) : Devices :=
  { a := devices.b, b := devices.a, toldB := devices.toldA, toldA := devices.toldB }

def Devices.toRight (devices : Devices) : List LabelSyncItem :=
  devices.a.syncItems.drop devices.toldB

def Devices.toLeft (devices : Devices) : List LabelSyncItem := devices.swap.toRight

inductive Step where
  | here (deed : Deed)
  | there (deed : Deed)
  | deliverThere (timestamp now : Int)
  | deliverHere (timestamp now : Int)

def Devices.act (devices : Devices) (deed : Deed) : Devices :=
  { devices with a := stateAfter (perform deed) devices.a }

def Devices.deliver (devices : Devices) (timestamp now : Int) : Devices :=
  match devices.toRight with
  | [] => devices
  | item :: _ =>
    { devices with
      b := LabelStreams.deliver devices.b { item, timestamp, now }
      toldB := devices.toldB + 1 }

def step (devices : Devices) : Step → Devices
  | .here deed => devices.act deed
  | .there deed => (devices.swap.act deed).swap
  | .deliverThere timestamp now => devices.deliver timestamp now
  | .deliverHere timestamp now => (devices.swap.deliver timestamp now).swap

def FoundOnBoth (rowA rowB : μ → MsgId) (a b : Db) (msgId : MsgId) : Prop :=
  ∃ m msg, rowA m = msgId ∧ a.msgById msgId = some msg ∧
    rfc724MidExists msg.rfc724Mid a = some (rowA m) ∧
      rfc724MidExists msg.rfc724Mid b = some (rowB m)

/-- Nothing on its way to the device is about a name of the deed, and every message of the
deed is found by its Message-ID. -/
def Unhurried (rowA rowB : μ → MsgId) (devices : Devices) (deed : Deed) : Prop :=
  (∀ norm ∈ deed.names devices.a, ∀ item ∈ devices.toLeft, norm ∉ namesOf item) ∧
    ∀ msgId ∈ deed.picks, FoundOnBoth rowA rowB devices.a devices.b msgId

def OneAtATime (rowA rowB : μ → MsgId) (devices : Devices) : Step → Prop
  | .here deed => Unhurried rowA rowB devices deed
  | .there deed => Unhurried rowB rowA devices.swap deed
  | .deliverThere _ _ => True
  | .deliverHere _ _ => True

def ReadAlike (rowA rowB : μ → MsgId) (a b : Db) (item : LabelSyncItem) : Prop :=
  ∀ mid ∈ midsOf item, ∀ m, (directory rowA a).names mid m = (directory rowB b).names mid m

/-- What holds of the devices in such a run; `common` reads Message-IDs as both do. -/
structure Linked (ids idsB : Text → LabelId) (common : Directory μ) (rowA rowB : μ → MsgId)
    (devices : Devices) : Prop where
  filedA : Filed ids devices.a
  filedB : Filed idsB devices.b
  sendsA : shouldSendSyncMsgs devices.a = true
  sendsB : shouldSendSyncMsgs devices.b = true
  heardA : devices.toldA ≤ devices.b.syncItems.length
  heardB : devices.toldB ≤ devices.a.syncItems.length
  reads : ∀ mid m, (directory rowA devices.a).names mid m = (directory rowB devices.b).names mid m →
    common.names mid m = (directory rowA devices.a).names mid m
  alikeRight : ∀ item ∈ devices.toRight, ReadAlike rowA rowB devices.a devices.b item
  alikeLeft : ∀ item ∈ devices.toLeft, ReadAlike rowA rowB devices.a devices.b item
  coherent : Lib.Replicas.Coherent (operations common)
    { left := Boards.faces (view rowA devices.a), right := Boards.faces (view rowB devices.b),
      toRight := devices.toRight, toLeft := devices.toLeft }

theorem Linked.swap {devices : Devices} (linked : Linked ids idsB common rowA rowB devices) :
    Linked idsB ids common rowB rowA devices.swap where
  filedA := linked.filedB
  filedB := linked.filedA
  sendsA := linked.sendsB
  sendsB := linked.sendsA
  heardA := linked.heardB
  heardB := linked.heardA
  reads mid m same := (linked.reads mid m same.symm).trans same.symm
  alikeRight item member mid isMid m := (linked.alikeLeft item member mid isMid m).symm
  alikeLeft item member mid isMid m := (linked.alikeRight item member mid isMid m).symm
  coherent := linked.coherent.swap

omit [Unicode] in
theorem readAlike_of_found (injA : Function.Injective rowA) (injB : Function.Injective rowB)
    (found : ∀ msgId ∈ msgs, FoundOnBoth rowA rowB a b msgId) (isMid : mid ∈ rfc724Mids msgs a)
    (m : μ) : (directory rowA a).names mid m = (directory rowB b).names mid m := by
  obtain ⟨msgId, chosen, msg, isMsg, rfl, _⟩ := mem_rfc724Mids.mp isMid
  obtain ⟨other, msg', isOther, isMsg', findsA, findsB⟩ := found msgId chosen
  rw [isMsg] at isMsg'
  cases isMsg'
  simp only [directory, findsA, findsB]
  rw [Bool.eq_iff_iff, beq_iff_eq, beq_iff_eq, Option.some.injEq, Option.some.injEq, injA.eq_iff,
    injB.eq_iff]

theorem Linked.act (injA : Function.Injective rowA) (injB : Function.Injective rowB)
    {devices : Devices} (linked : Linked ids idsB common rowA rowB devices) {deed : Deed}
    (unhurried : Unhurried rowA rowB devices deed) :
    Linked ids idsB common rowA rowB (devices.act deed) := by
  have foundHere : ∀ msgId ∈ deed.picks, FoundHere rowA devices.a msgId := by
    intro msgId chosen
    obtain ⟨m, msg, isRow, isMsg, finds, _⟩ := unhurried.2 msgId chosen
    exact ⟨m, msg, isRow, isMsg, finds⟩
  obtain ⟨said, told⟩ := told_of_deed linked.filedA linked.sendsA deed foundHere
  have sameDirectory : directory rowA (devices.act deed).a = directory rowA devices.a :=
    directory_congr told.msgs
  have toRight : (devices.act deed).toRight = devices.toRight ++ said.toList := by
    rw [Devices.toRight, Devices.toRight, ← List.drop_append_of_le_length linked.heardB,
      ← told.items]
    rfl
  have alike : ∀ item ∈ said, ReadAlike rowA rowB devices.a devices.b item :=
    fun item isSaid mid isMid =>
      readAlike_of_found injA injB unhurried.2 (told.mids item isSaid mid isMid)
  refine
    { filedA := told.filed
      filedB := linked.filedB
      sendsA := ?_
      sendsB := linked.sendsB
      heardA := linked.heardA
      heardB := ?_
      reads := ?_
      alikeRight := ?_
      alikeLeft := ?_
      coherent := ?_ }
  · have sends := linked.sendsA
    unfold shouldSendSyncMsgs at sends ⊢
    rw [show (devices.act deed).a.config = devices.a.config from told.config]
    exact sends
  · refine linked.heardB.trans ?_
    rw [show (devices.act deed).a.syncItems = _ from told.items, List.length_append]
    exact Nat.le_add_right _ _
  · rw [sameDirectory]
    exact linked.reads
  · intro item member mid isMid m
    rw [sameDirectory]
    rw [toRight, List.mem_append, Option.mem_toList] at member
    rcases member with before | now
    · exact linked.alikeRight item before mid isMid m
    · exact alike item now mid isMid m
  · intro item member mid isMid m
    rw [sameDirectory]
    exact linked.alikeLeft item member mid isMid m
  · rw [toRight, show Boards.faces (view rowA (devices.act deed).a) = _ from told.shown]
    cases said with
    | none =>
      rw [Option.toList_none, List.append_nil]
      exact linked.coherent
    | some item =>
      have issued := linked.coherent.issue item fun norm isName => by
        rintro ⟨other, onItsWay, isOther⟩
        exact unhurried.1 norm (told.about item rfl norm isName) other onItsWay isOther
      have performed : (operations common).act (Boards.faces (view rowA devices.a)) item =
          Boards.faces (Boards.replay (directory rowA devices.a) 0 item (view rowA devices.a)) := by
        refine (Boards.faces_replay common 0 item _).trans (Boards.faces_replay_directory ?_ 0 _)
        intro mid isMid m
        exact linked.reads mid m (alike item rfl mid isMid m)
      rw [performed] at issued
      exact issued

theorem Linked.deliver {devices : Devices} (linked : Linked ids idsB common rowA rowB devices)
    (timestamp now : Int) :
    Linked ids idsB common rowA rowB (devices.deliver timestamp now) := by
  unfold Devices.deliver
  cases next : devices.toRight with
  | nil => exact linked
  | cons item rest =>
    obtain ⟨filed', refines⟩ := executeSyncItem_refines rowB linked.filedB item timestamp now
    have kept := keeps_executeSyncItem item timestamp now
    have msgs : (LabelStreams.deliver devices.b ⟨item, timestamp, now⟩).msgs = devices.b.msgs :=
      (kept.coarser Db.msgs) devices.b
    have config : (LabelStreams.deliver devices.b ⟨item, timestamp, now⟩).config =
      devices.b.config :=
      (kept.coarser Db.config) devices.b
    have items : (LabelStreams.deliver devices.b ⟨item, timestamp, now⟩).syncItems =
        devices.b.syncItems := (kept.coarser Db.syncItems) devices.b
    have sameDirectory : directory rowB (LabelStreams.deliver devices.b ⟨item, timestamp, now⟩) =
        directory rowB devices.b := directory_congr msgs
    have left : devices.a.syncItems.drop (devices.toldB + 1) = rest := by
      rw [← List.drop_drop, show devices.a.syncItems.drop devices.toldB = _ from next]
      rfl
    have more : devices.toldB < devices.a.syncItems.length := by
      by_contra done
      have nothing : devices.toRight = [] := List.drop_eq_nil_of_le (Nat.le_of_not_lt done)
      rw [next] at nothing
      cases nothing
    have alike := linked.alikeRight item (by rw [next]; exact List.mem_cons_self)
    refine
      { filedA := linked.filedA
        filedB := filed'
        sendsA := linked.sendsA
        sendsB := ?_
        heardA := ?_
        heardB := more
        reads := ?_
        alikeRight := ?_
        alikeLeft := ?_
        coherent := ?_ }
    · have sends := linked.sendsB
      unfold shouldSendSyncMsgs at sends ⊢
      rw [config]
      exact sends
    · rw [items]
      exact linked.heardA
    · rw [sameDirectory]
      exact linked.reads
    · intro other member mid isMid m
      rw [sameDirectory]
      rw [Devices.toRight, left] at member
      exact linked.alikeRight other (next ▸ List.mem_cons_of_mem _ member) mid isMid m
    · intro other member mid isMid m
      rw [sameDirectory]
      rw [Devices.toLeft, Devices.swap, Devices.toRight, items] at member
      exact linked.alikeLeft other member mid isMid m
    · have delivered := linked.coherent.deliver next
      have performed : (operations common).act (Boards.faces (view rowB devices.b)) item =
          Boards.faces (Boards.replay (directory rowB devices.b) timestamp item
            (view rowB devices.b)) := by
        refine (Boards.faces_replay common timestamp item _).trans
          (Boards.faces_replay_directory ?_ timestamp _)
        intro mid isMid m
        exact (linked.reads mid m (alike mid isMid m)).trans (alike mid isMid m)
      rw [performed, ← refines] at delivered
      simp only [Devices.toRight, Devices.toLeft, Devices.swap, left, items]
      exact delivered

/-! ## Convergence -/

def labelAt (norm : Text) (db : Db) : Option Label :=
  db.labels.find? fun label => label.nameNorm == norm

/-- The same names and colours, and the same labels on the same messages. -/
structure SameLabelling (rowA rowB : μ → MsgId) (a b : Db) : Prop where
  labels : ∀ norm, (labelAt norm a).map (fun label => (label.name, label.color)) =
    (labelAt norm b).map fun label => (label.name, label.color)
  carried : ∀ m norm, Tagged (rowA m) norm a ↔ Tagged (rowB m) norm b

theorem system_of_name (okA : LabelsOk ids a) (okB : LabelsOk idsB b) {here there : Label}
    (isHere : here ∈ a.labels) (isThere : there ∈ b.labels) (same : here.name = there.name) :
    here.system = true → there.system = true := by
  intro system
  obtain ⟨reserved, isReserved, isName, isSystem, _⟩ := okB.reserved here.name
    (okA.system here isHere system)
  have isSame : there = reserved := by
    refine List.inj_on_of_nodup_map okB.norms_nodup isThere isReserved ?_
    rw [okB.norms there isThere, okB.norms reserved isReserved, isName, same]
  rw [isSame, isSystem]

omit [Unicode] in
theorem labelAt_mem {norm : Text} (found : labelAt norm db = some label) :
    label ∈ db.labels := List.mem_of_find?_eq_some found

omit [Unicode] in
theorem view_labelAt (row : μ → MsgId) (db : Db) (norm : Text) :
    view row db norm = (labelAt norm db).map (columnOf row db) := rfl

theorem sameLabelling_iff (filedA : Filed ids a) (filedB : Filed idsB b) :
    Boards.faces (view rowA a) = Boards.faces (view rowB b) ↔ SameLabelling rowA rowB a b := by
  constructor
  · intro same
    have at' := fun norm => congrFun same norm
    simp only [Boards.faces, view_labelAt, Option.map_map] at at'
    refine ⟨fun norm => ?_, fun m norm => ?_⟩
    · have shown := congrArg (Option.map fun face : Boards.Face μ =>
        (face.name, face.color)) (at' norm)
      simpa only [Option.map_map, Function.comp_def, Column.face, columnOf] using shown
    · have shown := congrArg (fun face : Option (Boards.Face μ) =>
        face.elim false (·.on m)) (at' norm)
      rw [tagged_row rowA filedA m [], tagged_row rowB filedB m [], view_labelAt, view_labelAt]
      cases foundA : labelAt norm a <;> cases foundB : labelAt norm b <;>
        simp_all [tagOf, Column.face]
  · rintro ⟨labels, carried⟩
    funext norm
    have isLabel := labels norm
    simp only [Boards.faces, view_labelAt, Option.map_map]
    cases foundA : labelAt norm a with
    | none =>
      rw [foundA] at isLabel
      have absent := Option.map_eq_none_iff.mp isLabel.symm
      rw [absent]
      rfl
    | some here =>
      rw [foundA, Option.map_some] at isLabel
      obtain ⟨there, foundB, names⟩ := Option.map_eq_some_iff.mp isLabel.symm
      obtain ⟨isName, isColor⟩ := Prod.mk.inj names
      rw [foundB, Option.map_some, Option.map_some, Option.some.injEq]
      have system : here.system = there.system := by
        rw [Bool.eq_iff_iff]
        exact ⟨system_of_name filedA.labels filedB.labels (labelAt_mem foundA) (labelAt_mem foundB)
          isName.symm, system_of_name filedB.labels filedA.labels (labelAt_mem foundB)
          (labelAt_mem foundA) isName⟩
      have on : ∀ m, (columnOf rowA a here).on m = (columnOf rowB b there).on m := by
        intro m
        have tagged := carried m norm
        rw [tagged_row rowA filedA m [], tagged_row rowB filedB m [], view_labelAt, view_labelAt,
          foundA, foundB] at tagged
        exact Bool.eq_iff_iff.mpr tagged
      simp only [Function.comp_def, Column.face, Boards.Face.mk.injEq]
      exact ⟨isName.symm, isColor.symm, system, funext on⟩

def together (a b : Db) : Devices :=
  { a, b, toldB := a.syncItems.length, toldA := b.syncItems.length }

theorem linked_together (filedA : Filed ids a) (filedB : Filed idsB b)
    (sendsA : shouldSendSyncMsgs a = true) (sendsB : shouldSendSyncMsgs b = true)
    (same : SameLabelling rowA rowB a b) :
    Linked ids idsB (directory rowA a) rowA rowB (together a b) := by
  have nothingRight : (together a b).toRight = [] := List.drop_length
  have nothingLeft : (together a b).toLeft = [] := List.drop_length
  refine ⟨filedA, filedB, sendsA, sendsB, le_refl _, le_refl _, fun _ _ _ => rfl, ?_, ?_, ?_⟩
  · intro item member
    rw [nothingRight] at member
    cases member
  · intro item member
    rw [nothingLeft] at member
    cases member
  · rw [nothingRight, nothingLeft]
    have shown := (sameLabelling_iff filedA filedB).mpr same
    simp only [together, ← shown]
    exact Lib.Replicas.coherent_start _

theorem linked_step (injA : Function.Injective rowA)
    (injB : Function.Injective rowB) (devices : Devices) (taken : Step)
    (linked : Linked ids idsB common rowA rowB devices)
    (careful : OneAtATime rowA rowB devices taken) :
    Linked ids idsB common rowA rowB (step devices taken) := by
  cases taken with
  | here deed => exact linked.act injA injB careful
  | there deed => exact (linked.swap.act injB injA careful).swap
  | deliverThere timestamp now => exact linked.deliver timestamp now
  | deliverHere timestamp now => exact (linked.swap.deliver timestamp now).swap

/-- Devices that start the same, and never touch a label while a change to one of that name
is on its way to them, are the same again once all is delivered. -/
theorem devices_converge {rowA rowB : μ → MsgId} {a b : Db} (filedA : Filed ids a)
    (filedB : Filed idsB b) (messages : SameMessages rowA rowB a b)
    (same : SameLabelling rowA rowB a b) (sendsA : shouldSendSyncMsgs a = true)
    (sendsB : shouldSendSyncMsgs b = true) (steps : List Step)
    (careful : MeetsAll step (OneAtATime rowA rowB) (together a b) steps)
    (deliveredRight : (runAll step (together a b) steps).toRight = [])
    (deliveredLeft : (runAll step (together a b) steps).toLeft = []) :
    SameLabelling rowA rowB (runAll step (together a b) steps).a
      (runAll step (together a b) steps).b := by
  have start := linked_together filedA filedB sendsA sendsB same
  have linked := invariant_of_meetsAll (linked_step messages.injA messages.injB) steps
    (together a b) start careful
  exact (sameLabelling_iff linked.filedA linked.filedB).mp
    (linked.coherent.settled deliveredRight deliveredLeft)

end

section

local instance : Unicode := asciiTables

instance (msgId : MsgId) (db : Db) : Decidable (IsLive msgId db) :=
  inferInstanceAs (Decidable (∃ msg ∈ db.msgs, _))

/-- A message that came in two parts is two rows with one Message-ID. -/
def twoParts : Db :=
  { emptyAccount with
    config := { syncMsgs := true, bccSelf := true }
    msgs := [{ id := 8, rfc724Mid := "a@b".toList, chatId := 10 },
             { id := 9, rfc724Mid := "a@b".toList, chatId := 10 }] }

def partRow (second : Bool) : MsgId := if second then 9 else 8

theorem partRow_injective : Function.Injective partRow := by
  intro x y
  cases x <;> cases y <;> decide

theorem filed_twoParts : Filed migratedIds twoParts := filed_migrated rfl rfl rfl rfl

theorem mirrored_twoParts : Mirrored partRow partRow twoParts twoParts where
  injA := partRow_injective
  injB := partRow_injective
  ontoA := by decide
  ontoB := by decide
  same := by decide
  names _ := Iff.rfl
  carried _ _ := Iff.rfl

/-- The second part is archived here, and the first part there. -/
theorem second_part_archived_as_first :
    Mirrored partRow partRow twoParts twoParts ∧ IsLive 9 twoParts ∧
      Tagged 9 "archive".toList (stateAfter (change [9] 1 true) twoParts) ∧
      ¬Tagged 9 "archive".toList (runAll deliver twoParts
        (replayed twoParts (stateAfter (change [9] 1 true) twoParts) 5 6)) ∧
      Tagged 8 "archive".toList (runAll deliver twoParts
        (replayed twoParts (stateAfter (change [9] 1 true) twoParts) 5 6)) :=
  ⟨mirrored_twoParts, by decide, by decide +kernel, by decide +kernel, by decide +kernel⟩

theorem first_part_archived_there :
    Tagged 8 "archive".toList (runAll deliver twoParts
      (replayed twoParts (stateAfter (change [8] 1 true) twoParts) 5 6)) := by
  have archive : { id := 1, name := archiveName, nameNorm := "archive".toList, system := true } ∈
      twoParts.labels := by decide
  have reproduces := (replay_reproduces_iff filed_twoParts filed_twoParts
    mirrored_twoParts rfl archive
    [8] true 5 6).mpr (by unfold Replayable; decide +kernel)
  exact (reproduces false (by decide) "archive".toList).mp (by decide +kernel)

/-- Both devices get "Work", in different colours. -/
def bothCreate : List Step :=
  [.here (.create "Work".toList (some 1) 5), .there (.create "work".toList (some 2) 5),
   .deliverThere 6 6, .deliverHere 6 6]

/-- One device archives the message while the other takes it out of the archive. -/
def bothArchive : List Step :=
  [.here (.change [8] 1 true), .there (.change [8] 1 false), .deliverThere 6 6, .deliverHere 6 6]

/-- All is delivered, and the labels differ in name and colour, or in where they are. -/
theorem devices_diverge : ((runAll step (together twoParts twoParts) bothCreate).toRight = [] ∧
        (runAll step (together twoParts twoParts) bothCreate).toLeft = [] ∧
        (labelAt "work".toList (runAll step (together twoParts twoParts) bothCreate).a).map
            (fun label => (label.name, label.color)) = some ("Work".toList, some 1) ∧
        (labelAt "work".toList (runAll step (together twoParts twoParts) bothCreate).b).map
            (fun label => (label.name, label.color)) = some ("work".toList, some 2)) ∧
      (runAll step (together twoParts twoParts) bothArchive).toRight = [] ∧
      (runAll step (together twoParts twoParts) bothArchive).toLeft = [] ∧
      ¬Tagged 8 "archive".toList (runAll step (together twoParts twoParts) bothArchive).a ∧
      Tagged 8 "archive".toList (runAll step (together twoParts twoParts) bothArchive).b := by
  decide +kernel

def labelThenUse : List Step :=
  [.here (.create "Work".toList (some 1) 5), .deliverThere 6 6, .there (.change [8] 4 true),
   .here (.change [] 1 true), .deliverHere 7 7]

theorem label_then_use_converges :
    Tagged 8 "work".toList (runAll step (together twoParts twoParts) labelThenUse).a ↔
      Tagged 8 "work".toList (runAll step (together twoParts twoParts) labelThenUse).b := by
  have alone : ∀ msgId ∈ ([] : List MsgId),
      FoundOnBoth partRow partRow twoParts twoParts msgId := by
    intro msgId member
    cases member
  have careful : MeetsAll step (OneAtATime partRow partRow)
      (together twoParts twoParts) labelThenUse := by
    refine ⟨⟨by decide +kernel, alone⟩, trivial, ⟨by decide +kernel, ?_⟩,
      ⟨by decide +kernel, ?_⟩, trivial, trivial⟩
    · intro msgId member
      rw [List.mem_singleton.mp member]
      exact ⟨false, { id := 8, rfc724Mid := "a@b".toList, chatId := 10 }, rfl, by decide +kernel,
        by decide +kernel, by decide +kernel⟩
    · intro msgId member
      cases member
  exact (devices_converge filed_twoParts filed_twoParts mirrored_twoParts.toSameMessages
    ⟨fun _ => rfl, fun _ _ => Iff.rfl⟩ rfl rfl labelThenUse careful (by decide +kernel)
    (by decide +kernel)).carried false "work".toList

end

end Eeemail.DeviceSync
