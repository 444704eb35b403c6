import Eeemail.Store

/-! # Labels

`core/src/email/labels.rs`: labels, their application to messages, the replay
of changes made on another device, and the changes parked for messages that
have not arrived yet. -/

set_option autoImplicit false

namespace Eeemail.Labels

open Lib.Texts Lib.Actions Lib.Tables Store

def archiveName : Text := "Archive".toList

def trashName : Text := "Trash".toList

def unverifiedName : Text := "Unverified".toList

def reservedNames : List Text := [archiveName, trashName, unverifiedName]

def pendingTtl : Int := 90 * 86400

/-- `sync::Sync`: whether a change is announced to the user's other devices. -/
inductive Sync where
  | sync
  | nosync
  deriving DecidableEq, Repr

def shouldSendSyncMsgs (db : Db) : Bool :=
  db.config.syncMsgs && db.config.bccSelf && !db.config.bot

def addSyncItem (item : LabelSyncItem) (db : Db) : Db :=
  if shouldSendSyncMsgs db then { db with syncItems := db.syncItems ++ [item] } else db

def announce (mode : Sync) (item : LabelSyncItem) (db : Db) : Db :=
  match mode with
  | .sync => addSyncItem item db
  | .nosync => db

/-- `message::rfc724_mid_exists`: the row a Message-ID names.  The aggregate in
its query reports the first row that matches. -/
def rfc724MidExists (mid : Text) (db : Db) : Option MsgId :=
  let mid := trimEndBy (· == '>') (trimStartBy (· == '<') mid)
  if mid.isEmpty then none
  else
    (db.msgs.find? fun msg => msg.rfc724Mid == mid || msg.preRfc724Mid == mid).map (·.id)

def rfc724Mids (msgs : List MsgId) (db : Db) : List Text :=
  (msgs.filterMap fun id => (db.msgById id).map (·.rfc724Mid)).filter (!·.isEmpty)

def setRows (msgs : List MsgId) (labelId : LabelId) (apply : Bool)
    (rows : List MsgLabel) : List MsgLabel :=
  msgs.foldl
    (fun rows msgId =>
      if apply then insertOrIgnore id { msgId, labelId } rows
      else deleteWhere (· == { msgId, labelId }) rows)
    rows

def setExt (msgs : List MsgId) (label : Label) (apply : Bool) (mode : Sync) (db : Db) : Db :=
  if msgs.isEmpty then db
  else
    let db := { db with msgLabels := setRows msgs label.id apply db.msgLabels }
    let mids := rfc724Mids msgs db
    if mids.isEmpty then db
    else
      announce mode (if apply then .apply mids label.name else .unapply mids label.name) db

def newestFirst (msgs : List Message) : List Message :=
  msgs.insertionSort fun a b =>
    b.timestamp < a.timestamp ∨ (a.timestamp = b.timestamp ∧ b.id ≤ a.id)

def msgsWith (labelId : LabelId) (db : Db) : List MsgId :=
  (newestFirst (db.msgs.filter fun msg =>
    msg.isLive && !msg.hidden && db.msgLabels.contains { msgId := msg.id, labelId })).map (·.id)

section

variable [Unicode]

def normalize (name : Text) : Text := lowercase (trim name)

def byName (name : Text) (db : Db) : Option Label :=
  db.labels.find? (fun label => label.nameNorm == normalize name)

def reserved (name : Text) : DbAction Label :=
  queryExcept fun db =>
    match byName name db with
    | some label => .ok label
    | none => .error ("reserved label ".toList ++ name ++
        " is missing; the database was not migrated".toList)

def load (id : LabelId) : DbAction Label :=
  queryExcept fun db =>
    match db.labels.find? (fun label => label.id == id) with
    | some label => .ok label
    | none => .error ("no label with id ".toList ++ (toString id).toList)

/-! ## Creating, renaming, recolouring, deleting -/

/-- `INSERT … ON CONFLICT(name_norm) DO NOTHING`; the id is used up only by a new row. -/
def insertLabel (name nameNorm : Text) (color : Option Nat) (now : Int) (db : Db) : Db :=
  if db.labels.any (fun label => label.nameNorm == nameNorm) then db
  else
    { db with
      labels := db.labels ++
        [{ id := db.nextLabelId, name, nameNorm, color, system := false, created := now }]
      nextLabelId := db.nextLabelId + 1 }

def createExt (name : Text) (color : Option Nat) (mode : Sync) (now : Int) : DbAction Label := do
  ensure (!(trim name).isEmpty) "label name cannot be empty".toList
  match ← query (byName (normalize (trim name))) with
  | some existing => pure existing
  | none =>
    exec (insertLabel (trim name) (normalize (trim name)) color now)
    exec (announce mode (.create (trim name) color))
    queryExcept fun db =>
      match byName (normalize (trim name)) db with
      | some label => .ok label
      | none => .error "label vanished immediately after being created".toList

def renameExt (label : Label) (newName : Text) (mode : Sync) : DbAction Unit := do
  ensure (!label.system) (label.name ++ " is a reserved label and cannot be renamed".toList)
  ensure (!(trim newName).isEmpty) "label name cannot be empty".toList
  let taken ← query (byName (normalize (trim newName)))
  ensure (taken.all fun existing => existing.id == label.id)
    ("a label named ".toList ++ Unicode.debug (trim newName) ++ " already exists".toList)
  exec fun db =>
    { db with
      labels := updateWhere (fun row => row.id == label.id)
        (fun row => { row with name := trim newName, nameNorm := normalize (trim newName) })
        db.labels }
  exec (announce mode (.rename label.name (trim newName)))

def setColorExt (label : Label) (color : Option Nat) (mode : Sync) (db : Db) : Db :=
  announce mode (.setColor label.name color)
    { db with
      labels := updateWhere (fun row => row.id == label.id)
        (fun row => { row with color }) db.labels }

def deleteExt (label : Label) (mode : Sync) : DbAction Unit := do
  ensure (!label.system) (label.name ++ " is a reserved label and cannot be deleted".toList)
  exec fun db =>
    { db with
      msgLabels := deleteWhere (fun row => row.labelId == label.id) db.msgLabels
      pendingMsgLabels := deleteWhere (fun row => row.labelId == label.id) db.pendingMsgLabels
      labels := deleteWhere (fun row => row.id == label.id) db.labels }
  exec (announce mode (.delete label.name))

/-! ## The local operations -/

def create (name : Text) (color : Option Nat) (now : Int) : DbAction Label :=
  createExt name color .sync now

def rename (id : LabelId) (newName : Text) : DbAction Unit := do
  let label ← load id
  renameExt label newName .sync

def setColor (id : LabelId) (color : Option Nat) : DbAction Unit := do
  let label ← load id
  exec (setColorExt label color .sync)

def delete (id : LabelId) : DbAction Unit := do
  let label ← load id
  deleteExt label .sync

def apply (msgs : List MsgId) (id : LabelId) : DbAction Unit := do
  let label ← load id
  exec (setExt msgs label true .sync)

def unapply (msgs : List MsgId) (id : LabelId) : DbAction Unit := do
  let label ← load id
  exec (setExt msgs label false .sync)

def archive (msgs : List MsgId) : DbAction Unit := do
  let label ← reserved archiveName
  exec (setExt msgs label true .sync)

def unarchive (msgs : List MsgId) : DbAction Unit := do
  let label ← reserved archiveName
  exec (setExt msgs label false .sync)

/-! ## Device sync -/

/-- Parks a change for a message we do not have.  The latest intent wins. -/
def parkRow (mid : Text) (labelId : LabelId) (apply : Bool) (timestamp : Int)
    (rows : List PendingMsgLabel) : List PendingMsgLabel :=
  if rows.any (fun row => row.rfc724Mid == mid && row.labelId == labelId) then
    updateWhere
      (fun row => row.rfc724Mid == mid && row.labelId == labelId && row.timestamp ≤ timestamp)
      (fun row => { row with apply, timestamp }) rows
  else rows ++ [{ rfc724Mid := mid, labelId, apply, timestamp }]

/-- The label a sync item names; applying a label implies it exists. -/
def labelForSync (name : Text) (color : Option Nat) (now : Int) : DbAction Label := do
  match ← query (byName name) with
  | some label => pure label
  | none => createExt name color .nosync now

def syncSet (mids : List Text) (labelName : Text) (apply : Bool) (timestamp now : Int) :
    DbAction Unit := do
  let label ← labelForSync labelName none now
  let resolved ← query fun db => mids.filterMap fun mid => rfc724MidExists mid db
  let pending ← query fun db => mids.filter fun mid => (rfc724MidExists mid db).isNone
  exec (setExt resolved label apply .nosync)
  exec fun db =>
    { db with
      pendingMsgLabels :=
        pending.foldl (fun rows mid => parkRow mid label.id apply timestamp rows)
          db.pendingMsgLabels }

/-- Replays a label change from another device, never announcing it again. -/
def executeSyncItem (item : LabelSyncItem) (timestamp now : Int) : DbAction Unit :=
  match item with
  | .create name color => do
    let _ ← createExt name color .nosync now
    pure ()
  | .rename source target => do
    match ← query (byName source) with
    | some label => renameExt label target .nosync
    | none => do
      let _ ← createExt target none .nosync now
      pure ()
  | .delete name => do
    match ← query (byName name) with
    | some label => deleteExt label .nosync
    | none => pure ()
  | .setColor name color => do
    let label ← labelForSync name color now
    exec (setColorExt label color .nosync)
  | .apply msgs label => syncSet msgs label true timestamp now
  | .unapply msgs label => syncSet msgs label false timestamp now

end

theorem normalize_of_plain [AsciiUnicode] {name : Text} (plain : name.all isPlain = true) :
    normalize name = asciiLower name := by
  rw [Labels.normalize, trim_of_plain plain, lowercase_of_plain plain]

/-- `drain_pending`: applies the changes that were waiting for this message. -/
def drainPending (msgId : MsgId) (db : Db) : Db :=
  match db.msgById msgId with
  | none => db
  | some msg =>
    if msg.rfc724Mid.isEmpty then db
    else
      let pending := db.pendingMsgLabels.filter (fun row => row.rfc724Mid == msg.rfc724Mid)
      { db with
        msgLabels := pending.foldl
          (fun rows row => setRows [msgId] row.labelId row.apply rows) db.msgLabels
        pendingMsgLabels :=
          deleteWhere (fun row => row.rfc724Mid == msg.rfc724Mid) db.pendingMsgLabels }

/-- `prune`: drops rows of messages that are gone and changes parked too long. -/
def prune (now : Int) (db : Db) : Db :=
  { db with
    msgLabels := db.msgLabels.filter fun row =>
      db.msgs.any fun msg => msg.id == row.msgId && msg.isLive
    pendingMsgLabels :=
      deleteWhere (fun row => row.timestamp < saturatingSub now pendingTtl) db.pendingMsgLabels }

/-! ## What the writes do -/

variable {labelId : LabelId}

theorem mem_setRows_true {msgs : List MsgId} {rows : List MsgLabel}
    {row : MsgLabel} :
    row ∈ setRows msgs labelId true rows ↔
      row ∈ rows ∨ (row.labelId = labelId ∧ row.msgId ∈ msgs) := by
  induction msgs generalizing rows with
  | nil => simp [setRows]
  | cons msgId rest ih =>
    have step : setRows (msgId :: rest) labelId true rows =
        setRows rest labelId true (insertOrIgnore id { msgId, labelId } rows) := rfl
    have inserted : row ∈ insertOrIgnore id { msgId, labelId } rows ↔
        row ∈ rows ∨ row = { msgId, labelId } := by
      rw [mem_insertOrIgnore]
      constructor
      · rintro (member | ⟨same, _⟩)
        · exact Or.inl member
        · exact Or.inr same
      · rintro (member | same)
        · exact Or.inl member
        · by_cases already : row ∈ rows
          · exact Or.inl already
          · refine Or.inr ⟨same, ?_⟩
            intro old member clash
            rw [same] at already
            rw [id, id] at clash
            rw [clash] at member
            exact already member
    rw [step, ih, inserted]
    obtain ⟨rowMsg, rowLabel⟩ := row
    simp only [MsgLabel.mk.injEq, List.mem_cons]
    constructor
    · rintro ((member | ⟨sameMsg, sameLabel⟩) | ⟨sameLabel, member⟩)
      · exact Or.inl member
      · exact Or.inr ⟨sameLabel, Or.inl sameMsg⟩
      · exact Or.inr ⟨sameLabel, Or.inr member⟩
    · rintro (member | ⟨sameLabel, sameMsg | member⟩)
      · exact Or.inl (Or.inl member)
      · exact Or.inl (Or.inr ⟨sameMsg, sameLabel⟩)
      · exact Or.inr ⟨sameLabel, member⟩

theorem mem_setRows_false {msgs : List MsgId} {rows : List MsgLabel}
    {row : MsgLabel} :
    row ∈ setRows msgs labelId false rows ↔
      row ∈ rows ∧ ¬(row.labelId = labelId ∧ row.msgId ∈ msgs) := by
  induction msgs generalizing rows with
  | nil => simp [setRows]
  | cons msgId rest ih =>
    have step : setRows (msgId :: rest) labelId false rows =
        setRows rest labelId false (deleteWhere (· == { msgId, labelId }) rows) := rfl
    rw [step, ih, mem_deleteWhere]
    obtain ⟨rowMsg, rowLabel⟩ := row
    simp only [beq_eq_false_iff_ne, ne_eq, MsgLabel.mk.injEq, List.mem_cons]
    tauto

theorem mem_parkRow {mid : Text} {apply : Bool} {timestamp : Int}
    {rows : List PendingMsgLabel} {row : PendingMsgLabel}
    (member : row ∈ parkRow mid labelId apply timestamp rows) :
    row ∈ rows ∨ (row.labelId = labelId ∧ row.apply = apply) := by
  unfold parkRow at member
  split at member
  · obtain ⟨old, oldMember, rfl⟩ := mem_updateWhere.mp member
    split
    · rename_i matched
      simp only [Bool.and_eq_true, beq_iff_eq] at matched
      exact Or.inr ⟨matched.1.2, rfl⟩
    · exact Or.inl oldMember
  · rcases List.mem_append.mp member with old | new
    · exact Or.inl old
    · rw [List.mem_singleton.mp new]
      exact Or.inr ⟨rfl, rfl⟩

theorem announce_eq (mode : Sync) (item : LabelSyncItem) (db : Db) :
    ∃ items, announce mode item db = { db with syncItems := items } := by
  cases mode with
  | nosync => exact ⟨db.syncItems, rfl⟩
  | sync =>
    simp only [announce, addSyncItem]
    split
    · exact ⟨_, rfl⟩
    · exact ⟨db.syncItems, rfl⟩

theorem setExt_eq (msgs : List MsgId) (label : Label) (apply : Bool) (mode : Sync) (db : Db) :
    ∃ items, setExt msgs label apply mode db =
      { db with msgLabels := setRows msgs label.id apply db.msgLabels, syncItems := items } := by
  unfold setExt
  split
  next none =>
    have empty : msgs = [] := List.isEmpty_iff.mp none
    subst empty
    exact ⟨db.syncItems, rfl⟩
  next =>
    simp only
    split
    · exact ⟨db.syncItems, rfl⟩
    · obtain ⟨items, announced⟩ := announce_eq mode
        (if apply then .apply (rfc724Mids msgs _) label.name
          else .unapply (rfc724Mids msgs _) label.name)
        { db with msgLabels := setRows msgs label.id apply db.msgLabels }
      exact ⟨items, announced⟩

end Eeemail.Labels
