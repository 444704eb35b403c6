import Eeemail.Mailbox

/-! # Migrations

`core/src/sql/migrations.rs` from version 166 on, as far as it writes labels
and settings.  A migration is a transaction, so one that fails leaves the
database at the version before, and the program that needs the later version
does not open it.

The reserved labels came in three steps: `Archive` with version 166, `Trash` and
`Holding` with 169, and 171 renamed `Holding` to `Unverified`.  A label of the
user's can have one of these names before the migration that claims it, and
then the migration fails. -/

set_option autoImplicit false

namespace Eeemail.Migrations

open Lib.Texts Lib.Actions Lib.Tables Lib.Runs Store Labels ReservedLabels

/-! ## The migrations -/

structure Versioned where
  version : Nat
  settings : List (Text × Text) := []
  db : Db := {}

/-- The name that the label `Unverified` had before version 171. -/
def holdingName : Text := "Holding".toList

def uniqueFailed (column : String) : Text := "UNIQUE constraint failed: ".toList ++ column.toList

/-- `INSERT INTO labels (name, name_norm, system, created) VALUES (.., .., 1, 0)`. -/
def insertReserved (name nameNorm : Text) : Action Text Versioned Unit := do
  let taken ← query fun file => file.db.labels.any fun label => label.nameNorm == nameNorm
  ensure (!taken) (uniqueFailed "labels.name_norm")
  exec fun file =>
    { file with
      db :=
        { file.db with
          labels := file.db.labels ++
            [{ id := file.db.nextLabelId, name, nameNorm, system := true }]
          nextLabelId := file.db.nextLabelId + 1 } }

def isHolding (label : Label) : Bool := label.nameNorm == "holding".toList && label.system

/-- `UPDATE labels SET name='Unverified', .. WHERE name_norm='holding' AND system=1`. -/
def renameHolding : Action Text Versioned Unit := do
  let clash ← query fun file =>
    file.db.labels.any isHolding &&
      file.db.labels.any fun label => label.nameNorm == "unverified".toList
  ensure (!clash) (uniqueFailed "labels.name_norm")
  exec fun file =>
    { file with
      db :=
        { file.db with
          labels := updateWhere isHolding
            (fun label => { label with name := unverifiedName, nameNorm := "unverified".toList })
            file.db.labels } }

def hasSetting (key : Text) (settings : List (Text × Text)) : Bool :=
  settings.any fun row => row.1 == key

def ephemeralTrashDays : Text := "ephemeral_trash_days".toList

def trashPurgeDays : Text := "trash_purge_days".toList

/-- `UPDATE config SET keyname='trash_purge_days' WHERE keyname='ephemeral_trash_days'`. -/
def renameSetting : Action Text Versioned Unit := do
  let clash ← query fun file =>
    hasSetting ephemeralTrashDays file.settings && hasSetting trashPurgeDays file.settings
  ensure (!clash) (uniqueFailed "config.keyname")
  exec fun file =>
    { file with
      settings := updateWhere (fun row => row.1 == ephemeralTrashDays)
        (fun row => (trashPurgeDays, row.2)) file.settings }

/-- What the migration to a version executes.  Those not listed create tables and
columns, and nothing is in them yet. -/
def batch : Nat → Action Text Versioned Unit
  | 166 => insertReserved archiveName "archive".toList
  | 169 => do
    insertReserved trashName "trash".toList
    insertReserved holdingName "holding".toList
  | 171 => do
    renameHolding
    renameSetting
  | _ => pure ()

def executeMigration (version : Nat) : Action Text Versioned Unit :=
  onError
    (atomically do
      let current ← query Versioned.version
      ensure (decide (current < version)) "Db version must be increased".toList
      exec fun file => { file with version }
      batch version)
    (fun _ file => file)
    (fun _ => "execute_migration failed for version ".toList ++ (toString version).toList)

/-- `run` of a program whose newest migration is `newest`. -/
def runTo (newest : Nat) : Action Text Versioned Unit := do
  let dbversion ← query Versioned.version
  forEach (fun version => onlyIf (decide (dbversion < version)) (executeMigration version))
    (List.range' 166 (newest - 165))

def run : Action Text Versioned Unit := runTo 175

/-! ## Use of the labels between upgrades -/

inductive LabelOp where
  | create (name : Text) (color : Option Nat)
  | rename (id : LabelId) (newName : Text)
  | setColor (id : LabelId) (color : Option Nat)
  | delete (id : LabelId)
  | apply (msgs : List MsgId) (id : LabelId)
  | unapply (msgs : List MsgId) (id : LabelId)
  | archive (msgs : List MsgId)
  | unarchive (msgs : List MsgId)
  | syncItem (item : LabelSyncItem) (timestamp : Int)
  deriving DecidableEq, Repr

def LabelOp.toOp : LabelOp → Mailbox.Op
  | .create name color => .createLabel name color
  | .rename id newName => .renameLabel id newName
  | .setColor id color => .setLabelColor id color
  | .delete id => .deleteLabel id
  | .apply msgs id => .applyLabel msgs id
  | .unapply msgs id => .unapplyLabel msgs id
  | .archive msgs => .archive msgs
  | .unarchive msgs => .unarchive msgs
  | .syncItem item timestamp => .syncItem item timestamp

inductive Event where
  | label (now : Int) (op : LabelOp)
  /-- A program whose newest migration has this version opens the database. -/
  | openWith (newest : Nat)
  deriving DecidableEq, Repr

section

variable [AsciiUnicode] {names : List Text} {ids : Text → LabelId} {db : Db}
variable {file file' : Versioned}

/-- Before version 166 there are no labels to operate on. -/
def step (file : Versioned) : Event → Versioned
  | .label now op =>
    if file.version < 166 then file
    else { file with db := Mailbox.step file.db { now, op := op.toOp } }
  | .openWith newest => stateAfter (runTo newest) file

/-- A database from before there were labels. -/
structure Start (file : Versioned) : Prop where
  version : file.version = 165
  labels : file.db.labels = []
  settings : hasSetting trashPurgeDays file.settings = false

def namesAt (version : Nat) : List Text :=
  if version < 166 then []
  else if version < 169 then [archiveName]
  else if version < 171 then [archiveName, trashName, holdingName]
  else reservedNames

omit [AsciiUnicode] in
theorem namesAt_175 : namesAt 175 = reservedNames := by decide

def claimedAfter (version : Nat) : List Text :=
  if version < 166 then ["archive".toList, "trash".toList, "holding".toList, "unverified".toList]
  else if version < 169 then ["trash".toList, "holding".toList, "unverified".toList]
  else if version < 171 then ["unverified".toList]
  else []

def Unclaimed (file : Versioned) : Prop :=
  ∀ label ∈ file.db.labels, label.nameNorm ∉ claimedAfter file.version

/-! ## The label table -/

theorem normalize_archiveName : normalize archiveName = "archive".toList := by
  rw [normalize_of_plain (by decide)]
  decide

theorem normalize_trashName : normalize trashName = "trash".toList := by
  rw [normalize_of_plain (by decide)]
  decide

theorem normalize_holdingName : normalize holdingName = "holding".toList := by
  rw [normalize_of_plain (by decide)]
  decide

theorem normalize_unverifiedName : normalize unverifiedName = "unverified".toList := by
  rw [normalize_of_plain (by decide)]
  decide

theorem TableOk.inserted (ok : TableOk names ids db) {name nameNorm : Text}
    (norm : normalize name = nameNorm) (free : ∀ label ∈ db.labels, label.nameNorm ≠ nameNorm) :
    TableOk (names ++ [name]) (Function.update ids name db.nextLabelId)
      { db with
        labels := db.labels ++ [{ id := db.nextLabelId, name, nameNorm, system := true }]
        nextLabelId := db.nextLabelId + 1 } := by
  obtain ⟨idsNodup, idsLt, norms, normsNodup⟩ := ok.keys_append
    { id := db.nextLabelId, name, nameNorm, system := true } rfl norm.symm free
  refine ⟨idsNodup, idsLt, norms, normsNodup, ?_, ?_⟩
  · intro reservedName isReserved
    by_cases isNew : reservedName = name
    · subst isNew
      refine ⟨_, List.mem_append_right _ (List.mem_singleton.mpr rfl), rfl, rfl, ?_⟩
      rw [Function.update_self]
    · have older : reservedName ∈ names := by simpa [isNew] using isReserved
      obtain ⟨label, member, named, system, ident⟩ := ok.reserved reservedName older
      refine ⟨label, List.mem_append_left _ member, named, system, ?_⟩
      rw [Function.update_of_ne isNew]
      exact ident
  · intro label member system
    rcases List.mem_append.mp member with old | new
    · exact List.mem_append_left _ (ok.system label old system)
    · rw [List.mem_singleton.mp new]
      exact List.mem_append_right _ (List.mem_singleton.mpr rfl)

theorem TableOk.holdingRenamed (ok : TableOk (names ++ [holdingName]) ids db)
    (absent : holdingName ∉ names)
    (free : ∀ label ∈ db.labels, label.nameNorm ≠ "unverified".toList) :
    TableOk (names ++ [unverifiedName]) (Function.update ids unverifiedName (ids holdingName))
      { db with
        labels := updateWhere isHolding
          (fun label => { label with name := unverifiedName, nameNorm := "unverified".toList })
          db.labels } := by
  -- The row that the statement updates is the system label of that name.
  have only : ∀ label ∈ db.labels, isHolding label = true → label.name ∈ names → False := by
    intro label member holding named
    obtain ⟨own, ownMember, ownNamed, _, _⟩ :=
      ok.reserved holdingName (List.mem_append_right _ (List.mem_singleton.mpr rfl))
    have sameNorm : label.nameNorm = own.nameNorm := by
      rw [ok.norms own ownMember, ownNamed, normalize_holdingName]
      simp only [isHolding, Bool.and_eq_true, beq_iff_eq] at holding
      exact holding.1
    rw [eq_of_key_eq ok.norms_nodup member ownMember sameNorm, ownNamed] at named
    exact absent named
  have holding_of_named : ∀ label ∈ db.labels, label.system = true → label.name = holdingName →
      isHolding label = true := by
    intro label member system named
    simp only [isHolding, Bool.and_eq_true, beq_iff_eq]
    exact ⟨by rw [ok.norms label member, named, normalize_holdingName], system⟩
  have one : ∀ a ∈ db.labels, ∀ b ∈ db.labels, isHolding a = true → isHolding b = true → a = b := by
    intro a aMember b bMember isA isB
    simp only [isHolding, Bool.and_eq_true, beq_iff_eq] at isA isB
    exact eq_of_key_eq ok.norms_nodup aMember bMember (isA.1.trans isB.1.symm)
  obtain ⟨idsNodup, idsLt, norms, normsNodup⟩ := ok.keys_update normalize_unverifiedName one
    fun other isOther same => absurd same (free other isOther)
  refine ⟨idsNodup, idsLt, norms, normsNodup, ?_, ?_⟩
  · intro reservedName isReserved
    by_cases isNew : reservedName = unverifiedName
    · subst isNew
      obtain ⟨own, ownMember, named, system, ident⟩ :=
        ok.reserved holdingName (List.mem_append_right _ (List.mem_singleton.mpr rfl))
      refine ⟨_, mem_updateWhere.mpr ⟨own, ownMember, rfl⟩, ?_⟩
      rw [if_pos (holding_of_named own ownMember system named), Function.update_self]
      exact ⟨rfl, system, ident⟩
    · have older : reservedName ∈ names := by simpa [isNew] using isReserved
      obtain ⟨label, member, named, system, ident⟩ :=
        ok.reserved reservedName (List.mem_append_left _ older)
      have kept : isHolding label ≠ true := fun holding => only label member holding (named ▸ older)
      refine ⟨_, mem_updateWhere.mpr ⟨label, member, rfl⟩, ?_⟩
      rw [if_neg kept, Function.update_of_ne isNew]
      exact ⟨named, system, ident⟩
  · intro row rowMember system
    obtain ⟨old, oldMember, rfl⟩ := mem_updateWhere.mp rowMember
    by_cases holding : isHolding old = true
    · rw [if_pos holding]
      exact List.mem_append_right _ (List.mem_singleton.mpr rfl)
    · rw [if_neg holding] at system ⊢
      rcases List.mem_append.mp (ok.system old oldMember system) with older | isHoldingName
      · exact List.mem_append_left _ older
      · exact absurd (holding_of_named old oldMember system (List.mem_singleton.mp isHoldingName))
          holding

theorem TableOk.step (ok : TableOk names ids db) (now : Int) (op : LabelOp) :
    TableOk names ids (Mailbox.step db { now, op := op.toOp }) := by
  have kept : ∀ {db' : Db}, labelView db' = labelView db → TableOk names ids db' :=
    fun same => ok.of_labelView same
  cases op with
  | create name color =>
    simp only [LabelOp.toOp, Mailbox.step, Mailbox.perform, Mailbox.stateAfter_run]
    exact TableOk.preserves_createExt name color .sync now db ok
  | rename id newName => exact TableOk.preserves_rename id newName db ok
  | setColor id color => exact TableOk.preserves_setColor id color db ok
  | delete id => exact TableOk.preserves_delete id db ok
  | apply msgs id => exact kept (keeps_apply msgs id db)
  | unapply msgs id => exact kept (keeps_unapply msgs id db)
  | archive msgs => exact kept (keeps_archive msgs db)
  | unarchive msgs => exact kept (keeps_unarchive msgs db)
  | syncItem item timestamp => exact TableOk.preserves_executeSyncItem item timestamp now db ok

/-! ## One migration -/

/-- What every database has in common that was used and upgraded. -/
structure Ready (file : Versioned) : Prop where
  version : 165 ≤ file.version
  table : ∃ ids, TableOk (namesAt file.version) ids file.db
  empty : file.version < 166 → file.db.labels = []
  settings : file.version < 171 → hasSetting trashPurgeDays file.settings = false

/-- Every pair of a message and a label is still there, and so is the row of every
label; only `Holding` may have another name. -/
structure Kept (before after : Versioned) : Prop where
  pairs : after.db.msgLabels = before.db.msgLabels
  rows : ∀ label ∈ before.db.labels, label ∈ after.db.labels ∨
    (isHolding label = true ∧
      { label with name := unverifiedName, nameNorm := "unverified".toList } ∈ after.db.labels)

omit [AsciiUnicode] in
theorem Kept.refl (file : Versioned) : Kept file file := ⟨rfl, fun _ member => Or.inl member⟩

omit [AsciiUnicode] in
theorem Kept.trans {first second third : Versioned} (early : Kept first second)
    (late : Kept second third) : Kept first third := by
  refine ⟨late.pairs.trans early.pairs, fun label member => ?_⟩
  rcases early.rows label member with same | ⟨holding, renamed⟩
  · exact late.rows label same
  · rcases late.rows _ renamed with same | ⟨again, _⟩
    · exact Or.inr ⟨holding, same⟩
    · exact absurd again (by simp [isHolding])

/-- What a migration does to a database at the version before: it fails on a name
that is taken and changes nothing, or it brings the database to its version. -/
def Migrates (file : Versioned) : Prop :=
  (¬Unclaimed file ∧ ∃ e, (executeMigration (file.version + 1)).run file = .error e file) ∨
    ∃ file', (executeMigration (file.version + 1)).run file = .ok () file' ∧ Ready file' ∧
      file'.version = file.version + 1 ∧ Kept file file' ∧ (Unclaimed file' ↔ Unclaimed file)

section

omit [AsciiUnicode]

theorem executeMigration_run (file : Versioned) : (executeMigration (file.version + 1)).run file =
      match (batch (file.version + 1)).run { file with version := file.version + 1 } with
      | .ok _ file' => .ok () file'
      | .error _ _ => .error
          ("execute_migration failed for version ".toList ++ (toString (file.version + 1)).toList)
          file := by
  have next : decide (file.version < file.version + 1) = true := by simp
  simp only [executeMigration, onError, atomically, ensure, next, if_true, EStateM.run, bind,
    EStateM.bind, query, exec, pure, EStateM.pure]
  cases (batch (file.version + 1)) { file with version := file.version + 1 } with
  | ok u file' => rfl
  | error e file' => rfl

theorem insertReserved_eq_ok {name nameNorm : Text} :
    (insertReserved name nameNorm).run file = .ok () file' ↔
      (∀ label ∈ file.db.labels, label.nameNorm ≠ nameNorm) ∧
        file' =
          { file with
            db :=
              { file.db with
                labels := file.db.labels ++
                  [{ id := file.db.nextLabelId, name, nameNorm, system := true }]
                nextLabelId := file.db.nextLabelId + 1 } } := by
  have free : (file.db.labels.any fun label => label.nameNorm == nameNorm) = false ↔
      ∀ label ∈ file.db.labels, label.nameNorm ≠ nameNorm := by
    simp
  rw [← free]
  exact query_ensure_exec_eq_ok _ _ _ ()

theorem renameHolding_eq_ok (there : ∃ label ∈ file.db.labels, isHolding label = true) :
    renameHolding.run file = .ok () file' ↔
      (∀ label ∈ file.db.labels, label.nameNorm ≠ "unverified".toList) ∧
        file' =
          { file with
            db :=
              { file.db with
                labels := updateWhere isHolding
                  (fun label =>
                    { label with name := unverifiedName, nameNorm := "unverified".toList })
                  file.db.labels } } := by
  have free : (file.db.labels.any isHolding &&
        file.db.labels.any fun label => label.nameNorm == "unverified".toList) = false ↔
      ∀ label ∈ file.db.labels, label.nameNorm ≠ "unverified".toList := by
    rw [List.any_eq_true.mpr there, Bool.true_and]
    simp
  rw [← free]
  exact query_ensure_exec_eq_ok _ _ _ ()

theorem renameSetting_run (absent : hasSetting trashPurgeDays file.settings = false) :
    renameSetting.run file = .ok ()
      { file with
        settings := updateWhere (fun row => row.1 == ephemeralTrashDays)
          (fun row => (trashPurgeDays, row.2)) file.settings } :=
  (query_ensure_exec_eq_ok _ _ _ ()).mpr ⟨by rw [absent, Bool.and_false], rfl⟩

theorem executeMigration_of_not_ok
    (failed : ∀ file', (batch (file.version + 1)).run { file with version := file.version + 1 } ≠
      .ok () file') : ∃ e, (executeMigration (file.version + 1)).run file = .error e file := by
  rw [executeMigration_run]
  cases result : (batch (file.version + 1)).run { file with version := file.version + 1 } with
  | ok u file' => exact absurd result (failed file')
  | error e file' => exact ⟨_, rfl⟩

theorem executeMigration_of_ok
    (success : (batch (file.version + 1)).run { file with version := file.version + 1 } =
      .ok () file') : (executeMigration (file.version + 1)).run file = .ok () file' := by
  rw [executeMigration_run, success]

end

section

variable (ready : Ready file)

include ready

theorem migrates_idle (first : file.version ≠ 165)
    (second : file.version ≠ 168) (third : file.version ≠ 170) : Migrates file := by
  have low := ready.version
  have idle : batch (file.version + 1) = pure () := by
    unfold batch
    split <;> first | omega | rfl
  have sameNames : namesAt (file.version + 1) = namesAt file.version := by
    unfold namesAt
    split_ifs <;> first | omega | rfl
  have sameClaims : claimedAfter (file.version + 1) = claimedAfter file.version := by
    unfold claimedAfter
    split_ifs <;> first | omega | rfl
  refine Or.inr ⟨{ file with version := file.version + 1 }, executeMigration_of_ok ?_, ?_, rfl,
    ⟨rfl, fun _ member => Or.inl member⟩, ?_⟩
  · rw [idle]
    rfl
  · refine ⟨by simp only; omega, ?_, fun _ => by simp only at *; omega, fun early => ?_⟩
    · simp only [sameNames]
      exact ready.table
    · exact ready.settings (Nat.lt_of_succ_lt early)
  · simp only [Unclaimed, sameClaims]

theorem migrates_archive (at165 : file.version = 165) : Migrates file := by
  obtain ⟨version, settings, db⟩ := file
  subst at165
  obtain ⟨ids, ok⟩ := ready.table
  have none : db.labels = [] := ready.empty (show 165 < 166 by decide)
  have absent : hasSetting trashPurgeDays settings = false :=
    ready.settings (show 165 < 171 by decide)
  have free : ∀ label ∈ db.labels, label.nameNorm ≠ "archive".toList := by simp [none]
  refine Or.inr ⟨_, executeMigration_of_ok (insertReserved_eq_ok.mpr ⟨free, rfl⟩), ?_, rfl,
    ⟨rfl, fun _ member => Or.inl (List.mem_append_left _ member)⟩, ?_⟩
  · exact ⟨show 165 ≤ 166 by decide, ⟨_, TableOk.inserted ok normalize_archiveName free⟩,
      fun early => absurd early (show ¬166 < 166 by decide), fun _ => absent⟩
  · refine iff_of_true ?_ ?_
    · intro label member
      simp only [none, List.nil_append, List.mem_singleton] at member
      subst member
      exact show "archive".toList ∉ claimedAfter 166 by decide
    · intro label member
      simp [none] at member

theorem migrates_trash (at168 : file.version = 168) : Migrates file := by
  obtain ⟨version, settings, db⟩ := file
  subst at168
  obtain ⟨ids, ok⟩ := ready.table
  have absent : hasSetting trashPurgeDays settings = false :=
    ready.settings (show 168 < 171 by decide)
  by_cases free : ∀ label ∈ db.labels,
      label.nameNorm ≠ "trash".toList ∧ label.nameNorm ≠ "holding".toList
  · have freeTrash : ∀ label ∈ db.labels, label.nameNorm ≠ "trash".toList :=
      fun label member => (free label member).1
    have withTrash := TableOk.inserted ok normalize_trashName freeTrash
    have freeHolding : ∀ label ∈ db.labels ++
        [{ id := db.nextLabelId, name := trashName, nameNorm := "trash".toList, system := true }],
        label.nameNorm ≠ "holding".toList := by
      intro label member
      rcases List.mem_append.mp member with old | new
      · exact (free label old).2
      · rw [List.mem_singleton.mp new]
        exact show "trash".toList ≠ "holding".toList by decide
    refine Or.inr ⟨_, executeMigration_of_ok (bind_eq_ok.mpr ⟨(), _,
      insertReserved_eq_ok.mpr ⟨freeTrash, rfl⟩,
      insertReserved_eq_ok.mpr ⟨freeHolding, rfl⟩⟩), ?_, rfl, ⟨rfl, fun _ member => ?_⟩, ?_⟩
    · exact ⟨show 165 ≤ 169 by decide,
        ⟨_, TableOk.inserted withTrash normalize_holdingName freeHolding⟩,
        fun early => absurd early (show ¬169 < 166 by decide), fun _ => absent⟩
    · exact Or.inl (List.mem_append_left _ (List.mem_append_left _ member))
    · constructor
      · intro unclaimed label member
        have later := unclaimed label (List.mem_append_left _ (List.mem_append_left _ member))
        simp [claimedAfter] at later ⊢
        exact ⟨freeTrash label member, (free label member).2, later⟩
      · intro unclaimed label member
        rcases List.mem_append.mp member with old | new
        · rcases List.mem_append.mp old with older | new
          · have before := unclaimed label older
            simp [claimedAfter] at before ⊢
            exact before.2.2
          · rw [List.mem_singleton.mp new]
            exact show "trash".toList ∉ claimedAfter 169 by decide
        · rw [List.mem_singleton.mp new]
          exact show "holding".toList ∉ claimedAfter 169 by decide
  · left
    push Not at free
    obtain ⟨label, member, clash⟩ := free
    refine ⟨fun unclaimed => ?_, executeMigration_of_not_ok fun file' success => ?_⟩
    · have before : label.nameNorm ∉ ["trash".toList, "holding".toList, "unverified".toList] :=
        unclaimed label member
      rw [List.mem_cons, List.mem_cons] at before
      push Not at before
      exact before.2.1 (clash before.1)
    · obtain ⟨_, middle, first, second⟩ := bind_eq_ok.mp success
      obtain ⟨freeTrash, rfl⟩ := insertReserved_eq_ok.mp first
      obtain ⟨freeHolding, _⟩ := insertReserved_eq_ok.mp second
      exact freeHolding label (List.mem_append_left _ member) (clash (freeTrash label member))

theorem migrates_unverified (at170 : file.version = 170) : Migrates file := by
  obtain ⟨version, settings, db⟩ := file
  subst at170
  obtain ⟨ids, table⟩ := ready.table
  have ok : TableOk ([archiveName, trashName] ++ [holdingName]) ids db := table
  have absent : hasSetting trashPurgeDays settings = false :=
    ready.settings (show 170 < 171 by decide)
  obtain ⟨own, ownMember, named, system, _⟩ := ok.reserved holdingName (by decide)
  have isOwn : isHolding own = true := by
    simp only [isHolding, Bool.and_eq_true, beq_iff_eq]
    exact ⟨by rw [ok.norms own ownMember, named, normalize_holdingName], system⟩
  have there : ∃ label ∈ db.labels, isHolding label = true := ⟨own, ownMember, isOwn⟩
  have renames : ∀ file', renameHolding.run ⟨171, settings, db⟩ = .ok () file' ↔ _ :=
    fun _ => renameHolding_eq_ok there
  by_cases free : ∀ label ∈ db.labels, label.nameNorm ≠ "unverified".toList
  · refine Or.inr ⟨_, executeMigration_of_ok (bind_eq_ok.mpr ⟨(), _,
      (renames _).mpr ⟨free, rfl⟩, renameSetting_run absent⟩), ?_, rfl,
      ⟨rfl, fun label member => ?_⟩, ?_⟩
    · exact ⟨show 165 ≤ 171 by decide, ⟨_, TableOk.holdingRenamed ok (by decide) free⟩,
        fun early => absurd early (show ¬171 < 166 by decide),
        fun early => absurd early (show ¬171 < 171 by decide)⟩
    · by_cases holding : isHolding label = true
      · exact Or.inr ⟨holding, mem_updateWhere.mpr ⟨label, member, by rw [if_pos holding]⟩⟩
      · exact Or.inl (mem_updateWhere.mpr ⟨label, member, by rw [if_neg holding]⟩)
    · refine iff_of_true (fun _ _ => by simp [claimedAfter]) fun label member => ?_
      simpa [claimedAfter] using free label member
  · left
    refine ⟨fun unclaimed => free fun label member => ?_, executeMigration_of_not_ok
      fun file' success => ?_⟩
    · simpa [claimedAfter] using unclaimed label member
    · obtain ⟨_, middle, first, _⟩ := bind_eq_ok.mp success
      exact free ((renames middle).mp first).1

theorem migrates : Migrates file := by
  by_cases first : file.version = 165
  · exact migrates_archive ready first
  · by_cases second : file.version = 168
    · exact migrates_trash ready second
    · by_cases third : file.version = 170
      · exact migrates_unverified ready third
      · exact migrates_idle ready first second third

end

theorem migrates_all (count : Nat) (ready : Ready file) :
    (¬Unclaimed file ∧ ∃ e file', Ready file' ∧
        (forEach executeMigration (List.range' (file.version + 1) count)).run file =
          .error e file') ∨
      ∃ file', (forEach executeMigration (List.range' (file.version + 1) count)).run file =
          .ok () file' ∧ Ready file' ∧ file'.version = file.version + count ∧ Kept file file' ∧
        (Unclaimed file' ↔ Unclaimed file) := by
  induction count generalizing file with
  | zero => exact Or.inr ⟨file, rfl, ready, rfl, Kept.refl file, Iff.rfl⟩
  | succ count ih =>
    have unfolded : (forEach executeMigration (List.range' (file.version + 1) (count + 1))).run
        file = (executeMigration (file.version + 1) >>= fun _ =>
          forEach executeMigration (List.range' (file.version + 1 + 1) count)).run file := rfl
    rw [unfolded, EStateM.run_bind]
    rcases migrates ready with ⟨claimed, e, failed⟩ | ⟨next, run, nextReady, version, kept, same⟩
    · rw [failed]
      exact Or.inl ⟨claimed, e, file, ready, rfl⟩
    · rw [run]
      simp only
      rw [← version]
      rcases ih nextReady with
        ⟨claimed, e, last, lastReady, failed⟩ | ⟨last, all, lastReady, atLast, keptLater, sameLater⟩
      · exact Or.inl ⟨fun unclaimed => claimed (same.mpr unclaimed), e, last, lastReady, failed⟩
      · refine Or.inr ⟨last, all, lastReady, ?_, kept.trans keptLater, sameLater.trans same⟩
        rw [atLast, version]
        omega

omit [AsciiUnicode] in
theorem filter_range' {low version newest : Nat} (above : low ≤ version + 1) :
    (List.range' low (newest + 1 - low)).filter (fun v => decide (version < v)) =
      List.range' (version + 1) (newest - version) := by
  induction count : newest + 1 - low generalizing low with
  | zero =>
    have none : newest - version = 0 := by omega
    rw [none]
    rfl
  | succ rest ih =>
    rw [List.range'_succ]
    by_cases later : version < low
    · have here : low = version + 1 := by omega
      rw [List.filter_cons_of_pos (by simpa using later)]
      have all : (List.range' (low + 1) rest).filter (fun v => decide (version < v)) =
          List.range' (low + 1) rest := by
        refine List.filter_eq_self.mpr fun v member => ?_
        have := (List.mem_range'_1.mp member).1
        simp only [decide_eq_true_eq]
        omega
      have amount : newest - version = rest + 1 := by omega
      rw [all, amount, ← here, List.range'_succ]
    · rw [List.filter_cons_of_neg (by simpa using later)]
      have next := ih (show low + 1 ≤ version + 1 by omega) (by omega)
      rw [← next]

omit [AsciiUnicode] in
theorem runTo_run (low : 165 ≤ file.version) (newest : Nat) : (runTo newest).run file =
      (forEach executeMigration
        (List.range' (file.version + 1) (newest - file.version))).run file := by
  have amount : newest - 165 = newest + 1 - 166 := by omega
  have opened : (runTo newest).run file =
      (forEach (fun version => onlyIf (decide (file.version < version)) (executeMigration version))
        (List.range' 166 (newest - 165))).run file := by
    simp only [runTo, EStateM.run_bind, query_run]
  rw [opened, forEach_onlyIf, amount, filter_range' (by omega)]

/-! ## Runs -/

theorem Ready.step (ready : Ready file) (event : Event) : Ready (step file event) := by
  cases event with
  | label now op =>
    simp only [Migrations.step]
    split
    next => exact ready
    next labelled =>
      obtain ⟨ids, ok⟩ := ready.table
      exact ⟨ready.version, ⟨ids, TableOk.step ok now op⟩, fun early => absurd early labelled,
        ready.settings⟩
  | openWith newest =>
    simp only [Migrations.step, stateAfter]
    rw [runTo_run ready.version]
    rcases migrates_all (newest - file.version) ready with
      ⟨_, e, last, lastReady, failed⟩ | ⟨last, all, lastReady, _⟩
    · rw [failed]
      exact lastReady
    · rw [all]
      exact lastReady

theorem Start.ready (start : Start file) : Ready file := by
  refine ⟨Nat.le_of_eq start.version.symm, ⟨fun _ => 0, ?_⟩, fun _ => start.labels,
    fun _ => start.settings⟩
  rw [start.version]
  constructor <;> simp [start.labels, namesAt]

theorem ready_runAll (start : Start file) (events : List Event) : Ready (runAll step file events) :=
  invariant_of_step (fun _ event ready => ready.step event) events file start.ready

/-- The upgrade succeeds, with one system label of each reserved name and every
label where it was. -/
def Upgrades (file : Versioned) : Prop :=
  ∃ file', run.run file = .ok () file' ∧
    (∀ name ∈ reservedNames, ∃! label, label ∈ file'.db.labels ∧ label.system = true ∧
      label.name = name) ∧
    Kept file file'

/-- A mailbox can be upgraded exactly if no label has a name that a migration to
come claims. -/
theorem upgrades_iff_unclaimed (start : Start file) (events : List Event)
    (labelled : 166 ≤ (runAll step file events).version)
    (older : (runAll step file events).version ≤ 174) :
    Upgrades (runAll step file events) ↔ Unclaimed (runAll step file events) := by
  have ready := ready_runAll start events
  generalize runAll step file events = used at *
  have opened := runTo_run ready.version 175
  rcases migrates_all (175 - used.version) ready with
    ⟨claimed, e, last, _, failed⟩ | ⟨last, all, lastReady, atLast, kept, same⟩
  · refine iff_of_false ?_ claimed
    rintro ⟨file', success, _⟩
    rw [run, opened, failed] at success
    cases success
  · have newest : last.version = 175 := by omega
    have free : Unclaimed last := by
      intro label _
      rw [newest]
      simp [claimedAfter]
    have success : run.run used = .ok () last := opened.trans all
    refine iff_of_true ⟨last, success, ?_, kept⟩ (same.mp free)
    obtain ⟨ids, ok⟩ := lastReady.table
    rw [newest, namesAt_175] at ok
    exact ok.exists_unique

/-! ## The reserved labels of a migrated mailbox -/

/-- The reserved labels are there, once each and under their own names, they are
the only system labels, and no two labels have names that normalise alike. -/
structure InPlace (db : Db) : Prop where
  once : ∀ name ∈ reservedNames, ∃! label, label ∈ db.labels ∧ label.system = true ∧
    label.name = name
  only : ∀ label ∈ db.labels, label.system = true → label.name ∈ reservedNames
  norms : ∀ label ∈ db.labels, label.nameNorm = normalize label.name
  apart : (db.labels.map fun label => Labels.normalize label.name).Nodup

theorem inPlace_of_labelsOk (ok : LabelsOk ids db) : InPlace db := by
  refine ⟨ok.exists_unique, ok.system, ok.norms, ?_⟩
  have same : (db.labels.map fun label => Labels.normalize label.name) =
      db.labels.map (·.nameNorm) :=
    List.map_congr_left fun label member => (ok.norms label member).symm
  rw [same]
  exact ok.norms_nodup

/-- Nothing that happens to a migrated mailbox disturbs the reserved labels. -/
theorem reserved_labels_in_place (start : Start file) (events : List Event)
    (migrated : (runAll step file events).version = 175) (later : List Mailbox.Event) :
    InPlace (runAll Mailbox.step (runAll step file events).db later) := by
  obtain ⟨ids, ok⟩ := (ready_runAll start events).table
  rw [migrated, namesAt_175] at ok
  exact inPlace_of_labelsOk (Mailbox.labelsOk_runAll ok later)

end

section

local instance : AsciiUnicode := plainTables

def unlabelled : Versioned := { version := 165 }

theorem start_unlabelled : Start unlabelled := ⟨rfl, rfl, rfl⟩

def used (name : String) : List Event :=
  [.openWith 168, .label 5 (.create name.toList none)]

theorem work_label_upgrades : Upgrades (runAll step unlabelled (used "Work")) := by
  refine (upgrades_iff_unclaimed start_unlabelled (used "Work") ?_ ?_).mpr ?_
  · decide +kernel
  · decide +kernel
  · unfold Unclaimed
    decide +kernel

theorem trash_label_locks_out : (runAll step unlabelled (used "Trash")).version = 168 ∧
      ∃ e, run.run (runAll step unlabelled (used "Trash")) =
        .error e (stateAfter run (runAll step unlabelled (used "Trash"))) :=
  ⟨by decide +kernel, run_of_fails (by decide +kernel)⟩

theorem renaming_spares_archive :
    InPlace (runAll Mailbox.step (runAll step unlabelled [.openWith 175]).db
      [⟨5, .renameLabel 1 "Old".toList⟩, ⟨6, .syncItem (.rename "archive".toList "Old".toList) 6⟩,
        ⟨7, .createLabel " TRASH ".toList none⟩]) :=
  reserved_labels_in_place start_unlabelled [.openWith 175] (by decide +kernel) _

end

end Eeemail.Migrations
