import Eeemail.ReservedLabels

/-! # Label boards

What labels are for, without rows and row ids.  A board has a label or none under
every normalised name.  A label is on some of the messages, and for messages that
are not here it holds the latest change that waits for them. -/

set_option autoImplicit false

namespace Eeemail.Boards

open Lib.Texts Store Labels ReservedLabels

variable {name mid norm : Text} {timestamp : Int} {item : LabelSyncItem}

structure Column (μ : Type) where
  name : Text
  color : Option Nat
  system : Bool
  on : μ → Bool
  parked : Text → Option (Bool × Int)

abbrev Board (μ : Type) := Text → Option (Column μ)

structure Directory (μ : Type) where
  names : Text → μ → Bool
  unknown : Text → Bool

section

variable {μ : Type}

/-- The later of two changes; of two at one time, the one that came later. -/
def latestIntent (apply : Bool) (timestamp : Int) : Option (Bool × Int) → Option (Bool × Int)
  | none => some (apply, timestamp)
  | some (old, since) => if since ≤ timestamp then some (apply, timestamp) else some (old, since)

def Column.blank (name : Text) (color : Option Nat) : Column μ :=
  { name, color, system := false, on := fun _ => false, parked := fun _ => none }

/-- The label is put on, or taken off, the messages that are here; for the others the
change is parked. -/
def Column.set (directory : Directory μ) (mids : List Text) (apply : Bool) (timestamp : Int)
    (column : Column μ) : Column μ :=
  { column with
    on := fun msg => if mids.any (directory.names · msg) then apply else column.on msg
    parked := fun mid =>
      if mids.contains mid && directory.unknown mid then
        latestIntent apply timestamp (column.parked mid)
      else column.parked mid }

variable [Unicode]

def create (name : Text) (color : Option Nat) (board : Board μ) : Board μ :=
  if (trim name).isEmpty || (board (normalize name)).isSome then board
  else Function.update board (normalize name) (some (Column.blank (trim name) color))

def mayRename (source target : Text) (column : Column μ) (board : Board μ) : Bool :=
  !column.system && !(trim target).isEmpty &&
    (normalize target == normalize source || (board (normalize target)).isNone)

def rename (source target : Text) (board : Board μ) : Board μ :=
  match board (normalize source) with
  | none => create target none board
  | some column =>
    if mayRename source target column board then
      Function.update (Function.update board (normalize source) none) (normalize target)
        (some { column with name := trim target })
    else board

def delete (name : Text) (board : Board μ) : Board μ :=
  if (board (normalize name)).any (!·.system) then Function.update board (normalize name) none
  else board

def modify (name : Text) (f : Column μ → Column μ) (board : Board μ) : Board μ :=
  Function.update board (normalize name) ((board (normalize name)).map f)

def setColor (name : Text) (color : Option Nat) (board : Board μ) : Board μ :=
  modify name (fun column => { column with color }) (create name color board)

def set (directory : Directory μ) (mids : List Text) (name : Text) (apply : Bool) (timestamp : Int)
    (board : Board μ) : Board μ :=
  modify name (Column.set directory mids apply timestamp) (create name none board)

def replay (directory : Directory μ) (timestamp : Int) : LabelSyncItem → Board μ → Board μ
  | .create name color => create name color
  | .rename source target => rename source target
  | .delete name => delete name
  | .setColor name color => setColor name color
  | .apply mids name => set directory mids name true timestamp
  | .unapply mids name => set directory mids name false timestamp

def midsOf : LabelSyncItem → List Text
  | .apply mids _ => mids
  | .unapply mids _ => mids
  | _ => []

end

/-! ## What is on the columns changes, the labels stay -/

variable {μ : Type} {board other : Board μ} {directory : Directory μ} {f : Column μ → Column μ}

section Columns

def mapColumns (f : Column μ → Column μ) (board : Board μ) : Board μ := fun norm =>
  (board norm).map f

structure Benign (f : Column μ → Column μ) : Prop where
  blank : ∀ name color, f (Column.blank name color) = Column.blank name color
  system : ∀ column, (f column).system = column.system
  renamed : ∀ column name, f { column with name } = { f column with name }

theorem mapColumns_update (f : Column μ → Column μ) (norm : Text) (column : Option (Column μ))
    (board : Board μ) :
    mapColumns f (Function.update board norm column) =
      Function.update (mapColumns f board) norm (column.map f) := by
  funext other
  by_cases same : other = norm
  · subst same
    simp [mapColumns]
  · simp [mapColumns, same]

variable [Unicode]

theorem Benign.create (benign : Benign f) (name : Text) (color : Option Nat) (board : Board μ) :
    mapColumns f (create name color board) = create name color (mapColumns f board) := by
  have same : (mapColumns f board (normalize name)).isSome = (board (normalize name)).isSome := by
    simp [mapColumns]
  unfold Boards.create
  rw [same]
  split
  · rfl
  · rw [mapColumns_update, Option.map_some, benign.blank]

theorem Benign.rename (benign : Benign f) (source target : Text) (board : Board μ) :
    mapColumns f (rename source target board) = rename source target (mapColumns f board) := by
  unfold Boards.rename
  cases found : board (normalize source) with
  | none =>
    have absent : mapColumns f board (normalize source) = none := by simp [mapColumns, found]
    simp only [absent]
    exact benign.create target none board
  | some column =>
    have there : mapColumns f board (normalize source) = some (f column) := by
      simp [mapColumns, found]
    have same : mayRename source target (f column) (mapColumns f board) =
        mayRename source target column board := by
      simp [mayRename, mapColumns, benign.system]
    simp only [there, same]
    split
    · rw [mapColumns_update, mapColumns_update, Option.map_some, benign.renamed]
      rfl
    · rfl

theorem Benign.delete (benign : Benign f) (name : Text) (board : Board μ) :
    mapColumns f (delete name board) = delete name (mapColumns f board) := by
  have same : (mapColumns f board (normalize name)).any (!·.system) =
      (board (normalize name)).any (!·.system) := by
    cases found : board (normalize name) <;> simp [mapColumns, found, benign.system]
  unfold Boards.delete
  rw [same]
  split
  · rw [mapColumns_update]
    rfl
  · rfl

theorem mapColumns_modify {before after : Column μ → Column μ}
    (commute : ∀ column, board (normalize name) = some column →
      after (f column) = f (before column)) :
    mapColumns f (modify name before board) = modify name after (mapColumns f board) := by
  rw [modify, mapColumns_update, modify]
  congr 1
  cases found : board (normalize name) with
  | none => simp [mapColumns, found]
  | some column => simp [mapColumns, found, commute column found]

end Columns

/-! ## A message arrives -/

section Arrival

variable [DecidableEq μ]

def Column.arrive (msg : μ) (mid : Text) (column : Column μ) : Column μ :=
  { column with
    on := Function.update column.on msg ((column.parked mid).elim (column.on msg) (·.1))
    parked := Function.update column.parked mid none }

def arrive (msg : μ) (mid : Text) (board : Board μ) : Board μ :=
  mapColumns (Column.arrive msg mid) board

theorem benign_arrive (msg : μ) (mid : Text) : Benign (Column.arrive msg mid) := by
  refine ⟨fun name color => ?_, fun _ => rfl, fun _ _ => rfl⟩
  simp [Column.arrive, Column.blank]

/-- Before, the Message-ID finds nothing; after, of those an item names only this very
text finds the message. -/
structure Arrives (msg : μ) (mid : Text) (before after : Directory μ)
    (mids : List Text) : Prop where
  absent : ∀ other ∈ mids, before.names other msg = false
  unknown : before.unknown mid = true
  names_msg : ∀ other ∈ mids, after.names other msg = decide (other = mid)
  names_others : ∀ other ∈ mids, ∀ someone, someone ≠ msg →
    after.names other someone = before.names other someone
  unknown_after : ∀ other ∈ mids, after.unknown other =
    (before.unknown other && decide (other ≠ mid))

theorem Column.set_arrive {msg : μ} {before after : Directory μ} {mids : List Text}
    (arrives : Arrives msg mid before after mids) (apply : Bool) {column : Column μ}
    (older : ∀ was since, column.parked mid = some (was, since) → since ≤ timestamp) :
    (column.arrive msg mid).set after mids apply timestamp =
      (column.set before mids apply timestamp).arrive msg mid := by
  have replaced : latestIntent apply timestamp (column.parked mid) = some (apply, timestamp) := by
    cases parked : column.parked mid with
    | none => rfl
    | some change => simp [latestIntent, older change.1 change.2 parked]
  have named : mids.any (after.names · msg) = mids.contains mid := by
    rw [Bool.eq_iff_iff, List.any_eq_true, List.contains_iff_mem]
    constructor
    · rintro ⟨other, member, names⟩
      rw [arrives.names_msg other member, decide_eq_true_iff] at names
      exact names ▸ member
    · intro member
      exact ⟨mid, member, by rw [arrives.names_msg mid member, decide_eq_true_iff]⟩
  have unnamed : mids.any (before.names · msg) = false := by
    rw [List.any_eq_false]
    intro other member
    rw [arrives.absent other member]
    exact Bool.false_ne_true
  have sameNames : ∀ someone, someone ≠ msg →
      mids.any (after.names · someone) = mids.any (before.names · someone) := by
    intro someone differs
    rw [Bool.eq_iff_iff, List.any_eq_true, List.any_eq_true]
    constructor
    · rintro ⟨other, member, names⟩
      exact ⟨other, member, arrives.names_others other member someone differs ▸ names⟩
    · rintro ⟨other, member, names⟩
      exact ⟨other, member, (arrives.names_others other member someone differs).symm ▸ names⟩
  unfold Column.set Column.arrive
  congr 1
  · funext someone
    by_cases isMsg : someone = msg
    · subst isMsg
      simp only [Function.update_self, named, unnamed, arrives.unknown, Bool.and_true]
      cases mids.contains mid with
      | true => simp [replaced]
      | false => simp
    · simp only [Function.update_of_ne isMsg, sameNames someone isMsg]
  · funext other
    by_cases isMid : other = mid
    · subst isMid
      simp only [Function.update_self]
      refine if_neg fun parks => ?_
      rw [Bool.and_eq_true, List.contains_iff_mem] at parks
      rw [arrives.unknown_after other parks.1] at parks
      simp at parks
    · simp only [Function.update_of_ne isMid]
      cases member : mids.contains other with
      | false => rfl
      | true => simp [arrives.unknown_after other (List.contains_iff_mem.mp member), isMid]

variable [Unicode]

def NoneNewer (mid : Text) (timestamp : Int) (board : Board μ) : Prop :=
  ∀ norm column, board norm = some column →
    ∀ was since, column.parked mid = some (was, since) → since ≤ timestamp

section

variable (older : NoneNewer mid timestamp board)

include older

omit [DecidableEq μ] in
theorem NoneNewer.create (name : Text)
    (color : Option Nat) : NoneNewer mid timestamp (create name color board) := by
  intro norm column found was since parked
  unfold Boards.create at found
  split at found
  · exact older norm column found was since parked
  · by_cases isName : norm = normalize name
    · subst isName
      rw [Function.update_self, Option.some.injEq] at found
      subst found
      cases parked
    · rw [Function.update_of_ne isName] at found
      exact older norm column found was since parked

omit older in
theorem replay_arrive {msg : μ} {before after : Directory μ}
    (arrives : Arrives msg mid before after (midsOf item)) (older : NoneNewer mid timestamp board) :
    replay after timestamp item (arrive msg mid board) =
      arrive msg mid (replay before timestamp item board) := by
  have benign := benign_arrive msg mid
  unfold arrive
  cases item with
  | create name color => exact (benign.create name color board).symm
  | rename source target => exact (benign.rename source target board).symm
  | delete name => exact (benign.delete name board).symm
  | setColor name color =>
    simp only [replay, setColor, ← benign.create]
    refine (mapColumns_modify fun column _ => ?_).symm
    rfl
  | apply mids name =>
    simp only [replay, set, ← benign.create]
    refine (mapColumns_modify fun column found => ?_).symm
    exact Column.set_arrive arrives true ((older.create name none) _ column found)
  | unapply mids name =>
    simp only [replay, set, ← benign.create]
    refine (mapColumns_modify fun column found => ?_).symm
    exact Column.set_arrive arrives false ((older.create name none) _ column found)

omit [DecidableEq μ] [Unicode] in
theorem NoneNewer.update {column : Option (Column μ)}
    (new : ∀ changed, column = some changed → ∀ was since, changed.parked mid = some (was, since) →
      since ≤ timestamp) : NoneNewer mid timestamp (Function.update board norm column) := by
  intro other found isFound was since parked
  by_cases same : other = norm
  · subst same
    rw [Function.update_self] at isFound
    exact new found isFound was since parked
  · rw [Function.update_of_ne same] at isFound
    exact older other found isFound was since parked

omit [DecidableEq μ] [Unicode] in
theorem NoneNewer.later {later : Int} (after : timestamp ≤ later) : NoneNewer mid later board :=
  fun norm column found was since parked => (older norm column found was since parked).trans after

omit [DecidableEq μ] in
theorem NoneNewer.set (mids : List Text) (name : Text) (apply : Bool) :
    NoneNewer mid timestamp (set directory mids name apply timestamp board) := by
  have created := older.create name none
  refine created.update fun changed isChanged was since parked => ?_
  obtain ⟨column, found, rfl⟩ := Option.map_eq_some_iff.mp isChanged
  simp only [Column.set] at parked
  split at parked
  next =>
    cases before : column.parked mid with
    | none =>
      rw [before] at parked
      cases parked
      exact le_refl _
    | some change =>
      have isOlder := created _ column found change.1 change.2 before
      rw [before] at parked
      simp only [latestIntent, isOlder, if_true, Option.some.injEq, Prod.mk.injEq] at parked
      exact parked.2 ▸ le_refl _
  next => exact created _ column found was since parked

omit [DecidableEq μ] in
theorem NoneNewer.replay (item : LabelSyncItem) :
    NoneNewer mid timestamp (replay directory timestamp item board) := by
  cases item with
  | create name color => exact older.create name color
  | rename source target =>
    simp only [Boards.replay, rename]
    split
    next => exact older.create target none
    next column found =>
      split
      next =>
        refine (older.update fun _ none => by cases none).update ?_
        intro changed isChanged was since parked
        rw [← Option.some.inj isChanged] at parked
        exact older _ column found was since parked
      next => exact older
  | delete name =>
    simp only [Boards.replay, delete]
    split
    next => exact older.update fun _ none => by cases none
    next => exact older
  | setColor name color =>
    have created := older.create name color
    refine created.update fun changed isChanged was since parked => ?_
    obtain ⟨column, found, rfl⟩ := Option.map_eq_some_iff.mp isChanged
    exact created _ column found was since parked
  | apply mids name => exact older.set mids name true
  | unapply mids name => exact older.set mids name false

end

end Arrival

/-! ## Boards that differ in reserved labels only -/

section SameBut

variable {names : List Text}

def HasSystem (norm : Text) (board : Board μ) : Prop :=
  ∃ column, board norm = some column ∧ column.system = true

/-- The boards are the same, except perhaps for what some reserved labels are on. -/
structure SameBut (names : List Text) (board other : Board μ) : Prop where
  same : ∀ norm, norm ∉ names → board norm = other norm
  left : ∀ norm ∈ names, HasSystem norm board
  right : ∀ norm ∈ names, HasSystem norm other

theorem SameBut.symm (same : SameBut names board other) : SameBut names other board :=
  ⟨fun norm outside => (same.same norm outside).symm, same.right, same.left⟩

theorem SameBut.trans {first second third : Board μ}
    (left : SameBut names first second) (right : SameBut names second third) :
    SameBut names first third :=
  ⟨fun norm outside => (left.same norm outside).trans (right.same norm outside), left.left,
    right.right⟩

variable [Unicode]

theorem modify_apply (name : Text) (f : Column μ → Column μ) (board : Board μ) (norm : Text) :
    modify name f board norm =
      if norm = normalize name then (board norm).map f else board norm := by
  rw [modify, Function.update_apply]
  split
  next isName => rw [isName]
  next => rfl

theorem create_of_some {column : Column μ} (found : board norm = some column)
    (name : Text) (color : Option Nat) : create name color board norm = some column := by
  unfold create
  split
  next => exact found
  next fresh =>
    have differs : norm ≠ normalize name := by
      rintro rfl
      rw [found] at fresh
      simp at fresh
    rw [Function.update_of_ne differs, found]

section

variable (has : HasSystem norm board)

include has

theorem HasSystem.rename_eq (source target : Text) :
    rename source target board norm = board norm := by
  obtain ⟨reserved, isReserved, system⟩ := has
  rw [isReserved]
  unfold rename
  cases found : board (normalize source) with
  | none => exact create_of_some isReserved target none
  | some column =>
    simp only
    split
    next may =>
      simp only [mayRename, Bool.and_eq_true, Bool.not_eq_true', Bool.or_eq_true,
        beq_iff_eq, Option.isNone_iff_eq_none] at may
      have notSource : norm ≠ normalize source := by
        rintro rfl
        rw [isReserved, Option.some.injEq] at found
        rw [found, may.1.1] at system
        cases system
      have notTarget : norm ≠ normalize target := by
        rintro rfl
        rcases may.2 with own | free
        · exact notSource own
        · rw [isReserved] at free
          cases free
      rw [Function.update_of_ne notTarget, Function.update_of_ne notSource, isReserved]
    next => exact isReserved

theorem HasSystem.delete_eq (name : Text) : delete name board norm = board norm := by
  obtain ⟨reserved, isReserved, system⟩ := has
  unfold delete
  split
  next may =>
    have differs : norm ≠ normalize name := by
      rintro rfl
      rw [isReserved] at may
      simp [system] at may
    rw [Function.update_of_ne differs]
  next => rfl

omit [Unicode] in
theorem HasSystem.congr (same : other norm = board norm) : HasSystem norm other := by
  obtain ⟨column, found, system⟩ := has
  exact ⟨column, same.trans found, system⟩

theorem HasSystem.create (name : Text)
    (color : Option Nat) : HasSystem norm (create name color board) := by
  obtain ⟨column, found, system⟩ := has
  exact ⟨column, create_of_some found name color, system⟩

theorem HasSystem.modify (name : Text) (keeps : ∀ column, (f column).system = column.system) :
    HasSystem norm (modify name f board) := by
  obtain ⟨column, found, system⟩ := has
  by_cases isName : norm = normalize name
  · exact ⟨f column, by rw [modify_apply, if_pos isName, found, Option.map_some],
      (keeps column).trans system⟩
  · exact ⟨column, by rw [modify_apply, if_neg isName, found], system⟩

theorem HasSystem.replay (directory : Directory μ) (timestamp : Int) (item : LabelSyncItem) :
    HasSystem norm (replay directory timestamp item board) := by
  cases item with
  | create name color => exact has.create name color
  | rename source target => exact has.congr (has.rename_eq source target)
  | delete name => exact has.congr (has.delete_eq name)
  | setColor name color => exact (has.create name color).modify name fun _ => rfl
  | apply mids name => exact (has.create name none).modify name fun _ => rfl
  | unapply mids name => exact (has.create name none).modify name fun _ => rfl

end

theorem create_of_hasSystem (color : Option Nat)
    (has : HasSystem (normalize name) board) : create name color board = board := by
  obtain ⟨column, found, _⟩ := has
  simp [create, found]

section

variable (same : SameBut names board other)

include same

theorem SameBut.create (name : Text) (color : Option Nat) :
    SameBut names (create name color board) (create name color other) := by
  refine ⟨fun norm outside => ?_, fun norm member => (same.left norm member).create name color,
    fun norm member => (same.right norm member).create name color⟩
  by_cases reserved : normalize name ∈ names
  · rw [create_of_hasSystem color (same.left _ reserved),
      create_of_hasSystem color (same.right _ reserved), same.same norm outside]
  · unfold Boards.create
    rw [same.same _ reserved]
    split
    · exact same.same norm outside
    · simp only [Function.update_apply, same.same norm outside]

theorem SameBut.modify (name : Text) (keeps : ∀ column, (f column).system = column.system) :
    SameBut names (modify name f board) (modify name f other) := by
  refine ⟨fun norm outside => ?_, fun norm member => (same.left norm member).modify name keeps,
    fun norm member => (same.right norm member).modify name keeps⟩
  unfold Boards.modify
  by_cases isName : norm = normalize name
  · subst isName
    rw [Function.update_self, Function.update_self, same.same _ outside]
  · rw [Function.update_of_ne isName, Function.update_of_ne isName, same.same norm outside]

theorem SameBut.rename (source target : Text) (outside : norm ∉ names) :
    rename source target board norm = rename source target other norm := by
  by_cases reserved : normalize source ∈ names
  · obtain ⟨column, found, system⟩ := same.left _ reserved
    obtain ⟨column', found', system'⟩ := same.right _ reserved
    simp only [Boards.rename, found, found', mayRename, system, system', Bool.not_true,
      Bool.false_and, Bool.false_eq_true, if_false]
    exact same.same norm outside
  · unfold Boards.rename
    rw [same.same _ reserved]
    cases other (normalize source) with
    | none => exact (same.create target none).same norm outside
    | some column =>
      have free : mayRename source target column board = mayRename source target column other := by
        by_cases taken : normalize target ∈ names
        · obtain ⟨_, there, _⟩ := same.left _ taken
          obtain ⟨_, there', _⟩ := same.right _ taken
          simp [mayRename, there, there']
        · rw [mayRename, mayRename, same.same _ taken]
      simp only [free]
      split
      · simp only [Function.update_apply, same.same norm outside]
      · exact same.same norm outside

theorem SameBut.delete (name : Text) (outside : norm ∉ names) :
    delete name board norm = delete name other norm := by
  by_cases reserved : normalize name ∈ names
  · obtain ⟨column, found, system⟩ := same.left _ reserved
    obtain ⟨column', found', system'⟩ := same.right _ reserved
    simp only [Boards.delete, found, found', Option.any_some, system, system', Bool.not_true,
      Bool.false_eq_true, if_false]
    exact same.same norm outside
  · unfold Boards.delete
    rw [same.same _ reserved]
    split
    · simp only [Function.update_apply, same.same norm outside]
    · exact same.same norm outside

theorem SameBut.replay (directory : Directory μ) (timestamp : Int) (item : LabelSyncItem) :
    SameBut names (replay directory timestamp item board)
      (replay directory timestamp item other) := by
  refine ⟨fun norm outside => ?_, fun norm member => (same.left norm member).replay _ _ item,
    fun norm member => (same.right norm member).replay _ _ item⟩
  cases item with
  | create name color => exact (same.create name color).same norm outside
  | rename source target => exact same.rename source target outside
  | delete name => exact same.delete name outside
  | setColor name color =>
    exact ((same.create name color).modify (f := fun column => { column with color }) name
      fun _ => rfl).same norm outside
  | apply mids name =>
    exact ((same.create name none).modify (f := Column.set directory mids true timestamp) name
      fun _ => rfl).same norm outside
  | unapply mids name =>
    exact ((same.create name none).modify (f := Column.set directory mids false timestamp) name
      fun _ => rfl).same norm outside

end

end SameBut

/-! ## The names an item is about -/

section Footprints

variable [Unicode]

def namesOf : LabelSyncItem → List Text
  | .create name _ => [normalize name]
  | .rename source target => [normalize source, normalize target]
  | .delete name => [normalize name]
  | .setColor name _ => [normalize name]
  | .apply _ name => [normalize name]
  | .unapply _ name => [normalize name]

theorem create_of_ne (differs : norm ≠ normalize name) (color : Option Nat) (board : Board μ) :
    create name color board norm = board norm := by
  unfold create
  split
  · rfl
  · rw [Function.update_of_ne differs]

theorem create_congr (same : board (normalize name) = other (normalize name)) (color : Option Nat) :
    create name color board (normalize name) = create name color other (normalize name) := by
  unfold create
  rw [same]
  split
  · exact same
  · rw [Function.update_self, Function.update_self]

theorem modify_congr (f : Column μ → Column μ)
    (same : board (normalize name) = other (normalize name)) :
    modify name f board (normalize name) = modify name f other (normalize name) := by
  rw [modify_apply, modify_apply, same]

theorem replay_outside (directory : Directory μ) (timestamp : Int) (board : Board μ)
    (outside : norm ∉ namesOf item) : replay directory timestamp item board norm = board norm := by
  cases item with
  | create name color =>
    exact create_of_ne (List.ne_of_not_mem_cons outside) color board
  | rename source target =>
    have notSource : norm ≠ normalize source := List.ne_of_not_mem_cons outside
    have notTarget : norm ≠ normalize target :=
      List.ne_of_not_mem_cons (List.not_mem_of_not_mem_cons outside)
    simp only [replay, rename]
    cases board (normalize source) with
    | none => exact create_of_ne notTarget none board
    | some column =>
      simp only
      split
      · rw [Function.update_of_ne notTarget, Function.update_of_ne notSource]
      · rfl
  | delete name =>
    simp only [replay, delete]
    split
    · rw [Function.update_of_ne (List.ne_of_not_mem_cons outside)]
    · rfl
  | setColor name color =>
    have differs : norm ≠ normalize name := List.ne_of_not_mem_cons outside
    rw [replay, setColor, modify_apply, if_neg differs, create_of_ne differs]
  | apply mids name =>
    have differs : norm ≠ normalize name := List.ne_of_not_mem_cons outside
    rw [replay, set, modify_apply, if_neg differs, create_of_ne differs]
  | unapply mids name =>
    have differs : norm ≠ normalize name := List.ne_of_not_mem_cons outside
    rw [replay, set, modify_apply, if_neg differs, create_of_ne differs]

theorem replay_inside (directory : Directory μ) (timestamp : Int)
    (same : ∀ norm ∈ namesOf item, board norm = other norm) :
    ∀ norm ∈ namesOf item,
      replay directory timestamp item board norm = replay directory timestamp item other norm := by
  intro norm member
  cases item with
  | create name color =>
    obtain rfl := List.mem_singleton.mp member
    exact create_congr (same _ member) color
  | rename source target =>
    have sameSource := same (normalize source) List.mem_cons_self
    have sameTarget := same (normalize target) (List.mem_cons_of_mem _ List.mem_cons_self)
    simp only [replay, rename, sameSource]
    cases other (normalize source) with
    | none =>
      by_cases isTarget : norm = normalize target
      · rw [isTarget]
        exact create_congr sameTarget none
      · simp only [create_of_ne isTarget, same norm member]
    | some column =>
      have free : mayRename source target column board = mayRename source target column other := by
        rw [mayRename, mayRename, sameTarget]
      simp only [free]
      split
      · simp only [Function.update_apply, same norm member]
      · exact same norm member
  | delete name =>
    obtain rfl := List.mem_singleton.mp member
    simp only [replay, delete, same _ member]
    split
    · simp only [Function.update_self]
    · exact same _ member
  | setColor name color =>
    obtain rfl := List.mem_singleton.mp member
    exact modify_congr _ (create_congr (same _ member) color)
  | apply mids name =>
    obtain rfl := List.mem_singleton.mp member
    exact modify_congr _ (create_congr (same _ member) none)
  | unapply mids name =>
    obtain rfl := List.mem_singleton.mp member
    exact modify_congr _ (create_congr (same _ member) none)

end Footprints

/-! ## What shows of a label -/

section Faces

structure Face (μ : Type) where
  name : Text
  color : Option Nat
  system : Bool
  on : μ → Bool

def Column.face (column : Column μ) : Face μ :=
  { name := column.name, color := column.color, system := column.system, on := column.on }

def Face.column (face : Face μ) : Column μ :=
  { name := face.name, color := face.color, system := face.system, on := face.on,
    parked := fun _ => none }

def faces (board : Board μ) : Text → Option (Face μ) := fun norm => (board norm).map Column.face

def columns (shown : Text → Option (Face μ)) : Board μ := fun norm => (shown norm).map Face.column

theorem benign_face : Benign fun column : Column μ => column.face.column :=
  ⟨fun _ _ => rfl, fun _ => rfl, fun _ _ => rfl⟩

theorem columns_faces (board : Board μ) :
    columns (faces board) = mapColumns (fun column => column.face.column) board := by
  funext norm
  simp [columns, faces, mapColumns, Function.comp_def]

theorem faces_mapColumns (board : Board μ) :
    faces (mapColumns (fun column => column.face.column) board) = faces board := by
  funext norm
  cases found : board norm <;> simp [faces, mapColumns, found, Column.face, Face.column]

variable [Unicode]

theorem faces_modify {g : Column μ → Column μ}
    (same : ∀ column, (f column.face.column).face = (g column).face)
    (name : Text) (board : Board μ) :
    faces (modify name f (mapColumns (fun column => column.face.column) board)) =
      faces (modify name g board) := by
  funext norm
  simp only [faces, modify_apply, mapColumns]
  split
  · cases board norm <;> simp [same]
  · cases board norm <;> simp [Column.face, Face.column]

theorem faces_modify_congr {g : Column μ → Column μ}
    (same : ∀ column, (f column).face = (g column).face)
    (name : Text) (board : Board μ) :
    faces (modify name f board) = faces (modify name g board) := by
  funext norm
  simp only [faces, modify_apply]
  split
  · cases board norm <;> simp [same]
  · rfl

theorem faces_replay (directory : Directory μ) (timestamp : Int) (item : LabelSyncItem)
    (board : Board μ) :
    faces (replay directory 0 item (columns (faces board))) =
      faces (replay directory timestamp item board) := by
  rw [columns_faces]
  cases item with
  | create name color => rw [replay, ← benign_face.create, faces_mapColumns, replay]
  | rename source target => rw [replay, ← benign_face.rename, faces_mapColumns, replay]
  | delete name => rw [replay, ← benign_face.delete, faces_mapColumns, replay]
  | setColor name color =>
    rw [replay, setColor, ← benign_face.create]
    refine faces_modify (fun _ => ?_) name _
    rfl
  | apply mids name =>
    rw [replay, set, ← benign_face.create]
    refine faces_modify (fun _ => ?_) name _
    rfl
  | unapply mids name =>
    rw [replay, set, ← benign_face.create]
    refine faces_modify (fun _ => ?_) name _
    rfl

theorem faces_replay_directory {other : Directory μ}
    (agree : ∀ mid ∈ midsOf item, ∀ msg, directory.names mid msg = other.names mid msg)
    (timestamp : Int) (board : Board μ) :
    faces (replay directory timestamp item board) = faces (replay other timestamp item board) := by
  have sets : ∀ mids puts column,
      (∀ mid ∈ mids, ∀ msg, directory.names mid msg = other.names mid msg) →
      (Column.set directory mids puts timestamp column).face =
        (Column.set other mids puts timestamp column).face := by
    intro mids puts column agree
    have named : ∀ msg, mids.any (directory.names · msg) = mids.any (other.names · msg) := by
      intro msg
      rw [Bool.eq_iff_iff, List.any_eq_true, List.any_eq_true]
      constructor
      · rintro ⟨mid, member, names⟩
        exact ⟨mid, member, agree mid member msg ▸ names⟩
      · rintro ⟨mid, member, names⟩
        exact ⟨mid, member, (agree mid member msg).symm ▸ names⟩
    simp only [Column.face, Column.set, named]
  cases item with
  | apply mids name => exact faces_modify_congr (fun column => sets mids true column agree) name _
  | unapply mids name =>
    exact faces_modify_congr (fun column => sets mids false column agree) name _
  | create name color => rfl
  | rename source target => rfl
  | delete name => rfl
  | setColor name color => rfl

end Faces

end Eeemail.Boards
