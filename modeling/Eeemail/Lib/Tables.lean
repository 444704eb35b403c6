import Mathlib

/-! # Tables

A table is the list of its rows in rowid order.  `SELECT … LIMIT 1` is
`List.find?`, `ORDER BY k DESC LIMIT 1` is `latest k`, and the writing
statements are the operations below. -/

set_option autoImplicit false

namespace Eeemail.Lib.Tables

section Writes

variable {α κ : Type} [DecidableEq κ]

def deleteWhere (p : α → Bool) (rows : List α) : List α := rows.filter (fun row => !p row)

def updateWhere (p : α → Bool) (f : α → α) (rows : List α) : List α :=
  rows.map fun row => if p row then f row else row

def insertOrIgnore (key : α → κ) (row : α) (rows : List α) : List α :=
  if rows.any (fun old => key old = key row) then rows else rows ++ [row]

def upsert (key : α → κ) (row : α) (rows : List α) : List α :=
  if rows.any (fun old => key old = key row) then
    updateWhere (fun old => decide (key old = key row)) (fun _ => row) rows
  else rows ++ [row]

variable {p : α → Bool} {f : α → α} {key : α → κ} {row other : α} {rows : List α}

@[simp]
theorem mem_deleteWhere : row ∈ deleteWhere p rows ↔ row ∈ rows ∧ p row = false := by
  simp [deleteWhere]

theorem mem_updateWhere :
    row ∈ updateWhere p f rows ↔ ∃ old ∈ rows, (if p old then f old else old) = row := by
  simp [updateWhere]

theorem updateWhere_eq_self (same : ∀ row ∈ rows, p row = true → f row = row) :
    updateWhere p f rows = rows := by
  refine (List.map_congr_left fun row member => ?_).trans (List.map_id rows)
  split
  next holds => exact same row member holds
  next => rfl

theorem updateWhere_updateWhere {q : α → Bool} (idem : ∀ row, f (f row) = f row) :
    updateWhere p f (updateWhere q f rows) = updateWhere (fun row => q row || p row) f rows := by
  simp only [updateWhere, List.map_map]
  refine List.map_congr_left fun row _ => ?_
  simp only [Function.comp_apply]
  by_cases changed : q row = true
  · simp [changed, idem]
  · simp [changed]

theorem mem_insertOrIgnore_of_mem (member : other ∈ rows) :
    other ∈ insertOrIgnore key row rows := by
  unfold insertOrIgnore
  split
  · exact member
  · exact List.mem_append_left _ member

theorem mem_insertOrIgnore :
    other ∈ insertOrIgnore key row rows ↔
      other ∈ rows ∨ (other = row ∧ ∀ old ∈ rows, key old ≠ key row) := by
  unfold insertOrIgnore
  split
  next clash =>
    simp only [List.any_eq_true, decide_eq_true_eq] at clash
    obtain ⟨old, member, same⟩ := clash
    exact ⟨Or.inl, fun either => either.elim id fun fresh => absurd same (fresh.2 old member)⟩
  next fresh =>
    simp only [List.any_eq_true, decide_eq_true_eq, not_exists, not_and] at fresh
    simp only [List.mem_append, List.mem_singleton]
    exact or_congr_right ⟨fun same => ⟨same, fresh⟩, fun both => both.1⟩

theorem exists_key_insertOrIgnore : ∃ old ∈ insertOrIgnore key row rows, key old = key row := by
  by_cases clash : ∃ old ∈ rows, key old = key row
  · obtain ⟨old, member, same⟩ := clash
    exact ⟨old, mem_insertOrIgnore_of_mem member, same⟩
  · refine ⟨row, mem_insertOrIgnore.mpr (Or.inr ⟨rfl, ?_⟩), rfl⟩
    intro old member same
    exact clash ⟨old, member, same⟩

theorem mem_map_insertOrIgnore {value : κ} :
    value ∈ (insertOrIgnore key row rows).map key ↔ value ∈ rows.map key ∨ value = key row := by
  simp only [List.mem_map]
  constructor
  · rintro ⟨old, member, rfl⟩
    rcases mem_insertOrIgnore.mp member with older | ⟨rfl, _⟩
    · exact Or.inl ⟨old, older, rfl⟩
    · exact Or.inr rfl
  · rintro (⟨old, member, rfl⟩ | rfl)
    · exact ⟨old, mem_insertOrIgnore_of_mem member, rfl⟩
    · exact exists_key_insertOrIgnore

theorem mem_map_foldl_insertOrIgnore {β : Type} (make : β → α) {items : List β} {value : κ} :
    value ∈ (items.foldl (fun rows item => insertOrIgnore key (make item) rows) rows).map key ↔
      value ∈ rows.map key ∨ ∃ item ∈ items, key (make item) = value := by
  induction items generalizing rows with
  | nil => simp
  | cons item rest ih =>
    rw [List.foldl_cons, ih, mem_map_insertOrIgnore, List.exists_mem_cons_iff, or_assoc]
    simp only [eq_comm]

theorem mem_upsert_self : row ∈ upsert key row rows := by
  unfold upsert
  split
  next clash =>
    simp only [List.any_eq_true, decide_eq_true_eq] at clash
    obtain ⟨old, member, same⟩ := clash
    exact mem_updateWhere.mpr ⟨old, member, if_pos (decide_eq_true same)⟩
  next => exact List.mem_append_right _ List.mem_cons_self

theorem mem_upsert_of_ne (member : other ∈ rows) (different : key other ≠ key row) :
    other ∈ upsert key row rows := by
  unfold upsert
  split
  · exact mem_updateWhere.mpr ⟨other, member, if_neg (by simpa using different)⟩
  · exact List.mem_append_left _ member

theorem eq_or_mem_of_mem_upsert (member : other ∈ upsert key row rows) :
    other = row ∨ other ∈ rows := by
  unfold upsert at member
  split at member
  · obtain ⟨old, isOld, changed⟩ := mem_updateWhere.mp member
    split at changed
    · exact Or.inl changed.symm
    · exact Or.inr (changed ▸ isOld)
  · rcases List.mem_append.mp member with isOld | isNew
    · exact Or.inr isOld
    · exact Or.inl (List.mem_singleton.mp isNew)

theorem pairwise_insertOrIgnore {R : α → α → Prop} (ordered : rows.Pairwise R)
    (last : ∀ old ∈ rows, R old row) : (insertOrIgnore key row rows).Pairwise R := by
  unfold insertOrIgnore
  split
  · exact ordered
  · refine List.pairwise_append.mpr ⟨ordered, List.pairwise_singleton _ _, ?_⟩
    intro old member new newMember
    rw [List.mem_singleton.mp newMember]
    exact last old member

theorem map_insertOrIgnore {β : Type} (g : α → β) (key : β → κ) (row : α) (rows : List α) :
    (insertOrIgnore (fun row => key (g row)) row rows).map g =
      insertOrIgnore key (g row) (rows.map g) := by
  unfold insertOrIgnore
  rw [List.any_map]
  split
  next clash => exact (if_pos clash).symm
  next fresh =>
    rw [List.map_append]
    exact (if_neg fresh).symm

end Writes

/-! ## Keys -/

section Keys

variable {α κ : Type} {p : α → Bool} {f : α → α} {key : α → κ} {row other : α} {rows : List α}

theorem nodup_map_deleteWhere (nodup : (rows.map key).Nodup) :
    ((deleteWhere p rows).map key).Nodup :=
  nodup.sublist (List.filter_sublist.map key)

theorem nodup_map_append (nodup : (rows.map key).Nodup)
    (fresh : ∀ old ∈ rows, key old ≠ key row) : ((rows ++ [row]).map key).Nodup := by
  rw [List.map_append, List.map_singleton]
  refine List.nodup_append.mpr ⟨nodup, List.nodup_singleton _, ?_⟩
  intro value member other last
  obtain ⟨old, oldMember, rfl⟩ := List.mem_map.mp member
  rw [List.mem_singleton.mp last]
  exact fresh old oldMember

theorem nodup_map_insertOrIgnore [DecidableEq κ] (nodup : (rows.map key).Nodup) :
    ((insertOrIgnore key row rows).map key).Nodup := by
  unfold insertOrIgnore
  split
  · exact nodup
  next fresh =>
    simp only [List.any_eq_true, decide_eq_true_eq, not_exists, not_and] at fresh
    exact nodup_map_append nodup fresh

theorem nodup_map_foldl_insertOrIgnore [DecidableEq κ] {β : Type} (make : β → α) {items : List β}
    (nodup : (rows.map key).Nodup) :
    ((items.foldl (fun rows item => insertOrIgnore key (make item) rows) rows).map key).Nodup := by
  induction items generalizing rows with
  | nil => exact nodup
  | cons item rest ih => exact ih (nodup_map_insertOrIgnore nodup)

theorem length_eq_iff_of_subset {part whole : List κ} (nodup : part.Nodup)
    (within : part ⊆ whole) : part.length = whole.length ↔ whole.Nodup ∧ whole ⊆ part := by
  constructor
  · intro lengths
    have same : part.Perm whole :=
      (List.subperm_of_subset nodup within).perm_of_length_le (Nat.le_of_eq lengths.symm)
    exact ⟨same.nodup_iff.mp nodup, same.symm.subset⟩
  · rintro ⟨once, covered⟩
    exact Nat.le_antisymm (List.subperm_of_subset nodup within).length_le
      (List.subperm_of_subset once covered).length_le

theorem map_updateWhere (same : ∀ row, key (f row) = key row) :
    (updateWhere p f rows).map key = rows.map key := by
  simp only [updateWhere, List.map_map]
  refine List.map_congr_left ?_
  intro row _
  simp only [Function.comp_apply]
  split
  · exact same row
  · rfl

theorem eq_of_key_eq (nodup : (rows.map key).Nodup) (member : row ∈ rows)
    (otherMember : other ∈ rows) (same : key row = key other) : row = other :=
  List.inj_on_of_nodup_map nodup member otherMember same

variable [BEq κ] [LawfulBEq κ]

theorem find?_of_nodup (nodup : (rows.map key).Nodup) (member : row ∈ rows) :
    rows.find? (fun old => key old == key row) = some row := by
  cases found : rows.find? (fun old => key old == key row) with
  | none => exact absurd (List.find?_eq_none.mp found row member) (by simp)
  | some other =>
    have same : key other = key row := by simpa using List.find?_some found
    rw [eq_of_key_eq nodup (List.mem_of_find?_eq_some found) member same]

theorem find?_filter_of_nodup (nodup : (rows.map key).Nodup) (value : κ) :
    (rows.filter p).find? (fun old => key old == value) =
      (rows.find? fun old => key old == value).filter p := by
  cases found : rows.find? (fun old => key old == value) with
  | none =>
    rw [Option.filter_none, List.find?_eq_none]
    intro old member
    exact List.find?_eq_none.mp found old (List.mem_filter.mp member).1
  | some row =>
    obtain rfl : key row = value := by simpa using List.find?_some found
    have isRow := List.mem_of_find?_eq_some found
    by_cases passes : p row = true
    · rw [Option.filter_some_pos passes]
      exact find?_of_nodup (nodup.sublist (List.filter_sublist.map key))
        (List.mem_filter.mpr ⟨isRow, passes⟩)
    · rw [Option.filter_some_neg (Bool.eq_false_iff.mpr passes), List.find?_eq_none]
      intro old member same
      obtain ⟨isOld, oldPasses⟩ := List.mem_filter.mp member
      rw [eq_of_key_eq nodup isOld isRow (beq_iff_eq.mp same)] at oldPasses
      exact passes oldPasses

omit [LawfulBEq κ] in
theorem find?_updateWhere (key : α → κ) (same : ∀ row, key (f row) = key row) (value : κ) :
    (updateWhere p f rows).find? (fun row => key row == value) =
      (rows.find? fun row => key row == value).map fun row => if p row then f row else row := by
  rw [updateWhere, List.find?_map]
  congr 2
  funext row
  simp only [Function.comp_apply]
  split
  · rw [same]
  · rfl

theorem find?_updateWhere_ne {value : κ}
    (elsewhere : ∀ row, p row = true → key row ≠ value ∧ key (f row) ≠ value) :
    (updateWhere p f rows).find? (fun row => key row == value) =
      rows.find? fun row => key row == value := by
  induction rows with
  | nil => rfl
  | cons first rest ih =>
    unfold updateWhere at ih ⊢
    rw [List.map_cons, List.find?_cons, List.find?_cons, ih]
    by_cases changed : p first = true
    · obtain ⟨before, after⟩ := elsewhere first changed
      rw [if_pos changed, beq_false_of_ne before, beq_false_of_ne after]
    · rw [if_neg changed]

variable [DecidableEq κ]

theorem map_foldl_insertOrIgnore (items : List α) :
    (items.foldl (fun rows item => insertOrIgnore key item rows) rows).map key =
      rows.map key ++ ((items.map key).filter fun value => value ∉ rows.map key).eraseDups := by
  induction items generalizing rows with
  | nil => simp
  | cons item rest ih =>
    rw [List.foldl_cons, ih, List.map_cons]
    by_cases known : key item ∈ rows.map key
    · have same : insertOrIgnore key item rows = rows := by
        obtain ⟨old, member, same⟩ := List.mem_map.mp known
        exact if_pos (List.any_eq_true.mpr ⟨old, member, decide_eq_true same⟩)
      rw [same, List.filter_cons_of_neg (by simpa using known)]
    · have longer : insertOrIgnore key item rows = rows ++ [item] := by
        refine if_neg fun clash => known ?_
        obtain ⟨old, member, same⟩ := List.any_eq_true.mp clash
        exact List.mem_map.mpr ⟨old, member, of_decide_eq_true same⟩
      have fewer : (rest.map key).filter (fun value => decide (value ∉ (rows ++ [item]).map key)) =
          ((rest.map key).filter fun value => decide (value ∉ rows.map key)).filter
            fun value => !value == key item := by
        rw [List.filter_filter]
        refine List.filter_congr fun value _ => ?_
        by_cases isItem : value = key item
        · simp [isItem]
        · simp [isItem]
      rw [longer, fewer, List.filter_cons_of_pos (by simpa using known), List.eraseDups_cons,
        List.map_append, List.append_assoc]
      rfl

theorem first_of_mem_foldl_insertOrIgnore {items : List α}
    (member : other ∈ items.foldl (fun rows item => insertOrIgnore key item rows) rows) :
    other ∈ rows ∨ (key other ∉ rows.map key ∧
      items.find? (fun item => key item == key other) = some other) := by
  induction items generalizing rows with
  | nil => exact Or.inl member
  | cons item rest ih =>
    rcases ih member with inserted | ⟨fresh, later⟩
    · rcases mem_insertOrIgnore.mp inserted with old | ⟨rfl, fresh⟩
      · exact Or.inl old
      · refine Or.inr ⟨fun known => ?_, List.find?_cons_of_pos (beq_self_eq_true _)⟩
        obtain ⟨old, isOld, same⟩ := List.mem_map.mp known
        exact fresh old isOld same
    · rw [mem_map_insertOrIgnore, not_or] at fresh
      refine Or.inr ⟨fresh.1, ?_⟩
      rw [List.find?_cons_of_neg (by simpa using Ne.symm fresh.2), later]

theorem find?_upsert : (upsert key row rows).find? (fun old => key old == key row) = some row := by
  unfold upsert
  split
  next clash =>
    simp only [List.any_eq_true, decide_eq_true_eq] at clash
    obtain ⟨old, member, same⟩ := clash
    have sameCondition : (fun old => key old == key row) ∘
        (fun old => if decide (key old = key row) = true then row else old) =
          fun old => key old == key row := by
      funext old
      by_cases equal : key old = key row <;> simp [equal]
    rw [updateWhere, List.find?_map, sameCondition]
    cases found : rows.find? (fun old => key old == key row) with
    | none => exact absurd (List.find?_eq_none.mp found old member) (by simp [same])
    | some first =>
      have equal : key first = key row := by simpa using List.find?_some found
      simp [equal]
  next fresh =>
    simp only [List.any_eq_true, decide_eq_true_eq, not_exists, not_and] at fresh
    rw [List.find?_append, List.find?_eq_none.mpr fun old member => by simp [fresh old member]]
    simp

theorem find?_upsert_ne {value : κ} (different : key row ≠ value) :
    (upsert key row rows).find? (fun old => key old == value) =
      rows.find? fun old => key old == value := by
  unfold upsert
  split
  next =>
    refine find?_updateWhere_ne fun old same => ?_
    rw [decide_eq_true_eq] at same
    exact ⟨same ▸ different, different⟩
  next => simp [List.find?_append, different]

omit [BEq κ] [LawfulBEq κ] in
theorem nodup_map_upsert (nodup : (rows.map key).Nodup) :
    ((upsert key row rows).map key).Nodup := by
  unfold upsert
  split
  next =>
    have same : (updateWhere (fun old => decide (key old = key row)) (fun _ => row) rows).map key =
        rows.map key := by
      simp only [updateWhere, List.map_map]
      refine List.map_congr_left fun old _ => ?_
      by_cases equal : key old = key row
      · simp [equal]
      · simp [equal]
    rw [same]
    exact nodup
  next fresh =>
    simp only [List.any_eq_true, decide_eq_true_eq, not_exists, not_and] at fresh
    rw [List.map_append, List.nodup_append]
    refine ⟨nodup, List.nodup_singleton _, fun value isOld other isNew => ?_⟩
    obtain ⟨old, member, rfl⟩ := List.mem_map.mp isOld
    rw [List.map_singleton, List.mem_singleton] at isNew
    rw [isNew]
    exact fresh old member

end Keys

section Order

variable {α β : Type} {key : α → Int} {rows : List α} {row best : α}

/-- `ORDER BY key DESC LIMIT 1`; of rows that tie, the one that comes first. -/
def latest (key : α → Int) : List α → Option α
  | [] => none
  | row :: rest =>
    match latest key rest with
    | none => some row
    | some best => if key row < key best then some best else some row

theorem latest_eq_none : latest key rows = none ↔ rows = [] := by
  cases rows with
  | nil => simp [latest]
  | cons row rest =>
    simp only [latest, reduceCtorEq, iff_false]
    split
    · exact Option.some_ne_none _
    · split <;> exact Option.some_ne_none _

theorem mem_of_latest (found : latest key rows = some best) : best ∈ rows := by
  induction rows generalizing best with
  | nil => cases found
  | cons row rest ih =>
    simp only [latest] at found
    split at found
    · cases found
      exact List.mem_cons_self
    next later isLater =>
      split at found <;> cases found
      · exact List.mem_cons_of_mem _ (ih isLater)
      · exact List.mem_cons_self

theorem le_of_latest (found : latest key rows = some best) (member : row ∈ rows) :
    key row ≤ key best := by
  induction rows generalizing best with
  | nil => cases member
  | cons first rest ih =>
    simp only [latest] at found
    split at found
    next none' =>
      cases found
      rw [latest_eq_none.mp none', List.mem_singleton] at member
      rw [member]
    next later isLater =>
      have inRest : row ∈ rest → key row ≤ key later := ih isLater
      rcases List.mem_cons.mp member with rfl | member
      · split at found <;> cases found <;> omega
      · have below := inRest member
        split at found <;> cases found <;> omega

end Order

end Eeemail.Lib.Tables
