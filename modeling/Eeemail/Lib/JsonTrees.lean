import Mathlib

/-! # JSON documents

A document is a tree over its numbers.  Strings are lists of code points, so
that half of a surrogate pair can be told from a character; an object keeps its
fields in the order in which they stand, repeated keys included.  What a
document denotes does not depend on that order: `transform` with `arranged`.
Kept in maps, a document has the last value of every key. -/

set_option autoImplicit false

namespace Eeemail.Lib.JsonTrees

abbrev Points := List Nat

inductive Json (ν : Type) where
  | null
  | bool (b : Bool)
  | number (n : ν)
  | string (points : Points)
  | array (items : List (Json ν))
  | object (fields : List (Points × Json ν))

/-! ## Trees -/

section Trees

variable {ν μ γ : Type}

@[elab_as_elim]
theorem Json.induct {P : Json ν → Prop} (null : P .null) (bool : ∀ b, P (.bool b))
    (number : ∀ n, P (.number n)) (string : ∀ points, P (.string points))
    (array : ∀ items, (∀ item ∈ items, P item) → P (.array items))
    (object : ∀ fields, (∀ field ∈ fields, P field.2) → P (.object fields)) (json : Json ν) :
    P json := by
  refine @Json.rec ν P (fun items => ∀ item ∈ items, P item)
    (fun fields => ∀ field ∈ fields, P field.2) (fun field => P field.2)
    null bool number string array object ?_ ?_ ?_ ?_ (fun _ _ holds => holds) json
  · exact fun _ member => nomatch member
  · exact fun item items first later => List.forall_mem_cons.mpr ⟨first, later⟩
  · exact fun _ member => nomatch member
  · exact fun field fields first later => List.forall_mem_cons.mpr ⟨first, later⟩

/-- What is made of a document: one operation for each constructor. -/
structure Algebra (ν γ : Type) where
  null : γ
  bool : Bool → γ
  number : ν → γ
  string : Points → γ
  array : List γ → γ
  object : List (Points × γ) → γ

variable (a : Algebra ν γ)

mutual

def Json.fold : Json ν → γ
  | .null => a.null
  | .bool b => a.bool b
  | .number n => a.number n
  | .string points => a.string points
  | .array items => a.array (foldItems items)
  | .object fields => a.object (foldFields fields)

def foldItems : List (Json ν) → List γ
  | [] => []
  | item :: others => item.fold :: foldItems others

def foldFields : List (Points × Json ν) → List (Points × γ)
  | [] => []
  | (key, item) :: others => (key, item.fold) :: foldFields others

end

/-- Other numbers, and the fields of every object arranged anew. -/
def Json.transform (f : ν → μ) (arrange : List (Points × Json μ) → List (Points × Json μ)) :
    Json ν → Json μ :=
  Json.fold ⟨.null, .bool, fun n => .number (f n), .string, .array,
    fun fields => .object (arrange fields)⟩

/-- A condition on all numbers and lists of keys. -/
def Json.all (number : ν → Bool) (keys : List Points → Bool) : Json ν → Bool :=
  Json.fold ⟨true, fun _ => true, number, fun _ => true, fun items => items.all id,
    fun fields => keys (fields.map (·.1)) && fields.all (·.2)⟩

variable {f : ν → μ} {arrange : List (Points × Json μ) → List (Points × Json μ)}
variable {number : ν → Bool} {keys : List Points → Bool}
variable (items : List (Json ν)) (fields : List (Points × Json ν))

theorem fold_array : (Json.array items).fold a = a.array (items.map (Json.fold a)) := by
  have each : foldItems a items = items.map (Json.fold a) := by
    induction items with
    | nil => rfl
    | cons item others ih => rw [foldItems, ih, List.map_cons]
  rw [Json.fold, each]

theorem fold_object :
    (Json.object fields).fold a = a.object (fields.map (Prod.map id (Json.fold a))) := by
  have each : foldFields a fields = fields.map (Prod.map id (Json.fold a)) := by
    induction fields with
    | nil => rfl
    | cons field others ih => rw [foldFields, ih]; rfl
  rw [Json.fold, each]

theorem transform_array :
    (Json.array items).transform f arrange = .array (items.map (Json.transform f arrange)) :=
  fold_array _ items

theorem transform_object :
    (Json.object fields).transform f arrange =
      .object (arrange (fields.map (Prod.map id (Json.transform f arrange)))) :=
  fold_object _ fields

theorem all_array_iff :
    (Json.array items).all number keys = true ↔ ∀ item ∈ items, item.all number keys = true := by
  simp [Json.all, fold_array]

theorem all_object_iff :
    (Json.object fields).all number keys = true ↔
      keys (fields.map (·.1)) = true ∧ ∀ field ∈ fields, field.2.all number keys = true := by
  simp [Json.all, fold_object, Function.comp_def]

end Trees

/-! ## Fields -/

/-- Fields in the order of their keys. -/
def arranged {α : Type} (fields : List (Points × α)) : List (Points × α) :=
  fields.insertionSort fun a b => a.1 ≤ b.1

/-- A repeated key counts with its last value. -/
def lastOf {α : Type} (fields : List (Points × α)) : List (Points × α) :=
  fields.pwFilter fun a b => a.1 ≠ b.1

/-- The fields as a map has them. -/
def asMap {α : Type} (fields : List (Points × α)) : List (Points × α) := arranged (lastOf fields)

section Fields

variable {α β : Type} (fields : List (Points × α))

theorem perm_arranged : (arranged fields).Perm fields :=
  List.perm_insertionSort _ fields

theorem keys_map (f : α → β) : (fields.map (Prod.map id f)).map (·.1) = fields.map (·.1) := by
  rw [List.map_map]
  rfl

theorem nodup_asMap : ((asMap fields).map (·.1)).Nodup :=
  ((perm_arranged _).map _).nodup_iff.mpr (List.pairwise_map.mpr (List.pairwise_pwFilter fields))

theorem lastOf_eq_self_iff : lastOf fields = fields ↔ (fields.map (·.1)).Nodup :=
  List.pwFilter_eq_self.trans List.pairwise_map.symm

theorem find?_lastOf (key : Points) :
    (lastOf fields).find? (·.1 == key) = (fields.filter (·.1 == key)).getLast? := by
  induction fields with
  | nil => rfl
  | cons field fields ih =>
    by_cases fresh : ∀ later ∈ lastOf fields, field.1 ≠ later.1
    · have isCons : lastOf (field :: fields) = field :: lastOf fields := if_pos fresh
      rw [isCons, List.find?_cons, List.filter_cons]
      cases isKey : field.1 == key with
      | false => exact ih
      | true =>
        have absent : (lastOf fields).find? (·.1 == key) = none := List.find?_eq_none.mpr
          fun later member same =>
            fresh later member ((eq_of_beq isKey).trans (eq_of_beq same).symm)
        rw [if_pos rfl, List.getLast?_cons, ← ih, absent]
        rfl
    · have isSame : lastOf (field :: fields) = lastOf fields := if_neg fresh
      rw [isSame, List.filter_cons]
      cases isKey : field.1 == key with
      | false => exact ih
      | true =>
        obtain ⟨later, member, same⟩ : ∃ later ∈ lastOf fields, field.1 = later.1 := by
          simpa using fresh
        have present : ((lastOf fields).find? (·.1 == key)).isSome :=
          List.find?_isSome.mpr ⟨later, member, same ▸ isKey⟩
        obtain ⟨last, isLast⟩ := Option.isSome_iff_exists.mp present
        rw [if_pos rfl, List.getLast?_cons, ← ih, isLast]
        rfl

theorem find?_asMap (key : Points) :
    (asMap fields).find? (·.1 == key) = (fields.filter (·.1 == key)).getLast? := by
  rw [← find?_lastOf]
  have nodup := nodup_asMap fields
  cases found : (lastOf fields).find? (·.1 == key) with
  | none =>
    refine List.find?_eq_none.mpr fun field member => ?_
    exact List.find?_eq_none.mp found field ((perm_arranged _).subset member)
  | some field =>
    have member := (perm_arranged _).symm.subset (List.mem_of_find?_eq_some found)
    have isKey : field.1 = key := by simpa using List.find?_some found
    have present : ((asMap fields).find? (·.1 == key)).isSome :=
      List.find?_isSome.mpr ⟨field, member, beq_of_eq isKey⟩
    obtain ⟨other, isOther⟩ := Option.isSome_iff_exists.mp present
    have otherKey : other.1 = key := by simpa using List.find?_some isOther
    rw [isOther, List.inj_on_of_nodup_map nodup (List.mem_of_find?_eq_some isOther) member
      (otherKey.trans isKey.symm)]

theorem asMap_eq_iff (f g : α → β) :
    asMap (fields.map (Prod.map id f)) = arranged (fields.map (Prod.map id g)) ↔
      (fields.map (·.1)).Nodup ∧ ∀ field ∈ fields, f field.2 = g field.2 := by
  constructor
  · intro same
    have perm : (lastOf (fields.map (Prod.map id f))).Perm (fields.map (Prod.map id g)) :=
      (perm_arranged _).symm.trans ((List.Perm.of_eq same).trans (perm_arranged _))
    have whole := (List.pwFilter_sublist _).eq_of_length
      (perm.length_eq.trans (by rw [List.length_map, List.length_map]))
    have nodup := (lastOf_eq_self_iff _).mp whole
    rw [keys_map] at nodup
    refine ⟨nodup, fun field member => ?_⟩
    rw [lastOf, whole] at perm
    obtain ⟨other, isOther, isSame⟩ :=
      List.mem_map.mp (perm.mem_iff.mpr (List.mem_map_of_mem member))
    obtain ⟨sameKey, sameValue⟩ := Prod.mk.inj isSame
    rw [List.inj_on_of_nodup_map nodup isOther member sameKey] at sameValue
    exact sameValue
  · rintro ⟨nodup, same⟩
    have values : fields.map (Prod.map id f) = fields.map (Prod.map id g) :=
      List.map_congr_left fun field member => Prod.ext rfl (same field member)
    rw [← keys_map fields g] at nodup
    rw [asMap, values, (lastOf_eq_self_iff _).mpr nodup]

end Fields

section Kept

variable {ν μ : Type}

/-- A document that is kept in maps denotes the same exactly if none of its objects repeats a
key and each of its numbers is kept. -/
theorem transform_asMap_eq_iff [DecidableEq μ] (f g : ν → μ) (doc : Json ν) :
    doc.transform f asMap = doc.transform g arranged ↔
      doc.all (fun n => decide (f n = g n)) (fun keys => decide keys.Nodup) = true := by
  induction doc using Json.induct with
  | null => exact iff_of_true rfl rfl
  | bool b => exact iff_of_true rfl rfl
  | string points => exact iff_of_true rfl rfl
  | number n => simp [Json.transform, Json.all, Json.fold]
  | array items ih =>
    rw [transform_array, transform_array, Json.array.injEq, List.map_inj_left, all_array_iff]
    exact forall₂_congr ih
  | object fields ih =>
    rw [transform_object, transform_object, Json.object.injEq, asMap_eq_iff, all_object_iff,
      decide_eq_true_eq]
    exact and_congr_right fun _ => forall₂_congr ih

def Json.field (key : Points) : Json ν → Option (Json ν)
  | .object fields => (fields.find? (·.1 == key)).map (·.2)
  | _ => none

def Json.items : Json ν → Option (List (Json ν))
  | .array items => some items
  | _ => none

theorem field_transform_asMap (f : ν → μ) (key : Points) (fields : List (Points × Json ν)) :
    ((Json.object fields).transform f asMap).field key =
      (fields.filter (·.1 == key)).getLast?.map fun field => field.2.transform f asMap := by
  rw [transform_object, Json.field, find?_asMap, List.filter_map, List.getLast?_map,
    Option.map_map]
  rfl

end Kept

end Eeemail.Lib.JsonTrees
