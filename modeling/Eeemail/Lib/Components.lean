import Mathlib

/-! # Connected components by labels

Sets that overlap belong together.  `Joined` is the closure of "some set has
both", and a labelling that gives two points the same label exactly if they are
joined can be kept up to date: when a set is added, its points and every point
that carried a label of one of them get one label. -/

set_option autoImplicit false

namespace Eeemail.Lib.Components

section

variable {α τ : Type}

def Meets (sets : List (List α)) (a b : α) : Prop := ∃ s ∈ sets, a ∈ s ∧ b ∈ s

def Joined (sets : List (List α)) : α → α → Prop := Relation.ReflTransGen (Meets sets)

variable {sets : List (List α)} {set : List α} {a b c : α}

theorem Joined.symm (joined : Joined sets a b) : Joined sets b a := by
  induction joined with
  | refl => exact .refl
  | tail _ last ih =>
    obtain ⟨s, isSet, left, right⟩ := last
    exact .head ⟨s, isSet, right, left⟩ ih

theorem Joined.cons (joined : Joined sets a b) : Joined (set :: sets) a b := by
  refine Relation.ReflTransGen.mono ?_ _ _ joined
  rintro x y ⟨s, isSet, left, right⟩
  exact ⟨s, List.mem_cons_of_mem _ isSet, left, right⟩

theorem joined_cons_iff :
    Joined (set :: sets) a b ↔
      Joined sets a b ∨ ∃ x ∈ set, ∃ y ∈ set, Joined sets a x ∧ Joined sets y b := by
  constructor
  · intro joined
    induction joined with
    | refl => exact Or.inl .refl
    | @tail b c _ last ih =>
      obtain ⟨s, isSet, left, right⟩ := last
      rcases List.mem_cons.mp isSet with rfl | isOld
      · rcases ih with old | ⟨x, isX, _, _, before, _⟩
        · exact Or.inr ⟨b, left, c, right, old, .refl⟩
        · exact Or.inr ⟨x, isX, c, right, before, .refl⟩
      · have meets : Joined sets b c := .single ⟨s, isOld, left, right⟩
        rcases ih with old | ⟨x, isX, y, isY, before, after⟩
        · exact Or.inl (old.trans meets)
        · exact Or.inr ⟨x, isX, y, isY, before, after.trans meets⟩
  · rintro (old | ⟨x, isX, y, isY, before, after⟩)
    · exact old.cons
    · have meets : Joined (set :: sets) x y := .single ⟨set, List.mem_cons_self, isX, isY⟩
      exact before.cons.trans (meets.trans after.cons)

/-- Points of the sets have labels, and the same one exactly if they are joined. -/
structure Labels (sets : List (List α)) (label : α → Option τ) : Prop where
  covered : ∀ a, (∃ t, label a = some t) ↔ ∃ s ∈ sets, a ∈ s
  agree : ∀ {a b t}, label a = some t → (label b = some t ↔ Joined sets a b)

theorem Labels.nil : Labels ([] : List (List α)) fun _ => (none : Option τ) :=
  ⟨fun a => ⟨fun ⟨_, isLabel⟩ => (by cases isLabel), fun ⟨_, isSet, _⟩ => (by cases isSet)⟩,
    fun isLabel => (by cases isLabel)⟩

def Touched (set : List α) (label : α → Option τ) (t : τ) : Prop := ∃ x ∈ set, label x = some t

def Near (set : List α) (label : α → Option τ) (a : α) : Prop :=
  a ∈ set ∨ ∃ t, label a = some t ∧ Touched set label t

variable {label : α → Option τ}

theorem Labels.near_iff (labels : Labels sets label) :
    Near set label a ↔ ∃ x ∈ set, Joined sets a x := by
  constructor
  · rintro (inside | ⟨t, isLabel, x, isX, same⟩)
    · exact ⟨a, inside, .refl⟩
    · exact ⟨x, isX, (labels.agree isLabel).mp same⟩
  · rintro ⟨x, isX, joined⟩
    rcases Relation.ReflTransGen.cases_head joined with rfl | ⟨next, first, _⟩
    · exact Or.inl isX
    · obtain ⟨s, isSet, inSet, _⟩ := first
      obtain ⟨t, isLabel⟩ := (labels.covered a).mpr ⟨s, isSet, inSet⟩
      exact Or.inr ⟨t, isLabel, x, isX, (labels.agree isLabel).mpr joined⟩

/-- One label for the set and all that is near it, the old labels for the rest. -/
structure Merged (set : List α) (t : τ) (label later : α → Option τ) : Prop where
  near : ∀ a, Near set label a → later a = some t
  far : ∀ a, ¬Near set label a → later a = label a

theorem Labels.cons {t : τ} {later : α → Option τ} (labels : Labels sets label)
    (merged : Merged set t label later)
    (fresh : ∀ a, label a = some t → Near set label a) : Labels (set :: sets) later := by
  have isNear : ∀ {a}, later a = some t ↔ Near set label a := by
    intro a
    refine ⟨fun isLater => ?_, merged.near a⟩
    by_contra far
    rw [merged.far a far] at isLater
    exact far (fresh a isLater)
  constructor
  · intro a
    by_cases near : Near set label a
    · refine ⟨fun _ => ?_, fun _ => ⟨t, merged.near a near⟩⟩
      rcases near with inside | ⟨u, isLabel, _⟩
      · exact ⟨set, List.mem_cons_self, inside⟩
      · obtain ⟨s, isSet, inSet⟩ := (labels.covered a).mp ⟨u, isLabel⟩
        exact ⟨s, List.mem_cons_of_mem _ isSet, inSet⟩
    · have outside : a ∉ set := fun inside => near (Or.inl inside)
      rw [merged.far a near, labels.covered a]
      simp only [List.mem_cons, exists_eq_or_imp, outside, false_or]
  · intro a b u isLater
    by_cases near : Near set label a
    · -- What is joined with a point near the set is near it.
      obtain rfl : t = u := Option.some.inj ((merged.near a near).symm.trans isLater)
      rw [isNear, joined_cons_iff, labels.near_iff]
      obtain ⟨x, isX, before⟩ := labels.near_iff.mp near
      constructor
      · rintro ⟨y, isY, after⟩
        exact Or.inr ⟨x, isX, y, isY, before, after.symm⟩
      · rintro (old | ⟨_, _, y, isY, _, after⟩)
        · exact ⟨x, isX, old.symm.trans before⟩
        · exact ⟨y, isY, after.symm⟩
    · have isLabel : label a = some u := (merged.far a near).symm.trans isLater
      have apart : ∀ x ∈ set, ¬Joined sets a x :=
        fun x isX joined => near (labels.near_iff.mpr ⟨x, isX, joined⟩)
      have same : Joined (set :: sets) a b ↔ Joined sets a b := by
        rw [joined_cons_iff]
        refine ⟨fun either => ?_, Or.inl⟩
        rcases either with old | ⟨x, isX, _, _, before, _⟩
        · exact old
        · exact absurd before (apart x isX)
      rw [same]
      by_cases nearOther : Near set label b
      · obtain ⟨x, isX, after⟩ := labels.near_iff.mp nearOther
        constructor
        · intro isLaterOther
          have isT : t = u := Option.some.inj ((merged.near b nearOther).symm.trans isLaterOther)
          exact absurd (fresh a (isT ▸ isLabel)) near
        · exact fun joined => absurd (joined.trans after) (apart x isX)
      · rw [merged.far b nearOther]
        exact labels.agree isLabel

end

end Eeemail.Lib.Components
