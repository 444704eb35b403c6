import Mathlib

/-! # Runs of a state machine

A machine takes one operation after another.  `runAll` is the state a list of
operations leads to, and `MeetsAll` says that a condition on the state before
an operation held at each of them.  An invariant is proved once, for one
step. -/

set_option autoImplicit false

namespace Eeemail.Lib.Runs

section Machine

variable {σ ι : Type} (step : σ → ι → σ)

def runAll (s : σ) (ops : List ι) : σ := ops.foldl step s

/-- Every operation of the run finds the machine in a state that meets the condition. -/
def MeetsAll (condition : σ → ι → Prop) : σ → List ι → Prop
  | _, [] => True
  | s, op :: rest => condition s op ∧ MeetsAll condition (step s op) rest

instance MeetsAll.decidable (condition : σ → ι → Prop) [∀ s op, Decidable (condition s op)] :
    ∀ s ops, Decidable (MeetsAll step condition s ops)
  | _, [] => .isTrue trivial
  | s, op :: rest =>
    have := MeetsAll.decidable condition (step s op) rest
    inferInstanceAs (Decidable (condition s op ∧ MeetsAll step condition (step s op) rest))

variable {step} {condition : σ → ι → Prop} {Inv : σ → Prop}

@[simp]
theorem runAll_nil (s : σ) : runAll step s [] = s := rfl

@[simp]
theorem runAll_cons (s : σ) (op : ι) (rest : List ι) :
    runAll step s (op :: rest) = runAll step (step s op) rest := rfl

theorem runAll_append (s : σ) (first second : List ι) :
    runAll step s (first ++ second) = runAll step (runAll step s first) second := by
  simp [runAll]

theorem meetsAll_append (s : σ) (first second : List ι) :
    MeetsAll step condition s (first ++ second) ↔
      MeetsAll step condition s first ∧
        MeetsAll step condition (runAll step s first) second := by
  induction first generalizing s with
  | nil => simp [MeetsAll]
  | cons op rest ih => simp [MeetsAll, ih, and_assoc]

/-- The invariant rule: one step from a good state, under the condition, is a good state. -/
theorem invariant_of_meetsAll (preserved : ∀ s op, Inv s → condition s op → Inv (step s op)) :
    ∀ ops s, Inv s → MeetsAll step condition s ops → Inv (runAll step s ops) := by
  intro ops
  induction ops with
  | nil =>
    intro s start _
    exact start
  | cons op rest ih =>
    intro s start meets
    exact ih (step s op) (preserved s op start meets.1) meets.2

theorem invariant_of_step (preserved : ∀ s op, Inv s → Inv (step s op)) :
    ∀ ops s, Inv s → Inv (runAll step s ops) := by
  intro ops
  induction ops with
  | nil =>
    intro s start
    exact start
  | cons op rest ih =>
    intro s start
    exact ih (step s op) (preserved s op start)

/-- A run that meets one condition meets another, if each step from a good state does
and keeps it good. -/
theorem meetsAll_mono {other : σ → ι → Prop}
    (preserved : ∀ s op, Inv s → condition s op → other s op ∧ Inv (step s op)) :
    ∀ ops s, Inv s → MeetsAll step condition s ops → MeetsAll step other s ops := by
  intro ops
  induction ops with
  | nil => exact fun _ _ _ => trivial
  | cons op rest ih =>
    intro s start meets
    obtain ⟨met, good⟩ := preserved s op start meets.1
    exact ⟨met, ih (step s op) good meets.2⟩

/-- In the run `early ++ entry :: later` the property began to hold with `entry`
and held in every state from then on. -/
structure EnteredAt (step : σ → ι → σ) (P : σ → Prop) (s : σ) (early : List ι) (entry : ι)
    (later : List ι) : Prop where
  before : ¬P (runAll step s early)
  since : ∀ k ≤ later.length, P (runAll step s (early ++ entry :: later.take k))

theorem runAll_snoc (s : σ) (ops : List ι) (op : ι) :
    runAll step s (ops ++ [op]) = step (runAll step s ops) op := by
  rw [runAll_append, runAll_cons, runAll_nil]

theorem EnteredAt.begin {P : σ → Prop} {s : σ} {ops : List ι} {op : ι}
    (before : ¬P (runAll step s ops)) (after : P (step (runAll step s ops) op)) :
    EnteredAt step P s ops op [] := by
  refine ⟨before, ?_⟩
  intro k _
  rw [List.take_nil, runAll_snoc]
  exact after

theorem EnteredAt.continue {P : σ → Prop} {s : σ} {early later : List ι} {entry op : ι}
    (entered : EnteredAt step P s early entry later)
    (after : P (step (runAll step s (early ++ entry :: later)) op)) :
    EnteredAt step P s early entry (later ++ [op]) := by
  refine ⟨entered.before, ?_⟩
  intro k inside
  by_cases last : k ≤ later.length
  · rw [List.take_append_of_le_length last]
    exact entered.since k last
  · have whole : (later ++ [op]).length ≤ k := by
      rw [List.length_append, List.length_singleton]
      omega
    rw [List.take_of_length_le whole, ← List.cons_append, ← List.append_assoc, runAll_snoc]
    exact after

end Machine

end Eeemail.Lib.Runs
