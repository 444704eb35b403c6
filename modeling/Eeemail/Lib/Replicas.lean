import Eeemail.Lib.Runs

/-! # Two replicas that tell each other what they did

A replica maps keys to values.  It carries out its own operations at once and sends them
to the other replica, which carries them out in the order they were sent.  An operation
reads and writes the keys it touches and no others.  If a replica never touches a key that
an operation on its way to it touches, the two agree once nothing is on its way. -/

set_option autoImplicit false

namespace Eeemail.Lib.Replicas

open Lib.Runs

/-- Operations on maps, each with the keys it reads and writes. -/
structure Operations (κ ν ω : Type) where
  act : (κ → ν) → ω → κ → ν
  touches : ω → κ → Prop
  outside : ∀ state op key, ¬touches op key → act state op key = state key
  inside : ∀ state other op, (∀ key, touches op key → state key = other key) →
    ∀ key, touches op key → act state op key = act other op key

/-- Two replicas, and what each of them has yet to be told. -/
structure Pair (κ ν ω : Type) where
  left : κ → ν
  right : κ → ν
  toRight : List ω
  toLeft : List ω

section

variable {κ ν ω : Type}

def Pair.swap (pair : Pair κ ν ω) : Pair κ ν ω :=
  { left := pair.right, right := pair.left, toRight := pair.toLeft, toLeft := pair.toRight }

variable (operations : Operations κ ν ω)

def Operations.Touched (ops : List ω) (key : κ) : Prop := ∃ op ∈ ops, operations.touches op key

variable {operations} {pair : Pair κ ν ω}

theorem actAll_outside {ops : List ω} {key : κ} (untouched : ¬operations.Touched ops key)
    (state : κ → ν) : runAll operations.act state ops key = state key := by
  induction ops generalizing state with
  | nil => rfl
  | cons op rest ih =>
    rw [runAll_cons, ih fun ⟨other, member, touches⟩ =>
      untouched ⟨other, List.mem_cons_of_mem _ member, touches⟩]
    exact operations.outside state op key fun touches =>
      untouched ⟨op, List.mem_cons_self, touches⟩

theorem actAll_congr (agreed : κ → Prop) {ops : List ω}
    (inside : ∀ key, operations.Touched ops key → agreed key) {state other : κ → ν}
    (same : ∀ key, agreed key → state key = other key) :
    ∀ key, agreed key → runAll operations.act state ops key =
      runAll operations.act other ops key := by
  induction ops generalizing state other with
  | nil => exact same
  | cons op rest ih =>
    refine ih (fun key ⟨other, member, touches⟩ =>
      inside key ⟨other, List.mem_cons_of_mem _ member, touches⟩) fun key isAgreed => ?_
    by_cases touched : operations.touches op key
    · refine operations.inside state other op (fun key touches => ?_) key touched
      exact same key (inside key ⟨op, List.mem_cons_self, touches⟩)
    · rw [operations.outside state op key touched, operations.outside other op key touched,
        same key isAgreed]

/-- Nothing is touched by operations in both directions, and each replica becomes the other
where the other has nothing to be told. -/
structure Coherent (operations : Operations κ ν ω) (pair : Pair κ ν ω) : Prop where
  apart : ∀ key, operations.Touched pair.toRight key → ¬operations.Touched pair.toLeft key
  right : ∀ key, ¬operations.Touched pair.toLeft key →
    runAll operations.act pair.right pair.toRight key = pair.left key
  left : ∀ key, ¬operations.Touched pair.toRight key →
    runAll operations.act pair.left pair.toLeft key = pair.right key

theorem coherent_start (state : κ → ν) :
    Coherent operations { left := state, right := state, toRight := [], toLeft := [] } := by
  refine ⟨?_, fun _ _ => rfl, fun _ _ => rfl⟩
  rintro key ⟨op, member, _⟩
  cases member

theorem Coherent.swap (coherent : Coherent operations pair) :
    Coherent operations pair.swap :=
  ⟨fun key toLeft toRight => coherent.apart key toRight toLeft, coherent.left, coherent.right⟩

theorem Coherent.issue (coherent : Coherent operations pair) (op : ω)
    (clear : ∀ key, operations.touches op key → ¬operations.Touched pair.toLeft key) :
    Coherent operations
      { pair with left := operations.act pair.left op, toRight := pair.toRight ++ [op] } := by
  have split : ∀ key, operations.Touched (pair.toRight ++ [op]) key ↔
      operations.Touched pair.toRight key ∨ operations.touches op key := by
    intro key
    simp [Operations.Touched, or_and_right, exists_or]
  refine ⟨fun key touched => ?_, fun key untouched => ?_, fun key untouched => ?_⟩
  · rcases (split key).mp touched with before | now
    · exact coherent.apart key before
    · exact clear key now
  · simp only [runAll_snoc]
    by_cases touched : operations.touches op key
    · refine operations.inside _ _ op (fun key touches => ?_) key touched
      exact coherent.right key (clear key touches)
    · rw [operations.outside _ op key touched, operations.outside _ op key touched,
        coherent.right key untouched]
  · have before : ¬operations.Touched pair.toRight key := fun touched =>
      untouched ((split key).mpr (Or.inl touched))
    have now : ¬operations.touches op key := fun touches =>
      untouched ((split key).mpr (Or.inr touches))
    -- What comes from the other side does not touch what the operation changed.
    have same := actAll_congr (fun key => ¬operations.touches op key)
      (fun key touched touches => clear key touches touched)
      (fun key miss => operations.outside pair.left op key miss) key now
    exact same.trans (coherent.left key before)

theorem Coherent.deliver (coherent : Coherent operations pair) {op : ω}
    {rest : List ω} (next : pair.toRight = op :: rest) :
    Coherent operations { pair with right := operations.act pair.right op, toRight := rest } := by
  have split : ∀ key, operations.Touched pair.toRight key ↔
      operations.touches op key ∨ operations.Touched rest key := by
    intro key
    simp [Operations.Touched, next]
  refine ⟨fun key touched => ?_, fun key untouched => ?_, fun key untouched => ?_⟩
  · exact coherent.apart key ((split key).mpr (Or.inr touched))
  · have told := coherent.right key untouched
    rw [next] at told
    exact told
  · by_cases touches : operations.touches op key
    · have clear := coherent.apart key ((split key).mpr (Or.inl touches))
      have told := coherent.right key clear
      rw [next, runAll_cons, actAll_outside untouched] at told
      exact (actAll_outside clear pair.left).trans told.symm
    · have before : ¬operations.Touched pair.toRight key := fun touched =>
        ((split key).mp touched).elim touches untouched
      exact (coherent.left key before).trans (operations.outside pair.right op key touches).symm

theorem Coherent.settled (coherent : Coherent operations pair)
    (toRight : pair.toRight = []) (toLeft : pair.toLeft = []) : pair.left = pair.right := by
  funext key
  have untouched : ¬operations.Touched pair.toLeft key := by
    rintro ⟨op, member, _⟩
    rw [toLeft] at member
    cases member
  have same := coherent.right key untouched
  rw [toRight] at same
  exact same.symm

end

end Eeemail.Lib.Replicas
