import Eeemail.Lib.Actions

/-! # Processes that can be killed

A process takes atomic steps on a state that outlives it.  It carries the number
of steps it gets before it is killed, so that a result about every such number
is a result about every point of interruption.  An error can be caught, a kill
cannot. -/

set_option autoImplicit false

namespace Eeemail.Lib.Interrupts

open Lib.Actions

inductive Stop (ε : Type) where
  | killed
  | failed (e : ε)
  deriving DecidableEq, Repr

structure Process (σ : Type) where
  state : σ
  left : Nat

/-- Code of a process that can be killed between its steps. -/
abbrev Steps (ε σ α : Type) := Action (Stop ε) (Process σ) α

section

variable {ε σ α β : Type}

/-- One atomic step: it is taken, it fails and changes nothing, or the process is
killed before it. -/
def atomic (f : σ → Except ε (α × σ)) : Steps ε σ α := fun process =>
  match process.left with
  | 0 => .error .killed process
  | left + 1 =>
    match f process.state with
    | .ok (a, state) => .ok a { state, left }
    | .error e => .error (.failed e) { process with left }

/-- A read, which changes nothing and is not counted. -/
def inspect (f : σ → Except ε α) : Steps ε σ α := fun process =>
  match f process.state with
  | .ok a => .ok a process
  | .error e => .error (.failed e) process

/-- Goes on after an error. -/
def attempt (x : Steps ε σ α) : Steps ε σ (Option α) := fun process =>
  match x.run process with
  | .ok a after => .ok (some a) after
  | .error (.failed _) after => .ok none after
  | .error .killed after => .error .killed after

variable {x : Steps ε σ α} {process after : Process σ} {a : α} {f : σ → Except ε α}

theorem atomic_eq_ok {f : σ → Except ε (α × σ)} : (atomic f).run process = .ok a after ↔
      ∃ left state, process.left = left + 1 ∧ f process.state = .ok (a, state) ∧
        after = { state, left } := by
  obtain ⟨state, left⟩ := process
  simp only [atomic, EStateM.run]
  cases left with
  | zero => simp
  | succ left =>
    cases f state with
    | error e => simp
    | ok result =>
      obtain ⟨b, next⟩ := result
      simp only [EStateM.Result.ok.injEq, Except.ok.injEq, Prod.mk.injEq, Nat.add_right_cancel_iff]
      constructor
      · rintro ⟨rfl, rfl⟩
        exact ⟨left, next, rfl, ⟨rfl, rfl⟩, rfl⟩
      · rintro ⟨_, _, rfl, ⟨rfl, rfl⟩, rfl⟩
        exact ⟨rfl, rfl⟩

theorem inspect_run_of_ok (found : f process.state = .ok a) :
    (inspect f).run process = .ok a process := by
  simp only [inspect, EStateM.run, found]

theorem inspect_run_of_error {e : ε} (failed : f process.state = .error e) :
    (inspect f).run process = .error (.failed e) process := by
  simp only [inspect, EStateM.run, failed]

theorem inspect_eq_ok :
    (inspect f).run process = .ok a after ↔ f process.state = .ok a ∧ process = after := by
  simp only [inspect, EStateM.run]
  cases f process.state with
  | error e => simp
  | ok b => simp

theorem inspect_bind_eq_ok {next : α → Steps ε σ β} {b : β} :
    (inspect f >>= next).run process = .ok b after ↔
      ∃ a, f process.state = .ok a ∧ (next a).run process = .ok b after := by
  simp only [bind_eq_ok, inspect_eq_ok]
  exact ⟨fun ⟨a, _, ⟨found, same⟩, rest⟩ => ⟨a, found, same ▸ rest⟩,
    fun ⟨a, found, rest⟩ => ⟨a, process, ⟨found, rfl⟩, rest⟩⟩

theorem attempt_eq_ok {result : Option α} : (attempt x).run process = .ok result after ↔
      (∃ a, result = some a ∧ x.run process = .ok a after) ∨
        (result = none ∧ ∃ e, x.run process = .error (.failed e) after) := by
  simp only [attempt, EStateM.run]
  cases x process with
  | ok a middle =>
    simp only [EStateM.Result.ok.injEq, reduceCtorEq, exists_false, and_false, or_false]
    constructor
    · rintro ⟨rfl, rfl⟩
      exact ⟨a, rfl, rfl, rfl⟩
    · rintro ⟨_, rfl, rfl, rfl⟩
      exact ⟨rfl, rfl⟩
  | error stop middle =>
    cases stop with
    | killed => simp
    | failed e => simp [eq_comm]

/-! ## Invariants of the state -/

/-- However the code ends, killed or not, a good state stays a good state. -/
def Guards (Inv : σ → Prop) (x : Steps ε σ α) : Prop :=
  Preserves (fun process => Inv process.state) x

variable {Inv : σ → Prop}

theorem Guards.pure (a : α) : Guards Inv (Pure.pure a : Steps ε σ α) := Preserves.pure a

theorem Guards.bind {f : α → Steps ε σ β} (first : Guards Inv x)
    (second : ∀ a, Guards Inv (f a)) : Guards Inv (x >>= f) := Preserves.bind first second

theorem Guards.inspect (f : σ → Except ε α) : Guards Inv (inspect f) := by
  intro process good
  simp only [stateAfter, Interrupts.inspect, EStateM.run]
  cases f process.state with
  | ok a => exact good
  | error e => exact good

theorem Guards.atomic {f : σ → Except ε (α × σ)}
    (kept : ∀ s a s', Inv s → f s = .ok (a, s') → Inv s') : Guards Inv (atomic f) := by
  intro process good
  obtain ⟨state, left⟩ := process
  simp only [stateAfter, Interrupts.atomic, EStateM.run]
  cases left with
  | zero => exact good
  | succ left =>
    cases run : f state with
    | ok result => exact kept _ _ _ good run
    | error e => exact good

theorem Guards.attempt (guards : Guards Inv x) : Guards Inv (attempt x) := by
  intro process good
  have kept := guards process good
  simp only [stateAfter, Interrupts.attempt, EStateM.run] at kept ⊢
  cases run : x process with
  | ok a after => simpa only [run] using kept
  | error stop after =>
    cases stop with
    | killed => simpa only [run] using kept
    | failed e => simpa only [run] using kept

theorem Guards.bind_of_ok {f : α → Steps ε σ β} (first : Guards Inv x)
    (second : ∀ process a after, Inv process.state → x.run process = .ok a after →
      Inv after.state → Inv (stateAfter (f a) after).state) :
    Guards Inv (x >>= f) := Preserves.bind_of_ok first second

theorem Guards.after_atomic {f : σ → Except ε (α × σ)} {g : α → Steps ε σ β}
    (good : Inv process.state) (taken : ∀ a s', f process.state = .ok (a, s') → Inv s')
    (second : ∀ a, Guards Inv (g a)) :
    Inv (stateAfter (Interrupts.atomic f >>= g) process).state := by
  obtain ⟨state, left⟩ := process
  cases left with
  | zero => exact good
  | succ left =>
    cases run : f state with
    | error e =>
      have failed : (Interrupts.atomic f).run ⟨state, left + 1⟩ =
          .error (.failed e) ⟨state, left⟩ := by
        simp [Interrupts.atomic, EStateM.run, run]
      rw [stateAfter_bind, failed]
      exact good
    | ok result =>
      have done : (Interrupts.atomic f).run ⟨state, left + 1⟩ =
          .ok result.1 ⟨result.2, left⟩ := by
        simp [Interrupts.atomic, EStateM.run, run]
      rw [stateAfter_bind_of_ok done]
      exact second result.1 _ (taken result.1 result.2 run)

end

end Eeemail.Lib.Interrupts
