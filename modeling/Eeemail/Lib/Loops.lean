import Mathlib

/-! # Loops that end

A loop that runs until a step says it is over.  `loop` takes fuel so that it can
be evaluated; a loop that is over after `n` steps has its result with any fuel
beyond `n`. -/

set_option autoImplicit false

namespace Eeemail.Lib.Loops

section

variable {σ : Type}

/-- The state in which the loop is over, or `none` if the fuel runs out first. -/
def loop (step : σ → Option σ) : Nat → σ → Option σ
  | 0, _ => none
  | fuel + 1, s =>
    match step s with
    | none => some s
    | some next => loop step fuel next

inductive Reaches (step : σ → Option σ) : Nat → σ → σ → Prop where
  | refl (s : σ) : Reaches step 0 s s
  | head {n : Nat} {s next t : σ} (taken : step s = some next) (reaches : Reaches step n next t) :
      Reaches step (n + 1) s t

variable {step : σ → Option σ} {m n : Nat} {s t u : σ}

theorem Reaches.trans (first : Reaches step m s t) (second : Reaches step n t u) :
    Reaches step (m + n) s u := by
  induction first with
  | refl _ =>
    rw [Nat.zero_add]
    exact second
  | head taken _ ih =>
    rw [Nat.add_right_comm]
    exact .head taken (ih second)

theorem loop_of_reaches (reaches : Reaches step n s t) (isOver : step t = none) {fuel : Nat}
    (enough : n < fuel) : loop step fuel s = some t := by
  induction reaches generalizing fuel with
  | refl s =>
    cases fuel with
    | zero => omega
    | succ fuel => simp [loop, isOver]
  | head taken _ ih =>
    cases fuel with
    | zero => omega
    | succ fuel =>
      simp only [loop, taken]
      exact ih isOver (by omega)

end

end Eeemail.Lib.Loops
