import Eeemail.Lib.Runs

/-! # Repainting

`desktop/src/main.ts`: `changed` calls `render`, which starts a paint unless one
is under way.  A paint is asynchronous: at each `await` it stops until it is
resumed, and whatever runs in between may call `changed` again.  `render` does
not remember such a call, so the change shows only if a later call repaints. -/

set_option autoImplicit false

namespace Eeemail.Desktop.Repaint

open Lib.Runs

structure Paint where
  /-- The number of the call of `changed` that started it. -/
  startedBy : Nat
  /-- How many times it will still stop before it is done. -/
  awaits : Nat
  deriving DecidableEq, Repr

structure Window where
  calls : Nat := 0
  painting : Option Paint := none
  /-- The call that started the paint that was last done. -/
  shown : Option Nat := none
  deriving DecidableEq, Repr

def blank : Window := {}

/-- `render`: a paint that stops `awaits` times, unless one is under way. -/
def render (awaits : Nat) (window : Window) : Window :=
  match window.painting with
  | some _ => window
  | none => { window with painting := some { startedBy := window.calls, awaits } }

/-- The paint goes on after an `await`.  The last time is that of `finally`, which
comes after the body of the paint even if that never stopped. -/
def resume (window : Window) : Window :=
  match window.painting with
  | none => window
  | some { startedBy, awaits := 0 } => { window with painting := none, shown := some startedBy }
  | some { startedBy, awaits := awaits + 1 } =>
    { window with painting := some { startedBy, awaits } }

inductive Event where
  /-- `changed`, where a paint of the state as it is now would stop this often. -/
  | changed (awaits : Nat)
  | resumed
  deriving DecidableEq, Repr

def step (window : Window) : Event → Window
  | .changed awaits => render awaits { window with calls := window.calls + 1 }
  | .resumed => resume window

/-- Nothing is being painted, and what is shown was painted since the last call of
`changed`. -/
def UpToDate (window : Window) : Prop :=
  window.painting = none ∧ window.shown = some window.calls

/-! ## What is left to paint -/

structure Ordered (window : Window) : Prop where
  painting : ∀ paint, window.painting = some paint → paint.startedBy ≤ window.calls
  shown : ∀ call, window.shown = some call → call ≤ window.calls

theorem Ordered.step {window : Window} (ordered : Ordered window) (event : Event) :
    Ordered (step window event) := by
  obtain ⟨calls, painting, shown⟩ := window
  cases event with
  | changed awaits =>
    cases painting with
    | none =>
      refine ⟨?_, fun call isShown => Nat.le_succ_of_le (ordered.shown call isShown)⟩
      intro paint isPainting
      obtain rfl := Option.some.inj isPainting
      exact Nat.le_refl _
    | some paint =>
      exact ⟨fun paint isPainting => Nat.le_succ_of_le (ordered.painting paint isPainting),
        fun call isShown => Nat.le_succ_of_le (ordered.shown call isShown)⟩
  | resumed =>
    rcases painting with _ | ⟨startedBy, _ | awaits⟩
    · exact ordered
    · refine ⟨fun paint isPainting => (by cases isPainting), ?_⟩
      intro call isShown
      obtain rfl := Option.some.inj isShown
      exact ordered.painting _ rfl
    · refine ⟨?_, ordered.shown⟩
      intro paint isPainting
      obtain rfl := Option.some.inj isPainting
      exact ordered.painting ⟨startedBy, awaits + 1⟩ rfl

theorem ordered_runAll (events : List Event) : Ordered (runAll step blank events) := by
  have start : Ordered blank := by
    constructor
    · intro paint isPainting
      cases isPainting
    · intro call isShown
      cases isShown
  have preserved : ∀ window event, Ordered window → Ordered (step window event) :=
    fun _ event ordered => ordered.step event
  exact invariant_of_step preserved events blank start

theorem runAll_resumed_idle {window : Window} (idle : window.painting = none) (times : Nat) :
    runAll step window (List.replicate times .resumed) = window := by
  induction times with
  | zero => rfl
  | succ times ih =>
    have still : step window .resumed = window := by
      simp only [step, resume, idle]
    rw [List.replicate_succ, runAll_cons, still]
    exact ih

theorem runAll_resumed {calls startedBy awaits : Nat} {shown : Option Nat} {times : Nat}
    (enough : awaits < times) :
    runAll step ⟨calls, some ⟨startedBy, awaits⟩, shown⟩ (List.replicate times .resumed) =
      ⟨calls, none, some startedBy⟩ := by
  induction times generalizing awaits with
  | zero => omega
  | succ times ih =>
    rw [List.replicate_succ, runAll_cons]
    cases awaits with
    | zero => exact runAll_resumed_idle rfl times
    | succ awaits => exact ih (Nat.lt_of_succ_lt_succ enough)

/-- Once its paints are resumed for long enough, the window shows what the last
call of `changed` announced exactly if nothing was being painted at that call. -/
theorem no_repaint_lost_iff (early : List Event) (awaits : Nat) :
    (∃ enough, ∀ times ≥ enough, UpToDate
        (runAll step blank (early ++ .changed awaits :: List.replicate times .resumed))) ↔
      (runAll step blank early).painting = none := by
  have ordered := ordered_runAll early
  simp only [runAll_append, runAll_cons]
  generalize runAll step blank early = window at *
  obtain ⟨calls, painting, shown⟩ := window
  cases painting with
  | none =>
    refine iff_of_true ⟨awaits + 1, fun times enough => ?_⟩ rfl
    have started : step ⟨calls, none, shown⟩ (.changed awaits) =
        ⟨calls + 1, some ⟨calls + 1, awaits⟩, shown⟩ := rfl
    rw [started, runAll_resumed (Nat.lt_of_succ_le enough)]
    exact ⟨rfl, rfl⟩
  | some paint =>
    -- The call is not remembered: the paint that ends was started before it.
    refine iff_of_false ?_ (nomatch ·)
    rintro ⟨enough, upToDate⟩
    have before : paint.startedBy ≤ calls := ordered.painting paint rfl
    have ignored : step ⟨calls, some paint, shown⟩ (.changed awaits) =
        ⟨calls + 1, some paint, shown⟩ := rfl
    have final := (upToDate (max enough (paint.awaits + 1)) (Nat.le_max_left _ _)).2
    rw [ignored, runAll_resumed (Nat.lt_of_succ_le (Nat.le_max_right _ _))] at final
    have last : paint.startedBy = calls + 1 := Option.some.inj final
    omega

/-- A change that arrives while the list is being fetched is never drawn. -/
theorem change_during_fetch_not_drawn :
    ¬ ∃ enough, ∀ times ≥ enough, UpToDate (runAll step blank
      ([.changed 2, .resumed] ++ .changed 2 :: List.replicate times .resumed)) := by
  rintro ⟨enough, upToDate⟩
  have final := (upToDate (max enough 2) (Nat.le_max_left _ _)).2
  have ignored : ∀ times, runAll step blank
      ([.changed 2, .resumed] ++ .changed 2 :: List.replicate times .resumed) =
        runAll step ⟨2, some ⟨1, 1⟩, none⟩ (List.replicate times .resumed) := fun _ => rfl
  rw [ignored, runAll_resumed (Nat.lt_of_succ_le (Nat.le_max_right _ _))] at final
  cases final

end Eeemail.Desktop.Repaint
