import Mathlib

/-! # Fallible actions on a state

An action reads and changes a state and may stop with an error.  As with a
database outside of a transaction, what it wrote before it stopped stays
written.  Two rules take actions apart: a successful sequence is a sequence of
successes, and a relation that every part respects is respected by the whole,
however it ends. -/

set_option autoImplicit false

namespace Eeemail.Lib.Actions

abbrev Action (ε σ α : Type) := EStateM ε σ α

section Rules

variable {ε σ α β : Type}

/-- The state an action leaves behind, whether it succeeded or failed. -/
def stateAfter (x : Action ε σ α) (s : σ) : σ :=
  match x.run s with
  | .ok _ s' => s'
  | .error _ s' => s'

/-- The action succeeds with this result; by evaluation, for a given action and state. -/
def returns [DecidableEq α] (x : Action ε σ α) (s : σ) (a : α) : Bool :=
  match x.run s with
  | .ok b _ => b == a
  | .error _ _ => false

def fails (x : Action ε σ α) (s : σ) : Bool :=
  match x.run s with
  | .ok _ _ => false
  | .error _ _ => true

def query (f : σ → α) : Action ε σ α := fun s => .ok (f s) s

def queryExcept (f : σ → Except ε α) : Action ε σ α := fun s =>
  match f s with
  | .ok a => .ok a s
  | .error e => .error e s

def querySome (f : σ → Option α) (e : ε) : Action ε σ α :=
  queryExcept fun s =>
    match f s with
    | some a => .ok a
    | none => .error e

def exec (f : σ → σ) : Action ε σ Unit := fun s => .ok () (f s)

def execReturning (f : σ → α × σ) : Action ε σ α := fun s => .ok (f s).1 (f s).2

/-- Runs an action for its effect only: an error in it is logged and forgotten. -/
def bestEffort (x : Action ε σ α) : Action ε σ Unit := fun s => .ok () (stateAfter x s)

def fail (e : ε) : Action ε σ α := fun s => .error e s

def ensure (condition : Bool) (e : ε) : Action ε σ Unit :=
  if condition then pure () else fail e

def onlyIf (condition : Bool) (x : Action ε σ Unit) : Action ε σ Unit :=
  if condition then x else pure ()

def forEach (f : α → Action ε σ Unit) : List α → Action ε σ Unit
  | [] => pure ()
  | a :: rest => f a >>= fun _ => forEach f rest

/-- A failure is noted in the state, told in other words, and passed on. -/
def onError (x : Action ε σ α) (note : ε → σ → σ) (tell : ε → ε) : Action ε σ α := fun s =>
  match x.run s with
  | .ok a s' => .ok a s'
  | .error e s' => .error (tell e) (note e s')

/-- Runs an action as a transaction: a failure leaves the state as it was. -/
def atomically (x : Action ε σ α) : Action ε σ α := fun s =>
  match x.run s with
  | .ok a s' => .ok a s'
  | .error e _ => .error e s

def collect (f : α → Action ε σ β) : List α → Action ε σ (List β)
  | [] => pure []
  | a :: rest => f a >>= fun b => collect f rest >>= fun bs => pure (b :: bs)

variable {x : Action ε σ α} {f : α → Action ε σ β} {s s' : σ} {a : α} {b : β}

theorem onError_eq_ok {note : ε → σ → σ} {tell : ε → ε} :
    (onError x note tell).run s = .ok a s' ↔ x.run s = .ok a s' := by
  unfold onError EStateM.run
  cases run : x s with
  | ok b middle => simp [run]
  | error e middle => simp [run]

theorem bind_eq_ok : (x >>= f).run s = .ok b s' ↔
      ∃ a middle, x.run s = .ok a middle ∧ (f a).run middle = .ok b s' := by
  rw [EStateM.run_bind]
  cases x.run s with
  | ok a middle => simp
  | error e middle => simp

@[simp]
theorem query_run (g : σ → α) : (query g : Action ε σ α).run s = .ok (g s) s := rfl

@[simp]
theorem exec_run (g : σ → σ) : (exec g : Action ε σ Unit).run s = .ok () (g s) := rfl

@[simp]
theorem execReturning_run (g : σ → α × σ) :
    (execReturning g : Action ε σ α).run s = .ok (g s).1 (g s).2 := rfl

@[simp]
theorem fail_run (e : ε) : (fail e : Action ε σ α).run s = .error e s := rfl

theorem pure_eq_ok {a' : α} : (pure a : Action ε σ α).run s = .ok a' s' ↔ a = a' ∧ s = s' := by
  simp

theorem queryExcept_eq_ok (g : σ → Except ε α) :
    (queryExcept g : Action ε σ α).run s = .ok a s' ↔ g s = .ok a ∧ s = s' := by
  simp only [queryExcept, EStateM.run]
  cases g s with
  | ok found => simp
  | error e => simp

theorem querySome_eq_ok (g : σ → Option α) (e : ε) :
    (querySome g e : Action ε σ α).run s = .ok a s' ↔ g s = some a ∧ s = s' := by
  simp only [querySome, queryExcept_eq_ok]
  cases g s with
  | some found => simp
  | none => simp

theorem ensure_eq_ok (condition : Bool) (e : ε) (u : Unit) :
    (ensure condition e : Action ε σ Unit).run s = .ok u s' ↔ condition = true ∧ s = s' := by
  cases condition <;> simp [ensure]

theorem query_bind_eq_ok {g : σ → α} :
    (query g >>= f).run s = .ok b s' ↔ (f (g s)).run s = .ok b s' := Iff.rfl

theorem exec_bind_eq_ok {g : σ → σ} {next : Unit → Action ε σ β} :
    (exec g >>= next).run s = .ok b s' ↔ (next ()).run (g s) = .ok b s' := Iff.rfl

theorem execReturning_bind_eq_ok {g : σ → α × σ} :
    (execReturning g >>= f).run s = .ok b s' ↔ (f (g s).1).run (g s).2 = .ok b s' := Iff.rfl

theorem ensure_bind_eq_ok {condition : Bool} {e : ε} {next : Unit → Action ε σ β} :
    (ensure condition e >>= next).run s = .ok b s' ↔
      condition = true ∧ (next ()).run s = .ok b s' := by
  simp only [bind_eq_ok, ensure_eq_ok]
  exact ⟨fun ⟨_, _, ⟨holds, same⟩, rest⟩ => ⟨holds, same ▸ rest⟩,
    fun ⟨holds, rest⟩ => ⟨(), s, ⟨holds, rfl⟩, rest⟩⟩

theorem queryExcept_bind_eq_ok {g : σ → Except ε α} : (queryExcept g >>= f).run s = .ok b s' ↔
      ∃ a, g s = .ok a ∧ (f a).run s = .ok b s' := by
  simp only [bind_eq_ok, queryExcept_eq_ok]
  exact ⟨fun ⟨a, _, ⟨found, same⟩, rest⟩ => ⟨a, found, same ▸ rest⟩,
    fun ⟨a, found, rest⟩ => ⟨a, s, ⟨found, rfl⟩, rest⟩⟩

theorem querySome_bind_eq_ok {g : σ → Option α} {e : ε} : (querySome g e >>= f).run s = .ok b s' ↔
      ∃ a, g s = some a ∧ (f a).run s = .ok b s' := by
  simp only [bind_eq_ok, querySome_eq_ok]
  exact ⟨fun ⟨a, _, ⟨found, same⟩, rest⟩ => ⟨a, found, same ▸ rest⟩,
    fun ⟨a, found, rest⟩ => ⟨a, s, ⟨found, rfl⟩, rest⟩⟩

theorem query_ensure_exec_eq_ok (refused : σ → Bool) (e : ε) (g : σ → σ) (u : Unit) :
    (query refused >>= fun r => ensure (!r) e >>= fun _ => exec g : Action ε σ Unit).run s =
        .ok u s' ↔
      refused s = false ∧ s' = g s := by
  constructor
  · intro success
    have read := query_bind_eq_ok.mp success
    obtain ⟨allowed, rest⟩ := ensure_bind_eq_ok.mp read
    obtain ⟨_, written⟩ := EStateM.Result.ok.inj rest
    exact ⟨by simpa using allowed, written.symm⟩
  · rintro ⟨allowed, rfl⟩
    exact query_bind_eq_ok.mpr (ensure_bind_eq_ok.mpr ⟨by rw [allowed]; rfl, rfl⟩)

theorem forEach_onlyIf (condition : α → Bool) (g : α → Action ε σ Unit) (as : List α) :
    forEach (fun a => onlyIf (condition a) (g a)) as = forEach g (as.filter condition) := by
  induction as with
  | nil => rfl
  | cons a rest ih =>
    simp only [forEach, ih]
    cases holds : condition a with
    | true =>
      rw [List.filter_cons_of_pos holds]
      rfl
    | false =>
      rw [List.filter_cons_of_neg (by simp [holds])]
      rfl

def Succeeds (x : Action ε σ α) (s : σ) : Prop := ∃ a s', x.run s = .ok a s'

theorem Succeeds.bind (success : x.run s = .ok a s') (rest : Succeeds (f a) s') :
    Succeeds (x >>= f) s := by
  obtain ⟨b, after, final⟩ := rest
  exact ⟨b, after, bind_eq_ok.mpr ⟨a, s', success, final⟩⟩

theorem Succeeds.ensure_bind {condition : Bool} {e : ε} {next : Unit → Action ε σ β}
    (holds : condition = true) (rest : Succeeds (next ()) s) :
    Succeeds (ensure condition e >>= next) s :=
  Succeeds.bind ((ensure_eq_ok _ _ ()).mpr ⟨holds, rfl⟩) rest

theorem Succeeds.ite {condition : Prop} [Decidable condition] {y : Action ε σ α}
    (whenTrue : condition → Succeeds x s) (whenFalse : ¬condition → Succeeds y s) :
    Succeeds (if condition then x else y) s := by
  split
  next holds => exact whenTrue holds
  next fails => exact whenFalse fails

/-! ## The state an action leaves behind -/

theorem stateAfter_of_ok (success : x.run s = .ok a s') : stateAfter x s = s' := by
  rw [stateAfter, success]

theorem run_of_returns [DecidableEq α] (success : returns x s a = true) :
    x.run s = .ok a (stateAfter x s) := by
  unfold returns at success
  unfold stateAfter
  cases run : x.run s with
  | ok b s' =>
    simp only [run, beq_iff_eq] at success
    rw [success]
  | error e s' => simp [run] at success

theorem run_of_fails (failed : fails x s = true) : ∃ e, x.run s = .error e (stateAfter x s) := by
  unfold fails at failed
  unfold stateAfter
  cases run : x.run s with
  | ok a s' => simp [run] at failed
  | error e s' => exact ⟨e, rfl⟩

theorem stateAfter_of_error {e : ε} (failed : x.run s = .error e s') : stateAfter x s = s' := by
  rw [stateAfter, failed]

theorem stateAfter_bind_of_ok (success : x.run s = .ok a s') :
    stateAfter (x >>= f) s = stateAfter (f a) s' := by
  rw [stateAfter, EStateM.run_bind, success]
  rfl

theorem stateAfter_bind :
    stateAfter (x >>= f) s =
      match x.run s with
      | .ok a middle => stateAfter (f a) middle
      | .error _ middle => middle := by
  simp only [stateAfter, EStateM.run_bind]
  cases x.run s <;> rfl

theorem stateAfter_bind_pure (g : α → β) :
    stateAfter (x >>= fun a => pure (g a)) s = stateAfter x s := by
  rw [stateAfter_bind, stateAfter]
  cases x.run s <;> rfl

@[simp]
theorem stateAfter_pure : stateAfter (pure a : Action ε σ α) s = s := rfl

@[simp]
theorem stateAfter_exec (g : σ → σ) : stateAfter (exec g : Action ε σ Unit) s = g s := rfl

@[simp]
theorem stateAfter_execReturning (g : σ → α × σ) :
    stateAfter (execReturning g : Action ε σ α) s = (g s).2 := rfl

@[simp]
theorem stateAfter_bestEffort : stateAfter (bestEffort x) s = stateAfter x s := rfl

@[simp]
theorem stateAfter_queryExcept (g : σ → Except ε α) :
    stateAfter (queryExcept g : Action ε σ α) s = s := by
  simp only [stateAfter, queryExcept, EStateM.run]
  cases g s <;> rfl

@[simp]
theorem stateAfter_ensure (condition : Bool) (e : ε) :
    stateAfter (ensure condition e : Action ε σ Unit) s = s := by
  cases condition <;> rfl

@[simp]
theorem stateAfter_query_bind (g : σ → α) :
    stateAfter (query g >>= f) s = stateAfter (f (g s)) s := rfl

@[simp]
theorem stateAfter_exec_bind (g : σ → σ) (next : Unit → Action ε σ β) :
    stateAfter (exec g >>= next) s = stateAfter (next ()) (g s) := rfl

@[simp]
theorem stateAfter_bestEffort_bind (next : Unit → Action ε σ β) :
    stateAfter (bestEffort x >>= next) s = stateAfter (next ()) (stateAfter x s) := rfl

theorem stateAfter_queryExcept_bind (g : σ → Except ε α) :
    stateAfter (queryExcept g >>= f) s =
      match g s with
      | .ok found => stateAfter (f found) s
      | .error _ => s := by
  rw [stateAfter_bind]
  simp only [queryExcept, EStateM.run]
  cases g s <;> rfl

theorem stateAfter_ensure_bind (condition : Bool) (e : ε) (next : Unit → Action ε σ β) :
    stateAfter (ensure condition e >>= next) s =
      if condition then stateAfter (next ()) s else s := by
  cases condition <;> rfl

end Rules

section Frames

variable {ε σ α β : Type} {R : σ → σ → Prop} {x : Action ε σ α}
  {f : α → Action ε σ β}

/-- Whatever happens in the action, the states before and after are related. -/
def Respects (R : σ → σ → Prop) (x : Action ε σ α) : Prop := ∀ s, R s (stateAfter x s)

theorem Respects.of_ok {s s' : σ} {a : α}
    (respects : Respects R x) (success : x.run s = .ok a s') : R s s' := by
  have related := respects s
  simpa only [stateAfter, success] using related

theorem Respects.bind (trans : ∀ {r s t}, R r s → R s t → R r t)
    (first : Respects R x) (second : ∀ a, Respects R (f a)) :
    Respects R (x >>= f) := by
  intro s
  have before := first s
  simp only [stateAfter, EStateM.run_bind] at before ⊢
  cases run : x.run s with
  | ok a middle =>
    simp only [run] at before ⊢
    exact trans before (second a middle)
  | error e middle =>
    simpa only [run] using before

end Frames

/-! ## What an action preserves -/

section Preserves

variable {ε σ α β τ : Type} {Inv : σ → Prop} {x y : Action ε σ α} {f : α → Action ε σ β}

/-- However the action ends, a good state stays a good state. -/
def Preserves (Inv : σ → Prop) (x : Action ε σ α) : Prop := ∀ s, Inv s → Inv (stateAfter x s)

theorem Preserves.of_ok {s s' : σ} {a : α} (preserves : Preserves Inv x)
    (good : Inv s) (success : x.run s = .ok a s') : Inv s' := by
  rw [← stateAfter_of_ok success]
  exact preserves s good

theorem Preserves.pure (a : α) : Preserves Inv (Pure.pure a : Action ε σ α) := fun _ good => good

theorem Preserves.query (g : σ → α) : Preserves Inv (query g : Action ε σ α) := fun _ good => good

theorem Preserves.queryExcept (g : σ → Except ε α) : Preserves Inv (queryExcept g) := by
  intro s good
  rw [stateAfter_queryExcept]
  exact good

theorem Preserves.ensure (condition : Bool) (e : ε) :
    Preserves Inv (ensure condition e : Action ε σ Unit) := by
  intro s good
  rw [stateAfter_ensure]
  exact good

theorem Preserves.ite {condition : Prop} [Decidable condition]
    (whenTrue : Preserves Inv x) (whenFalse : Preserves Inv y) :
    Preserves Inv (if condition then x else y) := by
  split
  · exact whenTrue
  · exact whenFalse

theorem Preserves.onlyIf {x : Action ε σ Unit} (condition : Bool) (preserves : Preserves Inv x) :
    Preserves Inv (onlyIf condition x) := Preserves.ite preserves (Preserves.pure ())

theorem Preserves.execReturning {g : σ → α × σ} (kept : ∀ s, Inv s → Inv (g s).2) :
    Preserves Inv (execReturning g : Action ε σ α) := kept

theorem Preserves.bestEffort (preserves : Preserves Inv x) :
    Preserves Inv (bestEffort x) := preserves

theorem Preserves.exec {g : σ → σ} (kept : ∀ s, Inv s → Inv (g s)) :
    Preserves Inv (exec g : Action ε σ Unit) := kept

theorem Preserves.onError {note : ε → σ → σ} {tell : ε → ε}
    (preserves : Preserves Inv x) (noted : ∀ e s, Inv s → Inv (note e s)) :
    Preserves Inv (onError x note tell) := by
  intro s good
  have after := preserves s good
  unfold stateAfter at after ⊢
  unfold Lib.Actions.onError EStateM.run
  cases run : x s with
  | ok a s' => simpa only [EStateM.run, run] using after
  | error e s' =>
    simp only [EStateM.run, run] at after ⊢
    exact noted e s' after

/-- The sequence rule: the second action may use what the first one found. -/
theorem Preserves.bind_of_ok (first : Preserves Inv x)
    (second : ∀ s a s', Inv s → x.run s = .ok a s' → Inv s' → Inv (stateAfter (f a) s')) :
    Preserves Inv (x >>= f) := by
  intro s good
  rw [stateAfter_bind]
  have after := first s good
  simp only [stateAfter] at after
  cases run : x.run s with
  | ok a middle =>
    simp only [run] at after ⊢
    exact second s a middle good run after
  | error e middle =>
    simpa only [run] using after

theorem Preserves.bind (first : Preserves Inv x) (second : ∀ a, Preserves Inv (f a)) :
    Preserves Inv (x >>= f) :=
  Preserves.bind_of_ok first fun _ a s' _ _ good => second a s' good

theorem Preserves.forEach_of_mem {f : α → Action ε σ Unit} {as : List α}
    (each : ∀ a ∈ as, Preserves Inv (f a)) : Preserves Inv (Actions.forEach f as) := by
  induction as with
  | nil => exact Preserves.pure ()
  | cons a rest ih =>
    refine Preserves.bind (each a List.mem_cons_self) fun _ => ih fun b member => ?_
    exact each b (List.mem_cons_of_mem a member)

theorem Preserves.forEach {f : α → Action ε σ Unit} (each : ∀ a, Preserves Inv (f a))
    (as : List α) : Preserves Inv (Actions.forEach f as) :=
  Preserves.forEach_of_mem fun a _ => each a

theorem Preserves.collect_of_mem {as : List α}
    (each : ∀ a ∈ as, Preserves Inv (f a)) : Preserves Inv (Actions.collect f as) := by
  induction as with
  | nil => exact Preserves.pure []
  | cons a rest ih =>
    refine Preserves.bind (each a List.mem_cons_self) fun b => ?_
    refine Preserves.bind (ih fun c member => ?_) fun bs => Preserves.pure _
    exact each c (List.mem_cons_of_mem a member)

theorem Preserves.collect (each : ∀ a, Preserves Inv (f a)) (as : List α) :
    Preserves Inv (Actions.collect f as) :=
  Preserves.collect_of_mem fun a _ => each a

end Preserves

/-! ## What an action leaves alone -/

section Keeps

variable {ε σ α β τ : Type} {view : σ → τ} {x y : Action ε σ α} {f : α → Action ε σ β}

/-- However the action ends, this view of the state is what it was. -/
def Keeps (view : σ → τ) (x : Action ε σ α) : Prop := ∀ s, view (stateAfter x s) = view s

theorem Keeps.of_ok {s s' : σ} {a : α} (keeps : Keeps view x)
    (success : x.run s = .ok a s') : view s' = view s := by
  rw [← keeps s, stateAfter_of_ok success]

theorem Keeps.of_preserves
    (preserves : ∀ value, Preserves (fun s => view s = value) x) : Keeps view x :=
  fun s => preserves (view s) s rfl

theorem Keeps.preserves {value : τ} (keeps : Keeps view x) :
    Preserves (fun s => view s = value) x :=
  fun s isValue => (keeps s).trans isValue

theorem Preserves.of_keeps {Inv : σ → Prop}
    (ofView : ∀ s s', view s' = view s → Inv s → Inv s') (keeps : Keeps view x) :
    Preserves Inv x :=
  fun s good => ofView s _ (keeps s) good

theorem Keeps.pure (a : α) : Keeps view (Pure.pure a : Action ε σ α) := fun _ => rfl

theorem Keeps.query (g : σ → α) : Keeps view (query g : Action ε σ α) := fun _ => rfl

theorem Keeps.queryExcept (g : σ → Except ε α) : Keeps view (queryExcept g) :=
  Keeps.of_preserves fun _ => Preserves.queryExcept g

theorem Keeps.ensure (condition : Bool) (e : ε) :
    Keeps view (ensure condition e : Action ε σ Unit) :=
  Keeps.of_preserves fun _ => Preserves.ensure condition e

theorem Keeps.exec {g : σ → σ} (same : ∀ s, view (g s) = view s) :
    Keeps view (exec g : Action ε σ Unit) := same

theorem Keeps.execReturning {g : σ → α × σ} (same : ∀ s, view (g s).2 = view s) :
    Keeps view (execReturning g : Action ε σ α) := same

theorem Keeps.bestEffort (keeps : Keeps view x) : Keeps view (bestEffort x) := keeps

theorem Keeps.bind (first : Keeps view x) (second : ∀ a, Keeps view (f a)) : Keeps view (x >>= f) :=
  Keeps.of_preserves fun _ => first.preserves.bind fun a => (second a).preserves

theorem Keeps.coarser {υ : Type} (g : τ → υ) (keeps : Keeps view x) :
    Keeps (fun s => g (view s)) x := fun s => congrArg g (keeps s)

theorem Respects.of_keeps {R : σ → σ → Prop}
    (ofView : ∀ s s', view s' = view s → R s s') (keeps : Keeps view x) : Respects R x :=
  fun s => ofView s _ (keeps s)

theorem Keeps.fail (e : ε) : Keeps view (fail e : Action ε σ α) := fun _ => rfl

theorem Keeps.onError {note : ε → σ → σ} {tell : ε → ε} (keeps : Keeps view x)
    (noteKeeps : ∀ e s, view (note e s) = view s) : Keeps view (onError x note tell) :=
  Keeps.of_preserves fun _ =>
    keeps.preserves.onError fun e s isValue => (noteKeeps e s).trans isValue

theorem Keeps.collect (each : ∀ a, Keeps view (f a)) (as : List α) : Keeps view (collect f as) :=
  Keeps.of_preserves fun _ => Preserves.collect (fun a => (each a).preserves) as

theorem Keeps.ite {condition : Prop} [Decidable condition] (whenTrue : Keeps view x)
    (whenFalse : Keeps view y) : Keeps view (if condition then x else y) :=
  Keeps.of_preserves fun _ => whenTrue.preserves.ite whenFalse.preserves

theorem Keeps.onlyIf {x : Action ε σ Unit} (condition : Bool) (keeps : Keeps view x) :
    Keeps view (onlyIf condition x) := Keeps.ite keeps (Keeps.pure ())

end Keeps

/-! ## What a failed action leaves alone -/

section KeepsOnError

variable {ε σ α β τ : Type} {view : σ → τ} {x y : Action ε σ α} {f : α → Action ε σ β}

/-- If the action fails, this view of the state is what it was. -/
def KeepsOnError (view : σ → τ) (x : Action ε σ α) : Prop :=
  ∀ ⦃s e s'⦄, x.run s = .error e s' → view s' = view s

theorem KeepsOnError.of_keeps (keeps : Keeps view x) : KeepsOnError view x := by
  intro s e s' failed
  rw [← keeps s, stateAfter, failed]

theorem KeepsOnError.exec (g : σ → σ) : KeepsOnError view (exec g : Action ε σ Unit) := by
  intro s e s' failed
  cases failed

theorem KeepsOnError.bind (first : Keeps view x) (second : ∀ a, KeepsOnError view (f a)) :
    KeepsOnError view (x >>= f) := by
  intro s e s' failed
  have before := first s
  rw [EStateM.run_bind] at failed
  unfold stateAfter at before
  cases run : x.run s with
  | ok a middle =>
    simp only [run] at failed before
    exact (second a failed).trans before
  | error e' middle =>
    simp only [run, EStateM.Result.error.injEq] at failed before
    rw [← failed.2, before]

theorem KeepsOnError.ite {condition : Prop} [Decidable condition]
    (whenTrue : KeepsOnError view x) (whenFalse : KeepsOnError view y) :
    KeepsOnError view (if condition then x else y) := by
  split
  · exact whenTrue
  · exact whenFalse

theorem KeepsOnError.onError {note : ε → σ → σ} {tell : ε → ε}
    (keeps : KeepsOnError view x) (noteKeeps : ∀ e s, view (note e s) = view s) :
    KeepsOnError view (onError x note tell) := by
  intro s e s' failed
  unfold Lib.Actions.onError EStateM.run at failed
  cases run : x s with
  | ok a middle =>
    simp only [run] at failed
    cases failed
  | error e' middle =>
    simp only [run, EStateM.Result.error.injEq] at failed
    rw [← failed.2, noteKeeps, keeps run]

end KeepsOnError

/-! ## Pre- and postconditions -/

section Triples

variable {ε σ α β : Type} {Pre Pre' : σ → Prop} {Failed : σ → Prop}
  {x : Action ε σ α} {f : α → Action ε σ β}

/-- From a state that meets `Pre` the action ends well in a result and state that
meet `Post`, or fails in a state that meets `Failed`. -/
def Triple (Pre : σ → Prop) (x : Action ε σ α) (Post : α → σ → Prop) (Failed : σ → Prop) : Prop :=
  ∀ s, Pre s →
    match x.run s with
    | .ok a s' => Post a s'
    | .error _ s' => Failed s'

theorem triple_iff_stateAfter {Good : σ → Prop} :
    Triple Pre x (fun _ => Good) Good ↔ ∀ s, Pre s → Good (stateAfter x s) := by
  refine forall_congr' fun s => imp_congr_right fun _ => ?_
  unfold stateAfter
  cases x.run s with
  | ok a s' => rfl
  | error e s' => rfl

theorem Triple.of_preserves (preserves : Preserves Pre x) :
    Triple Pre x (fun _ => Pre) Pre := triple_iff_stateAfter.mpr preserves

theorem Triple.of_success {Told : α → σ → Prop} (preserves : Preserves Pre x)
    (told : ∀ {s a s'}, x.run s = .ok a s' → Pre s → Told a s') :
    Triple Pre x (fun a s => Pre s ∧ Told a s) Pre := by
  intro s good
  have after := preserves s good
  unfold stateAfter at after
  cases run : x.run s with
  | ok a s' =>
    simp only [run] at after ⊢
    exact ⟨after, told run good⟩
  | error e s' =>
    simp only [run] at after ⊢
    exact after

theorem Triple.bind {Mid : α → σ → Prop} {Post : β → σ → Prop} (first : Triple Pre x Mid Failed)
    (second : ∀ a, Triple (Mid a) (f a) Post Failed) : Triple Pre (x >>= f) Post Failed := by
  intro s good
  have middle := first s good
  rw [EStateM.run_bind]
  cases run : x.run s with
  | ok a s' =>
    simp only [run] at middle ⊢
    exact second a s' middle
  | error e s' =>
    simpa only [run] using middle

theorem Triple.strengthen (Pre Failed : σ → Prop) {Pre' Failed' : σ → Prop}
    {Post : α → σ → Prop} (pre : ∀ s, Pre' s → Pre s) (failed : ∀ s, Failed s → Failed' s)
    (triple : Triple Pre x Post Failed) : Triple Pre' x Post Failed' := by
  intro s good
  have after := triple s (pre s good)
  cases run : x.run s with
  | ok a s' =>
    simpa only [run] using after
  | error e s' =>
    simp only [run] at after ⊢
    exact failed s' after

theorem Triple.pure {Post : α → σ → Prop} (a : α) (holds : ∀ s, Pre s → Post a s) :
    Triple Pre (Pure.pure a : Action ε σ α) Post Failed := fun s good => holds s good

theorem Triple.preserves (triple : Triple Pre x (fun _ => Pre) Pre) :
    Preserves Pre x := triple_iff_stateAfter.mp triple

end Triples

end Eeemail.Lib.Actions
