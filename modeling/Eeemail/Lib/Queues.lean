import Mathlib

/-! # Requests that wait for an answer

Requests wait in the order in which they were issued.  A variable that takes each
answer as it comes ends with that of the request issued last, provided the
requests are answered in order and the last is not lost. -/

set_option autoImplicit false

namespace Eeemail.Lib.Queues

variable {α β : Type} {stored : Option α}

/-! ## Which value a variable ends with -/

/-- A variable that holds `stored` and takes one value of the queue after the other
ends with `last`. -/
def Lands (stored : Option α) (queue : List α) (last : α) : Prop :=
  (stored.toList ++ queue).getLast? = some last

@[simp]
theorem lands_nil (stored : Option α) (last : α) : Lands stored [] last ↔ stored = some last := by
  cases stored <;> simp [Lands]

theorem lands_snoc (stored : Option α) (queue : List α) (last : α) :
    Lands stored (queue ++ [last]) last := by
  simp [Lands, ← List.append_assoc]

theorem Lands.take {head last : α} {rest : List α}
    (lands : Lands stored (head :: rest) last) : Lands (some head) rest last := by
  have same : (stored.toList ++ head :: rest).getLast? = (head :: rest).getLast? :=
    List.getLast?_append_of_ne_nil _ (List.cons_ne_nil _ _)
  rw [Lands, same] at lands
  exact lands

theorem Lands.skip {head last : α} {rest : List α}
    (lands : Lands stored (head :: rest) last) (more : rest ≠ []) (other : Option α) :
    Lands other rest last := by
  have taken : ([head] ++ rest).getLast? = some last := lands.take
  rw [List.getLast?_append_of_ne_nil _ more] at taken
  rw [Lands, List.getLast?_append_of_ne_nil _ more]
  exact taken

theorem Lands.refresh {queue : List α} {last : α}
    (lands : Lands stored queue last) : Lands (some last) queue last := by
  cases queue with
  | nil => simp
  | cons head rest =>
    have apart : head :: rest ≠ [] := List.cons_ne_nil _ _
    rw [Lands, List.getLast?_append_of_ne_nil _ apart] at lands ⊢
    exact lands

section Kinds

variable {f : α → Option β} {pending : List α} {index : Nat} {request : α}

theorem eraseIdx_parts (found : pending[index]? = some request) :
    pending = pending.take index ++ request :: pending.drop (index + 1) := by
  obtain ⟨inside, rfl⟩ := List.getElem?_eq_some_iff.mp found
  rw [List.getElem_cons_drop, List.take_append_drop]

theorem filterMap_eraseIdx_of_none (found : pending[index]? = some request)
    (other : f request = none) :
    (pending.eraseIdx index).filterMap f = pending.filterMap f := by
  rw [List.eraseIdx_eq_take_drop_succ]
  conv_rhs => rw [eraseIdx_parts found]
  rw [List.filterMap_append, List.filterMap_append, List.filterMap_cons_none other]

theorem filterMap_eq_cons {value : β} (found : pending[index]? = some request)
    (this : f request = some value) (oldest : ∀ older ∈ pending.take index, f older = none) :
    pending.filterMap f = value :: (pending.eraseIdx index).filterMap f := by
  have before : (pending.take index).filterMap f = [] := List.filterMap_eq_nil_iff.mpr oldest
  rw [List.eraseIdx_eq_take_drop_succ]
  conv_lhs => rw [eraseIdx_parts found]
  rw [List.filterMap_append, List.filterMap_append, before, List.filterMap_cons_some this,
    List.nil_append, List.nil_append]

theorem filterMap_eraseIdx_ne_nil {younger : α} (waits : younger ∈ pending.drop (index + 1))
    (this : f younger ≠ none) : (pending.eraseIdx index).filterMap f ≠ [] := by
  intro none_left
  rw [List.filterMap_eq_nil_iff, List.eraseIdx_eq_take_drop_succ] at none_left
  exact this (none_left younger (List.mem_append_right _ waits))

end Kinds

end Eeemail.Lib.Queues
