import Mathlib

/-!
# Why control does not come back

A call either returns or stops in one of these ways. The failed assertions and
the spin loops keep the CPU for ever; the others leave what C defines.
-/
namespace Libtask

inductive Stop
  /-- `assert` or `PANIC`: `user_spin` and `panic_spin` do not return. -/
  | assertion
  /-- `while(1)` of a dispatch routine that found `task_ready_list` empty. -/
  | emptyReadyList
  /-- `list_pop` of an empty list writes through a null pointer. -/
  | emptyPop
  /-- A null pointer is read through. -/
  | nullPointer
  /-- An access outside an array. -/
  | outOfBounds
  /-- A loop of the function itself does not end. -/
  | diverges
  /-- In a sequential reading: the function would have to wait for a lock. -/
  | wouldBlock
  /-- Control is in a function of the user. -/
  | foreign
  deriving DecidableEq, Repr

/-- `assert(c)`. -/
def assert (c : Prop) [Decidable c] : Except Stop Unit :=
  if c then .ok () else .error .assertion

@[simp] lemma assert_of_true {c : Prop} [Decidable c] (h : c) : assert c = .ok () := if_pos h

@[simp] lemma assert_of_false {c : Prop} [Decidable c] (h : ¬ c) :
    assert c = .error .assertion := if_neg h

@[simp] lemma assert_eq_ok {c : Prop} [Decidable c] {u : Unit} : assert c = .ok u ↔ c := by
  by_cases h : c <;> simp [h]

@[simp] lemma assert_eq_error {c : Prop} [Decidable c] {e : Stop} :
    assert c = .error e ↔ ¬ c ∧ e = .assertion := by
  by_cases h : c
  · simp [h]
  · simp [h, eq_comm]

/-- A sequence that does not stop: every part of it returns. -/
lemma bind_eq_ok {α β : Type} {x : Except Stop α} {f : α → Except Stop β} {b : β} :
    x >>= f = .ok b ↔ ∃ a, x = .ok a ∧ f a = .ok b := by
  cases x <;> simp [bind, Except.bind]

end Libtask
