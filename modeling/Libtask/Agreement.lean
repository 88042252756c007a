import Libtask.Transition

/-!
# Computations and systems that agree

Two computations agree if they stop for the same reason or both return, and what they
return is related. Agreement goes through a sequence, part by part. Two systems with the
same labels are bisimilar if related states start together and stay together, whichever
of the two makes the step. Nothing here is about a particular program.
-/
namespace Libtask.Agreement
open Transition

variable {ε α β γ δ : Type}

/-- Both return, with related results, or both stop alike. -/
inductive Agree (R : α → β → Prop) : Except ε α → Except ε β → Prop
  | ok {a : α} {b : β} (h : R a b) : Agree R (.ok a) (.ok b)
  | error (e : ε) : Agree R (.error e) (.error e)

/-- A state and a value beside it. -/
def Beside (R : α → β → Prop) (a : α × γ) (b : β × γ) : Prop := R a.1 b.1 ∧ a.2 = b.2

@[simp] lemma ok_bind (a : α) (f : α → Except ε γ) : (Except.ok a >>= f) = f a := rfl

section Agree

variable {R R' : α → β → Prop} {Q : γ → δ → Prop} {x : Except ε α} {y : Except ε β}

lemma Agree.mono (h : Agree R x y) (hR : ∀ a b, R a b → R' a b) : Agree R' x y := by
  cases h with
  | ok h => exact .ok (hR _ _ h)
  | error e => exact .error e

/-- What is known of the results of one side. -/
lemma Agree.and {P : β → Prop} (h : Agree R x y) (hP : ∀ b, y = .ok b → P b) :
    Agree (fun a b => R a b ∧ P b) x y := by
  cases h with
  | ok h => exact .ok ⟨h, hP _ rfl⟩
  | error e => exact .error e

/-- A sequence: the second parts agree on what the first parts have returned. -/
theorem Agree.bind {f : α → Except ε γ} {g : β → Except ε δ} (h : Agree R x y)
    (hfg : ∀ a b, x = .ok a → y = .ok b → R a b → Agree Q (f a) (g b)) :
    Agree Q (x >>= f) (y >>= g) := by
  cases h with
  | ok h => exact hfg _ _ rfl rfl h
  | error e => exact .error e

/-- Both take the same branch. -/
lemma Agree.ite {c c' : Prop} [Decidable c] [Decidable c'] {x' : Except ε α} {y' : Except ε β}
    (hc : c ↔ c') (hthen : c → c' → Agree R x y) (helse : ¬ c → ¬ c' → Agree R x' y') :
    Agree R (if c then x else x') (if c' then y else y') := by
  by_cases h : c
  · rw [if_pos h, if_pos (hc.mp h)]
    exact hthen h (hc.mp h)
  · rw [if_neg h, if_neg (mt hc.mpr h)]
    exact helse h (mt hc.mpr h)

lemma Agree.of_ok {b : β} (h : Agree R x y) (hy : y = .ok b) : ∃ a, x = .ok a ∧ R a b := by
  subst hy
  cases h with
  | ok h => exact ⟨_, rfl, h⟩

lemma Agree.ok_of {a : α} (h : Agree R x y) (hx : x = .ok a) : ∃ b, y = .ok b ∧ R a b := by
  subst hx
  cases h with
  | ok h => exact ⟨_, rfl, h⟩

end Agree

section Bisimulation

variable {σ τ : Type*}

/-- Whatever one of the systems does in related states, the other can do too. -/
structure Bisimulation (S : System σ α) (T : System τ α) (R : σ → τ → Prop) : Prop where
  initLeft : ∀ s, S.init s → ∃ t, T.init t ∧ R s t
  initRight : ∀ t, T.init t → ∃ s, S.init s ∧ R s t
  left : ∀ s t a s', R s t → S.step s a s' → ∃ t', T.step t a t' ∧ R s' t'
  right : ∀ s t a t', R s t → T.step t a t' → ∃ s', S.step s a s' ∧ R s' t'

variable {S : System σ α} {T : System τ α} {R : σ → τ → Prop}

/-- Every state that one system reaches is related to one that the other reaches. -/
theorem Bisimulation.reachable (h : Bisimulation S T R) {s : σ} (hs : S.Reachable s) :
    ∃ t, T.Reachable t ∧ R s t := by
  induction hs with
  | init hs =>
    obtain ⟨t, ht, hst⟩ := h.initLeft _ hs
    exact ⟨t, .init ht, hst⟩
  | step hs hg hstep ih =>
    obtain ⟨t, ht, hst⟩ := ih
    obtain ⟨t', hstep', hst'⟩ := h.left _ _ _ _ hst hstep
    exact ⟨t', .step ht trivial hstep', hst'⟩

/-- A run of one system goes along one of the other, state by state. -/
theorem Bisimulation.run (h : Bisimulation S T R) {s : σ} {run : List (α × σ)}
    (hrun : S.Run unguarded s run) {t : τ} (hst : R s t) :
    ∃ run', T.Run unguarded t run' ∧ List.Forall₂ (fun x y => x.1 = y.1 ∧ R x.2 y.2) run run' := by
  induction hrun generalizing t with
  | nil s => exact ⟨[], .nil t, .nil⟩
  | @cons s s' a rest hg hstep hrest ih =>
    obtain ⟨t', hstep', hst'⟩ := h.left _ _ _ _ hst hstep
    obtain ⟨rest', hrest', hall⟩ := ih hst'
    exact ⟨(a, t') :: rest', .cons trivial hstep' hrest', .cons ⟨rfl, hst'⟩ hall⟩

theorem Bisimulation.symm (h : Bisimulation S T R) : Bisimulation T S fun t s => R s t where
  initLeft := h.initRight
  initRight := h.initLeft
  left t s a t' hst := h.right s t a t' hst
  right t s a s' hst := h.left s t a s' hst

end Bisimulation

end Libtask.Agreement
