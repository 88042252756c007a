import Libtask.Transition

/-!
# From rest to rest

A system is looked at in the states in which it rests. A state is safe if the next states
of rest, however they are reached, are good. What is between two states of rest needs no
invariant of its own: safety is shown step by step, backwards from where it is known.
Nothing here is about a particular program.
-/
namespace Libtask.Settling
open Transition

variable {σ α : Type*} {S : System σ α} {rest good : σ → Prop} {s t u : σ} {a : α}

/-- Steps none of which starts at rest. -/
inductive Until (S : System σ α) (rest : σ → Prop) : σ → σ → Prop
  | here (s : σ) : Until S rest s s
  | step {s t u : σ} {a : α} (hs : ¬ rest s) (hst : S.step s a t) (htu : Until S rest t u) :
      Until S rest s u

/-- The next states of rest are good. -/
def Safe (S : System σ α) (rest good : σ → Prop) (s : σ) : Prop :=
  ∀ t, Until S rest s t → rest t → good t

lemma Safe.at_rest (h : Safe S rest good s) (hs : rest s) : good s := h s (.here s) hs

/-- At rest nothing else is next. -/
lemma safe_of_good (hs : rest s) (h : good s) : Safe S rest good s := by
  intro t hst ht
  cases hst with
  | here => exact h
  | step hns => exact absurd hs hns

lemma Safe.next (h : Safe S rest good s) (hs : ¬ rest s) (hst : S.step s a t) :
    Safe S rest good t := fun _ htu hu => h _ (.step hs hst htu) hu

/-- On the way, all next states are to be safe. -/
lemma Safe.of_next (hs : ¬ rest s) (h : ∀ a t, S.step s a t → Safe S rest good t) :
    Safe S rest good s := by
  intro u hsu hu
  cases hsu with
  | here => exact absurd hu hs
  | step _ hst htu => exact h _ _ hst u htu hu

/-- What goes on without rest is safe. -/
theorem safe_of_restless {P : σ → Prop} (hrest : ∀ s, P s → ¬ rest s)
    (hstep : ∀ s a t, P s → S.step s a t → P t) (hs : P s) : Safe S rest good s := by
  intro t hst
  induction hst with
  | here s => exact fun ht => absurd ht (hrest s hs)
  | step _ hst _ ih => exact ih (hstep _ _ _ hs hst)

/-- If every step from rest leads to safety, all that is reached is safe. -/
theorem safe_of_reachable (hinit : ∀ s, S.init s → Safe S rest good s)
    (hstep : ∀ s a t, rest s → good s → S.step s a t → Safe S rest good t)
    (hs : S.Reachable s) : Safe S rest good s := by
  induction hs with
  | init h => exact hinit _ h
  | @step s t a hs _ hst ih =>
    by_cases hrest : rest s
    · exact hstep s a t hrest (ih.at_rest hrest) hst
    · exact ih.next hrest hst

/-- From rest to rest, the second system makes one step at most. -/
structure Simulates {τ β : Type*} (S : System σ α) (rest : σ → Prop) (T : System τ β)
    (R : σ → τ → Prop) : Prop where
  init : ∀ s, S.init s → rest s ∧ ∃ r, T.init r ∧ R s r
  step : ∀ s a t r, rest s → R s r → T.Reachable r → S.step s a t →
    Safe S rest (fun u => ∃ r', R u r' ∧ (r' = r ∨ ∃ b, T.step r b r')) t

/-- Whatever is reached at rest stands for a state that the second system reaches. -/
theorem Simulates.reachable {τ β : Type*} {T : System τ β} {R : σ → τ → Prop}
    (h : Simulates S rest T R) (hs : S.Reachable s) (hrest : rest s) :
    ∃ r, T.Reachable r ∧ R s r := by
  have hsafe : Safe S rest (fun s => ∃ r, T.Reachable r ∧ R s r) s := by
    refine safe_of_reachable ?_ ?_ hs
    · intro s hs
      obtain ⟨hrest, r, hr, hsr⟩ := h.init s hs
      exact safe_of_good hrest ⟨r, .init hr, hsr⟩
    · rintro s a t hrest ⟨r, hr, hsr⟩ hst u htu hu
      obtain ⟨r', hur', hsame | ⟨b, hstep⟩⟩ := h.step s a t r hrest hsr hr hst u htu hu
      · exact ⟨r', hsame ▸ hr, hur'⟩
      · exact ⟨r', hr.step trivial hstep, hur'⟩
  exact hsafe.at_rest hrest

end Libtask.Settling
