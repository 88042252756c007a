import Mathlib

/-!
# Labelled transition systems and the invariant rule

Nothing here is about a particular program. A system is a set of initial states
and a labelled step relation. `Reach` collects the states reached by runs all
of whose steps satisfy a guard, which is read in the state before the step; the
unguarded runs are those of the guard that is always true.
-/
namespace Libtask.Transition

/-- Initial states and one labelled step. -/
structure System (σ : Type*) (α : Type*) where
  init : σ → Prop
  step : σ → α → σ → Prop

variable {σ α : Type*}

/-- States reached by steps that satisfy the guard in their source state. -/
inductive System.Reach (S : System σ α) (guard : σ → α → Prop) : σ → Prop
  | init {s : σ} (hs : S.init s) : S.Reach guard s
  | step {s t : σ} {a : α} (hs : S.Reach guard s) (hg : guard s a) (hst : S.step s a t) :
      S.Reach guard t

/-- A run from a state: the operations, each with the state that it led to. -/
inductive System.Run (S : System σ α) (guard : σ → α → Prop) : σ → List (α × σ) → Prop
  | nil (s : σ) : S.Run guard s []
  | cons {s t : σ} {a : α} {rest : List (α × σ)} (hg : guard s a) (hst : S.step s a t)
      (hrest : S.Run guard t rest) : S.Run guard s ((a, t) :: rest)

/-- The guard that allows every step. -/
def unguarded : σ → α → Prop := fun _ _ => True

/-- Reachability by arbitrary runs. -/
abbrev System.Reachable (S : System σ α) : σ → Prop := S.Reach unguarded

/-- What holds initially and is kept by every guarded step holds wherever a
guarded run arrives. -/
theorem System.Reach.invariant {S : System σ α} {guard : σ → α → Prop} {I : σ → Prop}
    (hinit : ∀ s, S.init s → I s)
    (hstep : ∀ s a t, I s → guard s a → S.step s a t → I t)
    {s : σ} (hs : S.Reach guard s) : I s := by
  induction hs with
  | init h => exact hinit _ h
  | step _ hg hst ih => exact hstep _ _ _ ih hg hst

/-- A guard that is weaker in the states reached allows more runs. -/
theorem System.Reach.weaken {S : System σ α} {guard guard' : σ → α → Prop}
    (hle : ∀ s a, S.Reach guard s → guard s a → guard' s a) {s : σ} (hs : S.Reach guard s) :
    S.Reach guard' s := by
  induction hs with
  | init h => exact .init h
  | step hs hg hst ih => exact .step ih (hle _ _ hs hg) hst

/-- A weaker guard allows more runs. -/
theorem System.Reach.mono {S : System σ α} {guard guard' : σ → α → Prop}
    (hle : ∀ s a, guard s a → guard' s a) {s : σ} (hs : S.Reach guard s) : S.Reach guard' s :=
  hs.weaken fun s a _ => hle s a

/-- A run of one system is a run of any other that has its starts and its steps. -/
theorem System.Reach.map {S T : System σ α} {guard guard' : σ → α → Prop}
    (hinit : ∀ s, S.init s → T.init s)
    (hstep : ∀ s a t, guard s a → S.step s a t → guard' s a ∧ T.step s a t) {s : σ}
    (hs : S.Reach guard s) : T.Reach guard' s := by
  induction hs with
  | init h => exact .init (hinit _ h)
  | step _ hg hst ih =>
    obtain ⟨hg', hst'⟩ := hstep _ _ _ hg hst
    exact .step ih hg' hst'

/-- Forget a part of the guard of a run. -/
theorem System.Run.mono {S : System σ α} {guard guard' : σ → α → Prop}
    (hle : ∀ s a, guard s a → guard' s a) {s : σ} {run : List (α × σ)} (h : S.Run guard s run) :
    S.Run guard' s run := by
  induction h with
  | nil s => exact .nil s
  | cons hg hst _ ih => exact .cons (hle _ _ hg) hst ih

/-- Forget the guard. -/
theorem System.Reach.reachable {S : System σ α} {guard : σ → α → Prop} {s : σ}
    (hs : S.Reach guard s) : S.Reachable s := hs.mono fun _ _ _ => trivial

end Libtask.Transition
