import Libtask.Timer.Delivery

/-!
# When a timer fires early

The level is chosen from the distance divided by `clock_granularity`, while the
slots of the levels are indexed in milliseconds. A node whose distance exceeds
the revolution of the first level, but not ten times that, is called in the
wrong revolution. The theorem gives the exact delays that are kept.
-/
namespace Libtask.Timer
open Transition

/-- No call of the log comes before as many ticks as were asked for. -/
def NeverEarly (s : WheelRun) : Prop :=
  ∀ pre e post a p t P, s.log.reverse = pre ++ e :: post → e.arms = some a →
    nextEvent post e.pTmr = some (.called p t P) → a.tick + a.delay ≤ t

/-- In every run, the call that answers an arming has waited the whole delay if
and only if the wheels resolve that delay from the tick of the arming. -/
theorem call_not_early_iff {s : WheelRun} (hs : wheelSystem.Reachable s) {pre post : List Event}
    {e : Event} {a : Arming} {p : Addr} {t : ℕ} {P : UInt32}
    (hlog : s.log.reverse = pre ++ e :: post) (ha : e.arms = some a)
    (hcall : nextEvent post e.pTmr = some (.called p t P)) :
    a.tick + a.delay ≤ t ↔ a.OnTime := by
  have hsplit : s.log = post.reverse ++ e :: pre.reverse := by
    simpa using congrArg List.reverse hlog
  have hnext := (hsplit ▸ (wheelInv_of_reachable hs).timely :
    Timely (post.reverse ++ e :: pre.reverse)).next
  rw [List.reverse_reverse, hcall] at hnext
  obtain ⟨b, hb, -, hle, hiff⟩ := hnext
  obtain rfl : a = b := Option.some.inj (ha.symm.trans hb)
  rw [← hiff]
  exact ⟨fun h => le_antisymm hle h, fun h => h.ge⟩

/-- Timers of 256 and of 2 ticks, created at `uJiffies == 1`, and three ticks. -/
def twoTimersRun : WheelRun :=
  [.createTimer (some 1) (some (.user 0)) 0 256 0, .createTimer (some 2) (some (.user 0)) 0 2 0,
    .tick, .tick, .tick].foldl applyOp (wheelStart 1)

lemma twoTimersRun_reachable : wheelSystem.Reachable twoTimersRun := by
  have h0 : wheelSystem.Reachable (wheelStart 1) := .init ⟨1, rfl⟩
  have h1 := h0.step (a := .createTimer (some 1) (some (.user 0)) 0 256 0) trivial
    ⟨by decide, rfl⟩
  have h2 := h1.step (a := .createTimer (some 2) (some (.user 0)) 0 2 0) trivial ⟨by decide, rfl⟩
  have h3 := h2.step (a := TimerOp.tick) trivial ⟨trivial, rfl⟩
  have h4 := h3.step (a := TimerOp.tick) trivial ⟨trivial, rfl⟩
  exact h4.step (a := TimerOp.tick) trivial ⟨trivial, rfl⟩

lemma twoTimersRun_log : twoTimersRun.log.reverse =
    [.created 0 1 150000 150000, .created 1 1 256 0, .created 2 1 2 0, .called 1 1 0,
      .called 2 3 0] := by
  rfl

/-- The long timer comes 256 ticks early, the short one on its tick. -/
theorem call_not_early_twoTimers :
    (1 + 256 ≤ 1 ↔ Arming.OnTime ⟨1, 256, false⟩) ∧ (1 + 2 ≤ 3 ↔ Arming.OnTime ⟨1, 2, false⟩) := by
  constructor
  · exact call_not_early_iff twoTimersRun_reachable (p := 1) (t := 1) (P := 0)
      (show _ = [.created 0 1 150000 150000] ++ .created 1 1 256 0 :: _ from twoTimersRun_log)
      rfl rfl
  · exact call_not_early_iff twoTimersRun_reachable (p := 2) (t := 3) (P := 0)
      (show _ = [.created 0 1 150000 150000, .created 1 1 256 0] ++ .created 2 1 2 0 :: _ from
        twoTimersRun_log) rfl rfl

/-- A timer of 256 ticks, created at `uJiffies == 1`, and the tick after that. -/
def earlyRun : WheelRun :=
  applyOp (applyOp (wheelStart 1) (.createTimer (some 1) (some (.user 0)) 0 256 0)) .tick

lemma earlyRun_log :
    earlyRun.log = [.called 1 1 0, .created 1 1 256 0, .created 0 1 150000 150000] := by
  rfl

/-- The slot of tick 257 is also the slot of tick 1, so the call comes at once. -/
theorem not_neverEarly : ¬ ∀ s, wheelSystem.Reachable s → NeverEarly s := by
  intro h
  have hreach : wheelSystem.Reachable earlyRun :=
    .step (.step (.init ⟨1, rfl⟩) trivial ⟨by decide, rfl⟩) (a := .tick) trivial ⟨trivial, rfl⟩
  have hle := h earlyRun hreach [.created 0 1 150000 150000] (.created 1 1 256 0) [.called 1 1 0]
    ⟨1, 256, false⟩ 1 1 0 (by rw [earlyRun_log]; rfl) rfl rfl
  exact absurd hle (by decide)

end Libtask.Timer
