import Libtask.Task.Handler
import Libtask.Timer.Delivery

/-!
# Catching up with the clock

`run_timer` processes ticks as long as `TIME_AFTER_EQ` holds of the clock
reading and of `uJiffies`. Both are 32-bit counters that wrap, but the macro
widens them to 64 bits before it subtracts. The theorem gives the exact pairs of
base and reading at which the loop does what a wrapping comparison would.
-/
namespace Libtask.Timer
open Sched

variable {ε : Type} {call : Callback ε} {now : UInt32} {c : TimerState × ε}

/-- The ticks that the loop of `run_timer` processes, in order. -/
def processed (call : Callback ε) (now : UInt32) : ℕ → TimerState × ε → List UInt32
  | 0, _ => []
  | fuel + 1, c =>
    if timeAfterEq now c.1.uJiffies then
      c.1.uJiffies :: processed call now fuel (runTick call c)
    else []

/-- A `timerFn` does not write to `uJiffies`. -/
def KeepsJiffies (call : Callback ε) : Prop := ∀ p n c, (call p n c).1.uJiffies = c.1.uJiffies

/-- The loop ends; it has processed the ticks up to the reading, each once, or none if
the reading is behind the base. -/
def CatchesUp (call : Callback ε) (now : UInt32) (c : TimerState × ε) : Prop :=
  let d := now - c.1.uJiffies
  ∃ fuel r, runTimerLoop call now fuel c = some r ∧
    if d.toNat < 2 ^ 31 then
      processed call now fuel c =
          (List.range (d.toNat + 1)).map (fun i => c.1.uJiffies + UInt32.ofNat i) ∧
        r.1.uJiffies = c.1.uJiffies + d + 1
    else processed call now fuel c = [] ∧ r.1.uJiffies = c.1.uJiffies

lemma timeAfterEq_iff {a b : UInt32} : timeAfterEq a b ↔ b.toNat ≤ a.toNat := by
  unfold timeAfterEq
  omega

lemma cascadeTick_uJiffies (s : TimerState) : (cascadeTick s).uJiffies = s.uJiffies := by
  unfold cascadeTick
  dsimp only
  split_ifs <;> simp only [cascadeTimer_uJiffies]

lemma expireWalk_uJiffies (hcall : KeepsJiffies call) (rest : List Addr) (c : TimerState × ε) :
    (expireWalk call rest c).1.uJiffies = c.1.uJiffies := by
  induction rest generalizing c with
  | nil => rfl
  | cons p rest ih =>
    rw [expireWalk, ih, rearmOrFree_uJiffies]
    exact hcall p _ c

lemma runTick_uJiffies (hcall : KeepsJiffies call) (c : TimerState × ε) :
    (runTick call c).1.uJiffies = c.1.uJiffies + 1 := by
  let idx := Slot.tv1 (tvrIndex (cascadeTick c.1).uJiffies)
  have hwalk := expireWalk_uJiffies hcall ((cascadeTick c.1).arrListTimer idx)
    (listTimerReplaceInit (cascadeTick c.1) idx, c.2)
  exact congrArg (· + 1) (hwalk.trans (cascadeTick_uJiffies c.1))

/-- From a base that is `k` ticks behind the end of the reading's tick, with the
end inside the range of the counters. -/
lemma loop_ends (hcall : KeepsJiffies call) (k : ℕ) (hk : c.1.uJiffies.toNat + k = now.toNat + 1)
    (hmax : now.toNat + 1 < 2 ^ 32) : ∃ r, runTimerLoop call now (k + 1) c = some r ∧
      processed call now (k + 1) c =
        (List.range k).map (fun i => c.1.uJiffies + UInt32.ofNat i) ∧
      r.1.uJiffies = c.1.uJiffies + UInt32.ofNat k := by
  induction k generalizing c with
  | zero =>
    have hstop : ¬ timeAfterEq now c.1.uJiffies := by
      rw [timeAfterEq_iff]
      omega
    refine ⟨c, ?_, ?_, by simp⟩
    · rw [runTimerLoop, if_neg hstop]
    · rw [processed, if_neg hstop]
      rfl
  | succ k ih =>
    have hgo : timeAfterEq now c.1.uJiffies := by
      rw [timeAfterEq_iff]
      omega
    have hnext := runTick_uJiffies hcall c
    have hnat : (runTick call c).1.uJiffies.toNat = c.1.uJiffies.toNat + 1 := by
      rw [hnext, UInt32.toNat_add, show (1 : UInt32).toNat = 1 from rfl]
      omega
    obtain ⟨r, hr, hticks, hend⟩ := ih (c := runTick call c) (by omega)
    have hsucc : ∀ i : ℕ,
        c.1.uJiffies + 1 + UInt32.ofNat i = c.1.uJiffies + UInt32.ofNat (i + 1) := by
      intro i
      rw [UInt32.ofNat_add, UInt32.add_assoc, UInt32.add_comm 1]
      rfl
    refine ⟨r, ?_, ?_, ?_⟩
    · rw [runTimerLoop, if_pos hgo]
      exact hr
    · rw [processed, if_pos hgo, hticks, List.range_succ_eq_map, List.map_cons, List.map_map]
      simp [hnext, hsucc, Function.comp_def]
    · rw [hend, hnext, hsucc]

/-- No value of `uJiffies` exceeds the largest reading. -/
lemma loop_diverges (hmax : now.toNat + 1 = 2 ^ 32) (fuel : ℕ) (c : TimerState × ε) :
    runTimerLoop call now fuel c = none := by
  induction fuel generalizing c with
  | zero => rfl
  | succ fuel ih =>
    have hgo : timeAfterEq now c.1.uJiffies := by
      have hlt := c.1.uJiffies.toNat_lt
      rw [timeAfterEq_iff]
      omega
    rw [runTimerLoop, if_pos hgo]
    exact ih _

/-- The loop catches up exactly when the reading is not the largest one and the
comparison of the values agrees with that of the distance. -/
theorem catchesUp_iff (hcall : KeepsJiffies call) : CatchesUp call now c ↔
    now ≠ 0xffffffff ∧ ((now - c.1.uJiffies).toNat < 2 ^ 31 ↔ c.1.uJiffies ≤ now) := by
  have hlt := now.toNat_lt
  rw [UInt32.le_iff_toNat_le]
  constructor
  · rintro ⟨fuel, r, hrun, hticks⟩
    constructor
    · rintro rfl
      rw [loop_diverges (by decide)] at hrun
      cases hrun
    · -- whether a tick is processed is decided by the first comparison
      cases fuel with
      | zero => cases hrun
      | succ fuel =>
        rw [processed] at hticks
        by_cases hgo : timeAfterEq now c.1.uJiffies
        · rw [if_pos hgo] at hticks
          refine iff_of_true ?_ (timeAfterEq_iff.mp hgo)
          by_contra hd
          rw [if_neg hd] at hticks
          cases hticks.1
        · rw [if_neg hgo] at hticks
          refine iff_of_false ?_ (mt timeAfterEq_iff.mpr hgo)
          intro hd
          rw [if_pos hd, List.range_succ_eq_map] at hticks
          cases hticks.1
  · rintro ⟨hmax, hiff⟩
    by_cases hle : c.1.uJiffies.toNat ≤ now.toNat
    · have hmax' : now.toNat ≠ 2 ^ 32 - 1 := fun h => hmax (UInt32.toNat_inj.mp h)
      have hd : (now - c.1.uJiffies).toNat = now.toNat - c.1.uJiffies.toNat :=
        UInt32.toNat_sub_of_le _ _ (UInt32.le_iff_toNat_le.mpr hle)
      have hk : c.1.uJiffies.toNat + ((now - c.1.uJiffies).toNat + 1) = now.toNat + 1 := by omega
      obtain ⟨r, hrun, hticks, hend⟩ := loop_ends hcall _ hk (by omega)
      refine ⟨_, r, hrun, ?_⟩
      rw [if_pos (hiff.mpr hle)]
      refine ⟨hticks, ?_⟩
      rw [hend, UInt32.ofNat_add, UInt32.ofNat_toNat, UInt32.add_assoc]
      rfl
    · have hstop : ¬ timeAfterEq now c.1.uJiffies := mt timeAfterEq_iff.mp hle
      refine ⟨1, c, by rw [runTimerLoop, if_neg hstop], ?_⟩
      rw [if_neg (mt hiff.mp hle), processed, if_neg hstop]
      exact ⟨rfl, rfl⟩

/-- A reading that is one tick ahead. -/
theorem catchesUp_one : CatchesUp (fun _ _ c => c) 6 (emptyManager 5, ()) ↔
    (6 : UInt32) ≠ 0xffffffff ∧ (((6 : UInt32) - 5).toNat < 2 ^ 31 ↔ (5 : UInt32) ≤ 6) :=
  catchesUp_iff fun _ _ _ => rfl

/-- The clock has wrapped, 16 ticks ahead of the base, and no tick is processed. -/
theorem not_catchesUp : ¬ ∀ (now : UInt32) (c : TimerState × Unit),
    CatchesUp (fun _ _ c => c) now c := by
  intro hall
  obtain ⟨-, hiff⟩ := (catchesUp_iff fun _ _ _ => rfl).mp (hall 0 (emptyManager 0xfffffff0, ()))
  exact absurd hiff (by decide)

end Libtask.Timer
