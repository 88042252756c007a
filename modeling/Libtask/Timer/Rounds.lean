import Libtask.Timer.CatchUp

/-!
# The rounds of `run_timer`

A `timerFn` that leaves the timers alone has no part in what a round does to the
wheels. So the loop of `run_timer` makes as many ticks of a wheel run as `uJiffies`
advances by, whatever the callbacks do elsewhere, and what the log says of the ticks
is said of the loop.
-/
namespace Libtask.Timer
open Transition Sched

/-- A `timerFn` leaves the timers alone. -/
def KeepsTimers {ε : Type} (call : Callback ε) : Prop := ∀ p n c, (call p n c).1 = c.1

section Rounds

variable {ε ε' : Type} {call : Callback ε} {call' : Callback ε'}

lemma keepsTimers_recordCall (tick : ℕ) : KeepsTimers (recordCall tick) := fun _ _ _ => rfl

lemma keepsTimers_onSched {κ : Type} (call : TimerNode → Sched κ → Except Stop (Sched κ)) :
    KeepsTimers (onSched call) := fun _ _ _ => rfl

lemma expireWalk_timers (hcall : KeepsTimers call) (hcall' : KeepsTimers call')
    (rest : List Addr) (s : TimerState) (e : ε) (e' : ε') :
    (expireWalk call rest (s, e)).1 = (expireWalk call' rest (s, e')).1 := by
  induction rest generalizing s e e' with
  | nil => rfl
  | cons p rest ih =>
    simp only [expireWalk]
    have h : (call p (s.node p) (s, e)).1 = s := hcall p _ _
    have h' : (call' p (s.node p) (s, e')).1 = s := hcall' p _ _
    rw [h, h']
    exact ih _ _ _

lemma runTick_keepsTimers (hcall : KeepsTimers call) (hcall' : KeepsTimers call') (s : TimerState)
    (e : ε) (e' : ε') : (runTick call (s, e)).1 = (runTick call' (s, e')).1 := by
  let idx := Slot.tv1 (tvrIndex (cascadeTick s).uJiffies)
  have hwalk := expireWalk_timers hcall hcall' ((cascadeTick s).arrListTimer idx)
    (listTimerReplaceInit (cascadeTick s) idx) e e'
  exact congrArg (fun s : TimerState => { s with uJiffies := s.uJiffies + 1 }) hwalk

lemma runTick_timers (hcall : KeepsTimers call) (w : WheelRun) (e : ε) :
    (runTick call (w.timers, e)).1 = (applyOp w .tick).timers :=
  runTick_keepsTimers hcall (keepsTimers_recordCall w.tick) w.timers e w.log

/-- What two callbacks keep, side by side: by a call and the re-arm or release after it,
by the cascades with the detaching of a slot, and by the step of `uJiffies`. The list
holds the nodes that the walks have still to call. -/
structure TwinInv (call : Callback ε) (call' : Callback ε')
    (P : List Addr → TimerState → ε → ε' → Prop) : Prop where
  keeps : KeepsTimers call
  keeps' : KeepsTimers call'
  call : ∀ p rest timers e e', P (p :: rest) timers e e' → P rest (rearmOrFree timers p)
    (call p (timers.node p) (timers, e)).2 (call' p (timers.node p) (timers, e')).2
  cascade : ∀ timers e e', P [] timers e e' →
    let idx := Slot.tv1 (tvrIndex (cascadeTick timers).uJiffies)
    P ((cascadeTick timers).arrListTimer idx) (listTimerReplaceInit (cascadeTick timers) idx) e e'
  tick : ∀ timers e e', P [] timers e e' →
    P [] { timers with uJiffies := timers.uJiffies + 1 } e e'

section Twin

variable {P : List Addr → TimerState → ε → ε' → Prop} {timers : TimerState} {e : ε} {e' : ε'}

theorem TwinInv.walk (hP : TwinInv call call' P) {rest : List Addr} (h : P rest timers e e') :
    P [] (expireWalk call rest (timers, e)).1 (expireWalk call rest (timers, e)).2
      (expireWalk call' rest (timers, e')).2 := by
  induction rest generalizing timers e e' with
  | nil => exact h
  | cons p rest ih =>
    simp only [expireWalk]
    have hkeep : (call p (timers.node p) (timers, e)).1 = timers := hP.keeps p _ _
    have hkeep' : (call' p (timers.node p) (timers, e')).1 = timers := hP.keeps' p _ _
    rw [hkeep, hkeep']
    exact ih (hP.call p rest timers e e' h)

theorem TwinInv.runTick (hP : TwinInv call call' P) (h : P [] timers e e') :
    P [] (runTick call (timers, e)).1 (runTick call (timers, e)).2
      (Timer.runTick call' (timers, e')).2 :=
  hP.tick _ _ _ (hP.walk (hP.cascade timers e e' h))

/-- Both loops end, with the same timers, or neither does. -/
theorem TwinInv.loop (hP : TwinInv call call' P) (now : UInt32) (fuel : ℕ) (timers : TimerState)
    (h : P [] timers e e') :
    Option.Rel (fun a b => a.1 = b.1 ∧ P [] a.1 a.2 b.2) (runTimerLoop call now fuel (timers, e))
      (runTimerLoop call' now fuel (timers, e')) := by
  induction fuel generalizing timers e e' with
  | zero => exact .none
  | succ fuel ih =>
    rw [runTimerLoop, runTimerLoop]
    by_cases hgo : timeAfterEq now timers.uJiffies
    · rw [if_pos hgo, if_pos hgo]
      have hnext := ih _ (hP.runTick h)
      rw [runTick_keepsTimers hP.keeps hP.keeps' timers e e'] at hnext
      rw [← Prod.mk.eta (p := Timer.runTick call _),
        runTick_keepsTimers hP.keeps hP.keeps' timers e e']
      exact hnext
    · rw [if_neg hgo, if_neg hgo]
      exact .some ⟨rfl, h⟩

end Twin

/-- `n` ticks of a wheel run. -/
def ticks (w : WheelRun) : ℕ → WheelRun
  | 0 => w
  | n + 1 => ticks (applyOp w .tick) n

lemma ticks_reachable {w : WheelRun} (hw : wheelSystem.Reachable w) (n : ℕ) :
    wheelSystem.Reachable (ticks w n) := by
  induction n generalizing w with
  | zero => exact hw
  | succ n ih => exact ih (hw.step (a := .tick) trivial ⟨trivial, rfl⟩)

lemma ticks_tick (w : WheelRun) (n : ℕ) : (ticks w n).tick = w.tick + n := by
  induction n generalizing w with
  | zero => rfl
  | succ n ih =>
    have htick : (applyOp w .tick).tick = w.tick + 1 := rfl
    rw [ticks, ih, htick]
    omega

/-- The loop makes some number of ticks, and `uJiffies` advances by it without a wrap,
to the end of the tick of the reading. -/
theorem runTimerLoop_ticks (hcall : KeepsTimers call) {now : UInt32} {fuel : ℕ} {w : WheelRun}
    {e e' : ε} {timers : TimerState}
    (hrun : runTimerLoop call now fuel (w.timers, e) = some (timers, e')) :
    ∃ n, timers = (ticks w n).timers ∧ timers.uJiffies.toNat = w.timers.uJiffies.toNat + n ∧
      now.toNat < timers.uJiffies.toNat ∧ (n ≠ 0 → timers.uJiffies.toNat = now.toNat + 1) := by
  have hkeeps : KeepsJiffies call := fun p n c => by rw [hcall p n c]
  induction fuel generalizing w e with
  | zero => cases hrun
  | succ fuel ih =>
    by_cases hgo : timeAfterEq now w.timers.uJiffies
    · have hmax : now.toNat + 1 ≠ 2 ^ 32 := by
        intro hmax
        rw [loop_diverges hmax] at hrun
        cases hrun
      have hle := timeAfterEq_iff.mp hgo
      have hnext : (runTick call (w.timers, e)).1.uJiffies.toNat = w.timers.uJiffies.toNat + 1 := by
        have hlt := now.toNat_lt
        rw [runTick_uJiffies hkeeps, UInt32.toNat_add, show (1 : UInt32).toNat = 1 from rfl]
        dsimp only
        omega
      rw [runTimerLoop, if_pos hgo, ← Prod.mk.eta (p := runTick _ _), runTick_timers hcall] at hrun
      obtain ⟨n, htimers, hjiffies, hpast, hend⟩ := ih hrun
      rw [runTick_timers hcall] at hnext
      exact ⟨n + 1, htimers, by omega, hpast, fun _ => by omega⟩
    · rw [runTimerLoop, if_neg hgo] at hrun
      obtain ⟨rfl, -⟩ := Prod.mk.inj (Option.some.inj hrun)
      rw [timeAfterEq_iff] at hgo
      exact ⟨0, rfl, rfl, by omega, fun hn => absurd rfl hn⟩

end Rounds

section OneShot

variable {t n : ℕ} {rest : List Addr} {s : TimerState} {log : List Event} {q : Addr} {a : Arming}
  {w : WheelRun}

lemma expireWalk_heap (rest : List Addr) (c : TimerState × List Event) :
    (expireWalk (recordCall t) rest c).1.heap ⊆ c.1.heap := by
  induction rest generalizing c with
  | nil => exact Finset.Subset.refl _
  | cons p rest ih => exact (ih _).trans (rearmOrFree_heap c.1 p)

/-- What is logged stays logged. -/
lemma timely_of_expireWalk (h : Timely (expireWalk (recordCall t) rest (s, log)).2) :
    Timely log := by
  induction rest generalizing s log with
  | nil => exact h
  | cons p rest ih => exact (ih h).1

lemma rearmOrFree_node_of_ne {p : Addr} (hp : q ≠ p) : (rearmOrFree s p).node q = s.node q := by
  unfold rearmOrFree
  dsimp only
  split_ifs
  · exact Function.update_of_ne hp ..
  · rfl

lemma rearmOrFree_mem_of_ne {p : Addr} (hp : q ≠ p) :
    q ∈ (rearmOrFree s p).heap ↔ q ∈ s.heap := by
  unfold rearmOrFree
  dsimp only
  split_ifs
  · exact Iff.rfl
  · exact Finset.mem_erase.trans (and_iff_right hp)

lemma armingOf_called {p : Addr} (hp : q ≠ p) (P : UInt32) :
    armingOf (.called p t P :: log) q = armingOf log q :=
  armingOf_cons_of_ne log (by simpa [Event.pTmr] using Ne.symm hp)

/-- A one-shot node that is still there was not called, and one that has gone was
called at this tick. -/
theorem expireWalk_oneShot (hheap : q ∈ s.heap) (hperiod : (s.node q).uPeriod = 0)
    (ha : armingOf log q = some a)
    (htimely : Timely (expireWalk (recordCall t) rest (s, log)).2) :
    (q ∈ (expireWalk (recordCall t) rest (s, log)).1.heap →
      (expireWalk (recordCall t) rest (s, log)).1.node q = s.node q ∧
        armingOf (expireWalk (recordCall t) rest (s, log)).2 q = some a) ∧
    (q ∉ (expireWalk (recordCall t) rest (s, log)).1.heap → Answers a t) := by
  induction rest generalizing s log with
  | nil => exact ⟨fun _ => ⟨rfl, ha⟩, fun hgone => absurd hheap hgone⟩
  | cons p rest ih =>
    by_cases hqp : q = p
    · subst hqp
      -- the call, and the node is freed
      have hfree : rearmOrFree s q = freeNode s q := if_neg (not_not.mpr hperiod)
      obtain ⟨-, b, hb, hans⟩ := timely_of_expireWalk
        (show Timely (expireWalk (recordCall t) rest (rearmOrFree s q,
          .called q t (s.node q).uPeriod :: log)).2 from htimely)
      obtain rfl : a = b := Option.some.inj (ha.symm.trans hb)
      refine ⟨fun hmem => ?_, fun _ => hans⟩
      have hold := expireWalk_heap rest _ hmem
      change q ∈ (rearmOrFree s q).heap at hold
      rw [hfree] at hold
      exact absurd hold (Finset.notMem_erase q s.heap)
    · have hnode : (rearmOrFree s p).node q = s.node q := rearmOrFree_node_of_ne hqp
      have hlog : armingOf (.called p t (s.node p).uPeriod :: log) q = some a := by
        rw [armingOf_called hqp]
        exact ha
      obtain ⟨hkeep, hgone⟩ := ih ((rearmOrFree_mem_of_ne hqp).mpr hheap)
        (by rw [hnode]; exact hperiod) hlog htimely
      refine ⟨fun hmem => ?_, hgone⟩
      obtain ⟨hsame, harm⟩ := hkeep hmem
      exact ⟨hsame.trans hnode, harm⟩

theorem tick_oneShot (h : WheelInv w) (hheap : q ∈ w.timers.heap)
    (hperiod : (w.timers.node q).uPeriod = 0) (ha : armingOf w.log q = some a) :
    (q ∈ (applyOp w .tick).timers.heap →
      (applyOp w .tick).timers.node q = w.timers.node q ∧
        armingOf (applyOp w .tick).log q = some a) ∧
    (q ∉ (applyOp w .tick).timers.heap → Answers a w.tick) := by
  obtain ⟨hcheap, hcnode⟩ := cascadeTick_heap w.timers
  let s := listTimerReplaceInit (cascadeTick w.timers)
    (.tv1 (tvrIndex (cascadeTick w.timers).uJiffies))
  have hnode : s.node q = w.timers.node q := congrFun hcnode q
  have hmem : q ∈ s.heap := by
    show q ∈ (cascadeTick w.timers).heap
    rwa [hcheap]
  obtain ⟨hkeep, hgone⟩ := expireWalk_oneShot hmem (by rwa [hnode]) ha h.tick.timely
  refine ⟨fun hstay => ?_, hgone⟩
  obtain ⟨hsame, harm⟩ := hkeep hstay
  exact ⟨hsame.trans hnode, harm⟩

lemma ticks_heap (w : WheelRun) (n : ℕ) : (ticks w n).timers.heap ⊆ w.timers.heap := by
  induction n generalizing w with
  | zero => exact Finset.Subset.refl _
  | succ n ih =>
    have hone : (applyOp w .tick).timers.heap ⊆ w.timers.heap :=
      (expireWalk_heap _ _).trans (cascadeTick_heap w.timers).1.subset
    exact (ih (applyOp w .tick)).trans hone

lemma expireWalk_timerFn (rest : List Addr) (c : TimerState × List Event) :
    ((expireWalk (recordCall t) rest c).1.node q).timerFn = (c.1.node q).timerFn ∧
      ((expireWalk (recordCall t) rest c).1.node q).pParam = (c.1.node q).pParam := by
  induction rest generalizing c with
  | nil => exact ⟨rfl, rfl⟩
  | cons p rest ih =>
    have hone : ((rearmOrFree c.1 p).node q).timerFn = (c.1.node q).timerFn ∧
        ((rearmOrFree c.1 p).node q).pParam = (c.1.node q).pParam := by
      by_cases hqp : q = p
      · subst hqp
        unfold rearmOrFree
        dsimp only
        split_ifs
        · show (Function.update c.1.node q _ q).timerFn = _ ∧
            (Function.update c.1.node q _ q).pParam = _
          rw [Function.update_self]
          exact ⟨rfl, rfl⟩
        · exact ⟨rfl, rfl⟩
      · rw [rearmOrFree_node_of_ne hqp]
        exact ⟨rfl, rfl⟩
    obtain ⟨hfn, hparam⟩ := ih (rearmOrFree c.1 p, .called p t (c.1.node p).uPeriod :: c.2)
    exact ⟨hfn.trans hone.1, hparam.trans hone.2⟩

/-- What a pending node will call, and with what, never changes. -/
lemma ticks_timerFn (w : WheelRun) (n : ℕ) :
    ((ticks w n).timers.node q).timerFn = (w.timers.node q).timerFn ∧
      ((ticks w n).timers.node q).pParam = (w.timers.node q).pParam := by
  induction n generalizing w with
  | zero => exact ⟨rfl, rfl⟩
  | succ n ih =>
    have hcnode := congrFun (cascadeTick_heap w.timers).2 q
    obtain ⟨hfn, hparam⟩ := expireWalk_timerFn (t := w.tick) (q := q)
      ((cascadeTick w.timers).arrListTimer (.tv1 (tvrIndex (cascadeTick w.timers).uJiffies)))
      (listTimerReplaceInit (cascadeTick w.timers)
        (.tv1 (tvrIndex (cascadeTick w.timers).uJiffies)), w.log)
    obtain ⟨hfn', hparam'⟩ := ih (applyOp w .tick)
    refine ⟨hfn'.trans (hfn.trans ?_), hparam'.trans (hparam.trans ?_)⟩
    · exact congrArg TimerNode.timerFn hcnode
    · exact congrArg TimerNode.pParam hcnode

/-- After any number of ticks, a one-shot node waits for its call as before, or one of
the ticks has answered it. -/
theorem ticks_oneShot (hw : wheelSystem.Reachable w) (hheap : q ∈ w.timers.heap)
    (hperiod : (w.timers.node q).uPeriod = 0) (ha : armingOf w.log q = some a) :
    (q ∈ (ticks w n).timers.heap →
      (ticks w n).timers.node q = w.timers.node q ∧ armingOf (ticks w n).log q = some a) ∧
    (q ∉ (ticks w n).timers.heap → ∃ t, w.tick ≤ t ∧ t < w.tick + n ∧ Answers a t) := by
  induction n generalizing w with
  | zero => exact ⟨fun _ => ⟨rfl, ha⟩, fun hgone => absurd hheap hgone⟩
  | succ n ih =>
    obtain ⟨hkeep, hgone⟩ := tick_oneShot (wheelInv_of_reachable hw) hheap hperiod ha
    have hnext : wheelSystem.Reachable (applyOp w .tick) :=
      hw.step (a := .tick) trivial ⟨trivial, rfl⟩
    have htick : (applyOp w .tick).tick = w.tick + 1 := rfl
    by_cases hmid : q ∈ (applyOp w .tick).timers.heap
    · obtain ⟨hnode, harm⟩ := hkeep hmid
      obtain ⟨hkeep', hgone'⟩ := ih hnext hmid (by rwa [hnode]) harm
      constructor
      · intro hstay
        obtain ⟨hsame, harm'⟩ := hkeep' hstay
        exact ⟨hsame.trans hnode, harm'⟩
      · intro hlost
        obtain ⟨t, hle, hlt, hans⟩ := hgone' hlost
        exact ⟨t, by omega, by omega, hans⟩
    · constructor
      · intro hstay
        exact absurd (ticks_heap _ n hstay) hmid
      · intro _
        exact ⟨w.tick, le_refl _, by omega, hgone hmid⟩

end OneShot

end Libtask.Timer
