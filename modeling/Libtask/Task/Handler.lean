import Libtask.Task.Specs
import Libtask.Timer.Wheel

/-!
# The clock tick and the hooked sleep

`interrupt_timer_handler` with `run_timer` and the callbacks of the library, and
the three hooks of `hook.c` that hand a duration to it. The timer manager exists
from `init()` on; the counter `ticks` is read by nothing here and is left out.
-/
namespace Libtask.Sched
open Timer

variable {κ : Type}

def collaborativeScheduleHelper (s : Sched κ) (task : TaskAddr) : Except Stop (Sched κ) := do
  assert (task ∉ s.taskReadyList)
  let s := { s with taskReadyList := s.taskReadyList ++ [task] }
  return s.setTask task fun p => { p with
    ticks := p.priority
    status := .ready
    isCollaborativeSchedule := false
    sleepMillisecond := 0 }

/-- `free(task->stack_min_addr)` and `free(task)`. -/
def freeTask (s : Sched κ) (task : TaskAddr) : Sched κ :=
  { s with alloc := (s.alloc.erase (s.task task).stackMinAddr).erase task }

/-- The loop of `clean_dead_task`; every round pops. -/
def cleanLoop : ℕ → ℤ → Sched κ → Except Stop (Sched κ)
  | 0, _, _ => .error .diverges
  | fuel + 1, cleanCnt, s =>
    if s.taskPoolList = [] ∨ cleanCnt = 0 then
      match s.taskPoolList with
      | [] => .error .emptyPop
      | task :: rest =>
        cleanLoop fuel (cleanCnt - 1)
          ({ s with taskPoolList := rest, taskTag := task }.freeTask task)
    else .ok s

/-- `task_all_nums / 8` is a division of C, towards 0. -/
def cleanDeadTask (s : Sched κ) : Except Stop (Sched κ) :=
  if s.taskPoolList = [] then .ok s
  else
    let cleanCnt := if s.taskAllNums.tdiv 8 > 16 then 16 else s.taskAllNums.tdiv 8
    cleanLoop (s.taskPoolList.length + 1) cleanCnt s

/-- `pTmr->timerFn(pTmr->pParam)`. -/
def callTimer (n : TimerNode) (s : Sched κ) : Except Stop (Sched κ) :=
  match n.timerFn with
  | .cleanDeadTask => s.cleanDeadTask
  | .collaborativeScheduleHelper => s.collaborativeScheduleHelper n.pParam
  | .user _ => .error .foreign

/-- A `timerFn` acts on the scheduler, as long as none before it is stuck. -/
def onSched (call : TimerNode → Sched κ → Except Stop (Sched κ)) :
    Callback (Except Stop (Sched κ)) := fun _ n c => (c.1, c.2.bind (call n))

/-- `TIME_AFTER_EQ`: the operands are widened to 64 bits before the subtraction. -/
def timeAfterEq (a b : UInt32) : Prop := (a.toNat : ℤ) - b.toNat ≥ 0

instance (a b : UInt32) : Decidable (timeAfterEq a b) := by
  unfold timeAfterEq
  infer_instance

/-- The outer loop of `run_timer`. `uJiffies` comes back to its value after
`2 ^ 32` rounds, so a loop that is still going then never ends. -/
def runTimerLoop {ε : Type} (call : Callback ε) (now : UInt32) :
    ℕ → TimerState × ε → Option (TimerState × ε)
  | 0, _ => none
  | fuel + 1, c =>
    if timeAfterEq now c.1.uJiffies then runTimerLoop call now fuel (runTick call c) else some c

/-- `run_timer` at the clock reading `now`. -/
def runTimer (call : TimerNode → Sched κ → Except Stop (Sched κ)) (now : UInt32)
    (timers : TimerState) (s : Sched κ) : Except Stop (TimerState × Sched κ) := do
  let s ← s.lockAcquire .timer
  match runTimerLoop (onSched call) now (2 ^ 32) (timers, .ok s) with
  | none => .error .diverges
  | some (timers, r) => do
    let s ← r
    let s ← s.lockRelease .timer
    return (timers, s)

/-- What is kept by a call and the re-arm or release after it, by the cascades
with the detaching of a slot, and by the step of `uJiffies`. The list holds the
nodes that the walk has still to call. -/
structure LoopInv (call : TimerNode → Sched κ → Except Stop (Sched κ))
    (P : List Addr → TimerState → Sched κ → Prop) : Prop where
  call : ∀ p rest timers s s', P (p :: rest) timers s → call (timers.node p) s = .ok s' →
    P rest (rearmOrFree timers p) s'
  cascade : ∀ timers s, P [] timers s →
    let idx := Slot.tv1 (tvrIndex (cascadeTick timers).uJiffies)
    P ((cascadeTick timers).arrListTimer idx) (listTimerReplaceInit (cascadeTick timers) idx) s
  tick : ∀ timers s, P [] timers s → P [] { timers with uJiffies := timers.uJiffies + 1 } s

lemma expireWalk_error {call : TimerNode → Sched κ → Except Stop (Sched κ)} (rest : List Addr)
    (timers : TimerState) (e : Stop) :
    (expireWalk (onSched call) rest (timers, .error e)).2 = .error e := by
  induction rest generalizing timers with
  | nil => rfl
  | cons p rest ih => exact ih (rearmOrFree timers p)

lemma runTimerLoop_error {call : TimerNode → Sched κ → Except Stop (Sched κ)} {now : UInt32}
    {fuel : ℕ} {timers : TimerState} {e : Stop} {r : TimerState × Except Stop (Sched κ)}
    (hrun : runTimerLoop (onSched call) now fuel (timers, .error e) = some r) : r.2 = .error e := by
  induction fuel generalizing timers with
  | zero => cases hrun
  | succ fuel ih =>
    rw [runTimerLoop] at hrun
    split_ifs at hrun with hgo
    · have hr : (runTick (onSched call) (timers, .error e)).2 = .error e := expireWalk_error _ _ e
      rw [← Prod.mk.eta (p := runTick _ _), hr] at hrun
      exact ih hrun
    · obtain rfl := Option.some.inj hrun
      rfl

section Loop

variable {call : TimerNode → Sched κ → Except Stop (Sched κ)}
  {P : List Addr → TimerState → Sched κ → Prop} {timers : TimerState} {s s' : Sched κ}

theorem LoopInv.walk (hP : LoopInv call P) {rest : List Addr} (h : P rest timers s)
    (hwalk : (expireWalk (onSched call) rest (timers, .ok s)).2 = .ok s') :
    P [] (expireWalk (onSched call) rest (timers, .ok s)).1 s' := by
  induction rest generalizing timers s with
  | nil =>
    obtain rfl := Except.ok.inj hwalk
    exact h
  | cons p rest ih =>
    simp only [expireWalk, onSched, Except.bind] at hwalk ⊢
    cases hcall : call (timers.node p) s with
    | error e =>
      rw [hcall, expireWalk_error] at hwalk
      cases hwalk
    | ok m =>
      rw [hcall] at hwalk
      exact ih (hP.call p rest timers s m h hcall) hwalk

theorem LoopInv.runTick (hP : LoopInv call P) (h : P [] timers s)
    (hrun : (runTick (onSched call) (timers, .ok s)).2 = .ok s') :
    P [] (Timer.runTick (onSched call) (timers, .ok s)).1 s' :=
  hP.tick _ _ (hP.walk (hP.cascade timers s h) hrun)

/-- The outer loop keeps the invariant. -/
theorem LoopInv.loop (hP : LoopInv call P) {now : UInt32} {fuel : ℕ} {timers' : TimerState}
    (h : P [] timers s)
    (hrun : runTimerLoop (onSched call) now fuel (timers, .ok s) = some (timers', .ok s')) :
    P [] timers' s' := by
  induction fuel generalizing timers s with
  | zero => cases hrun
  | succ fuel ih =>
    rw [runTimerLoop] at hrun
    split_ifs at hrun with hgo
    · cases hr : (Timer.runTick (onSched call) (timers, .ok s)).2 with
      | error e =>
        rw [← Prod.mk.eta (p := Timer.runTick _ _), hr] at hrun
        cases runTimerLoop_error hrun
      | ok m =>
        have hm := hP.runTick h hr
        rw [← Prod.mk.eta (p := Timer.runTick _ _), hr] at hrun
        exact ih hm hrun
    · obtain ⟨rfl, hs⟩ := Prod.mk.inj (Option.some.inj hrun)
      obtain rfl := Except.ok.inj hs
      exact h

end Loop

/-- `create_timer` with its lock. -/
def createTimerLocked (timers : TimerState) (s : Sched κ) (malloc : Option Addr)
    (timerFn : TimerFn) (pParam : ℕ) (uDueTime uPeriod : UInt32) :
    Except Stop (TimerState × Sched κ) :=
  match malloc with
  | none => .ok (timers, s)
  | some p => do
    let s ← s.lockAcquire .timer
    let timers := (createTimer timers (some p) (some timerFn) pParam uDueTime uPeriod).1
    let s ← s.lockRelease .timer
    return (timers, s)

lemma createTimerLocked_of_free {timers : TimerState} {s : Sched κ} {p : Addr}
    (hfree : s.LockFree .timer) (fn : TimerFn) (pParam : ℕ) (due period : UInt32) :
    createTimerLocked timers s (some p) fn pParam due period =
      .ok ((createTimer timers (some p) (some fn) pParam due period).1, s) := by
  have hrel : (s.held .timer).lockRelease .timer = .ok s := by
    rw [lockRelease_of_held (by simp [held]) (by simp [held]), freed_held hfree]
  simp [createTimerLocked, lockAcquire_of_free hfree, hrel, bind, Except.bind, pure, Except.pure]

/-- `interrupt_timer_handler` at the clock reading `now`, with the answer of
`malloc` to the request for a wake-up timer. -/
def interruptTimerHandler (call : TimerNode → Sched κ → Except Stop (Sched κ)) (now : UInt32)
    (malloc : Option Addr) (timers : TimerState) (s : Sched κ) (frame : κ) :
    Except Stop (TimerState × Sched κ × κ) := do
  assert (s.current.stackMagic = TaskStruct.magic)
  let s := s.setTask s.currentTask fun p => { p with elapsedTicks := p.elapsedTicks + 1 }
  let (timers, s) ← runTimer call now timers s
  if s.current.isCollaborativeSchedule = false ∧ s.current.ticks = 0 then do
    let (s, frame) ← s.schedule frame
    return (timers, s, frame)
  else if s.current.isCollaborativeSchedule = false then
    return (timers, s.setTask s.currentTask fun p => { p with ticks := p.ticks - 1 }, frame)
  else do
    let (timers, s) ← createTimerLocked timers s malloc .collaborativeScheduleHelper s.currentTask
      s.current.sleepMillisecond 0
    let (s, frame) ← s.collaborativeSchedule frame
    return (timers, s, frame)

/-- `run_timer` of a task that finds the lock free: the loop runs under it. -/
lemma runTimer_ok {call : TimerNode → Sched κ → Except Stop (Sched κ)} {now : UInt32}
    {timers timers' : TimerState} {s s' : Sched κ} (hfree : s.LockFree .timer)
    (hrun : runTimer call now timers s = .ok (timers', s')) :
    ∃ m, runTimerLoop (onSched call) now (2 ^ 32) (timers, .ok (s.held .timer)) =
      some (timers', .ok m) ∧ m.lockRelease .timer = .ok s' := by
  rw [runTimer, lockAcquire_of_free hfree] at hrun
  simp only [bind, Except.bind] at hrun
  cases hloop : runTimerLoop (onSched call) now (2 ^ 32) (timers, .ok (s.held .timer)) with
  | none =>
    rw [hloop] at hrun
    cases hrun
  | some r =>
    obtain ⟨timers1, r⟩ := r
    rw [hloop] at hrun
    cases r with
    | error e => cases hrun
    | ok m =>
      dsimp only at hrun
      cases hrel : m.lockRelease .timer with
      | error e =>
        rw [hrel] at hrun
        cases hrun
      | ok s1 =>
        rw [hrel] at hrun
        obtain ⟨rfl, rfl⟩ := Prod.mk.inj (Except.ok.inj hrun)
        exact ⟨m, rfl, hrel⟩

/-- `run_timer` when the clock has not reached `uJiffies`. -/
lemma runTimer_idle {call : TimerNode → Sched κ → Except Stop (Sched κ)} {now : UInt32}
    {timers : TimerState} {s : Sched κ} (hfree : s.LockFree .timer)
    (hnow : ¬ timeAfterEq now timers.uJiffies) :
    runTimer call now timers s = .ok (timers, s) := by
  have hloop : runTimerLoop (onSched call) now (2 ^ 32) (timers, .ok (s.held .timer)) =
      some (timers, .ok (s.held .timer)) := by
    obtain ⟨fuel, hfuel⟩ : ∃ fuel, 2 ^ 32 = fuel + 1 := ⟨2 ^ 32 - 1, rfl⟩
    rw [hfuel, runTimerLoop, if_neg hnow]
  have hrel : (s.held .timer).lockRelease .timer = .ok s := by
    rw [lockRelease_of_held (by simp [held]) (by simp [held]), freed_held hfree]
  rw [runTimer, lockAcquire_of_free hfree]
  simp only [bind, Except.bind, hloop, hrel]
  rfl

/-- Then a block that is free before `run_timer` is free after it. -/
lemma fresh_of_idle {call : TimerNode → Sched κ → Except Stop (Sched κ)} {now : UInt32}
    {timers timers1 : TimerState} {s m : Sched κ} {p : Addr} (hfree : s.LockFree .timer)
    (hnow : ¬ timeAfterEq now timers.uJiffies) (hp : p ∉ timers.heap)
    (hrun : runTimer call now timers s = .ok (timers1, m)) : p ∉ timers1.heap := by
  rw [runTimer_idle hfree hnow] at hrun
  obtain ⟨rfl, -⟩ := Prod.mk.inj (Except.ok.inj hrun)
  exact hp

/-- The count of a tick at its begin. -/
def tickBegun (s : Sched κ) : Sched κ :=
  s.setTask s.currentTask fun p => { p with elapsedTicks := p.elapsedTicks + 1 }

/-- The handler after `run_timer`: the running task is queued, goes on with a
shorter slice, or exchanges the CPU for a timer. -/
inductive Handled (malloc : Option Addr) (timers : TimerState) (s : Sched κ) (frame : κ) :
    TimerState → Sched κ → κ → Prop
  | schedule {s' : Sched κ} {k : κ} (hflag : s.current.isCollaborativeSchedule = false)
      (hticks : s.current.ticks = 0) (h : s.schedule frame = .ok (s', k)) :
      Handled malloc timers s frame timers s' k
  | count (hflag : s.current.isCollaborativeSchedule = false) (hticks : s.current.ticks ≠ 0) :
      Handled malloc timers s frame timers
        (s.setTask s.currentTask fun p => { p with ticks := p.ticks - 1 }) frame
  | sleep {timers' : TimerState} {m s' : Sched κ} {k : κ}
      (hflag : s.current.isCollaborativeSchedule = true)
      (hcreate : createTimerLocked timers s malloc .collaborativeScheduleHelper s.currentTask
        s.current.sleepMillisecond 0 = .ok (timers', m))
      (h : m.collaborativeSchedule frame = .ok (s', k)) : Handled malloc timers s frame timers' s' k

theorem interruptTimerHandler_ok {call : TimerNode → Sched κ → Except Stop (Sched κ)}
    {now : UInt32} {malloc : Option Addr} {timers timers' : TimerState} {s s' : Sched κ}
    {frame k : κ}
    (hrun : interruptTimerHandler call now malloc timers s frame = .ok (timers', s', k)) :
    ∃ timers1 m, runTimer call now timers s.tickBegun = .ok (timers1, m) ∧
      Handled malloc timers1 m frame timers' s' k := by
  rw [interruptTimerHandler, bind_eq_ok] at hrun
  obtain ⟨-, -, hrun⟩ := hrun
  rw [bind_eq_ok] at hrun
  obtain ⟨⟨timers1, m⟩, hrt, hrun⟩ := hrun
  refine ⟨timers1, m, hrt, ?_⟩
  dsimp only at hrun
  split_ifs at hrun with hslice hsleep
  · rw [bind_eq_ok] at hrun
    obtain ⟨⟨s2, k2⟩, hsched, hret⟩ := hrun
    obtain ⟨rfl, rfl, rfl⟩ : timers1 = timers' ∧ s2 = s' ∧ k2 = k := by
      simpa [pure, Except.pure] using hret
    exact .schedule hslice.1 hslice.2 hsched
  · obtain ⟨rfl, hret⟩ := Prod.mk.inj (Except.ok.inj hrun)
    obtain ⟨rfl, rfl⟩ := Prod.mk.inj hret
    exact .count hsleep fun hticks => hslice ⟨hsleep, hticks⟩
  · rw [bind_eq_ok] at hrun
    obtain ⟨⟨timers2, m'⟩, hcreate, hrun⟩ := hrun
    rw [bind_eq_ok] at hrun
    obtain ⟨⟨s3, k3⟩, hsched, hret⟩ := hrun
    obtain ⟨rfl, rfl, rfl⟩ : timers2 = timers' ∧ s3 = s' ∧ k3 = k := by
      simpa [pure, Except.pure] using hret
    exact .sleep (by simpa using hsleep) hcreate hsched

/-- A tick of a task that has asked for a sleep, with no timer due. -/
theorem interruptTimerHandler_sleep {call : TimerNode → Sched κ → Except Stop (Sched κ)}
    {now : UInt32} {malloc : Addr} {timers : TimerState} {s : Sched κ} {frame : κ}
    (hmagic : s.current.stackMagic = TaskStruct.magic) (hfree : s.LockFree .timer)
    (hnow : ¬ timeAfterEq now timers.uJiffies)
    (hflag : s.current.isCollaborativeSchedule = true) :
    interruptTimerHandler call now (some malloc) timers s frame = do
      let (s', frame) ← s.tickBegun.collaborativeSchedule frame
      return ((createTimer timers (some malloc) (some .collaborativeScheduleHelper) s.currentTask
        s.current.sleepMillisecond 0).1, s', frame) := by
  have hcur : s.tickBegun.current = { s.current with
      elapsedTicks := s.current.elapsedTicks + 1 } := setTask_task_self ..
  have hbegun : s.tickBegun.LockFree .timer := hfree
  have hrun : runTimer call now timers s.tickBegun = _ := runTimer_idle hbegun hnow
  have hcreate : createTimerLocked timers s.tickBegun (some malloc) .collaborativeScheduleHelper
      s.tickBegun.currentTask s.tickBegun.current.sleepMillisecond 0 = _ :=
    createTimerLocked_of_free hbegun ..
  rw [Sched.tickBegun] at hrun hcreate hcur
  simp only [interruptTimerHandler, assert_of_true hmagic, bind, Except.bind, hrun, hcur, hflag,
    Bool.true_eq_false, false_and, if_false]
  rw [hcur] at hcreate
  rw [hcreate]
  rfl

/-- A tick of a task that has not asked for a sleep, with no timer due. -/
theorem interruptTimerHandler_awake {call : TimerNode → Sched κ → Except Stop (Sched κ)}
    {now : UInt32} {malloc : Option Addr} {timers : TimerState} {s : Sched κ} {frame : κ}
    (hmagic : s.current.stackMagic = TaskStruct.magic) (hfree : s.LockFree .timer)
    (hnow : ¬ timeAfterEq now timers.uJiffies)
    (hflag : s.current.isCollaborativeSchedule = false) :
    interruptTimerHandler call now malloc timers s frame =
      if s.current.ticks = 0 then do
        let (s', frame) ← s.tickBegun.schedule frame
        return (timers, s', frame)
      else .ok (timers, s.tickBegun.setTask s.currentTask fun p => { p with
        ticks := p.ticks - 1 }, frame) := by
  have hcur : s.tickBegun.current = { s.current with
      elapsedTicks := s.current.elapsedTicks + 1 } := setTask_task_self ..
  have hbegun : s.tickBegun.LockFree .timer := hfree
  have hrun : runTimer call now timers s.tickBegun = _ := runTimer_idle hbegun hnow
  rw [Sched.tickBegun] at hrun hcur
  simp only [interruptTimerHandler, assert_of_true hmagic, bind, Except.bind, hrun, hcur, hflag,
    true_and]
  rfl

def coEnableHookSys (s : Sched κ) : Sched κ :=
  s.setTask s.currentTask fun p => { p with isHook := true }

/-- The duration, in milliseconds, that each hook computes. -/
def sleepDuration (seconds : UInt32) : UInt32 := seconds * 1000

def usleepDuration (usec : UInt32) : UInt32 := usec / 1000

def nanosleepDuration (tvSec tvNsec : Int64) : UInt32 :=
  (tvSec * 1000).toUInt64.toUInt32 + (tvNsec / 1000000).toUInt64.toUInt32

/-- The writes of a hook that is not passed on to the system. -/
def requestSleep (s : Sched κ) (millisecond : UInt32) : Sched κ :=
  s.setTask s.currentTask fun p => { p with
    isCollaborativeSchedule := true
    sleepMillisecond := millisecond }

end Libtask.Sched
