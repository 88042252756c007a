import Libtask.Task.Wakes
import Libtask.Transition

/-!
# Runs of the scheduler

Runs in which every call of a task is one operation; `sema_down` is one operation up to
its `task_block` and another from its resumption. Ticks come between the operations, and
a `timerFn` of the users leaves the scheduler alone. What the timers of a tick call is a
parameter of the step. The roster keeps its law, with the pending wake-up timers as one
of the places a task can be in.
-/
namespace Libtask.Conservation
open Transition Timer Sched

/-- Where a task goes on when it is dispatched: in its own code, at the test of the loop
of `sema_down`, or in the loop of `died_task_schedule`, for ever. -/
inductive Resume
  | user
  | semaDown (psema : SemaId)
  | diedTaskSchedule
  deriving DecidableEq, Repr

instance : Inhabited Resume := ⟨.user⟩

def TaskCall.back : TaskCall → Resume
  | .semaDown psema => .semaDown psema
  | _ => .user

/-- The state of a run; `pc` is where the running task goes on. -/
structure TaskRun where
  timers : TimerState
  sched : Sched Resume
  pc : Resume

inductive TaskOp
  | call (call : TaskCall)
  | tick (now : UInt32) (malloc : Addr)
  | createTimer (malloc : Addr) (f pParam : ℕ) (uDueTime uPeriod : UInt32)
  | deleteTimer (lpTimer : Addr)

/-- Control is in the code of the running task, not in a hooked sleep. -/
def TaskRun.InTask (s : TaskRun) : Prop :=
  s.pc = .user ∧ s.sched.current.isCollaborativeSchedule = false

/-- A task that has waited in `sema_down` goes on with its loop. -/
def TaskRun.MayCall (s : TaskRun) (call : TaskCall) : Prop :=
  s.InTask ∨ ∃ psema, call = .semaDown psema ∧ s.pc = .semaDown psema

/-- One operation that does not stop, with what the timers of a tick call. The block that
a tick may get for a wake-up timer is of no timer that is left after `run_timer`. -/
inductive TaskStep (callback : TimerNode → Sched Resume → Except Stop (Sched Resume))
    (s : TaskRun) : TaskOp → TaskRun → Prop
  | call {call : TaskCall} {sched : Sched Resume} {k : Option Resume} (hmay : s.MayCall call)
      (hpromise : Promised s.sched call)
      (h : perform s.sched call.back .user call = .ok (sched, k)) :
      TaskStep callback s (.call call) { s with sched := sched, pc := k.getD .user }
  | tick {now : UInt32} {p : Addr} {timers : TimerState} {sched : Sched Resume} {pc : Resume}
      (hmalloc : ∀ timers1 m, runTimer callback now s.timers s.sched.tickBegun =
        .ok (timers1, m) → p ∉ timers1.heap)
      (h : interruptTimerHandler callback now (some p) s.timers s.sched s.pc =
        .ok (timers, sched, pc)) : TaskStep callback s (.tick now p) ⟨timers, sched, pc⟩
  | createTimer {p : Addr} {f pParam : ℕ} {due period : UInt32} (hin : s.InTask)
      (hmalloc : p ∉ s.timers.heap) :
      TaskStep callback s (.createTimer p f pParam due period) { s with
        timers := (Timer.createTimer s.timers (some p) (some (.user f)) pParam due period).1 }
  | deleteTimer {p : Addr} {f : ℕ} (hin : s.InTask) (hp : p ∈ s.timers.heap)
      (hf : (s.timers.node p).timerFn = .user f) :
      TaskStep callback s (.deleteTimer p) { s with timers := Timer.deleteTimer s.timers p }

/-- A call that does not stop, as a step. -/
lemma TaskStep.of_performed {callback : TimerNode → Sched Resume → Except Stop (Sched Resume)}
    {s : TaskRun} (call : TaskCall) {sched : Sched Resume} {k : Option Resume}
    (hmay : s.MayCall call) (hpromise : Promised s.sched call)
    (h : Performed s.sched call.back .user call sched k) :
    TaskStep callback s (.call call) { s with sched := sched, pc := k.getD .user } :=
  .call hmay hpromise h.perform_eq

/-- From `init()` on; the semaphores of the callers start with any values. -/
def taskSystem : System TaskRun TaskOp where
  init s := ∃ value mem stack b, (boot value).taskInit mem stack = .ok s.sched ∧
    s.timers = timerInit b ∧ s.pc = .user
  step := TaskStep callLibrary

/-- The law of the roster between two operations. The locks of the library are free. -/
structure TaskInv (s : TaskRun) : Prop where
  timed : TimedLaw [] s.timers s.sched
  free : ∀ l ∈ libraryLocks, s.sched.LockFree l

section TaskInv

variable {s s' : TaskRun} {now : UInt32} {p : Addr} {timers : TimerState} {sched m : Sched Resume}
  {pc : Resume}

/-- The timers are left alone. -/
lemma TaskInv.untimed (h : TaskInv s)
    (hlaw : Roster.Law (some sched.currentTask) (wakes s.timers) sched.roster)
    (hfree : ∀ l ∈ libraryLocks, sched.LockFree l) :
    TaskInv { s with sched := sched, pc := pc } :=
  ⟨⟨hlaw, h.timed.linked, h.timed.oneShot⟩, hfree⟩

/-- When `run_timer` is done. -/
lemma TaskInv.called (h : TaskInv s)
    (hrun : runTimer callLibrary now s.timers s.sched.tickBegun = .ok (timers, m)) :
    TimedLaw [] timers m ∧ (∀ l ∈ libraryLocks, m.LockFree l) ∧
      Ticked (wakes s.timers) s.sched.tickBegun m ∧ timers.heap ⊆ s.timers.heap := by
  have hfree : s.sched.tickBegun.LockFree .timer := h.free .timer (by decide)
  obtain ⟨hlaw, hticked, hsub⟩ := h.timed.tickBegun.runLibrary hfree hrun
  exact ⟨hlaw, fun l hl => hticked.locks.free hl (h.free l hl), hticked, hsub⟩

/-- A tick: the calls, and what the handler does after them. -/
lemma TaskInv.tick (h : TaskInv s)
    (hmalloc : ∀ timers1 m, runTimer callLibrary now s.timers s.sched.tickBegun =
      .ok (timers1, m) → p ∉ timers1.heap)
    (hrun : interruptTimerHandler callLibrary now (some p) s.timers s.sched s.pc =
      .ok (timers, sched, pc)) :
    ∃ timers1 m, runTimer callLibrary now s.timers s.sched.tickBegun = .ok (timers1, m) ∧
      Handled (some p) timers1 m s.pc timers sched pc ∧ p ∉ timers1.heap ∧
      TaskInv ⟨timers, sched, pc⟩ := by
  obtain ⟨timers1, m, hrt, hdone⟩ := interruptTimerHandler_ok hrun
  obtain ⟨hlaw, hlocks, -, -⟩ := h.called hrt
  have hp := hmalloc timers1 m hrt
  obtain ⟨hlaw', hframe⟩ := hlaw.handled (hlocks .timer (by decide)) hp hdone
  exact ⟨timers1, m, hrt, hdone, hp, hlaw', free_of_frame hlocks hframe⟩

theorem TaskInv.step {op : TaskOp} (h : TaskInv s) (hst : TaskStep callLibrary s op s') :
    TaskInv s' := by
  cases hst with
  | call hmay hpromise hcall =>
    obtain ⟨hlaw, hfree⟩ := (performed hcall).law h.timed.law h.free hpromise
    exact h.untimed hlaw hfree
  | tick hmalloc hrun =>
    obtain ⟨_, _, -, -, -, h'⟩ := h.tick hmalloc hrun
    exact h'
  | createTimer hin hp => exact ⟨h.timed.createTimer hp .., h.free⟩
  | deleteTimer hin hp hf => exact ⟨h.timed.deleteTimer hf, h.free⟩

end TaskInv

lemma TaskInv.init {s : TaskRun} (hs : taskSystem.init s) : TaskInv s := by
  obtain ⟨value, mem, stack, b, hinit, htimers, -⟩ := hs
  obtain ⟨htimed, hfree, -⟩ := timedLaw_init b hinit
  exact ⟨htimers ▸ htimed, hfree⟩

theorem taskInv_of_reachable {s : TaskRun} (hs : taskSystem.Reachable s) : TaskInv s :=
  hs.invariant (fun _ => TaskInv.init) fun _ _ _ h _ hst => h.step hst

/-- The places of a task that has not exited. -/
inductive Place
  | running
  | ready
  | blocked
  | asleep
  deriving DecidableEq, Repr

namespace TaskRun

def At (s : TaskRun) (t : TaskAddr) : Place → Prop
  | .running => s.sched.currentTask = t
  | .ready => t ∈ s.sched.taskReadyList
  | .blocked => (s.sched.task t).status.Suspended
  | .asleep => ∃ p ∈ s.timers.heap, IsWake t (s.timers.node p)

lemma at_asleep (s : TaskRun) (t : TaskAddr) : s.At t .asleep ↔ 0 < wakes s.timers t := by
  rw [wakes, Finset.card_pos]
  simp only [At, Finset.Nonempty, Finset.mem_filter]

end TaskRun

/-- One token means one place. -/
lemma TaskInv.place {s : TaskRun} (h : TaskInv s) {t : TaskAddr} (hall : t ∈ s.sched.taskAllList) :
    ∃! p, s.At t p := by
  have hone := h.timed.law.place t
  rw [if_pos (show t ∈ s.sched.roster.all from hall)] at hone
  have hrun : s.At t .running ↔ some s.sched.currentTask = some t := Option.some_inj.symm
  have hready : s.At t .ready ↔ 0 < s.sched.roster.ready.count t := List.count_pos_iff.symm
  have hblocked : s.At t .blocked ↔ s.sched.roster.Blocked t := (and_iff_right hall).symm
  have hasleep := s.at_asleep t
  simp only [Roster.tokens] at hone
  by_cases hr : some s.sched.currentTask = some t <;> by_cases hb : s.sched.roster.Blocked t
  · simp only [hr, hb, if_true] at hone
    omega
  · simp only [hr, hb, if_true, if_false] at hone
    refine ⟨.running, hrun.mpr hr, ?_⟩
    intro p hp
    cases p with
    | running => rfl
    | ready => have := hready.mp hp; omega
    | blocked => exact absurd (hblocked.mp hp) hb
    | asleep => have := hasleep.mp hp; omega
  · simp only [hr, hb, if_true, if_false] at hone
    refine ⟨.blocked, hblocked.mpr hb, ?_⟩
    intro p hp
    cases p with
    | running => exact absurd (hrun.mp hp) hr
    | ready => have := hready.mp hp; omega
    | blocked => rfl
    | asleep => have := hasleep.mp hp; omega
  · simp only [hr, hb, if_false] at hone
    by_cases hw : wakes s.timers t = 0
    · refine ⟨.ready, hready.mpr (by omega), ?_⟩
      intro p hp
      cases p with
      | running => exact absurd (hrun.mp hp) hr
      | ready => rfl
      | blocked => exact absurd (hblocked.mp hp) hb
      | asleep => have := hasleep.mp hp; omega
    · refine ⟨.asleep, hasleep.mpr (by omega), ?_⟩
      intro p hp
      cases p with
      | running => exact absurd (hrun.mp hp) hr
      | ready => have := hready.mp hp; omega
      | blocked => exact absurd (hblocked.mp hp) hb
      | asleep => rfl

end Libtask.Conservation
