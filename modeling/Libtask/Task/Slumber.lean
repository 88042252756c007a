import Libtask.Task.RoundRobin
import Libtask.Timer.Rounds

/-!
# No task oversleeps

The runs of the scheduler with all timers, with a note of when each task gave up the
CPU for a sleep and of how long it asked for. The timers of such a run are those of a
run of the wheels, so that what is known of armed nodes is known of sleeping tasks.
-/
namespace Libtask.Conservation
open Transition Timer Sched

/-- `since` and `asked` are the value of `uJiffies` when a task last fell asleep and the
milliseconds that it had asked for. -/
structure ClockedRun where
  run : TaskRun
  since : TaskAddr → ℕ
  asked : TaskAddr → UInt32

namespace ClockedRun

/-- A timer that will wake `t` is pending. -/
def Asleep (s : ClockedRun) (t : TaskAddr) : Prop := 0 < wakes s.run.timers t

def tick (s : ClockedRun) : ℕ := s.run.timers.uJiffies.toNat

def note (s : ClockedRun) (run : TaskRun) : TaskOp → ClockedRun
  | .tick _ _ =>
    let sched := s.run.sched
    if sched.current.isCollaborativeSchedule = true then {
      run := run
      since := Function.update s.since sched.currentTask run.timers.uJiffies.toNat
      asked := Function.update s.asked sched.currentTask sched.current.sleepMillisecond }
    else { s with run := run }
  | _ => { s with run := run }

end ClockedRun

def clockedSystem : System ClockedRun TaskOp where
  init s := taskSystem.init s.run
  step s op s' := taskSystem.step s.run op s'.run ∧ s' = s.note s'.run op

/-- A wheel run with the timers of `s`, in which the sleeping tasks are armed nodes. -/
structure Follows (w : WheelRun) (s : ClockedRun) : Prop where
  reachable : wheelSystem.Reachable w
  timers : w.timers = s.run.timers
  tick : w.tick = s.tick
  armed : ∀ t, ∀ q ∈ s.run.timers.heap, IsWake t (s.run.timers.node q) →
    armingOf w.log q = some ⟨s.since t, (s.asked t).toNat, false⟩

structure ClockedInv (s : ClockedRun) : Prop where
  run : TaskInv s.run
  wheel : ∃ w, Follows w s

/-- The node of a sleeping task. -/
lemma exists_wake {timers : TimerState} {t : TaskAddr} (h : 0 < wakes timers t) :
    ∃ q ∈ timers.heap, IsWake t (timers.node q) := by
  obtain ⟨q, hq⟩ := Finset.card_pos.mp h
  exact ⟨q, Finset.mem_filter.mp hq⟩

lemma wakes_pos {timers : TimerState} {t : TaskAddr} {q : Addr} (hq : q ∈ timers.heap)
    (hwake : IsWake t (timers.node q)) : 0 < wakes timers t :=
  Finset.card_pos.mpr ⟨q, Finset.mem_filter.mpr ⟨hq, hwake⟩⟩

/-- A pending node is armed for a tick that has not been processed. -/
lemma Follows.ahead {w : WheelRun} {s : ClockedRun} (h : Follows w s) {t : TaskAddr}
    (ht : s.Asleep t) : s.since t ≤ s.tick ∧ s.tick ≤ s.since t + (s.asked t).toNat := by
  obtain ⟨q, hq, hwake⟩ := exists_wake ht
  have hinv := wheelInv_of_reachable h.reachable
  have ha := h.armed t q hq hwake
  have hocc : occupancy w.timers.arrListTimer q = 1 := by
    have hlinked := hinv.linked q
    rw [h.timers, if_pos hq] at hlinked
    rw [h.timers]
    simpa using hlinked
  obtain ⟨i, hi, -⟩ := existsUnique_of_occupancy_eq_one hocc
  obtain ⟨a, ha', hwait⟩ := hinv.waiting q i (List.count_pos_iff.mp (by omega))
  obtain rfl := Option.some.inj (ha.symm.trans ha')
  have hbegun := hwait.begun
  have hahead := hwait.ahead
  rw [h.tick] at hbegun hahead
  exact ⟨hbegun, hahead⟩

/-- An operation that moves no timer. -/
lemma Follows.moved {w : WheelRun} {s : ClockedRun} (h : Follows w s) {run : TaskRun}
    (htimers : run.timers = s.run.timers) : Follows w { s with run := run } where
  reachable := h.reachable
  timers := h.timers.trans htimers.symm
  tick := by
    rw [h.tick, ClockedRun.tick, ClockedRun.tick, htimers]
  armed t q := by
    show q ∈ run.timers.heap → IsWake t (run.timers.node q) → _
    rw [htimers]
    exact h.armed t q

/-- The tasks that sleep no more are on the ready list. -/
lemma awake_loopInv {κ : Type} (timers : TimerState) :
    LoopInv (κ := κ) callLibrary fun rest timers' s' => TimedLaw rest timers' s' ∧
      ∀ t, 0 < wakes timers t → 0 < wakes timers' t ∨ t ∈ s'.taskReadyList := by
  constructor
  case call =>
    rintro p rest timers1 s1 s2 ⟨hlaw, hwoken⟩ hcall
    refine ⟨(hlaw.callLibrary hcall).1, fun t ht => ?_⟩
    by_cases hfn : (timers1.node p).timerFn = .collaborativeScheduleHelper
    · obtain ⟨-, hfree, -, hwakes, hroster⟩ := hlaw.pending.wakeUp (tolerant_law _) hfn hcall
      have hready : s2.taskReadyList = s1.taskReadyList ++ [(timers1.node p).pParam] :=
        congrArg Roster.ready hroster
      rw [hfree, hwakes, hready]
      by_cases hu : t = (timers1.node p).pParam
      · exact .inr (List.mem_append_right _ (List.mem_singleton.mpr hu))
      · rw [Function.update_of_ne hu]
        exact (hwoken t ht).imp_right (List.mem_append_left _)
    · obtain ⟨pool, alloc, tag, rfl, -⟩ := callLibrary_ok hcall hfn
      rw [wakes_rearmOrFree hfn]
      exact hwoken t ht
  case cascade =>
    rintro timers1 s1 ⟨hlaw, hwoken⟩
    obtain ⟨hheap, hnode⟩ := cascadeTick_heap timers1
    refine ⟨hlaw.cascade, ?_⟩
    rw [wakes_congr (a := timers1) (b := listTimerReplaceInit (cascadeTick timers1) _) hheap hnode]
    exact hwoken
  case tick =>
    rintro timers1 s1 ⟨hlaw, hwoken⟩
    exact ⟨⟨hlaw.law, hlaw.linked, hlaw.oneShot⟩, hwoken⟩

/-- What a call of `run_timer` does to the sleepers and to the running task. -/
structure Rounds (now : UInt32) (w : WheelRun) (s m : Sched Resume) (timers : TimerState)
    (n : ℕ) : Prop where
  wheel : timers = (ticks w n).timers
  jiffies : timers.uJiffies.toNat = w.timers.uJiffies.toNat + n
  past : now.toNat < timers.uJiffies.toNat
  reading : n ≠ 0 → timers.uJiffies.toNat = now.toNat + 1
  timed : TimedLaw [] timers m
  free : m.LockFree .timer
  current : m.currentTask = s.currentTask
  flag : m.current.isCollaborativeSchedule = s.current.isCollaborativeSchedule
  asked : m.current.sleepMillisecond = s.current.sleepMillisecond
  woken : ∀ t, 0 < wakes w.timers t → 0 < wakes timers t ∨ t ∈ m.taskReadyList

theorem TaskInv.rounds {s : TaskRun} (h : TaskInv s) {w : WheelRun} (hw : w.timers = s.timers)
    {now : UInt32} {timers : TimerState} {m : Sched Resume}
    (hrun : runTimer callLibrary now s.timers s.sched.tickBegun = .ok (timers, m)) :
    ∃ n, Rounds now w s.sched m timers n := by
  have hfree : s.sched.tickBegun.LockFree .timer := h.free .timer (by decide)
  have hbegun := h.timed.tickBegun
  obtain ⟨htimed, hlocks, hticked, -⟩ := h.called hrun
  -- the running task has no wake-up
  have htask : m.current = s.sched.tickBegun.current := by
    rw [Sched.current, hticked.locks.current]
    exact hticked.task _ hbegun.law.cur_alone.2.2
  have hcurrent : s.sched.tickBegun.current = { s.sched.current with
      elapsedTicks := s.sched.current.elapsedTicks + 1 } := setTask_task_self ..
  rw [hcurrent] at htask
  obtain ⟨m', hloop, hrel⟩ := runTimer_released hfree hrun
  have hheld := hbegun.held hfree
  obtain ⟨-, hwoken⟩ := (awake_loopInv s.timers).loop ⟨hheld, fun t ht => .inl ht⟩ hloop
  have hself : Woken (s.sched.tickBegun.held .timer) (s.sched.tickBegun.held .timer) :=
    ⟨queued_of_eq rfl rfl rfl, ⟨rfl, fun _ _ => rfl, rfl⟩, rfl⟩
  have hkept := ((woken_loopInv (s.sched.tickBegun.held .timer)).loop ⟨hheld, hself⟩ hloop).2
  obtain ⟨hm, -, -⟩ := hrel hkept.locks
  rw [← hw] at hloop hwoken
  obtain ⟨n, htimers, hjiffies, hpast, hend⟩ :=
    runTimerLoop_ticks (keepsTimers_onSched callLibrary) hloop
  refine ⟨n, htimers, hjiffies, hpast, hend, htimed, ?_, ?_, ?_, ?_, ?_⟩
  · exact hlocks .timer (by decide)
  · exact hticked.locks.current
  · rw [htask]
  · rw [htask]
  · rw [hm]
    exact hwoken

section Tick

variable {w : WheelRun} {s : ClockedRun} {n : ℕ} {t : TaskAddr}

lemma isWake_ticks {q : Addr} :
    IsWake t ((ticks w n).timers.node q) ↔ IsWake t (w.timers.node q) := by
  obtain ⟨hfn, hparam⟩ := ticks_timerFn (q := q) w n
  unfold IsWake
  rw [hfn, hparam]

/-- The node of a sleeping task, among those of the wheels. -/
lemma Follows.node (h : Follows w s) (hs : TaskInv s.run) {q : Addr} (hq : q ∈ w.timers.heap)
    (hwake : IsWake t (w.timers.node q)) : (w.timers.node q).uPeriod = 0 ∧
      armingOf w.log q = some ⟨s.since t, (s.asked t).toNat, false⟩ := by
  rw [h.timers] at hq hwake ⊢
  exact ⟨hs.timed.oneShot q hq hwake.1, h.armed t q hq hwake⟩

/-- Who sleeps on sleeps as before. -/
lemma Follows.armed_ticks (h : Follows w s) (hs : TaskInv s.run) {q : Addr}
    (hq : q ∈ (ticks w n).timers.heap) (hwake : IsWake t ((ticks w n).timers.node q)) :
    armingOf (ticks w n).log q = some ⟨s.since t, (s.asked t).toNat, false⟩ := by
  have hold := ticks_heap w n hq
  obtain ⟨hperiod, ha⟩ := h.node hs hold (isWake_ticks.mp hwake)
  obtain ⟨hkeep, -⟩ := ticks_oneShot h.reachable hold hperiod ha (n := n)
  exact (hkeep hq).2

/-- Who sleeps no more was called at one of the ticks. -/
lemma Follows.answered (h : Follows w s) (hs : TaskInv s.run) (ht : 0 < wakes w.timers t)
    (hzero : wakes (ticks w n).timers t = 0) : ∃ u, w.tick ≤ u ∧ u < w.tick + n ∧
      Answers ⟨s.since t, (s.asked t).toNat, false⟩ u := by
  obtain ⟨q, hq, hwake⟩ := exists_wake ht
  obtain ⟨hperiod, ha⟩ := h.node hs hq hwake
  obtain ⟨-, hgone⟩ := ticks_oneShot h.reachable hq hperiod ha (n := n)
  refine hgone fun hstay => ?_
  have hpos := wakes_pos hstay (isWake_ticks.mpr hwake)
  omega

/-- The ticks alone. -/
lemma Follows.ticked (h : Follows w s) (hs : TaskInv s.run) {run : TaskRun}
    (htimers : run.timers = (ticks w n).timers)
    (hjiffies : run.timers.uJiffies.toNat = w.timers.uJiffies.toNat + n) :
    Follows (ticks w n) { s with run := run } := by
  constructor
  case reachable => exact ticks_reachable h.reachable n
  case timers => exact htimers.symm
  case tick =>
    rw [ticks_tick, h.tick, ClockedRun.tick, ClockedRun.tick, hjiffies, h.timers]
  case armed =>
    intro t q hq hwake
    change q ∈ run.timers.heap at hq
    change IsWake t (run.timers.node q) at hwake
    rw [htimers] at hq hwake
    exact h.armed_ticks hs hq hwake

/-- A new timer: if it is a wake-up, its task sleeps from now on. -/
lemma Follows.created (h : Follows w s) {p : Addr} (hp : p ∉ s.run.timers.heap) {fn : TimerFn}
    {pParam : ℕ} {due period : UInt32} {run : TaskRun} {since : TaskAddr → ℕ}
    {asked : TaskAddr → UInt32}
    (htimers : run.timers = (createTimer s.run.timers (some p) (some fn) pParam due period).1)
    (hself : fn = .collaborativeScheduleHelper → since pParam = s.tick ∧ asked pParam = due)
    (hother : ∀ t, s.Asleep t → since t = s.since t ∧ asked t = s.asked t) :
    Follows (applyOp w (.createTimer (some p) (some fn) pParam due period))
      ⟨run, since, asked⟩ := by
  have hpw : p ∉ w.timers.heap := by rwa [h.timers]
  constructor
  case reachable =>
    refine h.reachable.step (a := .createTimer (some p) (some fn) pParam due period) trivial
      ⟨?_, rfl⟩
    intro q hq
    obtain rfl := Option.some.inj hq
    exact hpw
  case timers =>
    show (createTimer w.timers (some p) (some fn) pParam due period).1 = run.timers
    rw [h.timers, htimers]
  case tick =>
    show w.tick = run.timers.uJiffies.toNat
    rw [h.tick, htimers]
    rfl
  case armed =>
    intro t q hq hwake
    change q ∈ run.timers.heap at hq
    change IsWake t (run.timers.node q) at hwake
    rw [htimers] at hq hwake
    change q ∈ insert p s.run.timers.heap at hq
    change IsWake t (Function.update s.run.timers.node p _ q) at hwake
    show armingOf (.created p w.tick due period :: w.log) q =
      some ⟨since t, (asked t).toNat, false⟩
    by_cases hqp : q = p
    · subst hqp
      rw [Function.update_self] at hwake
      obtain ⟨hfn, ht⟩ := hwake
      change pParam = t at ht
      subst ht
      obtain ⟨hsince, hasked⟩ := hself hfn
      rw [hsince, hasked, ← h.tick]
      exact armingOf_cons_self (e := .created q w.tick due period) w.log
    · rw [Function.update_of_ne hqp] at hwake
      have hold := Finset.mem_of_mem_insert_of_ne hq hqp
      obtain ⟨hsince, hasked⟩ := hother t (wakes_pos hold hwake)
      rw [hsince, hasked, armingOf_cons_of_ne w.log (by simpa [Event.pTmr] using Ne.symm hqp)]
      exact h.armed t q hold hwake

lemma Follows.deleted (h : Follows w s) {p : Addr} (hp : p ∈ s.run.timers.heap) {run : TaskRun}
    (htimers : run.timers = deleteTimer s.run.timers p) :
    Follows (applyOp w (.deleteTimer p)) { s with run := run } := by
  constructor
  case reachable =>
    refine h.reachable.step (a := .deleteTimer p) trivial ⟨?_, rfl⟩
    show p ∈ w.timers.heap
    rwa [h.timers]
  case timers =>
    show deleteTimer w.timers p = run.timers
    rw [h.timers, htimers]
  case tick =>
    show w.tick = run.timers.uJiffies.toNat
    rw [h.tick, htimers]
    rfl
  case armed =>
    intro t q hq hwake
    change q ∈ run.timers.heap at hq
    change IsWake t (run.timers.node q) at hwake
    rw [htimers] at hq hwake
    change q ∈ s.run.timers.heap.erase p at hq
    obtain ⟨hqp, hold⟩ := Finset.mem_erase.mp hq
    show armingOf (.deleted p :: w.log) q = _
    rw [armingOf_cons_of_ne w.log (by simpa [Event.pTmr] using Ne.symm hqp)]
    exact h.armed t q hold hwake

end Tick

/-- A call of the handler: the rounds of `run_timer`, then what the handler does. -/
structure Ticking (now : UInt32) (w : WheelRun) (s : ClockedRun) (p : Addr) (run : TaskRun)
    (n : ℕ) (timers : TimerState) (m : Sched Resume) : Prop where
  rounds : Rounds now w s.run.sched m timers n
  handled : Handled (some p) timers m s.run.pc run.timers run.sched run.pc
  fresh : p ∉ timers.heap

section Handled

variable {p : Addr} {timers timers' : TimerState} {s s' : Sched Resume} {frame k : Resume}

lemma handled_uJiffies (hfree : s.LockFree .timer)
    (h : Handled (some p) timers s frame timers' s' k) : timers'.uJiffies = timers.uJiffies := by
  cases h with
  | schedule => rfl
  | count => rfl
  | sleep hflag hcreate hsched =>
    rw [createTimerLocked_of_free hfree] at hcreate
    obtain ⟨rfl, -⟩ := Prod.mk.inj (Except.ok.inj hcreate)
    rfl

/-- No timer of a sleeping task is taken away. -/
lemma handled_wakes (hfree : s.LockFree .timer) (hp : p ∉ timers.heap)
    (hcur : wakes timers s.currentTask = 0) (h : Handled (some p) timers s frame timers' s' k) :
    wakes timers' = if s.current.isCollaborativeSchedule = true then
      Function.update (wakes timers) s.currentTask 1 else wakes timers := by
  cases h with
  | schedule hflag => simp [hflag]
  | count hflag => simp [hflag]
  | sleep hflag hcreate hsched =>
    rw [createTimerLocked_of_free hfree] at hcreate
    obtain ⟨rfl, -⟩ := Prod.mk.inj (Except.ok.inj hcreate)
    rw [if_pos hflag]
    exact wakes_createTimer hp s.currentTask s.current.sleepMillisecond hcur

/-- Who is ready is dispatched or stays ready. -/
lemma handled_ready {t : TaskAddr} (ht : t ∈ s.taskReadyList) (hfree : s.LockFree .timer)
    (h : Handled (some p) timers s frame timers' s' k) :
    t = s'.currentTask ∨ t ∈ s'.taskReadyList := by
  cases h with
  | schedule hflag hticks hsched =>
    obtain ⟨next, rest, hready, rfl⟩ := schedule_ok hsched
    have hmem : t ∈ s.requeued.taskReadyList := List.mem_append_left _ ht
    rw [hready] at hmem
    exact List.mem_cons.mp hmem
  | count => exact .inr ht
  | sleep hflag hcreate hsched =>
    rw [createTimerLocked_of_free hfree] at hcreate
    obtain ⟨rfl, rfl⟩ := Prod.mk.inj (Except.ok.inj hcreate)
    obtain ⟨next, rest, hready, rfl⟩ := collaborativeSchedule_ok hsched
    rw [hready] at ht
    exact List.mem_cons.mp ht

end Handled

lemma Follows.ticking {w : WheelRun} {s : ClockedRun} (h : Follows w s) (hs : TaskInv s.run)
    {now : UInt32} {p : Addr} {timers : TimerState} {sched : Sched Resume} {pc : Resume}
    (hmalloc : ∀ timers1 m, runTimer callLibrary now s.run.timers s.run.sched.tickBegun =
      .ok (timers1, m) → p ∉ timers1.heap)
    (hrun : interruptTimerHandler callLibrary now (some p) s.run.timers s.run.sched s.run.pc =
      .ok (timers, sched, pc)) :
    ∃ n timers1 m, Ticking now w s p ⟨timers, sched, pc⟩ n timers1 m := by
  obtain ⟨timers1, m, hrt, hdone, hp, -⟩ := hs.tick hmalloc hrun
  obtain ⟨n, hrounds⟩ := hs.rounds h.timers hrt
  exact ⟨n, timers1, m, hrounds, hdone, hp⟩

section Note

variable {s : ClockedRun} {run : TaskRun} {now : UInt32} {p : Addr}

lemma note_awake (hflag : s.run.sched.current.isCollaborativeSchedule = false) :
    s.note run (.tick now p) = { s with run := run } := by
  simp only [ClockedRun.note, hflag, Bool.false_eq_true, if_false]

lemma note_sleep (hflag : s.run.sched.current.isCollaborativeSchedule = true) :
    s.note run (.tick now p) = ⟨run,
      Function.update s.since s.run.sched.currentTask run.timers.uJiffies.toNat,
      Function.update s.asked s.run.sched.currentTask s.run.sched.current.sleepMillisecond⟩ := by
  simp only [ClockedRun.note, hflag, if_true]

end Note

/-- The wheels go on with the run over a call of the handler. -/
lemma Follows.tick_step {w : WheelRun} {s : ClockedRun} (h : Follows w s) (hs : TaskInv s.run)
    {now : UInt32} {p : Addr} {run : TaskRun} {n : ℕ} {timers : TimerState} {m : Sched Resume}
    (htick : Ticking now w s p run n timers m) :
    ∃ w', Follows w' (s.note run (.tick now p)) := by
  have hrounds := htick.rounds
  have hflag := hrounds.flag
  obtain ⟨timers', sched, pc⟩ := run
  cases htick.handled with
  | schedule hm =>
    rw [note_awake (hflag ▸ hm)]
    exact ⟨ticks w n, h.ticked hs hrounds.wheel hrounds.jiffies⟩
  | count hm =>
    rw [note_awake (hflag ▸ hm)]
    exact ⟨ticks w n, h.ticked hs hrounds.wheel hrounds.jiffies⟩
  | sleep hm hcreate hsched =>
    rw [createTimerLocked_of_free hrounds.free] at hcreate
    obtain ⟨rfl, rfl⟩ := Prod.mk.inj (Except.ok.inj hcreate)
    rw [note_sleep (hflag ▸ hm)]
    let awake : ClockedRun := { s with run := { s.run with timers := timers } }
    have hawake : Follows (ticks w n) awake := h.ticked hs hrounds.wheel hrounds.jiffies
    refine ⟨_, @Follows.created _ awake hawake p htick.fresh .collaborativeScheduleHelper
      m.currentTask m.current.sleepMillisecond 0 _ _ _ rfl ?_ ?_⟩
    · intro _
      rw [hrounds.current, hrounds.asked, Function.update_self, Function.update_self]
      exact ⟨rfl, rfl⟩
    · intro t ht
      have hne : t ≠ s.run.sched.currentTask := by
        rintro rfl
        have hzero := hrounds.timed.law.cur_alone.2.2
        rw [hrounds.current] at hzero
        change 0 < wakes timers s.run.sched.currentTask at ht
        omega
      rw [Function.update_of_ne hne, Function.update_of_ne hne]
      exact ⟨rfl, rfl⟩

theorem ClockedInv.step {s s' : ClockedRun} {op : TaskOp} (h : ClockedInv s)
    (hst : clockedSystem.step s op s') : ClockedInv s' := by
  obtain ⟨hslice, hs'⟩ := hst
  refine ⟨h.run.step hslice, ?_⟩
  obtain ⟨w, hw⟩ := h.wheel
  rw [hs']
  generalize s'.run = run at hslice
  cases hslice with
  | tick hmalloc hrun =>
    obtain ⟨n, timers1, m, htick⟩ := hw.ticking h.run hmalloc hrun
    exact hw.tick_step h.run htick
  | createTimer hin hp =>
    exact ⟨_, hw.created hp rfl (fun hfn => by cases hfn) fun _ _ => ⟨rfl, rfl⟩⟩
  | deleteTimer hin hp hf => exact ⟨_, hw.deleted hp rfl⟩
  | call => exact ⟨w, hw.moved rfl⟩

theorem clockedInv_of_reachable {s : ClockedRun} (hs : clockedSystem.Reachable s) :
    ClockedInv s := by
  refine hs.invariant ?_ fun _ _ _ h _ hst => h.step hst
  intro s ⟨value, mem, stack, b, hsched, htimers, hpc⟩
  refine ⟨taskInv_of_reachable (.init ⟨value, mem, stack, b, hsched, htimers, hpc⟩),
    wheelStart b, ?_⟩
  constructor
  case reachable => exact .init ⟨b, rfl⟩
  case timers => exact htimers.symm
  case tick =>
    rw [ClockedRun.tick, htimers]
    rfl
  case armed =>
    intro t q hq hwake
    rw [htimers] at hq hwake
    obtain rfl : q = 0 := by simpa [timerInit, createTimer, addTimer, listTimerInsertTail,
      emptyManager] using hq
    have hfn : ((timerInit b).node 0).timerFn = .cleanDeadTask := rfl
    rw [hwake.1] at hfn
    cases hfn

/-- The sleepers keep to their times. A task that asked for a sleep falls asleep at the next
tick and is neither running nor ready from then on. A tick at which its time is over finds
it awake; it wakes at a tick, and not before its time is over if the wheels resolve
that time. -/
structure InTime (s : ClockedRun) : Prop where
  apart : ∀ t, s.Asleep t → t ≠ s.run.sched.currentTask ∧ t ∉ s.run.sched.taskReadyList
  ahead : ∀ t, s.Asleep t → s.since t ≤ s.tick ∧ s.tick ≤ s.since t + (s.asked t).toNat
  keeps : ∀ op s', clockedSystem.step s op s' → ∀ t, s.Asleep t →
    s'.since t = s.since t ∧ s'.asked t = s.asked t
  falls : ∀ op s', clockedSystem.step s op s' → ∀ t, ¬ s.Asleep t →
    (s'.Asleep t ↔ (∃ now p, op = .tick now p) ∧ t = s.run.sched.currentTask ∧
      s.run.sched.current.isCollaborativeSchedule = true)
  asks : ∀ op s', clockedSystem.step s op s' → ∀ t, ¬ s.Asleep t → s'.Asleep t →
    s'.since t = s'.tick ∧ s'.asked t = s.run.sched.current.sleepMillisecond
  ends : ∀ now p s', clockedSystem.step s (.tick now p) s' → ∀ t, s.Asleep t →
    s.since t + (s.asked t).toNat ≤ now.toNat → ¬ s'.Asleep t
  wakes : ∀ op s', clockedSystem.step s op s' → ∀ t, s.Asleep t → ¬ s'.Asleep t →
    ∃ now p, op = .tick now p ∧
      (t = s'.run.sched.currentTask ∨ t ∈ s'.run.sched.taskReadyList) ∧
      (Arming.OnTime ⟨s.since t, (s.asked t).toNat, false⟩ →
        s.since t + (s.asked t).toNat ≤ now.toNat)

section InTime

variable {w : WheelRun} {s : ClockedRun} {now : UInt32} {p : Addr} {run : TaskRun} {n : ℕ}
  {timers : TimerState} {m : Sched Resume} {t : TaskAddr}

/-- Who sleeps after a tick. -/
lemma Ticking.wakes_eq (h : Ticking now w s p run n timers m) :
    wakes run.timers = if s.run.sched.current.isCollaborativeSchedule = true then
      Function.update (wakes timers) s.run.sched.currentTask 1
      else wakes timers := by
  have hrounds := h.rounds
  have hcur := hrounds.timed.law.cur_alone.2.2
  rw [handled_wakes hrounds.free h.fresh hcur h.handled, hrounds.flag, hrounds.current]

lemma Ticking.past (h : Ticking now w s p run n timers m) :
    now.toNat < run.timers.uJiffies.toNat := by
  rw [handled_uJiffies h.rounds.free h.handled]
  exact h.rounds.past

/-- Nobody falls asleep in the rounds. -/
lemma Ticking.sleeps (h : Ticking now w s p run n timers m) (ht : wakes w.timers t = 0) :
    wakes timers t = 0 := by
  by_contra hpos
  obtain ⟨q, hq, hwake⟩ := exists_wake (Nat.pos_of_ne_zero hpos)
  rw [h.rounds.wheel] at hq hwake
  have hold := wakes_pos (ticks_heap w n hq) (isWake_ticks.mp hwake)
  omega

/-- Who is woken at a tick. -/
lemma Ticking.woken (h : Ticking now w s p run n timers m) (hw : Follows w s)
    (hs : TaskInv s.run) (ht : s.Asleep t) (hup : wakes run.timers t = 0) :
    (t = run.sched.currentTask ∨ t ∈ run.sched.taskReadyList) ∧
      (Arming.OnTime ⟨s.since t, (s.asked t).toNat, false⟩ →
        s.since t + (s.asked t).toNat ≤ now.toNat) := by
  have hrounds := h.rounds
  have hzero : wakes timers t = 0 := by
    rw [h.wakes_eq] at hup
    split_ifs at hup with hflag
    · by_cases hcur : t = s.run.sched.currentTask
      · rw [hcur, Function.update_self] at hup
        cases hup
      · rwa [Function.update_of_ne hcur] at hup
    · exact hup
  have hbefore : 0 < wakes w.timers t := by
    rw [hw.timers]
    exact ht
  constructor
  · have hready := (hrounds.woken t hbefore).resolve_left (by omega)
    exact handled_ready hready hrounds.free h.handled
  · intro honTime
    have hgone := hzero
    rw [hrounds.wheel] at hgone
    obtain ⟨u, hle, hlt, hans⟩ := hw.answered hs hbefore hgone
    have hdue : u = s.since t + (s.asked t).toNat := hans.2.2.mpr honTime
    have hend := hrounds.reading (by omega)
    have hjiffies := hrounds.jiffies
    have htick := hw.tick
    rw [ClockedRun.tick, ← hw.timers] at htick
    omega

end InTime

/-- A step is a tick, or leaves the sleepers alone. -/
lemma ClockedInv.step_cases {s s' : ClockedRun} {op : TaskOp} (h : ClockedInv s)
    (hst : clockedSystem.step s op s') :
    (∃ now p w n timers m, op = .tick now p ∧ s' = s.note s'.run (.tick now p) ∧
      Follows w s ∧ Ticking now w s p s'.run n timers m) ∨
    ((∀ now p, op ≠ .tick now p) ∧ (∀ t, s'.Asleep t ↔ s.Asleep t) ∧
      s'.since = s.since ∧ s'.asked = s.asked) := by
  obtain ⟨hslice, hs'⟩ := hst
  have moved : ∀ run, s' = { s with run := run } → wakes run.timers = wakes s.run.timers →
      (∀ t, s'.Asleep t ↔ s.Asleep t) ∧ s'.since = s.since ∧ s'.asked = s.asked := by
    rintro run rfl hwakes
    refine ⟨fun t => ?_, rfl, rfl⟩
    unfold ClockedRun.Asleep
    rw [hwakes]
  generalize hrun : s'.run = run at hslice hs'
  cases hslice with
  | tick hmalloc hcall =>
    obtain ⟨w, hw⟩ := h.wheel
    obtain ⟨n, timers1, m, htick⟩ := hw.ticking h.run hmalloc hcall
    exact .inl ⟨_, _, w, n, timers1, m, rfl, hs', hw, htick⟩
  | createTimer hin hp => exact .inr ⟨by simp, moved _ hs' (wakes_createUser hp ..)⟩
  | deleteTimer hin hp hf => exact .inr ⟨by simp, moved _ hs' (wakes_deleteUser hf)⟩
  | call => exact .inr ⟨by simp, moved _ hs' rfl⟩

/-- What is noted at a tick: the running task falls asleep if it has asked for it. -/
lemma note_tick {s s' : ClockedRun} {now : UInt32} {p : Addr}
    (hs' : s' = s.note s'.run (.tick now p)) (t : TaskAddr) :
    if s.run.sched.current.isCollaborativeSchedule = true ∧ t = s.run.sched.currentTask then
      s'.since t = s'.tick ∧ s'.asked t = s.run.sched.current.sleepMillisecond
    else s'.since t = s.since t ∧ s'.asked t = s.asked t := by
  by_cases hflag : s.run.sched.current.isCollaborativeSchedule = true
  · rw [note_sleep hflag] at hs'
    have hsince := congrArg (fun x : ClockedRun => x.since t) hs'
    have hasked := congrArg (fun x : ClockedRun => x.asked t) hs'
    dsimp only at hsince hasked
    split_ifs with hcur
    · rw [hcur.2, Function.update_self] at hsince hasked
      rw [hcur.2]
      exact ⟨hsince, hasked⟩
    · have hne : t ≠ s.run.sched.currentTask := fun ht => hcur ⟨hflag, ht⟩
      rw [Function.update_of_ne hne] at hsince hasked
      exact ⟨hsince, hasked⟩
  · rw [note_awake (Bool.eq_false_iff.mpr hflag)] at hs'
    rw [if_neg fun hcur => hflag hcur.1]
    have hsince := congrArg (fun x : ClockedRun => x.since t) hs'
    have hasked := congrArg (fun x : ClockedRun => x.asked t) hs'
    exact ⟨hsince, hasked⟩

lemma ClockedInv.apart {s : ClockedRun} (h : ClockedInv s) {t : TaskAddr} (ht : s.Asleep t) :
    t ≠ s.run.sched.currentTask ∧ t ∉ s.run.sched.taskReadyList := by
  obtain ⟨hcur, hready, -, -⟩ := h.run.timed.law.wake_alone ht
  exact ⟨fun he => hcur (congrArg some he.symm), hready⟩

lemma ClockedInv.keeps {s s' : ClockedRun} {op : TaskOp} (h : ClockedInv s)
    (hst : clockedSystem.step s op s') {t : TaskAddr} (ht : s.Asleep t) :
    s'.since t = s.since t ∧ s'.asked t = s.asked t := by
  obtain ⟨now, p, w, n, timers, m, rfl, hs', -, -⟩ | ⟨-, -, hsince, hasked⟩ := h.step_cases hst
  · have hnote := note_tick hs' t
    rwa [if_neg fun hcur => (h.apart ht).1 hcur.2] at hnote
  · rw [hsince, hasked]
    exact ⟨rfl, rfl⟩

lemma ClockedInv.falls {s s' : ClockedRun} {op : TaskOp} (h : ClockedInv s)
    (hst : clockedSystem.step s op s') {t : TaskAddr} (ht : ¬ s.Asleep t) :
    s'.Asleep t ↔ (∃ now p, op = .tick now p) ∧ t = s.run.sched.currentTask ∧
      s.run.sched.current.isCollaborativeSchedule = true := by
  obtain ⟨now, p, w, n, timers, m, rfl, -, hw, htick⟩ | ⟨hop, hsame, -, -⟩ := h.step_cases hst
  · have hzero : wakes w.timers t = 0 := by
      rw [hw.timers]
      exact Nat.eq_zero_of_not_pos ht
    have hrest := htick.sleeps hzero
    have hafter := congrFun htick.wakes_eq t
    unfold ClockedRun.Asleep
    rw [hafter]
    by_cases hflag : s.run.sched.current.isCollaborativeSchedule = true
    · rw [if_pos hflag, Function.update_apply]
      by_cases hcur : t = s.run.sched.currentTask
      · simp [hflag, hcur]
      · simp [hcur, hrest]
    · simp [hflag, hrest]
  · rw [hsame t]
    refine iff_of_false ht ?_
    rintro ⟨⟨now, p, rfl⟩, -⟩
    exact hop now p rfl

/-- The sleepers of every run keep to their times. -/
theorem inTime {s : ClockedRun} (hs : clockedSystem.Reachable s) : InTime s := by
  have h := clockedInv_of_reachable hs
  obtain ⟨w, hw⟩ := h.wheel
  constructor
  case apart => exact fun t => h.apart
  case ahead => exact fun t => hw.ahead
  case keeps => exact fun op s' hst t => h.keeps hst
  case falls => exact fun op s' hst t => h.falls hst
  case asks =>
    intro op s' hst t ht ht'
    obtain ⟨⟨now, p, rfl⟩, hcur, hflag⟩ := (h.falls hst ht).mp ht'
    have hnote := note_tick hst.2 t
    rwa [if_pos ⟨hflag, hcur⟩] at hnote
  case ends =>
    intro now p s' hst t ht hover ht'
    obtain ⟨hsince, hasked⟩ := h.keeps hst ht
    obtain ⟨w', hw'⟩ := (h.step hst).wheel
    obtain ⟨-, hahead⟩ := hw'.ahead ht'
    rw [hsince, hasked] at hahead
    obtain ⟨now', p', v, n, timers, m, hop, -, -, htick⟩ | ⟨hop, -⟩ := h.step_cases hst
    · cases hop
      have hpast := htick.past
      have hnow : s'.tick = s'.run.timers.uJiffies.toNat := rfl
      omega
    · exact absurd rfl (hop now p)
  case wakes =>
    intro op s' hst t ht ht'
    obtain ⟨now, p, v, n, timers, m, rfl, -, hv, htick⟩ | ⟨-, hsame, -⟩ := h.step_cases hst
    · exact ⟨now, p, rfl, htick.woken hv h.run ht (Nat.eq_zero_of_not_pos ht')⟩
    · exact absurd ((hsame t).mpr ht) ht'

/-- The main task starts another one and falls asleep at the next tick. -/
theorem exists_sleeper : ∃ s, clockedSystem.Reachable s ∧ s.Asleep 1 ∧ s.since 1 = 1 ∧
    s.asked 1 = 5000 := by
  obtain ⟨b0, b, hinit, hstart, -, -⟩ := exists_mainStarts Resume.user
  let s0 : ClockedRun := ⟨⟨timerInit 1, mainSched b0, .user⟩, fun _ => 0, fun _ => 0⟩
  let s1 : ClockedRun := { s0 with run := ⟨timerInit 1, pairSched .user b, .user⟩ }
  let s2 : ClockedRun := { s0 with
    run := ⟨timerInit 1, (pairSched .user b).coEnableHookSys, .user⟩ }
  let sched := (pairSched Resume.user b).coEnableHookSys.requestSleep 5000
  let s3 : ClockedRun := { s0 with run := ⟨timerInit 1, sched, .user⟩ }
  have h0 : clockedSystem.Reachable s0 := .init ⟨fun _ => 0, 1, 2, 1, hinit, rfl, rfl⟩
  have h1 : clockedSystem.Reachable s1 := h0.step trivial (a := .call (.taskStart 3 4 [] 3))
    ⟨.of_performed (.taskStart 3 4 [] 3) (.inl ⟨rfl, rfl⟩)
      (by simp [Promised, s0, mainSched]) (.taskStart hstart), rfl⟩
  have h2 : clockedSystem.Reachable s2 := h1.step trivial (a := .call .coEnableHookSys)
    ⟨.of_performed .coEnableHookSys (.inl ⟨rfl, rfl⟩) trivial .coEnableHookSys, rfl⟩
  have h3 : clockedSystem.Reachable s3 := h2.step trivial (a := .call (.sleep 5000))
    ⟨.of_performed (.sleep 5000) (.inl ⟨rfl, rfl⟩)
      (show s2.run.sched.current.isHook = true from rfl) .sleep, rfl⟩
  -- no timer is due at this tick
  have hnow : ¬ timeAfterEq 0 (timerInit 1).uJiffies := by decide
  have hmalloc : ∀ timers1 m, runTimer callLibrary 0 (timerInit 1) sched.tickBegun =
      .ok (timers1, m) → (1 : Addr) ∉ timers1.heap :=
    fun _ _ => fresh_of_idle ⟨rfl, rfl⟩ hnow (by decide)
  have hready : sched.tickBegun.taskReadyList = 3 :: [] := rfl
  have hmagic : sched.current.stackMagic = TaskStruct.magic := rfl
  let asleep := (createTimer (timerInit 1) (some 1) (some .collaborativeScheduleHelper) 1 5000 0).1
  let r := ({ sched.tickBegun with taskReadyList := [], taskTag := 3 }.setStatus 3
    .running).switchTo 3 Resume.user
  have hrun : interruptTimerHandler callLibrary 0 (some 1) (timerInit 1) sched .user =
      .ok (asleep, r.1, r.2) := by
    rw [interruptTimerHandler_sleep hmagic ⟨rfl, rfl⟩ hnow rfl,
      collaborativeSchedule_of_ready hready]
    rfl
  let s4 : ClockedRun := ⟨⟨asleep, r.1, r.2⟩, Function.update s3.since 1 1,
    Function.update s3.asked 1 5000⟩
  have h4 : clockedSystem.Reachable s4 := h3.step trivial (a := .tick 0 1)
    ⟨.tick hmalloc hrun, (note_sleep (s := s3) rfl).symm⟩
  exact ⟨s4, h4, Nat.one_pos, rfl, rfl⟩

theorem inTime_sleeper : ∃ s, clockedSystem.Reachable s ∧ s.Asleep 1 ∧ InTime s := by
  obtain ⟨s, hs, hasleep, -⟩ := exists_sleeper
  exact ⟨s, hs, hasleep, inTime hs⟩

end Libtask.Conservation
