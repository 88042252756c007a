import Libtask.Task.Conservation
import Libtask.Timer.Rounds

/-!
# Every task in one place

Runs in which only wake-ups are due. They record which tasks were started and which have
exited, so that the lists of the scheduler can be compared with the record.
-/
namespace Libtask.Conservation
open Transition Timer Sched

section WakeUp

variable {κ : Type} {call call' : TimerNode → Sched κ → Except Stop (Sched κ)} {now : UInt32}
  {timers : TimerState} {s : Sched κ}

/-- At the ticks of these runs only wake-ups are due. -/
def callWakeUp (n : TimerNode) (s : Sched κ) : Except Stop (Sched κ) :=
  if n.timerFn = .collaborativeScheduleHelper then callTimer n s else .error .foreign

lemma callLibrary_of_wakeUp {n : TimerNode} {s s' : Sched κ} (h : callWakeUp n s = .ok s') :
    callLibrary n s = .ok s' := by
  by_cases hfn : n.timerFn = .collaborativeScheduleHelper
  · rw [callWakeUp, if_pos hfn] at h
    rw [callLibrary, ← h, hfn]
  · rw [callWakeUp, if_neg hfn] at h
    cases h

lemma callWakeUp_kept {n : TimerNode} {s s' : Sched κ} (h : callWakeUp n s = .ok s') :
    Kept s s' := by
  by_cases hfn : n.timerFn = .collaborativeScheduleHelper
  · rw [callWakeUp, if_pos hfn, callTimer, hfn] at h
    exact (collaborativeScheduleHelper_ok h).1
  · rw [callWakeUp, if_neg hfn] at h
    cases h

/-- A callback that returns whenever another one does, with the same result. -/
lemma twinInv_mono (hle : ∀ n s s', call n s = .ok s' → call' n s = .ok s') :
    TwinInv (onSched call) (onSched call') fun _ _ r r' => ∀ s, r = .ok s → r' = .ok s where
  keeps := keepsTimers_onSched call
  keeps' := keepsTimers_onSched call'
  call p rest timers r r' h s hs := by
    cases r with
    | error e => cases hs
    | ok m =>
      obtain rfl := h m rfl
      exact hle _ _ _ hs
  cascade _ _ _ h := h
  tick _ _ _ h := h

lemma runTimer_mono (hle : ∀ n s s', call n s = .ok s' → call' n s = .ok s')
    {r : TimerState × Sched κ} (h : runTimer call now timers s = .ok r) :
    runTimer call' now timers s = .ok r := by
  rw [runTimer, bind_eq_ok] at h ⊢
  obtain ⟨m, hacq, h⟩ := h
  refine ⟨m, hacq, ?_⟩
  have hstart : ∀ v, (Except.ok m : Except Stop (Sched κ)) = .ok v →
      (Except.ok m : Except Stop (Sched κ)) = .ok v := fun _ => id
  have hloop := (twinInv_mono hle).loop now (2 ^ 32) timers hstart
  generalize runTimerLoop (onSched call) now (2 ^ 32) (timers, .ok m) = a at hloop h
  generalize runTimerLoop (onSched call') now (2 ^ 32) (timers, .ok m) = b at hloop
  cases hloop with
  | none => cases h
  | @some a b hab =>
    obtain ⟨timers1, r1⟩ := a
    obtain ⟨timers2, r2⟩ := b
    obtain ⟨rfl, hsame⟩ := hab
    obtain ⟨v, hv, hrel⟩ := bind_eq_ok.mp h
    exact bind_eq_ok.mpr ⟨v, hsame v hv, hrel⟩

lemma interruptTimerHandler_mono (hle : ∀ n s s', call n s = .ok s' → call' n s = .ok s')
    {malloc : Option Addr} {frame : κ} {r : TimerState × Sched κ × κ}
    (h : interruptTimerHandler call now malloc timers s frame = .ok r) :
    interruptTimerHandler call' now malloc timers s frame = .ok r := by
  rw [interruptTimerHandler, bind_eq_ok] at h ⊢
  obtain ⟨u, hmagic, h⟩ := h
  obtain ⟨m, hrun, h⟩ := bind_eq_ok.mp h
  exact ⟨u, hmagic, bind_eq_ok.mpr ⟨m, runTimer_mono hle hrun, h⟩⟩

/-- No task is born or dies in `run_timer` when only wake-ups are due. -/
lemma runTimer_kept {timers' : TimerState} {s' : Sched κ} (hfree : s.LockFree .timer)
    (hrun : runTimer callWakeUp now timers s = .ok (timers', s')) : Kept s s' := by
  have hinv : LoopInv callWakeUp fun _ _ m => Kept (s.held .timer) m := by
    constructor
    case call => exact fun _ _ _ _ _ h hcall => h.trans (callWakeUp_kept hcall)
    case cascade => exact fun _ _ h => h
    case tick => exact fun _ _ h => h
  obtain ⟨m, hloop, hrel⟩ := runTimer_released hfree hrun
  have hm := hinv.loop (show Kept (s.held .timer) (s.held .timer) from ⟨.refl _, rfl⟩) hloop
  obtain ⟨rfl, -, hlocks⟩ := hrel hm.locks
  exact ⟨⟨hlocks.lock, hlocks.sema, hm.1.alloc, hm.1.main, hm.1.all, hm.1.pool⟩, hlocks.current⟩

end WakeUp

/-- The last two fields record which tasks were started and which have exited. -/
structure SchedRun extends TaskRun where
  started : Finset TaskAddr
  exited : Finset TaskAddr

namespace SchedRun

def Live (s : SchedRun) (t : TaskAddr) : Prop := t ∈ s.started ∧ t ∉ s.exited

/-- The blocks of `malloc` are new, and a task that is unblocked is live. -/
def Fresh (s : SchedRun) : TaskOp → Prop
  | .call (.taskStart mem stack _ _) =>
    mem ∉ s.sched.alloc ∧ stack ∉ s.sched.alloc ∧ stack ≠ mem
  | .call (.taskUnblock ptask) => s.Live ptask
  | _ => True

/-- What an operation adds to the record. -/
def noted (s : SchedRun) (op : TaskOp) (s' : TaskRun) : SchedRun :=
  match op with
  | .call (.taskStart mem _ _ _) =>
    { s' with started := insert (s.sched.taskPoolList.headD mem) s.started, exited := s.exited }
  | .call .taskExit =>
    { s' with started := s.started, exited := insert s.sched.currentTask s.exited }
  | _ => { s' with started := s.started, exited := s.exited }

end SchedRun

/-- The runs in which only wake-ups are due. -/
def schedSystem : System SchedRun TaskOp where
  init s := taskSystem.init s.toTaskRun ∧ s.started = {s.sched.mainTask} ∧ s.exited = ∅
  step s op s' := s.Fresh op ∧ TaskStep callWakeUp s.toTaskRun op s'.toTaskRun ∧
    s' = s.noted op s'.toTaskRun

/-- They are among the runs with all timers. -/
lemma TaskStep.library {s s' : TaskRun} {op : TaskOp} (h : TaskStep callWakeUp s op s') :
    TaskStep callLibrary s op s' := by
  cases h with
  | call hmay hpromise h => exact .call hmay hpromise h
  | tick hmalloc h =>
    refine .tick ?_ (interruptTimerHandler_mono (fun _ _ _ => callLibrary_of_wakeUp) h)
    obtain ⟨timers1, m, hrun, -⟩ := interruptTimerHandler_ok h
    intro timers2 m2 hrun'
    rw [runTimer_mono (fun _ _ _ => callLibrary_of_wakeUp) hrun] at hrun'
    obtain ⟨rfl, rfl⟩ := Prod.mk.inj (Except.ok.inj hrun')
    exact hmalloc timers1 m hrun
  | createTimer hin hmalloc => exact .createTimer hin hmalloc
  | deleteTimer hin hp hf => exact .deleteTimer hin hp hf

lemma toTaskRun_reachable {s : SchedRun} (hs : schedSystem.Reachable s) :
    taskSystem.Reachable s.toTaskRun := by
  induction hs with
  | init h => exact .init h.1
  | step _ _ hst ih => exact ih.step trivial hst.2.1.library

/-- What the record says, between two operations. -/
structure RunInv (s : SchedRun) : Prop where
  live : ∀ t, t ∈ s.sched.taskAllList ↔ s.Live t
  pool : ∀ t, t ∈ s.sched.taskPoolList ↔ t ∈ s.exited ∧ t ≠ s.sched.mainTask
  exited : s.exited ⊆ s.started
  started : s.started ⊆ s.sched.alloc

section RunInv

variable {s : SchedRun} {s' : TaskRun}

/-- Operations under which no task is born and none dies. -/
lemma RunInv.moved (h : RunInv s) (hf : Frame s.sched s'.sched) :
    RunInv { s' with started := s.started, exited := s.exited } := by
  constructor
  case live =>
    intro t
    rw [hf.all]
    exact h.live t
  case pool =>
    intro t
    rw [hf.pool, hf.main]
    exact h.pool t
  case exited => exact h.exited
  case started =>
    rw [hf.alloc]
    exact h.started

theorem RunInv.taskStart (h : RunInv s) (hinv : TaskInv s.toTaskRun) {mem stack : ℕ}
    {name : List UInt8} {prio : Int32} {sched : Sched Resume} {task : TaskAddr}
    (hmem : mem ∉ s.sched.alloc) (hmain : mem ≠ s.sched.mainTask)
    (hstart : s.sched.taskStart mem stack name prio .user = .ok (sched, task)) :
    RunInv (s.noted (.call (.taskStart mem stack name prio)) { s.toTaskRun with
      sched := sched
      pc := .user }) := by
  have hexited : mem ∉ s.exited := fun hm => hmem (h.started (h.exited hm))
  have hall : mem ∉ s.sched.taskAllList := fun hm => hmem (h.started ((h.live mem).mp hm).1)
  have hhead : s.sched.taskPoolList.headD mem = mem := by
    rw [pool_nil hinv.timed.law hstart]
    rfl
  obtain ⟨rfl, ⟨b', tid, rfl⟩, -⟩ := law_taskStart hinv.timed.law
    (hinv.free .tid (by decide)) hall hmain hstart
  rw [SchedRun.noted, hhead]
  constructor
  case live =>
    intro t
    show t ∈ s.sched.taskAllList ++ [task] ↔ t ∈ insert task s.started ∧ t ∉ s.exited
    by_cases ht : t = task
    · subst ht
      simp [hexited]
    · simpa [ht, SchedRun.Live] using h.live t
  case pool => exact h.pool
  case exited => exact h.exited.trans (Finset.subset_insert _ _)
  case started =>
    intro t ht
    show t ∈ insert stack (insert task s.sched.alloc)
    rcases Finset.mem_insert.mp ht with rfl | ht
    · simp
    · simp [h.started ht]

theorem RunInv.taskExit (h : RunInv s) (hinv : TaskInv s.toTaskRun) {sched : Sched Resume}
    {pc : Resume} (hexit : s.sched.taskExit s.sched.currentTask = .ok (sched, pc)) :
    RunInv (s.noted (.call .taskExit) { s.toTaskRun with sched := sched, pc := pc }) := by
  obtain ⟨b', hd⟩ := taskExit_ok (hinv.free .tid (by decide)) hexit
  have hframe := (diedTaskSchedule_dispatched hd).frame
  have hcur := (h.live s.sched.currentTask).mp hinv.timed.law.cur_mem
  set m : Sched Resume := { s.sched.exitState s.sched.currentTask with tidBitmap := b' } with hm
  have hall : ∀ t, t ∈ m.taskAllList ↔ t ≠ s.sched.currentTask ∧ t ∈ s.sched.taskAllList :=
    fun t => hinv.timed.law.all_nodup.mem_erase_iff
  have hpool : ∀ t, t ∈ m.taskPoolList ↔ t ∈ s.sched.taskPoolList ∨
      t = s.sched.currentTask ∧ t ≠ s.sched.mainTask :=
    fun t => mem_pool_exitState s.sched.currentTask t
  constructor
  case live =>
    intro t
    show t ∈ sched.taskAllList ↔ t ∈ s.started ∧ t ∉ insert s.sched.currentTask s.exited
    rw [hframe.all, hall, h.live t, SchedRun.Live, Finset.mem_insert]
    tauto
  case pool =>
    intro t
    show t ∈ sched.taskPoolList ↔ t ∈ insert s.sched.currentTask s.exited ∧ t ≠ sched.mainTask
    rw [hframe.pool, hframe.main, hpool, h.pool t, Finset.mem_insert]
    show _ ↔ _ ∧ t ≠ s.sched.mainTask
    tauto
  case exited => exact Finset.insert_subset hcur.1 h.exited
  case started =>
    show s.started ⊆ sched.alloc
    rw [hframe.alloc]
    exact h.started

theorem RunInv.tick (h : RunInv s) (hinv : TaskInv s.toTaskRun) {now : UInt32} {p : Addr}
    {timers : TimerState} {sched : Sched Resume} {pc : Resume}
    (hmalloc : ∀ timers1 m, runTimer callWakeUp now s.timers s.sched.tickBegun =
      .ok (timers1, m) → p ∉ timers1.heap)
    (hrun : interruptTimerHandler callWakeUp now (some p) s.timers s.sched s.pc =
      .ok (timers, sched, pc)) :
    RunInv { toTaskRun := ⟨timers, sched, pc⟩, started := s.started, exited := s.exited } := by
  obtain ⟨timers1, m, hrt, hdone⟩ := interruptTimerHandler_ok hrun
  obtain ⟨hlaw, hfree, -, -⟩ := hinv.called (runTimer_mono (fun _ _ _ => callLibrary_of_wakeUp) hrt)
  obtain ⟨-, hframe⟩ := hlaw.handled (hfree .timer (by decide)) (hmalloc timers1 m hrt) hdone
  have hbegun : s.sched.tickBegun.LockFree .timer := hinv.free .timer (by decide)
  exact h.moved (((frame_setTask s.sched _ _).trans (runTimer_kept hbegun hrt).1).trans hframe)

theorem RunInv.step {op : TaskOp} (h : RunInv s) (hinv : TaskInv s.toTaskRun)
    (hfresh : s.Fresh op) (hst : TaskStep callWakeUp s.toTaskRun op s') :
    RunInv (s.noted op s') := by
  cases hst with
  | @call call sched k hmay hpromise hcall =>
    have hp := performed hcall
    have hframe := hp.frame hinv.timed.law hpromise
    cases hp with
    | taskStart hstart => exact h.taskStart hinv hfresh.1 hpromise.2 hstart
    | taskExit hexit => exact h.taskExit hinv hexit
    | _ => exact h.moved (hframe (by simp) (by simp))
  | tick hmalloc hrun => exact h.tick hinv hmalloc hrun
  | createTimer => exact h.moved (.refl _)
  | deleteTimer => exact h.moved (.refl _)

end RunInv

lemma RunInv.init {s : SchedRun} (hs : schedSystem.init s) : RunInv s := by
  obtain ⟨⟨value, mem, stack, b, hinit, -, -⟩, hstarted, hexited⟩ := hs
  obtain ⟨b', -, -, heq⟩ := taskInit_spec (κ := Resume) value mem stack
  have hsched := Except.ok.inj (hinit.symm.trans heq)
  constructor
  case live => simp [SchedRun.Live, hstarted, hexited, hsched]
  case pool => simp [hexited, hsched, boot]
  case exited => simp [hexited]
  case started => simp [hstarted, hsched]

theorem runInv_of_reachable {s : SchedRun} (hs : schedSystem.Reachable s) : RunInv s := by
  induction hs with
  | init h => exact .init h
  | @step s s' op hs _ hst ih =>
    obtain ⟨hfresh, hst, heq⟩ := hst
    rw [heq]
    exact ih.step (taskInv_of_reachable (toTaskRun_reachable hs)) hfresh hst

/-- No task is lost and none is in two places. -/
structure Conserved (s : SchedRun) : Prop where
  place : ∀ t, s.Live t → ∃! p, s.At t p
  running : s.Live s.sched.currentTask
  ready : s.sched.taskReadyList.Nodup ∧ ∀ t ∈ s.sched.taskReadyList, s.Live t
  waiters : ∀ i, (s.sched.sema i).waiters.Nodup ∧
    ∀ t ∈ (s.sched.sema i).waiters, s.Live t ∧ s.At t .blocked ∧
      ∀ j, t ∈ (s.sched.sema j).waiters → j = i
  /-- The timer that names a task is the only one that does; it is pending, in
  one slot, and is called once. -/
  asleep : ∀ t, ∀ p ∈ s.timers.heap, IsWake t (s.timers.node p) →
    s.Live t ∧ (s.timers.node p).uPeriod = 0 ∧ LinkedOnce s.timers p ∧
      ∀ q ∈ s.timers.heap, IsWake t (s.timers.node q) → q = p
  all : s.sched.taskAllList.Nodup ∧ ∀ t, t ∈ s.sched.taskAllList ↔ s.Live t
  nums : s.sched.taskAllNums = s.sched.taskAllList.length
  pool : s.sched.taskPoolList.Nodup ∧
    ∀ t, t ∈ s.sched.taskPoolList ↔ t ∈ s.exited ∧ t ≠ s.sched.mainTask
  pool_dead : ∀ t ∈ s.sched.taskPoolList, ¬ s.Live t

theorem conserved_of_reachable {s : SchedRun} (hs : schedSystem.Reachable s) : Conserved s := by
  have h := runInv_of_reachable hs
  have hinv := taskInv_of_reachable (toTaskRun_reachable hs)
  have hlaw := hinv.timed.law
  constructor
  case place => exact fun t ht => hinv.place ((h.live t).mpr ht)
  case running => exact (h.live _).mp hlaw.cur_mem
  case ready =>
    constructor
    · apply List.nodup_iff_count_le_one.mpr
      intro t
      have hle := hlaw.tokens_le t
      simp only [Roster.tokens] at hle
      show s.sched.roster.ready.count t ≤ 1
      omega
    · intro t ht
      exact (h.live t).mp (hlaw.ready_mem ht)
  case waiters =>
    intro i
    refine ⟨hlaw.waiters_nodup i, ?_⟩
    intro t ht
    obtain ⟨hall, hst⟩ := hlaw.waiting i t ht
    exact ⟨(h.live t).mp hall, hst, fun j hj => hlaw.waiters_once j i t hj ht⟩
  case asleep =>
    intro t p hp hwake
    have hpos : 0 < wakes s.timers t :=
      Finset.card_pos.mpr ⟨p, Finset.mem_filter.mpr ⟨hp, hwake⟩⟩
    obtain ⟨-, -, -, hone⟩ := hlaw.wake_alone hpos
    have hocc : occupancy s.timers.arrListTimer p = 1 := by simpa [hp] using hinv.timed.linked p
    refine ⟨(h.live t).mp (hlaw.wake_mem hpos), hinv.timed.oneShot p hp hwake.1,
      existsUnique_of_occupancy_eq_one hocc, ?_⟩
    intro q hq hwake'
    exact Finset.card_le_one.mp hone.le q (Finset.mem_filter.mpr ⟨hq, hwake'⟩) p
      (Finset.mem_filter.mpr ⟨hp, hwake⟩)
  case all => exact ⟨hlaw.all_nodup, h.live⟩
  case nums => exact hlaw.nums_eq
  case pool => exact ⟨hlaw.pool_nodup, h.pool⟩
  case pool_dead =>
    intro t ht hlive
    exact hlive.2 ((h.pool t).mp ht).1

lemma exists_pair : ∃ b : Bitmap,
    taskSystem.Reachable ⟨timerInit 1, pairSched .user b, .user⟩ := by
  obtain ⟨b0, b, hinit, hstart, -, -⟩ := exists_mainStarts Resume.user
  have h0 : taskSystem.Reachable ⟨timerInit 1, mainSched b0, .user⟩ :=
    .init ⟨fun _ => 0, 1, 2, 1, hinit, rfl, rfl⟩
  refine ⟨b, h0.step (a := .call (.taskStart 3 4 [] 3)) trivial ?_⟩
  exact .of_performed (.taskStart 3 4 [] 3) (.inl ⟨rfl, rfl⟩) (by simp [Promised, mainSched])
    (.taskStart hstart)

/-- The main task runs, and four tasks that it has started are ready. -/
def crewSched (btmp : Bitmap) : Sched Resume :=
  (((pairSched .user btmp).bornState 5 6 (bornTask 6 [] 3 .user 3) btmp).bornState 7 8
    (bornTask 8 [] 3 .user 4) btmp).bornState 9 10 (bornTask 10 [] 3 .user 5) btmp

lemma sched_call {s : SchedRun} (hs : schedSystem.Reachable s) (call : TaskCall)
    {sched : Sched Resume} {k : Option Resume} (hmay : s.MayCall call)
    (hpromise : Promised s.sched call) (hfresh : s.Fresh (.call call))
    (h : perform s.sched call.back .user call = .ok (sched, k)) :
    schedSystem.Reachable (s.noted (.call call) ⟨s.timers, sched, k.getD .user⟩) := by
  refine hs.step (a := .call call) trivial ⟨hfresh, ?_, ?_⟩
  · cases call <;> exact .call hmay hpromise h
  · cases call <;> rfl

/-- The running task starts another one; the first `n` tids are taken. -/
lemma sched_start {s : SchedRun} (hs : schedSystem.Reachable s) (hin : s.InTask) {n : ℕ}
    (hsize : s.sched.tidBitmap.size = 1000800)
    (hbit : ∀ i, s.sched.tidBitmap.bit i = decide (i < n)) (hn : n < 1000800)
    (hpool : s.sched.taskPoolList = []) {mem stack : ℕ} (hmain : mem ≠ s.sched.mainTask)
    (hmem : mem ∉ s.sched.alloc) (hstack : stack ∉ s.sched.alloc) (hne : stack ≠ mem) :
    ∃ b : Bitmap, b.size = 1000800 ∧ (∀ i, b.bit i = decide (i < n + 1)) ∧
      schedSystem.Reachable ⟨⟨s.timers, s.sched.bornState mem stack
        (bornTask stack [] 3 .user (s.sched.tidOf n)) b, .user⟩,
        insert mem s.started, s.exited⟩ := by
  have hinv := taskInv_of_reachable (toTaskRun_reachable hs)
  have h := runInv_of_reachable hs
  have hall : mem ∉ s.sched.taskAllList := fun hm => hmem (h.started ((h.live mem).mp hm).1)
  have hready : mem ∉ s.sched.taskReadyList := fun hm => hall (hinv.timed.law.ready_mem hm)
  obtain ⟨b, hsize', hbit', hstart⟩ := taskStart_next hsize hbit hn hpool hmain hready hall
    (hinv.free .tid (by decide)) stack Resume.user
  have hnext := sched_call hs (.taskStart mem stack [] 3) (.inl hin) ⟨hall, hmain⟩
    ⟨hmem, hstack, hne⟩ (Performed.taskStart hstart).perform_eq
  rw [SchedRun.noted, hpool] at hnext
  exact ⟨b, hsize', hbit', hnext⟩

lemma exists_crew : ∃ b : Bitmap, b.size = 1000800 ∧
    schedSystem.Reachable ⟨⟨timerInit 1, crewSched b, .user⟩, {9, 7, 5, 3, 1}, ∅⟩ := by
  obtain ⟨b0, b1, hinit, hstart, hsize1, hbit1⟩ := exists_mainStarts Resume.user
  have h0 : schedSystem.Reachable ⟨⟨timerInit 1, mainSched b0, .user⟩, {1}, ∅⟩ :=
    .init ⟨⟨fun _ => 0, 1, 2, 1, hinit, rfl, rfl⟩, rfl, rfl⟩
  have h1 := sched_call h0 (.taskStart 3 4 [] 3) (.inl ⟨rfl, rfl⟩) (by simp [Promised, mainSched])
    (by simp [SchedRun.Fresh, mainSched]) (Performed.taskStart hstart).perform_eq
  obtain ⟨b2, hsize2, hbit2, h2⟩ := sched_start h1 ⟨rfl, rfl⟩ hsize1 hbit1 (by decide) rfl
    (show (5 : ℕ) ≠ 1 by decide) (show 5 ∉ ({4, 3, 2, 1} : Finset ℕ) by decide)
    (show 6 ∉ ({4, 3, 2, 1} : Finset ℕ) by decide) (by decide)
  obtain ⟨b3, hsize3, hbit3, h3⟩ := sched_start h2 ⟨rfl, rfl⟩ hsize2 hbit2 (by decide) rfl
    (show (7 : ℕ) ≠ 1 by decide) (show 7 ∉ ({6, 5, 4, 3, 2, 1} : Finset ℕ) by decide)
    (show 8 ∉ ({6, 5, 4, 3, 2, 1} : Finset ℕ) by decide) (by decide)
  obtain ⟨b4, hsize4, -, h4⟩ := sched_start h3 ⟨rfl, rfl⟩ hsize3 hbit3 (by decide) rfl
    (show (9 : ℕ) ≠ 1 by decide) (show 9 ∉ ({8, 7, 6, 5, 4, 3, 2, 1} : Finset ℕ) by decide)
    (show 10 ∉ ({8, 7, 6, 5, 4, 3, 2, 1} : Finset ℕ) by decide) (by decide)
  exact ⟨b4, hsize4, h4⟩

/-- The main task waits for a semaphore. -/
def waitSched (btmp : Bitmap) : Sched Resume :=
  let s := crewSched btmp
  let s := (s.setSema (.user 0) fun p => { p with waiters := [1] }).setStatus 1 .blocked
  (({ s with taskReadyList := [5, 7, 9], taskTag := 3 }.setStatus 3 .running).switchTo 3
    (Resume.semaDown (.user 0))).1

/-- The main task waits, the second task has exited, the third runs and two are ready. -/
lemma exists_pooled : ∃ s, schedSystem.Reachable s ∧ s.At 1 .blocked ∧
    s.sched.taskPoolList = [3] ∧ s.At 5 .running ∧ s.sched.taskReadyList = [7, 9] ∧
    s.timers = timerInit 1 ∧ s.InTask ∧ s.sched.taskAllList = [1, 5, 7, 9] ∧
    s.sched.mainTask = 1 := by
  obtain ⟨b, hsize, h0⟩ := exists_crew
  have h1 : schedSystem.Reachable ⟨⟨timerInit 1, waitSched b, .user⟩, {9, 7, 5, 3, 1}, ∅⟩ :=
    sched_call h0 (.semaDown (.user 0)) (.inl ⟨rfl, rfl⟩) (by simp [Promised, Callers]) trivial rfl
  have hidx : ((waitSched b).bitIdxOf ((waitSched b).task 3).tid).toNat = 1 := by
    show ((2 : Int16).toInt32.toUInt32 - 1).toNat = 1
    decide
  have hsize' : (waitSched b).tidBitmap.size = 1000800 := hsize
  obtain ⟨b', -, hexit⟩ := taskExit_spec (s := waitSched b) 3 ⟨rfl, rfl⟩ (by omega)
  rw [diedTaskSchedule_eq] at hexit
  have h2 := sched_call h1 .taskExit (.inl ⟨rfl, rfl⟩) trivial trivial
    (Performed.taskExit hexit).perform_eq
  exact ⟨_, h2, .inl rfl, rfl, rfl, rfl, rfl, ⟨rfl, rfl⟩, rfl, rfl⟩

/-- The wake-up timer of the main task. -/
def napTimers : TimerState :=
  (Timer.createTimer (timerInit 1) (some 1) (some .collaborativeScheduleHelper) 1 1000 0).1

/-- The main task has asked for a sleep and was interrupted. -/
def napSched (btmp : Bitmap) : Sched Resume :=
  (({ ((crewSched btmp).coEnableHookSys.requestSleep 1000).tickBegun with
    taskReadyList := [5, 7, 9]
    taskTag := 3 }.setStatus 3 .running).switchTo 3 Resume.user).1

lemma exists_nap : ∃ b : Bitmap, b.size = 1000800 ∧
    schedSystem.Reachable ⟨⟨napTimers, napSched b, .user⟩, {9, 7, 5, 3, 1}, ∅⟩ := by
  obtain ⟨b, hsize, h0⟩ := exists_crew
  have h1 := sched_call h0 .coEnableHookSys (.inl ⟨rfl, rfl⟩) trivial trivial rfl
  have h2 : schedSystem.Reachable ⟨⟨timerInit 1, (crewSched b).coEnableHookSys.requestSleep 1000,
      .user⟩, {9, 7, 5, 3, 1}, ∅⟩ :=
    sched_call h1 (.sleep 1000) (.inl ⟨rfl, rfl⟩) rfl trivial rfl
  have hidle : ¬ timeAfterEq 0 (timerInit 1).uJiffies := by decide
  refine ⟨b, hsize, h2.step (a := .tick 0 1) trivial ⟨trivial, .tick ?_ ?_, rfl⟩⟩
  · exact fun _ _ => fresh_of_idle ⟨rfl, rfl⟩ hidle (show 1 ∉ (timerInit 1).heap by decide)
  · rw [interruptTimerHandler_sleep rfl ⟨rfl, rfl⟩ hidle rfl]
    rfl

/-- Then the task at block 3 waits for a semaphore. -/
def queuedSched (btmp : Bitmap) : Sched Resume :=
  let s := napSched btmp
  let s := (s.setSema (.user 0) fun p => { p with waiters := [3] }).setStatus 3 .blocked
  (({ s with taskReadyList := [7, 9], taskTag := 5 }.setStatus 5 .running).switchTo 5
    (Resume.semaDown (.user 0))).1

/-- The main task sleeps, the second task waits, the third has exited, the fourth runs and
the last is ready. -/
theorem conserved_spread : ∃ s : SchedRun, s.At 1 .asleep ∧ s.At 3 .blocked ∧
    s.sched.taskPoolList = [5] ∧ s.At 7 .running ∧ s.At 9 .ready ∧ Conserved s := by
  obtain ⟨b, hsize, h0⟩ := exists_nap
  have h1 : schedSystem.Reachable ⟨⟨napTimers, queuedSched b, .user⟩, {9, 7, 5, 3, 1}, ∅⟩ :=
    sched_call h0 (.semaDown (.user 0)) (.inl ⟨rfl, rfl⟩) (by simp [Promised, Callers])
      trivial rfl
  have hidx : ((queuedSched b).bitIdxOf ((queuedSched b).task 5).tid).toNat = 2 := by
    show ((3 : Int16).toInt32.toUInt32 - 1).toNat = 2
    decide
  have hsize' : (queuedSched b).tidBitmap.size = 1000800 := hsize
  obtain ⟨b', -, hexit⟩ := taskExit_spec (s := queuedSched b) 5 ⟨rfl, rfl⟩ (by omega)
  rw [diedTaskSchedule_eq] at hexit
  have h2 := sched_call h1 .taskExit (.inl ⟨rfl, rfl⟩) trivial trivial
    (Performed.taskExit hexit).perform_eq
  refine ⟨_, ?_, ?_, ?_, ?_, ?_, conserved_of_reachable h2⟩
  · show ∃ p ∈ napTimers.heap, IsWake 1 (napTimers.node p)
    decide
  · exact .inl rfl
  · rfl
  · rfl
  · exact List.mem_singleton_self 9

end Libtask.Conservation
