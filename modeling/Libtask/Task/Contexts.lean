import Libtask.Task.RoundRobin

/-!
# Contexts are never looked into

The functions of the scheduler save and load contexts and do nothing else with them.
Whatever stands in the place of the contexts, each function does the same.
-/
namespace Libtask

variable {κ η : Type}

/-- A sequence whose parts commute with two translations. -/
lemma bind_map {ε α β γ δ : Type} {x : Except ε α} {x' : Except ε β} {φ : α → β} {ψ : γ → δ}
    {g : α → Except ε γ} {g' : β → Except ε δ} (hx : x' = x.map φ)
    (h : ∀ a, g' (φ a) = (g a).map ψ) : (x' >>= g') = (x >>= g).map ψ := by
  subst hx
  cases x with
  | error e => rfl
  | ok a => exact h a

/-- A first part that is the same on both sides. -/
lemma bind_common {ε α γ δ : Type} {x : Except ε α} {ψ : γ → δ} {g : α → Except ε γ}
    {g' : α → Except ε δ} (h : ∀ a, g' a = (g a).map ψ) : (x >>= g') = (x >>= g).map ψ := by
  cases x with
  | error e => rfl
  | ok a => exact h a

/-- A test that comes out the same on both sides. -/
lemma ite_map {ε γ δ : Type} {c : Prop} [Decidable c] {ψ : γ → δ} {x y : Except ε γ}
    {x' y' : Except ε δ} (hx : c → x' = x.map ψ) (hy : ¬ c → y' = y.map ψ) :
    (if c then x' else y') = (if c then x else y).map ψ := by
  by_cases hc : c
  · rw [if_pos hc, if_pos hc]
    exact hx hc
  · rw [if_neg hc, if_neg hc]
    exact hy hc

def TaskStruct.mapContext (f : κ → η) (p : TaskStruct κ) : TaskStruct η :=
  { p with context := f p.context }

namespace Sched
open Timer

def mapContext (f : κ → η) (s : Sched κ) : Sched η :=
  { s with task := fun t => (s.task t).mapContext f }

/-- A state and a context. -/
def mapBoth (f : κ → η) (r : Sched κ × κ) : Sched η × η := (r.1.mapContext f, f r.2)

/-- A state and what does not depend on contexts. -/
def mapLeft {α : Type} (f : κ → η) (r : Sched κ × α) : Sched η × α := (r.1.mapContext f, r.2)

variable (f : κ → η) (s : Sched κ)

lemma setTask_mapContext (t : TaskAddr) {g : TaskStruct κ → TaskStruct κ}
    {g' : TaskStruct η → TaskStruct η} (h : ∀ p, g' (p.mapContext f) = (g p).mapContext f) :
    (s.mapContext f).setTask t g' = (s.setTask t g).mapContext f := by
  have htask : Function.update (s.mapContext f).task t (g' ((s.mapContext f).task t)) =
      fun u => (Function.update s.task t (g (s.task t)) u).mapContext f := by
    funext u
    by_cases hu : u = t
    · subst hu
      rw [Function.update_self, Function.update_self]
      exact h _
    · rw [Function.update_of_ne hu, Function.update_of_ne hu]
      rfl
  show ({ s.mapContext f with task := Function.update (s.mapContext f).task t _ } : Sched η) = _
  rw [htask]
  rfl

lemma setStatus_mapContext (t : TaskAddr) (status : TaskStatus) :
    (s.mapContext f).setStatus t status = (s.setStatus t status).mapContext f :=
  setTask_mapContext f s t fun _ => rfl

lemma popReady_mapContext : (s.mapContext f).popReady = s.popReady.map (mapLeft f) := by
  have hready : (s.mapContext f).taskReadyList = s.taskReadyList := rfl
  unfold popReady
  rw [hready]
  cases s.taskReadyList <;> rfl

lemma getNextTask_mapContext : (s.mapContext f).getNextTask = s.getNextTask.map (mapLeft f) := by
  unfold getNextTask
  refine bind_map (popReady_mapContext f s) fun r => ?_
  show Except.ok (((r.1.mapContext f).setStatus r.2 .running), r.2) = _
  rw [setStatus_mapContext]
  rfl

lemma switchTo_mapContext (next : TaskAddr) (frame : κ) :
    (s.mapContext f).switchTo next (f frame) = mapBoth f (s.switchTo next frame) := by
  have hsave : (s.mapContext f).setTask s.currentTask (fun p => { p with context := f frame }) =
      (s.setTask s.currentTask fun p => { p with context := frame }).mapContext f :=
    setTask_mapContext f s s.currentTask fun _ => rfl
  show ({ (s.mapContext f).setTask s.currentTask _ with currentTask := next },
    (((s.mapContext f).setTask s.currentTask _).task next).context) = _
  rw [hsave]
  rfl

/-- The tail of the functions that dispatch the head of the ready list. -/
lemma dispatch_mapContext (frame : κ) :
    ((s.mapContext f).getNextTask >>= fun r => pure (r.1.switchTo r.2 (f frame))) =
      (s.getNextTask >>= fun r => (pure (r.1.switchTo r.2 frame) : Except Stop _)).map
        (mapBoth f) := by
  refine bind_map (getNextTask_mapContext f s) fun r => ?_
  exact congrArg Except.ok (switchTo_mapContext f r.1 r.2 frame)

lemma collaborativeSchedule_mapContext (frame : κ) :
    (s.mapContext f).collaborativeSchedule (f frame) =
      (s.collaborativeSchedule frame).map (mapBoth f) := by
  unfold collaborativeSchedule
  refine ite_map (fun _ => rfl) fun _ => ?_
  exact dispatch_mapContext f s frame

lemma requeued_mapContext : (s.mapContext f).requeued = s.requeued.mapContext f :=
  setTask_mapContext f { s with taskReadyList := s.taskReadyList ++ [s.currentTask] } s.currentTask
    fun _ => rfl

lemma schedule_mapContext (frame : κ) :
    (s.mapContext f).schedule (f frame) = (s.schedule frame).map (mapBoth f) := by
  unfold schedule
  refine bind_common fun _ => ?_
  show (if (s.mapContext f).requeued.taskReadyList = [] then throw Stop.emptyReadyList else
    (s.mapContext f).requeued.getNextTask >>= fun r => pure (r.1.switchTo r.2 (f frame))) =
    (if s.requeued.taskReadyList = [] then throw Stop.emptyReadyList else
      s.requeued.getNextTask >>= fun r => (pure (r.1.switchTo r.2 frame) : Except Stop _)).map
        (mapBoth f)
  rw [requeued_mapContext]
  refine ite_map (fun _ => rfl) fun _ => ?_
  exact dispatch_mapContext f s.requeued frame

lemma diedTaskSchedule_mapContext :
    (s.mapContext f).diedTaskSchedule = s.diedTaskSchedule.map (mapBoth f) := by
  have hready : (s.mapContext f).taskReadyList = s.taskReadyList := rfl
  rw [diedTaskSchedule_eq, diedTaskSchedule_eq, hready]
  cases s.taskReadyList with
  | nil => rfl
  | cons next rest =>
    let s1 : Sched κ := { s with taskReadyList := rest, taskTag := next, currentTask := next }
    have hrun := setStatus_mapContext f s1 next .running
    exact congrArg (fun m => Except.ok (m, f (s.task next).context)) hrun

lemma blockTaskSchedule_mapContext (here : κ) :
    (s.mapContext f).blockTaskSchedule (f here) = (s.blockTaskSchedule here).map (mapBoth f) := by
  unfold blockTaskSchedule
  refine ite_map (fun _ => rfl) fun _ => bind_common fun _ => ?_
  refine bind_map (popReady_mapContext f s) fun r => ?_
  show Except.ok (((r.1.mapContext f).setStatus r.2 .running).switchTo r.2 (f here)) = _
  rw [setStatus_mapContext, switchTo_mapContext]
  rfl

lemma taskBlock_mapContext (status : TaskStatus) (here : κ) :
    (s.mapContext f).taskBlock status (f here) = (s.taskBlock status here).map (mapBoth f) := by
  unfold taskBlock
  refine bind_common fun _ => ?_
  show (((s.mapContext f).setStatus s.currentTask status).blockTaskSchedule (f here)) = _
  rw [setStatus_mapContext]
  exact blockTaskSchedule_mapContext f _ here

lemma taskUnblock_mapContext (t : TaskAddr) :
    (s.mapContext f).taskUnblock t = (s.taskUnblock t).map (mapContext f) := by
  have hunblock := setStatus_mapContext f { s with taskReadyList := t :: s.taskReadyList } t .ready
  unfold taskUnblock
  refine bind_common fun _ => ite_map (fun _ => bind_common fun _ => ?_) fun _ => rfl
  exact congrArg Except.ok hunblock

lemma semaTake_mapContext (i : SemaId) :
    (s.mapContext f).semaTake i = (s.semaTake i).map (mapContext f) := by
  unfold semaTake
  exact bind_common fun _ => rfl

/-- The flow that waits, if it has to. -/
def mapWait (f : κ → η) (r : Sched κ × Option κ) : Sched η × Option η :=
  (r.1.mapContext f, r.2.map f)

lemma semaDown_mapContext (i : SemaId) (here : κ) :
    (s.mapContext f).semaDown i (f here) = (s.semaDown i here).map (mapWait f) := by
  have hblock := taskBlock_mapContext f
    (s.setSema i fun p => { p with waiters := p.waiters ++ [s.currentTask] }) .blocked here
  unfold semaDown
  refine ite_map (fun _ => bind_common fun _ => ?_) fun _ => ?_
  · exact bind_map hblock fun r => rfl
  · exact bind_map (semaTake_mapContext f s i) fun r => rfl

lemma semaUp_mapContext (i : SemaId) :
    (s.mapContext f).semaUp i = (s.semaUp i).map (mapContext f) := by
  have hwake : (s.mapContext f).semaWake i = (s.semaWake i).map (mapContext f) := by
    have hwaiters : ((s.mapContext f).sema i).waiters = (s.sema i).waiters := rfl
    unfold semaWake
    rw [hwaiters]
    cases (s.sema i).waiters with
    | nil => rfl
    | cons t rest =>
      exact taskUnblock_mapContext f (s.setSema i fun p => { p with waiters := rest }) t
  rw [semaUp_eq, semaUp_eq]
  exact bind_common fun _ => bind_map hwake fun r => bind_common fun _ => rfl

lemma lockAcquire_mapContext (l : LockId) :
    (s.mapContext f).lockAcquire l = (s.lockAcquire l).map (mapContext f) := by
  unfold lockAcquire
  refine ite_map (fun _ => ?_) fun _ => rfl
  refine ite_map (fun _ => rfl) fun _ => ?_
  exact bind_map (semaTake_mapContext f s (.ofLock l)) fun r => bind_common fun _ => rfl

lemma lockRelease_mapContext (l : LockId) :
    (s.mapContext f).lockRelease l = (s.lockRelease l).map (mapContext f) := by
  unfold lockRelease
  refine bind_common fun _ => ite_map (fun _ => rfl) fun _ => bind_common fun _ => ?_
  exact semaUp_mapContext f (s.setLock l fun _ => ⟨none, 0⟩) (.ofLock l)

lemma allocateTid_mapContext :
    (s.mapContext f).allocateTid = s.allocateTid.map (mapLeft f) := by
  unfold allocateTid
  refine bind_map (lockAcquire_mapContext f s .tid) fun r => ?_
  refine bind_common fun bitIdx => bind_common fun btmp => ?_
  exact bind_map (lockRelease_mapContext f { r with tidBitmap := btmp } .tid) fun r => rfl

lemma releaseTid_mapContext (tid : Int16) :
    (s.mapContext f).releaseTid tid = (s.releaseTid tid).map (mapContext f) := by
  unfold releaseTid
  refine bind_map (lockAcquire_mapContext f s .tid) fun r => bind_common fun btmp => ?_
  exact lockRelease_mapContext f { r with tidBitmap := btmp } .tid

section Birth

variable [Inhabited κ]

/-- The state in which `init_task` calls `allocate_tid`. -/
def initNamed (s : Sched κ) (ptask : TaskAddr) (name : List UInt8) : Sched κ :=
  let s := (s.setTask ptask fun _ => TaskStruct.zero).setTask ptask fun p => { p with name := name }
  if ptask = s.mainTask
    then { s.setTask ptask (fun p => { p with status := .running, first := false }) with
      currentTask := ptask }
    else s.setTask ptask fun p => { p with status := .ready, first := true }

omit [Inhabited κ] in
/-- What `init_task` writes with the tid. -/
def initFilled (s : Sched κ) (ptask stack : ℕ) (prio : Int32) (tid : Int16) : Sched κ :=
  { s with alloc := insert stack s.alloc }.setTask ptask fun p => { p with
    tid := tid
    stackMinAddr := stack
    priority := prio.toUInt32.toUInt8
    ticks := prio.toUInt32.toUInt8
    elapsedTicks := 0
    stackMagic := TaskStruct.magic
    sleepMillisecond := 0
    isHook := false
    isCollaborativeSchedule := false }

lemma initTask_eq (ptask stack : ℕ) (name : List UInt8) (prio : Int32) :
    s.initTask ptask stack name prio =
      if 32 ≤ name.length then .error .outOfBounds
      else (s.initNamed ptask name).allocateTid >>= fun r =>
        .ok (r.1.initFilled ptask stack prio r.2) := by
  unfold initTask
  by_cases hname : 32 ≤ name.length
  · rw [if_pos hname, if_pos hname]
    rfl
  · rw [if_neg hname, if_neg hname]
    rfl

omit [Inhabited κ] in
/-- `task_start` up to the call of `init_task`. -/
def startBlock (s : Sched κ) (mem : ℕ) : Except Stop (Sched κ × TaskAddr) :=
  match s.taskPoolList with
  | [] => .ok ({ s with alloc := insert mem s.alloc }, mem)
  | task :: rest =>
    assert (TaskStatus.died ≠ (s.task task).status) >>= fun _ =>
      .ok ({ s with taskPoolList := rest, taskTag := task }, task)

omit [Inhabited κ] in
/-- `task_start` from `task_create` on. -/
def startLinked (s : Sched κ) (task : TaskAddr) (entry : κ) : Except Stop (Sched κ × TaskAddr) :=
  let s := s.taskCreate task entry
  assert (task ∉ s.taskReadyList) >>= fun _ => assert (task ∉ s.taskAllList) >>= fun _ =>
    .ok ({ s with
      taskReadyList := s.taskReadyList ++ [task]
      taskAllList := s.taskAllList ++ [task]
      taskAllNums := s.taskAllNums + 1 }, task)

lemma taskStart_parts (mem stack : ℕ) (name : List UInt8) (prio : Int32) (entry : κ) :
    s.taskStart mem stack name prio entry = s.startBlock mem >>= fun r =>
      r.1.initTask r.2 stack name prio >>= fun s => s.startLinked r.2 entry := by
  unfold taskStart startBlock
  cases s.taskPoolList with
  | nil => rfl
  | cons task rest =>
    dsimp only
    by_cases halive : TaskStatus.died ≠ (s.task task).status
    · rw [assert_of_true halive]
      rfl
    · rw [assert_of_false halive]
      rfl

variable [Inhabited η] {f} (hdefault : f default = default)
include hdefault

lemma initNamed_mapContext (ptask : TaskAddr) (name : List UInt8) :
    (s.mapContext f).initNamed ptask name = (s.initNamed ptask name).mapContext f := by
  have hzero :
      (TaskStruct.zero : TaskStruct η) = (TaskStruct.zero : TaskStruct κ).mapContext f := by
    unfold TaskStruct.zero TaskStruct.mapContext
    rw [hdefault]
  unfold initNamed
  rw [setTask_mapContext f s ptask (g := fun _ => TaskStruct.zero) fun _ => hzero,
    setTask_mapContext f _ ptask (g := fun p => { p with name := name }) fun _ => rfl]
  show (if ptask = s.mainTask then _ else _) = mapContext f (if ptask = s.mainTask then _ else _)
  by_cases hmain : ptask = s.mainTask
  · rw [if_pos hmain, if_pos hmain,
      setTask_mapContext f _ ptask (g := fun p => { p with status := .running, first := false })
        fun _ => rfl]
    rfl
  · rw [if_neg hmain, if_neg hmain]
    exact setTask_mapContext f _ ptask fun _ => rfl

lemma initTask_mapContext (ptask stack : ℕ) (name : List UInt8) (prio : Int32) :
    (s.mapContext f).initTask ptask stack name prio =
      (s.initTask ptask stack name prio).map (mapContext f) := by
  rw [initTask_eq, initTask_eq, initNamed_mapContext s hdefault]
  refine ite_map (fun _ => rfl) fun _ => ?_
  refine bind_map (allocateTid_mapContext f _) fun r => congrArg Except.ok ?_
  exact setTask_mapContext f { r.1 with alloc := insert stack r.1.alloc } ptask fun _ => rfl

theorem taskStart_mapContext (mem stack : ℕ) (name : List UInt8) (prio : Int32) (entry : κ) :
    (s.mapContext f).taskStart mem stack name prio (f entry) =
      (s.taskStart mem stack name prio entry).map (mapLeft f) := by
  have hblock : (s.mapContext f).startBlock mem = (s.startBlock mem).map (mapLeft f) := by
    have hpool : (s.mapContext f).taskPoolList = s.taskPoolList := rfl
    unfold startBlock
    rw [hpool]
    cases s.taskPoolList with
    | nil => rfl
    | cons task rest => exact bind_common fun _ => rfl
  rw [taskStart_parts, taskStart_parts]
  refine bind_map hblock fun r => ?_
  refine bind_map (initTask_mapContext r.1 hdefault r.2 stack name prio) fun m => ?_
  have hcreate :
      (m.mapContext f).taskCreate r.2 (f entry) = (m.taskCreate r.2 entry).mapContext f :=
    setTask_mapContext f m r.2 fun _ => rfl
  show startLinked (m.mapContext f) r.2 (f entry) = _
  unfold startLinked
  rw [hcreate]
  exact bind_common fun _ => bind_common fun _ => rfl

theorem taskInit_mapContext (mem stack : ℕ) :
    (s.mapContext f).taskInit mem stack = (s.taskInit mem stack).map (mapContext f) := by
  unfold taskInit
  let s1 : Sched κ := { s with
    taskReadyList := []
    taskAllList := []
    taskPoolList := []
    taskAllNums := 0 }.tidPoolInit
  have hinit := initTask_mapContext { s1 with alloc := insert mem s1.alloc, mainTask := mem }
    hdefault mem stack [109, 97, 105, 110] 3
  exact bind_map hinit fun r => bind_common fun _ => rfl

end Birth

lemma exitState_mapContext (t : TaskAddr) :
    (s.mapContext f).exitState t = (s.exitState t).mapContext f := by
  have hdied := setStatus_mapContext f s t .died
  exact congrArg (fun m : Sched η => { m with
    taskReadyList := s.taskReadyList.erase t
    taskAllList := s.taskAllList.erase t
    taskAllNums := s.taskAllNums - 1
    taskPoolList := s.taskPoolList ++ if t = s.mainTask then [] else [t] }) hdied

theorem taskExit_mapContext (t : TaskAddr) :
    (s.mapContext f).taskExit t = (s.taskExit t).map (mapBoth f) := by
  rw [taskExit_eq, taskExit_eq, exitState_mapContext]
  refine bind_map (releaseTid_mapContext f (s.exitState t) (s.task t).tid) fun r => ?_
  exact diedTaskSchedule_mapContext f r

lemma requestSleep_mapContext (millisecond : UInt32) :
    (s.mapContext f).requestSleep millisecond = (s.requestSleep millisecond).mapContext f :=
  setTask_mapContext f s s.currentTask fun _ => rfl

lemma coEnableHookSys_mapContext :
    (s.mapContext f).coEnableHookSys = s.coEnableHookSys.mapContext f :=
  setTask_mapContext f s s.currentTask fun _ => rfl

lemma tickBegun_mapContext : (s.mapContext f).tickBegun = s.tickBegun.mapContext f :=
  setTask_mapContext f s s.currentTask fun _ => rfl

lemma collaborativeScheduleHelper_mapContext (t : TaskAddr) :
    (s.mapContext f).collaborativeScheduleHelper t =
      (s.collaborativeScheduleHelper t).map (mapContext f) := by
  unfold collaborativeScheduleHelper
  refine bind_common fun _ => ?_
  exact congrArg Except.ok (setTask_mapContext f
    { s with taskReadyList := s.taskReadyList ++ [t] } t fun _ => rfl)

lemma cleanLoop_mapContext (fuel : ℕ) (cnt : ℤ) :
    cleanLoop fuel cnt (s.mapContext f) = (cleanLoop fuel cnt s).map (mapContext f) := by
  induction fuel generalizing cnt s with
  | zero => rfl
  | succ fuel ih =>
    have hpool : (s.mapContext f).taskPoolList = s.taskPoolList := rfl
    unfold cleanLoop
    rw [hpool]
    refine ite_map (fun _ => ?_) fun _ => rfl
    cases s.taskPoolList with
    | nil => rfl
    | cons t rest => exact ih ({ s with taskPoolList := rest, taskTag := t }.freeTask t) (cnt - 1)

lemma cleanDeadTask_mapContext :
    (s.mapContext f).cleanDeadTask = s.cleanDeadTask.map (mapContext f) := by
  unfold cleanDeadTask
  refine ite_map (fun _ => rfl) fun _ => ?_
  exact cleanLoop_mapContext f s _ _

lemma callLibrary_mapContext (n : TimerNode) :
    Conservation.callLibrary n (s.mapContext f) =
      (Conservation.callLibrary n s).map (mapContext f) := by
  unfold Conservation.callLibrary
  cases hfn : n.timerFn with
  | user => rfl
  | cleanDeadTask =>
    simp only [callTimer, hfn]
    exact cleanDeadTask_mapContext f s
  | collaborativeScheduleHelper =>
    simp only [callTimer, hfn]
    exact collaborativeScheduleHelper_mapContext f s n.pParam

/-- The timers and a state. -/
def mapRight {α : Type} (f : κ → η) (r : α × Sched κ) : α × Sched η := (r.1, r.2.mapContext f)

lemma createTimerLocked_mapContext (timers : TimerState) (malloc : Option Addr) (fn : TimerFn)
    (pParam : ℕ) (due period : UInt32) :
    createTimerLocked timers (s.mapContext f) malloc fn pParam due period =
      (createTimerLocked timers s malloc fn pParam due period).map (mapRight f) := by
  unfold createTimerLocked
  cases malloc with
  | none => rfl
  | some p =>
    refine bind_map (lockAcquire_mapContext f s .timer) fun m => ?_
    exact bind_map (lockRelease_mapContext f m .timer) fun m => rfl

section Loop

variable {call : TimerNode → Sched κ → Except Stop (Sched κ)}
  {call' : TimerNode → Sched η → Except Stop (Sched η)}
  (hcall : ∀ n s, call' n (mapContext f s) = (call n s).map (mapContext f))
include hcall

/-- What the walk over a slot carries along. -/
lemma expireWalk_mapContext (rest : List Addr) (timers : TimerState) (r : Except Stop (Sched κ)) :
    expireWalk (onSched call') rest (timers, r.map (mapContext f)) =
      ((expireWalk (onSched call) rest (timers, r)).1,
        (expireWalk (onSched call) rest (timers, r)).2.map (mapContext f)) := by
  induction rest generalizing timers r with
  | nil => rfl
  | cons p rest ih =>
    have hbind : (r.map (mapContext f)).bind (call' (timers.node p)) =
        (r.bind (call (timers.node p))).map (mapContext f) := bind_map rfl fun s => hcall _ s
    simp only [expireWalk, onSched] at ih ⊢
    rw [hbind]
    exact ih (rearmOrFree timers p) _

lemma runTick_mapContext (timers : TimerState) (r : Except Stop (Sched κ)) :
    runTick (onSched call') (timers, r.map (mapContext f)) =
      ((runTick (onSched call) (timers, r)).1,
        (runTick (onSched call) (timers, r)).2.map (mapContext f)) := by
  unfold runTick
  simp only [expireWalk_mapContext f hcall]

lemma runTimerLoop_mapContext (now : UInt32) (fuel : ℕ) (timers : TimerState)
    (r : Except Stop (Sched κ)) :
    runTimerLoop (onSched call') now fuel (timers, r.map (mapContext f)) =
      (runTimerLoop (onSched call) now fuel (timers, r)).map fun c =>
        (c.1, c.2.map (mapContext f)) := by
  induction fuel generalizing timers r with
  | zero => rfl
  | succ fuel ih =>
    unfold runTimerLoop
    by_cases hgo : timeAfterEq now timers.uJiffies
    · rw [if_pos hgo, if_pos hgo, runTick_mapContext f hcall]
      exact ih _ _
    · rw [if_neg hgo, if_neg hgo]
      rfl

theorem runTimer_mapContext (now : UInt32) (timers : TimerState) :
    runTimer call' now timers (s.mapContext f) = (runTimer call now timers s).map (mapRight f) := by
  unfold runTimer
  refine bind_map (lockAcquire_mapContext f s .timer) fun m => ?_
  have hloop := runTimerLoop_mapContext f hcall now (2 ^ 32) timers (.ok m)
  rw [show (Except.ok m : Except Stop (Sched κ)).map (mapContext f) = .ok (m.mapContext f) from rfl]
    at hloop
  rw [hloop]
  cases runTimerLoop (onSched call) now (2 ^ 32) (timers, .ok m) with
  | none => rfl
  | some c =>
    refine bind_map rfl fun m => ?_
    exact bind_map (lockRelease_mapContext f m .timer) fun m => rfl

/-- The timers, a state and a context. -/
def mapHandled (f : κ → η) (r : TimerState × Sched κ × κ) : TimerState × Sched η × η :=
  (r.1, r.2.1.mapContext f, f r.2.2)

theorem interruptTimerHandler_mapContext (now : UInt32) (malloc : Option Addr)
    (timers : TimerState) (frame : κ) :
    interruptTimerHandler call' now malloc timers (s.mapContext f) (f frame) =
      (interruptTimerHandler call now malloc timers s frame).map (mapHandled f) := by
  unfold interruptTimerHandler
  refine bind_common fun _ => ?_
  show runTimer call' now timers (s.mapContext f).tickBegun >>= _ = _
  rw [tickBegun_mapContext]
  refine bind_map (runTimer_mapContext f s.tickBegun hcall now timers) fun r => ?_
  refine ite_map (fun _ => ?_) fun _ => ite_map (fun _ => ?_) fun _ => ?_
  · exact bind_map (schedule_mapContext f r.2 frame) fun m => rfl
  · have hcount : (r.2.mapContext f).setTask r.2.currentTask (fun p => { p with
        ticks := p.ticks - 1 }) = (r.2.setTask r.2.currentTask fun p => { p with
        ticks := p.ticks - 1 }).mapContext f := setTask_mapContext f r.2 _ fun _ => rfl
    exact congrArg (fun m => Except.ok (r.1, m, f frame)) hcount
  · refine bind_map (createTimerLocked_mapContext f r.2 r.1 malloc .collaborativeScheduleHelper
      r.2.currentTask r.2.current.sleepMillisecond 0) fun c => ?_
    exact bind_map (collaborativeSchedule_mapContext f c.2 frame) fun m => rfl

end Loop

end Sched
end Libtask
