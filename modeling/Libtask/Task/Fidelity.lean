import Libtask.Task.History
import Libtask.Task.Places

/-!
# Mixed paths of suspension and resumption

The scheduler decides which task gets the CPU, and on which path; what happens to a task
is one of its histories. A run keeps when and how each task was last suspended, and what
each resumption has found. Signals come between the calls of the library, each of which is
one operation.
-/
namespace Libtask.Fidelity
open X86 Transition Timer Sched Conservation

/-- `frame` is the frame of the signal whose handler runs. A task that gives up the
CPU, or is created, does so at a time of its own. -/
structure SwitchRun where
  timers : TimerState
  sched : Sched SigContext
  machine : Machine
  frame : Option SigContext
  time : ℕ
  since : TaskAddr → ℕ
  left : TaskAddr → Left
  resumptions : List Resumption

namespace SwitchRun

def InTask (s : SwitchRun) : Prop :=
  s.frame = none ∧ s.sched.current.isCollaborativeSchedule = false

/-- `t` is not executing code of its own. -/
def Away (s : SwitchRun) (t : TaskAddr) : Prop := t ≠ s.sched.currentTask ∨ s.frame ≠ none

/-- Memory in which a preempted task keeps its red zone. -/
def Spared (s : SwitchRun) (t : TaskAddr) (mem : Memory) : Prop :=
  ∀ m, s.left t = .preempted m → ∀ x, RedZone m x → mem x = s.machine.mem x

def mark (s : SwitchRun) (t : TaskAddr) (left : Left) : SwitchRun :=
  { s with
    time := s.time + 1
    since := Function.update s.since t (s.time + 1)
    left := Function.update s.left t left }

def swapOut (s : SwitchRun) : SwitchRun := s.mark s.sched.currentTask .swapped

/-- A task that exits is not to go on. -/
def suspend (s : SwitchRun) : TaskCall → SwitchRun
  | .taskExit => s
  | _ => s.swapOut

/-- What `context_swap` leaves in the context of the running task. -/
def here (s : SwitchRun) : SigContext :=
  s.machine.swappedOut s.sched.current.context (s.time + 1)

/-- The task that `sched` runs gets the CPU. -/
def resume (s : SwitchRun) (sched : Sched SigContext) (path : Path) (k : SigContext) :
    SwitchRun :=
  { s with
    sched := sched
    machine := s.machine.resume path k
    frame := none
    resumptions := ⟨s.left sched.currentTask, s.since sched.currentTask, path, k, s.machine⟩ ::
      s.resumptions }

/-- The return address is pushed on no other task's stack. -/
def Clear (s : SwitchRun) (sched : Sched SigContext) (k : SigContext) : Prop :=
  ∀ t ∈ sched.taskAllList, t ≠ sched.currentTask → s.Spared t (s.machine.switch k).mem

end SwitchRun

/-- `TASK_STACK_SIZE` above the block of `malloc`. -/
def taskStack (stack : ℕ) : Word := BitVec.ofNat 64 (stack + 1024 * 4)

/-- The call of `task_start` says where the new task begins; `call` is any other one. -/
inductive Op
  | run (machine : Machine)
  | taskStart (mem stack : ℕ) (name : List UInt8) (prio : Int32)
      (taskEntrance function funcArg : Word)
  | call (call : TaskCall)
  | signal (now : UInt32)
  | handled (malloc : Addr)

/-- The running task, or the handler, executes any instructions of its own between the
calls of the library; the handler is a signal with `run_timer` and what follows it. -/
inductive Step (s : SwitchRun) : Op → SwitchRun → Prop
  | run {machine : Machine}
      (hspare : ∀ t ∈ s.sched.taskAllList, s.Away t → s.Spared t machine.mem) :
      Step s (.run machine) { s with machine := machine }
  | taskStart {mem stack : ℕ} {name : List UInt8} {prio : Int32}
      {taskEntrance function funcArg : Word} {sched : Sched SigContext} {task : TaskAddr}
      (hin : s.InTask) (hpromise : Promised s.sched (.taskStart mem stack name prio))
      (h : s.sched.taskStart mem stack name prio (s.machine.taskCreate (taskStack stack)
        taskEntrance function funcArg (s.time + 1)) = .ok (sched, task)) :
      Step s (.taskStart mem stack name prio taskEntrance function funcArg)
        { s.mark task .created with sched := sched }
  | call {call : TaskCall} {sched : Sched SigContext} (hin : s.InTask)
      (hstart : ∀ mem stack name prio, call ≠ .taskStart mem stack name prio)
      (hpromise : Promised s.sched call)
      (h : perform s.sched s.here default call = .ok (sched, none)) :
      Step s (.call call) { s with sched := sched }
  | switch {call : TaskCall} {sched : Sched SigContext} {k : SigContext} (hin : s.InTask)
      (hpromise : Promised s.sched call)
      (h : perform s.sched s.here default call = .ok (sched, some k))
      (hclear : (s.suspend call).Clear sched k) :
      Step s (.call call) ((s.suspend call).resume sched .switch k)
  | signal {now : UInt32} {timers : TimerState} {sched : Sched SigContext}
      (hframe : s.frame = none) (hmagic : s.sched.current.stackMagic = TaskStruct.magic)
      (h : runTimer callLibrary now s.timers s.sched.tickBegun = .ok (timers, sched)) :
      Step s (.signal now) { s.mark s.sched.currentTask (.preempted s.machine) with
        timers := timers
        sched := sched
        frame := some (s.machine.frame (s.time + 1)) }
  | handled {p : Addr} {frame k : SigContext} {timers : TimerState} {sched : Sched SigContext}
      (hframe : s.frame = some frame) (hmalloc : p ∉ s.timers.heap)
      (h : Handled (some p) s.timers s.sched frame timers sched k) :
      Step s (.handled p) { s.resume sched .sigreturn k with timers := timers }

/-- From `init()` on. -/
def mixedSystem : System SwitchRun Op where
  init s := ∃ value mem stack b, (boot value).taskInit mem stack = .ok s.sched ∧
    s.timers = timerInit b ∧ s.frame = none ∧ s.time = 0 ∧ s.since = (fun _ => 0) ∧
    s.left = (fun _ => .created) ∧ s.resumptions = []
  step := Step

/-- Some history of a task ends with the task running. -/
def Runs (time : ℕ) (k : SigContext) : Prop :=
  ∃ h, historySystem.Reachable h ∧ h.running = true ∧ h.context = k ∧ h.time ≤ time

/-- Some history of a task ends with the task waiting for the CPU. -/
def Waits (time : ℕ) (left : Left) (since : ℕ) (k : SigContext) (mem : Memory) : Prop :=
  ∃ h, historySystem.Reachable h ∧ h.running = false ∧ h.context = k ∧ h.left = left ∧
    h.since = since ∧ h.time ≤ time ∧ h.Kept mem

/-- The resumption is in the history of a task. -/
def Occurs (r : Resumption) : Prop := ∃ h, historySystem.Reachable h ∧ r ∈ h.resumptions

section Task

variable {time later since : ℕ} {left : Left} {k : SigContext} {mem mem' : Memory} {m : Machine}

lemma Runs.mono (h : Runs time k) (hle : time ≤ later) : Runs later k := by
  obtain ⟨t, ht, hrunning, hk, htime⟩ := h
  exact ⟨t, ht, hrunning, hk, htime.trans hle⟩

lemma Waits.mono (h : Waits time left since k mem) (hle : time ≤ later) :
    Waits later left since k mem := by
  obtain ⟨t, ht, haway, hk, hleft, hsince, htime, hkept⟩ := h
  exact ⟨t, ht, haway, hk, hleft, hsince, htime.trans hle, hkept⟩

lemma Waits.congr (h : Waits time left since k mem)
    (hmem : ∀ m, left = .preempted m → ∀ x, RedZone m x → mem' x = mem x) :
    Waits time left since k mem' := by
  obtain ⟨t, ht, haway, hk, rfl, hsince, htime, hkept⟩ := h
  exact ⟨t, ht, haway, hk, rfl, hsince, htime,
    fun m hm x hx => (hmem m hm x hx).trans (hkept m hm x hx)⟩

lemma runs_mainTask : Runs time default :=
  ⟨_, .init (.inl rfl), rfl, rfl, Nat.zero_le _⟩

lemma waits_created (taskStack taskEntrance function funcArg : Word) :
    Waits time .created time (m.taskCreate taskStack taskEntrance function funcArg time) mem :=
  ⟨_, .init (.inr ⟨m, taskStack, taskEntrance, function, funcArg, time, rfl⟩), rfl, rfl, rfl, rfl,
    le_refl _, nofun⟩

lemma Runs.tick (h : Runs time k) (hlater : time < later) :
    Waits later (.preempted m) later (m.frame later) m.mem := by
  obtain ⟨t, ht, hrunning, rfl, htime⟩ := h
  refine ⟨_, ht.step trivial (.tick hrunning (htime.trans_lt hlater)), rfl, rfl, rfl, rfl,
    le_refl _, ?_⟩
  intro m' hm x _
  rw [Left.preempted.inj hm]

lemma Runs.contextSwap (h : Runs time k) (hlater : time < later) :
    Waits later .swapped later (m.swappedOut k later) mem := by
  obtain ⟨t, ht, hrunning, rfl, htime⟩ := h
  exact ⟨_, ht.step trivial (.contextSwap hrunning (htime.trans_lt hlater)), rfl, rfl, rfl, rfl,
    le_refl _, nofun⟩

lemma Waits.resume (h : Waits time left since k m.mem) (path : Path) :
    Runs time k ∧ Occurs ⟨left, since, path, k, m⟩ := by
  obtain ⟨t, ht, haway, rfl, rfl, rfl, htime, hkept⟩ := h
  have hnext : historySystem.Reachable (t.resume path m) := ht.step trivial (.resume haway hkept)
  exact ⟨⟨_, hnext, rfl, rfl, htime⟩, _, hnext, List.mem_cons_self⟩

end Task

/-- Every task is at the end of a history: the running one, the one whose signal is handled and
those that wait; and so was every task that was resumed. -/
structure Inv (s : SwitchRun) : Prop where
  timed : TimedLaw [] s.timers s.sched
  free : ∀ l ∈ libraryLocks, s.sched.LockFree l
  runs : Runs s.time s.sched.current.context
  waits : ∀ t ∈ s.sched.taskAllList, t ≠ s.sched.currentTask →
    Waits s.time (s.left t) (s.since t) (s.sched.task t).context s.machine.mem
  frame : ∀ k, s.frame = some k → Waits s.time (s.left s.sched.currentTask)
    (s.since s.sched.currentTask) k s.machine.mem
  resumed : ∀ r ∈ s.resumptions, Occurs r

namespace Inv

variable {s : SwitchRun} {sched : Sched SigContext} {timers : TimerState} {k : SigContext}

/-- An operation after which the same task goes on. -/
lemma moved (h : Inv s) (htimed : TimedLaw [] s.timers sched) (hframe : Frame s.sched sched)
    (hcurrent : sched.currentTask = s.sched.currentTask)
    (hcontext : ∀ t, (sched.task t).context = (s.sched.task t).context) :
    Inv { s with sched := sched } := by
  constructor
  case timed => exact htimed
  case free => exact free_of_frame h.free hframe
  case runs =>
    show Runs s.time (sched.task sched.currentTask).context
    rw [hcontext, hcurrent]
    exact h.runs
  case waits =>
    intro t ht hne
    show Waits s.time (s.left t) (s.since t) (sched.task t).context s.machine.mem
    rw [hcontext t]
    exact h.waits t (hframe.all ▸ ht) (hcurrent ▸ hne)
  case frame =>
    show ∀ k, s.frame = some k → Waits s.time (s.left sched.currentTask) _ k s.machine.mem
    rw [hcurrent]
    exact h.frame
  case resumed => exact h.resumed

/-- The task that gets the CPU had waited for it; what the others left is still there. -/
lemma resume (path : Path) (htimed : TimedLaw [] timers sched)
    (hfree : ∀ l ∈ libraryLocks, sched.LockFree l)
    (hruns : Runs s.time sched.current.context)
    (hwaits : ∀ t ∈ sched.taskAllList, t ≠ sched.currentTask →
      Waits s.time (s.left t) (s.since t) (sched.task t).context s.machine.mem ∧
        s.Spared t (s.machine.resume path k).mem)
    (hk : Waits s.time (s.left sched.currentTask) (s.since sched.currentTask) k s.machine.mem)
    (hresumed : ∀ r ∈ s.resumptions, Occurs r) :
    Inv { s.resume sched path k with timers := timers } := by
  constructor
  case timed => exact htimed
  case free => exact hfree
  case runs => exact hruns
  case waits =>
    intro t ht hne
    obtain ⟨hold, hspare⟩ := hwaits t ht hne
    exact hold.congr hspare
  case frame => exact fun k hframe => nomatch hframe
  case resumed =>
    intro r hr
    rcases List.mem_cons.mp hr with rfl | hold
    · exact (hk.resume path).2
    · exact hresumed r hold

/-- Another task gets the CPU, with its own context. -/
lemma dispatch (path : Path) (htimed : TimedLaw [] timers sched)
    (hfree : ∀ l ∈ libraryLocks, sched.LockFree l)
    (hwaits : ∀ t ∈ sched.taskAllList,
      Waits s.time (s.left t) (s.since t) (sched.task t).context s.machine.mem)
    (hspare : ∀ t ∈ sched.taskAllList, t ≠ sched.currentTask →
      s.Spared t (s.machine.resume path k).mem)
    (hk : k = sched.current.context) (hresumed : ∀ r ∈ s.resumptions, Occurs r) :
    Inv { s.resume sched path k with timers := timers } := by
  have hcur := hwaits _ htimed.law.cur_mem
  refine resume path htimed hfree (hcur.resume path).1 ?_ (hk ▸ hcur) hresumed
  exact fun t ht hne => ⟨hwaits t ht, hspare t ht hne⟩

/-- The tasks wait after a switch, if every one did before and the running task does, with the
frame that it leaves. -/
lemma waits_handsOver {s : Sched SigContext} {frame : SigContext} {left : TaskAddr → Left}
    {since : TaskAddr → ℕ} {time : ℕ} {mem : Memory} (hover : HandsOver s frame sched k)
    (hold : ∀ t ∈ s.taskAllList, t ≠ s.currentTask →
      Waits time (left t) (since t) (s.task t).context mem)
    (hcur : Waits time (left s.currentTask) (since s.currentTask) frame mem) :
    ∀ t ∈ s.taskAllList, Waits time (left t) (since t) (sched.task t).context mem := by
  intro t ht
  rw [hover.2 t]
  split_ifs with hc
  · exact hc ▸ hcur
  · exact hold t ht hc

/-- A task gives up the CPU through `context_swap`. -/
lemma swapped (h : Inv s) (htimed : TimedLaw [] s.timers sched) (hframe : Frame s.sched sched)
    (hover : HandsOver s.sched s.here sched k) (hclear : s.swapOut.Clear sched k) :
    Inv (s.swapOut.resume sched .switch k) := by
  have hwaits : ∀ t ∈ s.sched.taskAllList, Waits (s.time + 1) (s.swapOut.left t)
      (s.swapOut.since t) (sched.task t).context s.machine.mem := by
    apply waits_handsOver hover
    · intro t ht hne
      show Waits _ (Function.update s.left _ _ t) (Function.update s.since _ _ t) _ _
      rw [Function.update_of_ne hne, Function.update_of_ne hne]
      exact (h.waits t ht hne).mono (Nat.le_succ _)
    · show Waits _ (Function.update s.left _ _ _) (Function.update s.since _ _ _) _ _
      rw [Function.update_self, Function.update_self]
      exact h.runs.contextSwap (Nat.lt_succ_self _)
  show Inv { s.swapOut.resume sched .switch k with timers := s.timers }
  exact dispatch .switch htimed (free_of_frame h.free hframe)
    (fun t ht => hwaits t (hframe.all ▸ ht)) hclear hover.1 h.resumed

/-- The handler ends: the task it goes on with, the interrupted one or another one,
gets what the frame or its context holds. -/
lemma handled (h : Inv s) {p : Addr} {frame : SigContext} (hframe : s.frame = some frame)
    (hp : p ∉ s.timers.heap)
    (hdone : Handled (some p) s.timers s.sched frame timers sched k) :
    Inv { s.resume sched .sigreturn k with timers := timers } := by
  have hfree := h.free .timer (by decide)
  obtain ⟨htimed, hkept⟩ := h.timed.handled hfree hp hdone
  have hcurrent := h.frame frame hframe
  have hlocks := free_of_frame h.free hkept
  have hspared : ∀ t, s.Spared t (s.machine.resume .sigreturn k).mem := fun t m hm x hx => rfl
  -- both schedulers hand the frame over
  have hswitch : HandsOver s.sched frame sched k →
      Inv { s.resume sched .sigreturn k with timers := timers } := by
    intro hover
    have hwaits := waits_handsOver hover h.waits hcurrent
    exact dispatch .sigreturn htimed hlocks (fun t ht => hwaits t (hkept.all ▸ ht))
      (fun t _ _ => hspared t) hover.1 h.resumed
  cases hdone with
  | schedule _ _ hsched => exact hswitch (schedule_handsOver hsched)
  | count =>
    have hcontext : ∀ t, ((s.sched.setTask s.sched.currentTask fun p => { p with
        ticks := p.ticks - 1 }).task t).context = (s.sched.task t).context :=
      setTask_context (f := fun p => { p with ticks := p.ticks - 1 }) rfl
    refine resume .sigreturn htimed hlocks ?_ ?_ hcurrent h.resumed
    · show Runs s.time (Sched.task _ s.sched.currentTask).context
      rw [hcontext]
      exact h.runs
    · intro t ht hne
      rw [hcontext t]
      exact ⟨h.waits t ht hne, hspared t⟩
  | sleep _ hcreate hsched =>
    rw [createTimerLocked_of_free hfree] at hcreate
    obtain ⟨rfl, rfl⟩ := Prod.mk.inj (Except.ok.inj hcreate)
    exact hswitch (collaborativeSchedule_handsOver hsched)

/-- The kernel saves the whole state of the interrupted task in the frame. -/
lemma signal (h : Inv s) {now : UInt32}
    (hrun : runTimer callLibrary now s.timers s.sched.tickBegun = .ok (timers, sched)) :
    Inv { s.mark s.sched.currentTask (.preempted s.machine) with
      timers := timers
      sched := sched
      frame := some (s.machine.frame (s.time + 1)) } := by
  have hfree : s.sched.tickBegun.LockFree .timer := h.free .timer (by decide)
  obtain ⟨htimed, hticked, -⟩ := h.timed.tickBegun.runLibrary hfree hrun
  have hcontext : ∀ t, (sched.task t).context = (s.sched.task t).context := by
    intro t
    rw [hticked.context]
    exact setTask_context (f := fun p => { p with elapsedTicks := p.elapsedTicks + 1 }) rfl t
  have hcur : sched.currentTask = s.sched.currentTask := hticked.locks.current
  have hall : sched.taskAllList = s.sched.taskAllList := hticked.all
  constructor
  case timed => exact htimed
  case free => exact fun l hl => hticked.locks.free hl (h.free l hl)
  case runs =>
    show Runs (s.time + 1) (sched.task sched.currentTask).context
    rw [hcontext, hcur]
    exact h.runs.mono (Nat.le_succ _)
  case waits =>
    intro t ht hne
    show Waits (s.time + 1) (Function.update s.left _ _ t) (Function.update s.since _ _ t)
      (sched.task t).context s.machine.mem
    have hne' : t ≠ s.sched.currentTask := hcur ▸ hne
    rw [Function.update_of_ne hne', Function.update_of_ne hne', hcontext t]
    exact (h.waits t (hall ▸ ht) hne').mono (Nat.le_succ _)
  case frame =>
    intro k hk
    obtain rfl := Option.some.inj hk
    show Waits _ (Function.update s.left _ _ sched.currentTask)
      (Function.update s.since _ _ sched.currentTask) _ s.machine.mem
    rw [hcur, Function.update_self, Function.update_self]
    exact h.runs.tick (Nat.lt_succ_self _)
  case resumed => exact h.resumed

/-- `task_create` writes every field of the context. -/
lemma taskStart (h : Inv s) {mem stack : ℕ} {name : List UInt8} {prio : Int32}
    {taskEntrance function funcArg : Word} {task : TaskAddr}
    (hpromise : Promised s.sched (.taskStart mem stack name prio))
    (hstart : s.sched.taskStart mem stack name prio (s.machine.taskCreate (taskStack stack)
      taskEntrance function funcArg (s.time + 1)) = .ok (sched, task)) :
    Inv { s.mark task .created with sched := sched } := by
  obtain ⟨hall, hmain⟩ := hpromise
  obtain ⟨rfl, ⟨b', tid, rfl⟩, hborn⟩ := law_taskStart h.timed.law
    (h.free .tid (by decide)) hall hmain hstart
  set entry := s.machine.taskCreate (taskStack stack) taskEntrance function funcArg (s.time + 1)
    with hentry
  have hself : ((s.sched.bornState task stack (bornTask stack name prio entry tid) b').task
      task).context = entry := by
    show (Function.update s.sched.task task _ task).context = entry
    rw [Function.update_self]
    rfl
  have hother : ∀ t, t ≠ task → (s.sched.bornState task stack (bornTask stack name prio entry tid)
      b').task t = s.sched.task t := fun t ht => Function.update_of_ne ht ..
  have hne : s.sched.currentTask ≠ task := fun he => hall (he ▸ h.timed.law.cur_mem)
  constructor
  case timed => exact ⟨hborn, h.timed.linked, h.timed.oneShot⟩
  case free => exact h.free
  case runs =>
    show Runs (s.time + 1) (Sched.task _ s.sched.currentTask).context
    rw [hother _ hne]
    exact h.runs.mono (Nat.le_succ _)
  case waits =>
    intro t ht hcur
    show Waits _ (Function.update s.left task _ t) (Function.update s.since task _ t) _ _
    by_cases htask : t = task
    · rw [htask, Function.update_self, Function.update_self]
      show Waits _ .created _ (Sched.task _ _).context _
      rw [hself]
      exact waits_created ..
    · rw [Function.update_of_ne htask, Function.update_of_ne htask]
      show Waits _ (s.left t) (s.since t) (Sched.task _ t).context _
      rw [hother t htask]
      have hold : t ∈ s.sched.taskAllList := by
        rcases List.mem_append.mp ht with hold | hnew
        · exact hold
        · exact absurd (List.mem_singleton.mp hnew) htask
      exact (h.waits t hold hcur).mono (Nat.le_succ _)
  case frame =>
    intro k hk
    show Waits _ (Function.update s.left task _ s.sched.currentTask)
      (Function.update s.since task _ s.sched.currentTask) k _
    rw [Function.update_of_ne hne, Function.update_of_ne hne]
    exact (h.frame k hk).mono (Nat.le_succ _)
  case resumed => exact h.resumed

/-- The dead task leaves the others as they are. -/
lemma taskExit (h : Inv s) (hexit : s.sched.taskExit s.sched.currentTask = .ok (sched, k))
    (hclear : s.Clear sched k) : Inv (s.resume sched .switch k) := by
  obtain ⟨b', hd⟩ := taskExit_ok (h.free .tid (by decide)) hexit
  have hdisp := diedTaskSchedule_dispatched hd
  obtain ⟨hk, hcontext⟩ := diedTaskSchedule_context hd
  have htimed : TimedLaw [] s.timers sched :=
    ⟨law_taskExit h.timed.law hd, h.timed.linked, h.timed.oneShot⟩
  have hlocks : ∀ l ∈ libraryLocks, sched.LockFree l :=
    free_of_frame (s := { s.sched.exitState s.sched.currentTask with tidBitmap := b' }) h.free
      hdisp.frame
  have hwaits : ∀ t ∈ sched.taskAllList,
      Waits s.time (s.left t) (s.since t) (sched.task t).context s.machine.mem := by
    intro t ht
    rw [hdisp.frame.all] at ht
    obtain ⟨hne, hall⟩ := h.timed.law.all_nodup.mem_erase_iff.mp ht
    have hsame : (s.sched.exitState s.sched.currentTask).task t = s.sched.task t :=
      Function.update_of_ne hne ..
    rw [hcontext t]
    show Waits _ (s.left t) (s.since t) ((s.sched.exitState _).task t).context _
    rw [hsame]
    exact h.waits t hall hne
  show Inv { s.resume sched .switch k with timers := s.timers }
  exact dispatch .switch htimed hlocks hwaits hclear hk h.resumed

/-- A call that gives up the CPU. -/
lemma switched (h : Inv s) {call : TaskCall} (hpromise : Promised s.sched call)
    (hp : Performed s.sched s.here default call sched (some k))
    (hclear : (s.suspend call).Clear sched k) : Inv ((s.suspend call).resume sched .switch k) := by
  by_cases hexit : call = .taskExit
  · subst hexit
    cases hp with
    | taskExit hexit => exact h.taskExit hexit hclear
  · have hsuspend : s.suspend call = s.swapOut := by
      cases call with
      | taskExit => exact absurd rfl hexit
      | _ => rfl
    have hstart : ∀ mem stack name prio, call ≠ .taskStart mem stack name prio := by
      rintro mem stack name prio rfl
      cases hp
    obtain ⟨hlaw, -⟩ := hp.law h.timed.law h.free hpromise
    rw [hsuspend] at hclear ⊢
    exact h.swapped ⟨hlaw, h.timed.linked, h.timed.oneShot⟩
      (hp.frame h.timed.law hpromise hstart hexit) (hp.handsOver hexit) hclear

end Inv

theorem Inv.init {s : SwitchRun} (hs : mixedSystem.init s) : Inv s := by
  obtain ⟨value, mem, stack, b, hinit, htimers, hframe, htime, hsince, hleft, hresumptions⟩ := hs
  obtain ⟨htimed, hfree, hall, hcurrent, -⟩ := timedLaw_init b hinit
  obtain ⟨b', -, -, heq⟩ := taskInit_spec (κ := SigContext) value mem stack
  obtain ⟨timers, sched, machine, frame, time, since, left, resumptions⟩ := s
  dsimp only at hinit htimers hframe htime hsince hleft hresumptions htimed hfree hall hcurrent
  subst htimers hframe htime hsince hleft hresumptions
  obtain rfl := Except.ok.inj (heq.symm.trans hinit)
  constructor
  case timed => exact htimed
  case free => exact hfree
  case runs =>
    have hmain : (Function.update (boot value).task mem (mainTaskStruct stack) mem :
        TaskStruct SigContext).context = default := by
      rw [Function.update_self]
      rfl
    show Runs 0 (Function.update (boot value).task mem (mainTaskStruct stack) mem :
      TaskStruct SigContext).context
    rw [hmain]
    exact runs_mainTask
  case waits =>
    intro t ht hne
    exact absurd (List.mem_singleton.mp ht) hne
  case frame =>
    intro k hk
    cases hk
  case resumed => exact fun r hr => absurd hr List.not_mem_nil

theorem Inv.step {s s' : SwitchRun} {op : Op} (h : Inv s) (hst : Step s op s') : Inv s' := by
  cases hst with
  | run hspare =>
    constructor
    case timed => exact h.timed
    case free => exact h.free
    case runs => exact h.runs
    case waits =>
      exact fun t ht hne => (h.waits t ht hne).congr (hspare t ht (.inl hne))
    case frame =>
      intro k hk
      have haway : s.Away s.sched.currentTask := .inr fun hnone => nomatch hnone.symm.trans hk
      exact (h.frame k hk).congr (hspare _ h.timed.law.cur_mem haway)
    case resumed => exact h.resumed
  | taskStart hin hpromise hstart => exact h.taskStart hpromise hstart
  | @call call _ hin hstart hpromise hcall =>
    have hp := performed hcall
    obtain ⟨hcurrent, hcontext⟩ := hp.stays hstart
    obtain ⟨hlaw, hfree⟩ := hp.law h.timed.law h.free hpromise
    have hexit : call ≠ .taskExit := by
      rintro rfl
      cases hp
    exact h.moved ⟨hlaw, h.timed.linked, h.timed.oneShot⟩
      (hp.frame h.timed.law hpromise hstart hexit) hcurrent hcontext
  | switch hin hpromise hcall hclear => exact h.switched hpromise (performed hcall) hclear
  | signal hframe hmagic hrun => exact h.signal hrun
  | handled hframe hmalloc hdone => exact h.handled hframe hmalloc hdone

theorem inv_of_reachable {s : SwitchRun} (hs : mixedSystem.Reachable s) : Inv s :=
  hs.invariant (fun _ => Inv.init) fun _ _ _ h _ hst => h.step hst

/-- What happens to a task in a run of the scheduler is one of its histories. -/
theorem occurs_of_reachable {s : SwitchRun} (hs : mixedSystem.Reachable s) :
    ∀ r ∈ s.resumptions, Occurs r := (inv_of_reachable hs).resumed

/-- Whatever the run before, a task goes on as it was left exactly when it gets the CPU
back on the counterpart of the path on which it lost it. -/
theorem faithful_iff_paired {s : SwitchRun} (hs : mixedSystem.Reachable s) :
    ∀ r ∈ s.resumptions, r.Faithful ↔ r.Paired := by
  intro r hr
  obtain ⟨h, hh, hr⟩ := occurs_of_reachable hs r hr
  exact ((History.inv_of_reachable hh).resumed r hr).faithful_iff r.path

/-- The calls in which the running task gives up the CPU. -/
def Yields (s : SwitchRun) : Op → Prop
  | .call .taskExit | .call (.taskBlock _) => True
  | .call (.semaDown psema) => (s.sched.sema psema).value = 0
  | _ => False

/-- Runs in which the CPU changes hands at signals only. -/
def Preemptive (s : SwitchRun) (op : Op) : Prop := ¬ Yields s op

/-- Runs without signals. -/
def Cooperative (_ : SwitchRun) (op : Op) : Prop := ∀ now, op ≠ .signal now

/-- Nothing was ever left to `context_swap`. -/
structure NeverSwapped (s : SwitchRun) : Prop where
  left : ∀ t, s.left t ≠ .swapped
  resumed : ∀ r ∈ s.resumptions, r.path = .sigreturn ∧ r.left ≠ .swapped

/-- Nothing was ever left to a signal. -/
structure NeverPreempted (s : SwitchRun) : Prop where
  frame : s.frame = none
  left : ∀ t m, s.left t ≠ .preempted m
  resumed : ∀ r ∈ s.resumptions, r.path = .switch ∧ ∀ m, r.left ≠ .preempted m

lemma left_mark {P : Left → Prop} {s : SwitchRun} {left : Left} (hs : ∀ t, P (s.left t))
    (hleft : P left) (t u : TaskAddr) : P ((s.mark t left).left u) := by
  show P (Function.update s.left t left u)
  by_cases hu : u = t
  · rw [hu, Function.update_self]
    exact hleft
  · rw [Function.update_of_ne hu]
    exact hs u

lemma resumed_cons {P : Resumption → Prop} {s : SwitchRun} {sched : Sched SigContext} {path : Path}
    {k : SigContext} (hs : ∀ r ∈ s.resumptions, P r)
    (hnew : P ⟨s.left sched.currentTask, s.since sched.currentTask, path, k, s.machine⟩) :
    ∀ r ∈ (s.resume sched path k).resumptions, P r := by
  intro r hr
  rcases List.mem_cons.mp hr with rfl | hold
  · exact hnew
  · exact hs r hold

/-- The calls that lead to another task are those that yield. -/
lemma yields_of_performed {s : SwitchRun} {call : TaskCall} {sched : Sched SigContext}
    {here entry k : SigContext} (hp : Performed s.sched here entry call sched (some k)) :
    Yields s (.call call) := by
  cases hp with
  | taskExit => trivial
  | taskBlock => trivial
  | semaDown h => exact semaDown_value h

lemma NeverSwapped.step {s s' : SwitchRun} {op : Op} (h : NeverSwapped s)
    (hg : Preemptive s op) (hst : Step s op s') : NeverSwapped s' := by
  cases hst with
  | run => exact ⟨h.left, h.resumed⟩
  | @taskStart _ _ _ _ _ _ _ _ task =>
    exact ⟨left_mark (P := (· ≠ .swapped)) h.left (by simp) task, h.resumed⟩
  | call => exact ⟨h.left, h.resumed⟩
  | switch hin hpromise hcall => exact absurd (yields_of_performed (performed hcall)) hg
  | signal =>
    exact ⟨left_mark (P := (· ≠ .swapped)) h.left (by simp) s.sched.currentTask, h.resumed⟩
  | handled => exact ⟨h.left, resumed_cons h.resumed ⟨rfl, h.left _⟩⟩

lemma NeverPreempted.step {s s' : SwitchRun} {op : Op} (h : NeverPreempted s)
    (hg : Cooperative s op) (hst : Step s op s') : NeverPreempted s' := by
  have hmark : ∀ left : Left, (∀ m, left ≠ .preempted m) → ∀ t u m,
      (s.mark t left).left u ≠ .preempted m := fun left hleft t =>
    left_mark (P := fun left => ∀ m, left ≠ .preempted m) h.left hleft t
  cases hst with
  | run => exact ⟨h.frame, h.left, h.resumed⟩
  | @taskStart _ _ _ _ _ _ _ _ task =>
    exact ⟨h.frame, hmark .created (by simp) task, h.resumed⟩
  | call => exact ⟨h.frame, h.left, h.resumed⟩
  | @switch call sched k =>
    have hleft : ∀ u m, (s.suspend call).left u ≠ .preempted m := by
      cases call with
      | taskExit => exact h.left
      | _ => exact hmark .swapped (by simp) s.sched.currentTask
    have hresumed : ∀ r ∈ (s.suspend call).resumptions, r.path = .switch ∧
        ∀ m, r.left ≠ .preempted m := by
      cases call <;> exact h.resumed
    exact ⟨rfl, hleft, resumed_cons hresumed ⟨rfl, hleft _⟩⟩
  | @signal now => exact absurd rfl (hg now)
  | handled hframe =>
    rw [h.frame] at hframe
    cases hframe

/-- The start, with the main task alone. -/
def mainRun (b : Bitmap) : SwitchRun where
  timers := timerInit 1
  sched := mainSched b
  machine := blank
  frame := none
  time := 0
  since := fun _ => 0
  left := fun _ => .created
  resumptions := []

section Current

variable {κ : Type} (s : Sched κ)

lemma coEnableHookSys_current : s.coEnableHookSys.current = { s.current with isHook := true } :=
  setTask_task_self ..

lemma requestSleep_current (millisecond : UInt32) :
    (s.requestSleep millisecond).current = { s.current with
      isCollaborativeSchedule := true
      sleepMillisecond := millisecond } :=
  setTask_task_self ..

lemma tickBegun_current : s.tickBegun.current = { s.current with
    elapsedTicks := s.current.elapsedTicks + 1 } :=
  setTask_task_self ..

end Current

/-- The running task sleeps, and the handler dispatches the next one. -/
lemma exists_nap {guard : SwitchRun → Op → Prop} (hguard : ∀ s op, Preemptive s op → guard s op)
    {s : SwitchRun} (hs : mixedSystem.Reach guard s) (hin : s.InTask)
    (hnow : ¬ timeAfterEq 0 s.timers.uJiffies) (hmalloc : 1 ∉ s.timers.heap)
    (hmagic : s.sched.current.stackMagic = TaskStruct.magic) {next : TaskAddr}
    {rest : List TaskAddr} (hready : s.sched.taskReadyList = next :: rest) :
    ∃ s', mixedSystem.Reach guard s' ∧ ∃ r ∈ s'.resumptions, r.left = s.left next ∧
      r.path = .sigreturn := by
  have hinv := inv_of_reachable hs.reachable
  have hne : next ≠ s.sched.currentTask := by
    rintro rfl
    apply hinv.timed.law.cur_alone.1
    show s.sched.currentTask ∈ s.sched.taskReadyList
    rw [hready]
    exact List.mem_cons_self
  have h1 := hs.step (hguard _ _ id) (show Step s (.call .coEnableHookSys) _ from
    .call hin (by simp) trivial rfl)
  have hcur1 := coEnableHookSys_current s.sched
  have hin1 : s.sched.coEnableHookSys.current.isCollaborativeSchedule = false := by
    rw [hcur1]
    exact hin.2
  have hhook : s.sched.coEnableHookSys.current.isHook = true := by rw [hcur1]
  have h2 := h1.step (hguard _ _ id) (show Step _ (.call (.sleep 1000)) _ from
    .call ⟨hin.1, hin1⟩ (by simp) hhook rfl)
  set s2 : SwitchRun := { s with sched := s.sched.coEnableHookSys.requestSleep 1000 } with hs2
  have hcur2 := requestSleep_current s.sched.coEnableHookSys 1000
  have hflag : s2.sched.tickBegun.current.isCollaborativeSchedule = true := by
    rw [tickBegun_current, hs2, hcur2]
  have hmagic2 : s2.sched.current.stackMagic = TaskStruct.magic := by
    rw [hs2, hcur2, hcur1]
    exact hmagic
  have hfree : s2.sched.tickBegun.LockFree .timer := hinv.free .timer (by decide)
  have hready2 : s2.sched.tickBegun.taskReadyList = next :: rest := hready
  have h3 := h2.step (hguard _ _ id) (show Step s2 (.signal 0) _ from
    .signal hin.1 hmagic2 (runTimer_idle hfree hnow))
  have h4 := h3.step (hguard _ _ id) (show Step _ (.handled 1) _ from
    .handled rfl hmalloc (.sleep hflag (createTimerLocked_of_free hfree ..)
      (collaborativeSchedule_of_ready hready2 _)))
  refine ⟨_, h4, _, List.mem_cons_self, ?_, rfl⟩
  show Function.update s.left s.sched.currentTask _ next = s.left next
  rw [Function.update_of_ne hne]

/-- From the start, the main task starts another one. -/
def pairRun (b : Bitmap) : SwitchRun :=
  { (mainRun b).mark 3 .created with
    sched := pairSched (blank.taskCreate (taskStack 4) 0 0 0 1) b }

lemma exists_pairRun (guard : SwitchRun → Op → Prop)
    (hguard : ∀ s op, Preemptive s op → guard s op) :
    ∃ b, mixedSystem.Reach guard (pairRun b) := by
  obtain ⟨b0, b, hinit, hstart, -, -⟩ := exists_mainStarts (blank.taskCreate (taskStack 4) 0 0 0 1)
  have h0 : mixedSystem.Reach guard (mainRun b0) :=
    .init ⟨fun _ => 0, 1, 2, 1, hinit, rfl, rfl, rfl, rfl, rfl, rfl⟩
  refine ⟨b, h0.step (a := .taskStart 3 4 [] 3 0 0 0) (hguard _ _ id) ?_⟩
  exact .taskStart (s := mainRun b0) ⟨rfl, rfl⟩ (by simp [Promised, mainRun, mainSched]) hstart

/-- As long as no task was preempted, every stack may be used. -/
lemma clear_of_left {s : SwitchRun} (hleft : ∀ t m, s.left t ≠ .preempted m)
    (sched : Sched SigContext) (k : SigContext) : s.Clear sched k :=
  fun t _ _ m hm => absurd hm (hleft t m)

/-- The main task blocks, and is unblocked by the task at block 3, which then sleeps:
the handler returns to a context that `context_swap` has saved. -/
theorem exists_sleepOver : ∃ s, mixedSystem.Reachable s ∧
    ∃ r ∈ s.resumptions, r.left = .swapped ∧ r.path = .sigreturn := by
  obtain ⟨b, h1⟩ := exists_pairRun unguarded fun _ _ _ => trivial
  set s1 := pairRun b with hs1
  have hleft1 : ∀ t m, s1.left t ≠ .preempted m :=
    left_mark (s := mainRun b) (P := fun left => ∀ m, left ≠ .preempted m)
      (by simp [mainRun]) (by simp) 3
  have hleft2 : ∀ t m, s1.swapOut.left t ≠ .preempted m :=
    left_mark (P := fun left => ∀ m, left ≠ .preempted m) hleft1 (by simp) 1
  have hblock := @taskBlock_of_ready _ s1.sched 3 [] .blocked (by decide) rfl s1.here
  let r2 := ({ s1.sched.setStatus 1 .blocked with taskReadyList := [], taskTag := 3 }.setStatus
    3 .running).switchTo 3 s1.here
  let s2 := s1.swapOut.resume r2.1 .switch r2.2
  have h2 : mixedSystem.Reachable s2 := h1.step trivial (a := .call (.taskBlock .blocked))
    (@Step.switch s1 (.taskBlock .blocked) _ _ ⟨rfl, rfl⟩ trivial
      (Performed.taskBlock hblock).perform_eq (clear_of_left hleft2 _ _))
  let s3 : SwitchRun := { s2 with
    sched := { s2.sched with taskReadyList := [1] }.setStatus 1 .ready }
  have hpromise : Promised s2.sched (.taskUnblock 1) := by
    refine ⟨List.mem_cons_self, fun i => ?_⟩
    cases i <;> exact List.not_mem_nil
  have h3 : mixedSystem.Reachable s3 := h2.step trivial (a := .call (.taskUnblock 1))
    (.call ⟨rfl, rfl⟩ (by simp) hpromise rfl)
  obtain ⟨s, hs, r, hr, hleft, hpath⟩ := exists_nap (fun _ _ _ => trivial) h3 ⟨rfl, rfl⟩
    (show ¬ timeAfterEq 0 (timerInit 1).uJiffies by decide)
    (show 1 ∉ (timerInit 1).heap by decide) rfl (show s3.sched.taskReadyList = 1 :: [] from rfl)
  refine ⟨s, hs, r, hr, ?_, hpath⟩
  rw [hleft]
  show Function.update s1.left 1 Left.swapped 1 = .swapped
  rw [Function.update_self]

theorem not_faithful_sleepOver : ∃ s, mixedSystem.Reachable s ∧
    ∃ r ∈ s.resumptions, r.left = .swapped ∧ r.path = .sigreturn ∧ ¬ r.Faithful := by
  obtain ⟨s, hs, r, hr, hleft, hpath⟩ := exists_sleepOver
  refine ⟨s, hs, r, hr, hleft, hpath, ?_⟩
  rw [faithful_iff_paired hs r hr, Resumption.Paired, hleft, hpath]
  exact id

end Libtask.Fidelity
