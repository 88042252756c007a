import Libtask.Task.RoundRobin

/-!
# The call of `task_block`, statement by statement

`task_block` with the `block_task_schedule` in it, and its callers `sema_down`
and `ioq_wait`, with ticks possible between any two statements while SIGALRM is
not blocked. `wakeup` calls `task_unblock` through a waiter slot. The other
functions are one operation each.
-/
namespace Libtask.Blocking
open Transition Timer Sched Conservation

/-- A semaphore that `sema_down` is called for from outside the library. -/
abbrev CallerSema := { psema : SemaId // Callers psema }

/-- Where a call of `task_block` stands: in the code of a user, in `ioq_wait` on
one of the waiter slots, or in `sema_down`. -/
inductive Via
  | user
  | slot (waiter : ℕ)
  | sema (psema : CallerSema)
  deriving DecidableEq

/-- A call `task_block(status)`. -/
structure BlockCall where
  via : Via
  status : TaskStatus
  deriving DecidableEq

/-- The statements of `task_block` and `block_task_schedule`. -/
inductive BlockStmt
  /-- the assertion on the argument, and `current_task->status = status` -/
  | setStatus
  /-- `if(list_empty(&task_ready_list))` and the assertion after it -/
  | testReady
  /-- `task_tag = list_pop(&task_ready_list)` -/
  | readyPop
  /-- `next = elem2entry(struct task_struct, general_tag, task_tag)` -/
  | takeTag
  /-- `next->status = TASK_RUNNING` -/
  | markRunning (next : TaskAddr)
  /-- `temp = current_task`, `current_task = next` -/
  | setCurrent (next : TaskAddr)
  /-- `context_swap(&temp->context, &next->context)` -/
  | contextSwap (temp next : TaskAddr)
  deriving DecidableEq, Repr

/-- Where a task goes on when it is dispatched. -/
inductive Point
  /-- in its own code -/
  | user
  /-- `while(psema->value == 0)` -/
  | semaTest (psema : CallerSema)
  /-- the assertion and `list_append(&psema->waiters, ..)` -/
  | semaQueue (psema : CallerSema)
  /-- `assert(*waiter == NULL && waiter != NULL)` -/
  | waitAssert (waiter : ℕ)
  /-- `*waiter = current_task` -/
  | waitSet (waiter : ℕ)
  | block (call : BlockCall) (stmt : BlockStmt)
  /-- `assert(*waiter != NULL)` -/
  | wakeAssert (waiter : ℕ)
  /-- the argument of `task_unblock(*waiter)` -/
  | wakeRead (waiter : ℕ)
  /-- the call itself -/
  | wakeUnblock (waiter : ℕ) (ptask : TaskAddr)
  /-- `*waiter = NULL` -/
  | wakeClear (waiter : ℕ)
  deriving DecidableEq

instance : Inhabited Point := ⟨.user⟩

/-- What follows the return of `task_block`. -/
def BlockCall.back (call : BlockCall) : Point :=
  match call.via with
  | .user | .slot _ => .user
  | .sema psema => .semaTest psema

/-- `slot` are the fields `producer` and `consumer` of the ioqueues. `parked`
records the call in which `block_task_schedule` has switched a task away, until
a `task_unblock` on it. -/
structure BlockRun where
  timers : TimerState
  sched : Sched Point
  pc : Point
  masked : Bool
  slot : ℕ → Option TaskAddr
  parked : TaskAddr → Option BlockCall

namespace BlockRun

/-- A write to the scheduler, after which control is at `pc`. -/
def goto (s : BlockRun) (sched : Sched Point) (pc : Point) : BlockRun :=
  { s with sched := sched, pc := pc }

/-- A `task_unblock` of `t`. -/
def unpark (s : BlockRun) (t : TaskAddr) : BlockRun :=
  { s with parked := Function.update s.parked t none }

/-- One statement of `task_block(status)`. -/
def runBlock (s : BlockRun) (call : BlockCall) : BlockStmt → Except Stop BlockRun
  | .setStatus => do
    assert call.status.Suspended
    return s.goto (s.sched.setStatus s.sched.currentTask call.status) (.block call .testReady)
  | .testReady => do
    if s.sched.taskReadyList = [] then throw .emptyReadyList
    assert (s.sched.taskReadyList ≠ [])
    return s.goto s.sched (.block call .readyPop)
  | .readyPop => do
    let (sched, _) ← s.sched.popReady
    return s.goto sched (.block call .takeTag)
  | .takeTag => return s.goto s.sched (.block call (.markRunning s.sched.taskTag))
  | .markRunning next =>
    return s.goto (s.sched.setStatus next .running) (.block call (.setCurrent next))
  | .setCurrent next =>
    return s.goto { s.sched with currentTask := next }
      (.block call (.contextSwap s.sched.currentTask next))
  | .contextSwap temp next => do
    let sched := s.sched.setTask temp fun p => { p with context := call.back }
    return { s.goto sched (sched.task next).context with
      parked := Function.update s.parked temp (some call) }

/-- One statement of `sema_down`, `ioq_wait` or `wakeup`. -/
def run (s : BlockRun) : Except Stop BlockRun :=
  match s.pc with
  | .user => return s
  | .semaTest psema => do
    if (s.sched.sema psema).value = 0 then return s.goto s.sched (.semaQueue psema)
    let sched ← s.sched.semaTake psema
    return { s.goto sched .user with masked := false }
  | .semaQueue psema => do
    assert (s.sched.currentTask ∉ (s.sched.sema psema).waiters)
    let sched := s.sched.setSema psema fun p => { p with
      waiters := p.waiters ++ [s.sched.currentTask] }
    return s.goto sched (.block ⟨.sema psema, .blocked⟩ .setStatus)
  | .waitAssert waiter => do
    assert (s.slot waiter = none)
    return s.goto s.sched (.waitSet waiter)
  | .waitSet waiter =>
    return { s.goto s.sched (.block ⟨.slot waiter, .blocked⟩ .setStatus) with
      slot := Function.update s.slot waiter (some s.sched.currentTask) }
  | .block call stmt => s.runBlock call stmt
  | .wakeAssert waiter => do
    assert (s.slot waiter ≠ none)
    return s.goto s.sched (.wakeRead waiter)
  | .wakeRead waiter =>
    match s.slot waiter with
    | none => throw .nullPointer
    | some ptask => return s.goto s.sched (.wakeUnblock waiter ptask)
  | .wakeUnblock waiter ptask => do
    let sched ← s.sched.taskUnblock ptask
    return { (s.goto sched (.wakeClear waiter)).unpark ptask with masked := false }
  | .wakeClear waiter =>
    return { s.goto s.sched .user with slot := Function.update s.slot waiter none }

/-- Control is in the code of the running task, not in a hooked sleep. -/
def InTask (s : BlockRun) : Prop :=
  s.pc = .user ∧ s.sched.current.isCollaborativeSchedule = false

end BlockRun

inductive BlockOp
  | taskStart (mem stack : ℕ) (name : List UInt8) (prio : Int32)
  | taskExit
  | taskBlock (status : TaskStatus)
  | taskUnblock (ptask : TaskAddr)
  | semaDown (psema : CallerSema)
  | semaUp (psema : CallerSema)
  | ioqWait (waiter : ℕ)
  | wakeup (waiter : ℕ)
  | sleep (millisecond : UInt32)
  | coEnableHookSys
  | createTimer (malloc : Addr) (f pParam : ℕ) (uDueTime uPeriod : UInt32)
  | deleteTimer (lpTimer : Addr)
  | run
  | tick (now : UInt32) (malloc : Addr)

/-- A call of a user, one statement, or a tick; none of them stops. The block of a new task
is that of no task that has not been freed, and that of a wake-up timer is of no timer that
is left after `run_timer`. -/
inductive Step (s : BlockRun) : BlockOp → BlockRun → Prop
  | taskStart {mem stack : ℕ} {name : List UInt8} {prio : Int32} {sched : Sched Point}
      {task : TaskAddr} (hin : s.InTask) (hall : mem ∉ s.sched.taskAllList)
      (hmain : mem ≠ s.sched.mainTask)
      (h : s.sched.taskStart mem stack name prio .user = .ok (sched, task)) :
      Step s (.taskStart mem stack name prio) { s with sched := sched, masked := false }
  | taskExit {sched : Sched Point} {pc : Point} (hin : s.InTask)
      (h : s.sched.taskExit s.sched.currentTask = .ok (sched, pc)) :
      Step s .taskExit { s.goto sched pc with masked := false }
  | taskBlock {status : TaskStatus} (hin : s.InTask) :
      Step s (.taskBlock status) (s.goto s.sched (.block ⟨.user, status⟩ .setStatus))
  | taskUnblock {ptask : TaskAddr} {sched : Sched Point} (hin : s.InTask)
      (hall : ptask ∈ s.sched.taskAllList) (h : s.sched.taskUnblock ptask = .ok sched) :
      Step s (.taskUnblock ptask) { (s.goto sched s.pc).unpark ptask with masked := false }
  | semaDown {psema : CallerSema} (hin : s.InTask) :
      Step s (.semaDown psema) { s.goto s.sched (.semaTest psema) with masked := true }
  | semaUp {psema : CallerSema} {sched : Sched Point} (hin : s.InTask)
      (h : s.sched.semaUp psema = .ok sched) :
      Step s (.semaUp psema) { s.goto sched s.pc with
        masked := false
        parked := match (s.sched.sema psema).waiters with
          | [] => s.parked
          | threadBlocked :: _ => Function.update s.parked threadBlocked none }
  | ioqWait {waiter : ℕ} (hin : s.InTask) :
      Step s (.ioqWait waiter) (s.goto s.sched (.waitAssert waiter))
  | wakeup {waiter : ℕ} (hin : s.InTask) :
      Step s (.wakeup waiter) (s.goto s.sched (.wakeAssert waiter))
  | sleep {millisecond : UInt32} (hin : s.InTask) (hhook : s.sched.current.isHook = true) :
      Step s (.sleep millisecond) { s with sched := s.sched.requestSleep millisecond }
  | coEnableHookSys (hin : s.InTask) :
      Step s .coEnableHookSys { s with sched := s.sched.coEnableHookSys }
  | createTimer {p : Addr} {f pParam : ℕ} {due period : UInt32} (hin : s.InTask)
      (hmalloc : p ∉ s.timers.heap) :
      Step s (.createTimer p f pParam due period) { s with
        timers := (Timer.createTimer s.timers (some p) (some (.user f)) pParam due period).1
        masked := false }
  | deleteTimer {p : Addr} {f : ℕ} (hin : s.InTask) (hp : p ∈ s.timers.heap)
      (hf : (s.timers.node p).timerFn = .user f) :
      Step s (.deleteTimer p) { s with
        timers := Timer.deleteTimer s.timers p
        masked := false }
  | run {s' : BlockRun} (h : s.run = .ok s') : Step s .run s'
  | tick {now : UInt32} {p : Addr} {timers : TimerState} {sched : Sched Point} {pc : Point}
      (hmask : s.masked = false)
      (hmalloc : ∀ timers1 m, Sched.runTimer callLibrary now s.timers s.sched.tickBegun =
        .ok (timers1, m) → p ∉ timers1.heap)
      (h : interruptTimerHandler callLibrary now (some p) s.timers s.sched s.pc =
        .ok (timers, sched, pc)) :
      Step s (.tick now p) { s.goto sched pc with timers := timers }

/-- `init()`, with any ioqueues after `ioqueue_init`. -/
def blockSystem : System BlockRun BlockOp where
  init s := ∃ value mem stack b, (boot value).taskInit mem stack = .ok s.sched ∧
    s.timers = timerInit b ∧ s.pc = .user ∧ s.masked = false ∧
    s.slot = (fun _ => none) ∧ s.parked = fun _ => none
  step := Step

/-- A task that was switched away in `task_block` has the status that it asked
for, is not on the ready list and does not run, and the assertions of a
`task_unblock` through a waiter slot hold. -/
structure BlockingHolds (s : BlockRun) : Prop where
  stays : ∀ t call, s.parked t = some call →
    (s.sched.task t).status = call.status ∧ t ∉ s.sched.taskReadyList
  away : ∀ t call, s.parked t = some call → t ≠ s.sched.currentTask
  wakes : ∀ waiter ptask, s.pc = .wakeUnblock waiter ptask →
    (s.sched.task ptask).status.Suspended ∧ ptask ∉ s.sched.taskReadyList

/-- From the registration of the task as a waiter on, or else from the write of
the status on, up to the end of `context_swap`. -/
def Point.Exposed : Point → Prop
  | .block call .setStatus => call.via ≠ .user
  | .block _ _ => True
  | _ => False

/-- The slot whose waiter a `wakeup` has read and not yet cleared, with the
waiter until it is unblocked. -/
def Point.waking : Point → Option (ℕ × Option TaskAddr)
  | .wakeUnblock waiter ptask => some (waiter, some ptask)
  | .wakeClear waiter => some (waiter, none)
  | _ => none

/-- A tick finds the running task before it is registered or marked, or it
dispatches nobody and leaves `task_tag` to `block_task_schedule`. A task that
waits in `ioq_wait` or `sema_down` is unblocked from there only, and one
`wakeup` at a time is between its read and its write of a slot. -/
def Undisturbed (s : BlockRun) : BlockOp → Prop
  | .tick now _ => s.pc.Exposed →
      (s.sched.current.isCollaborativeSchedule = false ∧ s.sched.current.ticks ≠ 0) ∧
      ((∃ call, s.pc = .block call .takeTag) → ∀ timers sched,
        Sched.runTimer callLibrary now s.timers s.sched.tickBegun = .ok (timers, sched) →
          sched.taskTag = s.sched.taskTag)
  | .taskUnblock ptask => ∀ call, s.parked ptask = some call → call.via = .user
  | .run => ∀ waiter, s.pc = .wakeRead waiter → ∀ u ∈ s.sched.taskAllList,
      u ≠ s.sched.currentTask → ∀ ptask,
        (s.sched.task u).context.waking ≠ some (waiter, ptask)
  | _ => True

end Libtask.Blocking
