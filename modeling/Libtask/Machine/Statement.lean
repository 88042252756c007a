import Libtask.Task.Handler
import Libtask.Task.Moves

/-!
# The statements of the library

A flow of control is the list of the statements that it has still to execute. A
call pushes the body of the function; the arguments and locals of a function
are parameters of its statements. A statement is a step that no signal splits:
an assignment, a test, an assertion or an operation on a list. The loop of
`run_timer` is one too, although SIGALRM may be deliverable in it.

Users call `task_exit` for the running task alone, and neither `delete_timer` nor
`destroy_timer_manager`; the callbacks of their timers leave the scheduler alone.
-/
namespace Libtask.Machine
open Timer

/-- The functions that mask SIGALRM from `interrupt_disable` to their closing
`interrupt_enable`. -/
inductive Fn
  | taskStart (name : List UInt8) (prio : Int32)
  | taskExit (task : TaskAddr)
  | taskUnblock (ptask : TaskAddr)
  | semaDown (psema : SemaId)
  | semaUp (psema : SemaId)
  deriving DecidableEq, Repr

/-- The routines that dispatch the next task. -/
inductive Path
  | schedule
  | collaborative
  | died
  | block
  deriving DecidableEq, Repr

inductive Stmt
  /-- code of the user, which may call the library and may return -/
  | user
  /-- `while(1)`, after a failed assertion or with the ready list empty -/
  | spin (why : Stop)
  /-- `interrupt_disable()` at the head of a function -/
  | disable (f : Fn)
  /-- its closing `interrupt_enable()`; `was` records whether SIGALRM was
  blocked when the function was called -/
  | enable (f : Fn) (was : Bool)
  -- `task_start`
  | poolTest (name : List UInt8) (prio : Int32)
  | poolPop (name : List UInt8) (prio : Int32)
  | poolAssert (task : TaskAddr) (name : List UInt8) (prio : Int32)
  | mallocTask (name : List UInt8) (prio : Int32)
  | initZero (ptask : TaskAddr) (name : List UInt8) (prio : Int32)
  | initStatus (ptask : TaskAddr) (prio : Int32)
  | bitmapScan (ptask : TaskAddr) (prio : Int32)
  | bitmapSet (ptask : TaskAddr) (prio : Int32) (bitIdx : Int32)
  | initTid (ptask : TaskAddr) (prio : Int32) (bitIdx : Int32)
  | initStack (ptask : TaskAddr) (prio : Int32)
  | taskCreate (ptask : TaskAddr)
  | startReady (task : TaskAddr)
  | startAll (task : TaskAddr)
  | startNums
  -- `task_exit`; the first one is the call `task_exit(current_task)`
  | exitCurrent
  | exitStatus (task : TaskAddr)
  | exitReady (task : TaskAddr)
  | exitAll (task : TaskAddr)
  | exitNums
  | exitPool (task : TaskAddr)
  | releaseTid (task : TaskAddr)
  | bitmapClear (tid : Int16)
  -- dispatch
  | readyTest (path : Path)
  | readyAssert
  | readyPop (path : Path)
  | takeTag (path : Path)
  | markRunning (path : Path) (next : TaskAddr)
  | saveFrame (next : TaskAddr)
  | swapTemp (next : TaskAddr)
  | setCurrent (next : TaskAddr)
  | loadFrame
  | contextSwap (temp next : TaskAddr)
  | contextSet
  -- `task_block` and `task_unblock`
  | blockAssert (status : TaskStatus)
  | blockStatus (status : TaskStatus)
  | unblockAssert (ptask : TaskAddr)
  | unblockTest (ptask : TaskAddr)
  | unblockPush (ptask : TaskAddr)
  | unblockStatus (ptask : TaskAddr)
  -- `sema_down` and `sema_up`
  | semaTest (psema : SemaId)
  | semaQueue (psema : SemaId)
  | semaTake (psema : SemaId)
  | semaTaken (psema : SemaId)
  | semaUpAssert (psema : SemaId)
  | semaWake (psema : SemaId)
  | semaPop (psema : SemaId)
  | semaInc (psema : SemaId)
  | semaGiven (psema : SemaId)
  -- `lock_acquire` and `lock_release`
  | lockTest (plock : LockId)
  | lockSetHolder (plock : LockId)
  | lockAssertNr (plock : LockId) (nr : UInt32)
  | lockSetNr (plock : LockId) (nr : UInt32)
  | lockInc (plock : LockId)
  | lockAssertHolder (plock : LockId)
  | lockTestNr (plock : LockId)
  | lockDec (plock : LockId)
  | lockClearHolder (plock : LockId)
  -- `interrupt_timer_handler` and `create_timer`
  | tickAssert
  | tickElapsed
  | timerLoop (uJiffies : UInt32)
  | tickTest
  | tickTestFlag
  | tickDec
  | tickCreate
  | createTimer (timerFn : TimerFn) (pParam : ℕ) (uDueTime uPeriod : UInt32)
  | timerAdd (pTmr : Addr) (timerFn : TimerFn) (pParam : ℕ) (uDueTime uPeriod : UInt32)
  | schedAssert
  | schedAppend
  | schedTicks
  | schedStatus
  -- the hooks; `add` is what `nanosleep` adds in a second assignment
  | enableHook
  | hookTest (set : UInt32) (add : Option UInt32)
  | hookFlag (set : UInt32) (add : Option UInt32)
  | hookSet (set : UInt32)
  | hookAdd (add : UInt32)
  | hookSpin
  deriving Repr

/-- A saved context: the code still to be executed, topmost frame first. The
frames below the top one are interrupted by a signal; each is resumed when the
handler above it returns. `masked` records whether SIGALRM was blocked when the
context was saved, `filled` whether the segment registers were ever stored in it:
`get_reg` stores them and a signal frame holds them, `context_swap` leaves them alone. -/
structure Ctx where
  stack : List (List Stmt)
  masked : Bool
  filled : Bool
  deriving Repr

instance : Inhabited Ctx := ⟨⟨[], false, false⟩⟩

def lockAcquire (plock : LockId) : List Stmt := [.lockTest plock]

def lockRelease (plock : LockId) : List Stmt := [.lockAssertHolder plock, .lockTestNr plock]

/-- Between `interrupt_disable` and `interrupt_enable`. -/
def Fn.body : Fn → List Stmt
  | .taskStart name prio => [.poolTest name prio]
  | .taskExit task => [.exitStatus task]
  | .taskUnblock ptask => [.unblockAssert ptask]
  | .semaDown psema => [.semaTest psema]
  | .semaUp psema => [.semaUpAssert psema]

/-- After `interrupt_enable`. -/
def Fn.rest : Fn → List Stmt
  | .taskExit _ => [.readyTest .died]
  | _ => []

/-- `task_block`. -/
def taskBlock (status : TaskStatus) : List Stmt := [.blockAssert status]

/-- A new task is at `task_entrance`. -/
def taskEntrance : List Stmt := [.user, .exitCurrent]

/-- `run_timer`; `uJiffies` is what `get_jiffies` returned. -/
def runTimer (uJiffies : UInt32) : List Stmt :=
  lockAcquire .timer ++ .timerLoop uJiffies :: lockRelease .timer

/-- The signal handler, with the clock reading that it will find. -/
def interruptTimerHandler (uJiffies : UInt32) : List Stmt :=
  .tickAssert :: .tickElapsed :: runTimer uJiffies ++ [.tickTest]

/-- What a user may call. -/
inductive Call
  | taskStart (name : List UInt8) (prio : Int32)
  | taskExit
  | taskBlock (status : TaskStatus)
  | taskUnblock (ptask : TaskAddr)
  | semaDown (psema : SemaId)
  | semaUp (psema : SemaId)
  | lockAcquire (plock : LockId)
  | lockRelease (plock : LockId)
  | createTimer (f pParam : ℕ) (uDueTime uPeriod : UInt32)
  | coEnableHookSys
  | sleep (seconds : UInt32)
  | usleep (usec : UInt32)
  | nanosleep (tvSec tvNsec : Int64)
  deriving DecidableEq, Repr

def Call.code : Call → List Stmt
  | .taskStart name prio => [.disable (.taskStart name prio)]
  | .taskExit => [.exitCurrent]
  | .taskBlock status => Machine.taskBlock status
  | .taskUnblock ptask => [.disable (.taskUnblock ptask)]
  | .semaDown psema => [.disable (.semaDown psema)]
  | .semaUp psema => [.disable (.semaUp psema)]
  | .lockAcquire plock => Machine.lockAcquire plock
  | .lockRelease plock => Machine.lockRelease plock
  | .createTimer f pParam uDueTime uPeriod => [.createTimer (.user f) pParam uDueTime uPeriod]
  | .coEnableHookSys => [.enableHook]
  | .sleep seconds => [.hookTest (Sched.sleepDuration seconds) none]
  | .usleep usec => [.hookTest (Sched.usleepDuration usec) none]
  | .nanosleep tvSec tvNsec =>
    [.hookTest (tvSec * 1000).toUInt64.toUInt32 (some (tvNsec / 1000000).toUInt64.toUInt32)]

/-- Users leave the locks of the library alone. -/
def Call.Allowed : Call → Prop
  | .semaDown psema | .semaUp psema => Sched.Callers psema
  | .lockAcquire plock | .lockRelease plock => plock ∉ Sched.libraryLocks
  | _ => True

end Libtask.Machine
