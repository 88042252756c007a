import Libtask.Task.Struct

/-!
# The functions of `task/task.c` and `task/sync.c`

Each is read here as a sequential function, from a call to its return or to the
point where it gives up the CPU. A function that dispatches another task gets
the context in which the running task is suspended, and returns the context at
which control goes on. Masking SIGALRM has no effect on this reading.
-/
namespace Libtask.Sched

variable {κ : Type}

/-- `task_tag = list_pop(&task_ready_list)`. -/
def popReady (s : Sched κ) : Except Stop (Sched κ × TaskAddr) :=
  match s.taskReadyList with
  | [] => .error .emptyPop
  | t :: rest => .ok ({ s with taskReadyList := rest, taskTag := t }, t)

def getNextTask (s : Sched κ) : Except Stop (Sched κ × TaskAddr) := do
  let (s, next) ← s.popReady
  return (s.setStatus next .running, next)

/-- `memcpy(&current_task->context, context, ..)`, `current_task = next` and the
copy of the context of `next` into the frame. -/
def switchTo (s : Sched κ) (next : TaskAddr) (frame : κ) : Sched κ × κ :=
  let s := s.setTask s.currentTask fun p => { p with context := frame }
  ({ s with currentTask := next }, (s.task next).context)

lemma switchTo_context (s : Sched κ) (next : TaskAddr) (frame : κ) (u : TaskAddr) :
    ((s.switchTo next frame).1.task u).context =
      if u = s.currentTask then frame else (s.task u).context := by
  change ((s.setTask s.currentTask fun p => { p with context := frame }).task u).context = _
  rw [setTask_task]
  split_ifs <;> rfl

/-- The frame is what the interrupted task will go on with. -/
def schedule (s : Sched κ) (frame : κ) : Except Stop (Sched κ × κ) := do
  assert (s.currentTask ∉ s.taskReadyList)
  let s := { s with taskReadyList := s.taskReadyList ++ [s.currentTask] }
  let s := s.setTask s.currentTask fun p => { p with ticks := p.priority, status := .ready }
  if s.taskReadyList = [] then throw .emptyReadyList
  let (s, next) ← s.getNextTask
  return s.switchTo next frame

def collaborativeSchedule (s : Sched κ) (frame : κ) : Except Stop (Sched κ × κ) := do
  if s.taskReadyList = [] then throw .emptyReadyList
  let (s, next) ← s.getNextTask
  return s.switchTo next frame

def diedTaskSchedule (s : Sched κ) : Except Stop (Sched κ × κ) := do
  if s.taskReadyList = [] then throw .emptyReadyList
  let (s, next) ← s.popReady
  let s := s.setStatus next .running
  return ({ s with currentTask := next }, (s.task next).context)

/-- `context_swap` saves `here` before it loads. -/
def blockTaskSchedule (s : Sched κ) (here : κ) : Except Stop (Sched κ × κ) := do
  if s.taskReadyList = [] then throw .emptyReadyList
  assert (s.taskReadyList ≠ [])
  let (s, next) ← s.popReady
  let s := s.setStatus next .running
  return s.switchTo next here

def taskBlock (s : Sched κ) (status : TaskStatus) (here : κ) : Except Stop (Sched κ × κ) := do
  assert status.Suspended
  let s := s.setStatus s.currentTask status
  s.blockTaskSchedule here

def taskUnblock (s : Sched κ) (ptask : TaskAddr) : Except Stop (Sched κ) := do
  assert (s.task ptask).status.Suspended
  if (s.task ptask).status ≠ .ready then
    assert (ptask ∉ s.taskReadyList)
    let s := { s with taskReadyList := ptask :: s.taskReadyList }
    return s.setStatus ptask .ready
  else return s

/-- The end of `sema_down`, once the value is not 0. -/
def semaTake (s : Sched κ) (psema : SemaId) : Except Stop (Sched κ) := do
  let s := s.setSema psema fun p => { p with value := p.value - 1 }
  assert ((s.sema psema).value = 0)
  return s

/-- One round of the loop of `sema_down`: the unit is taken, or the task waits
for it and `here` is where it will test again. -/
def semaDown (s : Sched κ) (psema : SemaId) (here : κ) : Except Stop (Sched κ × Option κ) := do
  if (s.sema psema).value = 0 then
    assert (s.currentTask ∉ (s.sema psema).waiters)
    let s := s.setSema psema fun p => { p with waiters := p.waiters ++ [s.currentTask] }
    let (s, next) ← s.taskBlock .blocked here
    return (s, some next)
  else
    let s ← s.semaTake psema
    return (s, none)

def semaUp (s : Sched κ) (psema : SemaId) : Except Stop (Sched κ) := do
  assert ((s.sema psema).value = 0)
  let s ← match (s.sema psema).waiters with
    | [] => pure s
    | threadBlocked :: rest =>
      (s.setSema psema fun p => { p with waiters := rest }).taskUnblock threadBlocked
  let s := s.setSema psema fun p => { p with value := p.value + 1 }
  assert ((s.sema psema).value = 1)
  return s

/-- `lock_acquire` of a lock that does not have to be waited for. -/
def lockAcquire (s : Sched κ) (plock : LockId) : Except Stop (Sched κ) := do
  if (s.lock plock).holder ≠ some s.currentTask then
    if (s.sema (.ofLock plock)).value = 0 then throw .wouldBlock
    let s ← s.semaTake (.ofLock plock)
    let s := s.setLock plock fun p => { p with holder := some s.currentTask }
    assert ((s.lock plock).holderRepeatNr = 0)
    return s.setLock plock fun p => { p with holderRepeatNr := 1 }
  else
    return s.setLock plock fun p => { p with holderRepeatNr := p.holderRepeatNr + 1 }

def lockRelease (s : Sched κ) (plock : LockId) : Except Stop (Sched κ) := do
  assert ((s.lock plock).holder = some s.currentTask)
  if (s.lock plock).holderRepeatNr > 1 then
    return s.setLock plock fun p => { p with holderRepeatNr := p.holderRepeatNr - 1 }
  assert ((s.lock plock).holderRepeatNr = 1)
  let s := s.setLock plock fun _ => ⟨none, 0⟩
  s.semaUp (.ofLock plock)

/-- `tid_pool_init`. -/
def tidPoolInit (s : Sched κ) : Sched κ :=
  let s := { s with tidStart := 1, tidBitmap := ⟨125100, Vector.replicate 125100 0⟩ }
  let s := s.setLock .tid fun _ => lockInit.1
  s.setSema (.ofLock .tid) fun _ => lockInit.2

/-- The sum is unsigned; the result is cut to the 16 bits of `tid_t`. -/
def allocateTid (s : Sched κ) : Except Stop (Sched κ × Int16) := do
  let s ← s.lockAcquire .tid
  let bitIdx ← s.tidBitmap.bitmapScan 1
  let btmp ← s.tidBitmap.bitmapSet bitIdx.toUInt32 1
  let s ← { s with tidBitmap := btmp }.lockRelease .tid
  return (s, (bitIdx.toUInt32 + s.tidStart).toUInt16.toInt16)

/-- The difference is unsigned. -/
def releaseTid (s : Sched κ) (tid : Int16) : Except Stop (Sched κ) := do
  let s ← s.lockAcquire .tid
  let bitIdx := tid.toInt32.toUInt32 - s.tidStart
  let btmp ← s.tidBitmap.bitmapSet bitIdx 0
  { s with tidBitmap := btmp }.lockRelease .tid

/-- `list_traversal` of `task_all_list` with `tid_check`. -/
def tid2task (s : Sched κ) (tid : Int16) : Option TaskAddr :=
  s.taskAllList.find? fun ptask => (s.task ptask).tid.toInt32 = tid.toInt32

section Birth

variable [Inhabited κ]

/-- `stack` is the block that `malloc` gives for the stack. -/
def initTask (s : Sched κ) (ptask stack : ℕ) (name : List UInt8) (prio : Int32) :
    Except Stop (Sched κ) := do
  let s := s.setTask ptask fun _ => TaskStruct.zero
  if 32 ≤ name.length then throw .outOfBounds
  let s := s.setTask ptask fun p => { p with name := name }
  let s := if ptask = s.mainTask
    then { s.setTask ptask (fun p => { p with status := .running, first := false }) with
      currentTask := ptask }
    else s.setTask ptask fun p => { p with status := .ready, first := true }
  let (s, tid) ← s.allocateTid
  let s := { s with alloc := insert stack s.alloc }
  return s.setTask ptask fun p => { p with
    tid := tid
    stackMinAddr := stack
    priority := prio.toUInt32.toUInt8
    ticks := prio.toUInt32.toUInt8
    elapsedTicks := 0
    stackMagic := TaskStruct.magic
    sleepMillisecond := 0
    isHook := false
    isCollaborativeSchedule := false }

/-- `entry` is the context that calls `task_entrance(function, func_arg)`. -/
def taskCreate (s : Sched κ) (ptask : TaskAddr) (entry : κ) : Sched κ :=
  s.setTask ptask fun p => { p with context := entry }

/-- The address comes from the pool, or else is the block `mem` of `malloc`. -/
def taskStart (s : Sched κ) (mem stack : ℕ) (name : List UInt8) (prio : Int32) (entry : κ) :
    Except Stop (Sched κ × TaskAddr) := do
  let (s, task) ← match s.taskPoolList with
    | task :: rest => do
      assert (TaskStatus.died ≠ (s.task task).status)
      pure ({ s with taskPoolList := rest, taskTag := task }, task)
    | [] => pure ({ s with alloc := insert mem s.alloc }, mem)
  let s ← s.initTask task stack name prio
  let s := s.taskCreate task entry
  assert (task ∉ s.taskReadyList)
  let s := { s with taskReadyList := s.taskReadyList ++ [task] }
  assert (task ∉ s.taskAllList)
  return ({ s with
    taskAllList := s.taskAllList ++ [task]
    taskAllNums := s.taskAllNums + 1 }, task)

/-- `task_init` with the block `mem` for the main task; `make_main_task` is its
last step. -/
def taskInit (s : Sched κ) (mem stack : ℕ) : Except Stop (Sched κ) := do
  let s := { s with taskReadyList := [], taskAllList := [], taskPoolList := [], taskAllNums := 0 }
  let s := s.tidPoolInit
  let s := { s with alloc := insert mem s.alloc, mainTask := mem }
  let s ← s.initTask mem stack [109, 97, 105, 110] 3
  assert (s.mainTask ∉ s.taskAllList)
  return { s with
    taskAllList := s.taskAllList ++ [s.mainTask]
    taskAllNums := s.taskAllNums + 1 }

end Birth

/-- `task_exit` up to the switch of `died_task_schedule`. -/
def taskExit (s : Sched κ) (task : TaskAddr) : Except Stop (Sched κ × κ) := do
  let s := s.setStatus task .died
  let s := { s with
    taskReadyList :=
      if task ∈ s.taskReadyList then s.taskReadyList.erase task else s.taskReadyList
    taskAllList := s.taskAllList.erase task
    taskAllNums := s.taskAllNums - 1
    taskPoolList := if task ≠ s.mainTask then s.taskPoolList ++ [task] else s.taskPoolList }
  let s ← s.releaseTid (s.task task).tid
  s.diedTaskSchedule

end Libtask.Sched
