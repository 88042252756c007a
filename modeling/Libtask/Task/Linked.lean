import Libtask.List.Terminated
import Libtask.Task.RoundRobin

/-!
# The scheduler on its links

The functions of `task/task.c` and `task/sync.c` once more, now on the links of the
`struct list_elem`s: a list is its two sentinels, a task has three tags, and the address
of a task is computed from that of a tag. `elem_find` walks along the list; it is cut off
after more steps than there are tasks. `task_tag` is read only right after it is written
and is a local variable here.
-/
namespace Libtask

/-- The `struct list_elem`s of a `task_struct`. -/
inductive TaskTag
  | general
  | allList
  | pool
  deriving DecidableEq, Repr

/-- `&task->general_tag` and the like. -/
structure TagAddr where
  task : TaskAddr
  tag : TaskTag
  deriving DecidableEq, Repr

/-- The `struct list`s of the scheduler. -/
inductive TaskList
  | ready
  | all
  | pool
  /-- `psema->waiters` -/
  | waiters (psema : SemaId)
  deriving DecidableEq, Repr

abbrev TagCell := Intrusive.Cell TaskList TagAddr

/-- The globals of `task.c` with the links of all the lists, and the semaphores and
locks. -/
structure LinkedSched (κ : Type) where
  task : TaskAddr → TaskStruct κ
  links : Links.Heap TagCell
  alloc : Finset ℕ
  currentTask : TaskAddr
  mainTask : TaskAddr
  taskAllNums : ℤ
  tidBitmap : Bitmap
  tidStart : UInt32
  lock : LockId → Lock
  value : SemaId → UInt8

namespace LinkedSched

variable {κ : Type}

def setTask (s : LinkedSched κ) (t : TaskAddr) (f : TaskStruct κ → TaskStruct κ) :
    LinkedSched κ :=
  { s with task := Function.update s.task t (f (s.task t)) }

def setStatus (s : LinkedSched κ) (t : TaskAddr) (status : TaskStatus) : LinkedSched κ :=
  s.setTask t fun p => { p with status := status }

def setLock (s : LinkedSched κ) (l : LockId) (f : Lock → Lock) : LinkedSched κ :=
  { s with lock := Function.update s.lock l (f (s.lock l)) }

def setValue (s : LinkedSched κ) (i : SemaId) (f : UInt8 → UInt8) : LinkedSched κ :=
  { s with value := Function.update s.value i (f (s.value i)) }

/-- `current_task->...` -/
abbrev current (s : LinkedSched κ) : TaskStruct κ := s.task s.currentTask

/-- `elem2entry(struct task_struct, tag, elem_ptr)`; what it makes of any other cell is
the address of no task. -/
def elem2entry (tag : TaskTag) : TagCell → Except Stop TaskAddr
  | .elem e => if e.tag = tag then .ok e.task else .error .outOfBounds
  | _ => .error .outOfBounds

/-- What a function of `list.c` has made of the links. -/
def relink (s : LinkedSched κ) : Option (Links.Heap TagCell) → Except Stop (LinkedSched κ)
  | some links => .ok { s with links := links }
  | none => .error .nullPointer

def listPush (s : LinkedSched κ) (plist : TaskList) (elem : TagAddr) :
    Except Stop (LinkedSched κ) := s.relink (Intrusive.listPush s.links plist (.elem elem))

def listAppend (s : LinkedSched κ) (plist : TaskList) (elem : TagAddr) :
    Except Stop (LinkedSched κ) := s.relink (Intrusive.listAppend s.links plist (.elem elem))

def listRemove (s : LinkedSched κ) (pelem : TagAddr) : Except Stop (LinkedSched κ) :=
  s.relink (Intrusive.listRemove s.links (.elem pelem))

def listInit (s : LinkedSched κ) (list : TaskList) : LinkedSched κ :=
  { s with links := Intrusive.listInit s.links list }

def listPop (s : LinkedSched κ) (plist : TaskList) : Except Stop (LinkedSched κ × TagCell) :=
  match Intrusive.listPop s.links plist with
  | some (links, elem) => .ok ({ s with links := links }, elem)
  | none => .error .emptyPop

def listEmpty (s : LinkedSched κ) (plist : TaskList) : Bool := Intrusive.listEmpty s.links plist

def elemFind (s : LinkedSched κ) (plist : TaskList) (objElem : TagAddr) : Except Stop Bool :=
  match Intrusive.elemFind (s.taskAllNums.toNat + 1) s.links plist (.elem objElem) with
  | some found => .ok found
  | none => .error .diverges

/-- `memset(ptask, 0, sizeof(*ptask))`. -/
def clear [Inhabited κ] (s : LinkedSched κ) (ptask : TaskAddr) : LinkedSched κ :=
  let zero : Links.Link TagCell := ⟨none, none⟩
  { s.setTask ptask fun _ => TaskStruct.zero with
    links := Function.update (Function.update (Function.update s.links
      (.elem ⟨ptask, .general⟩) zero) (.elem ⟨ptask, .allList⟩) zero) (.elem ⟨ptask, .pool⟩) zero }

/-- `task_tag = list_pop(&task_ready_list)` and the `elem2entry` after it. -/
def popReady (s : LinkedSched κ) : Except Stop (LinkedSched κ × TaskAddr) := do
  let (s, taskTag) ← s.listPop .ready
  let next ← elem2entry .general taskTag
  return (s, next)

def getNextTask (s : LinkedSched κ) : Except Stop (LinkedSched κ × TaskAddr) := do
  let (s, next) ← s.popReady
  return (s.setStatus next .running, next)

def switchTo (s : LinkedSched κ) (next : TaskAddr) (frame : κ) : LinkedSched κ × κ :=
  let s := s.setTask s.currentTask fun p => { p with context := frame }
  ({ s with currentTask := next }, (s.task next).context)

def schedule (s : LinkedSched κ) (frame : κ) : Except Stop (LinkedSched κ × κ) := do
  let found ← s.elemFind .ready ⟨s.currentTask, .general⟩
  assert (found = false)
  let s ← s.listAppend .ready ⟨s.currentTask, .general⟩
  let s := s.setTask s.currentTask fun p => { p with ticks := p.priority, status := .ready }
  if s.listEmpty .ready = true then throw .emptyReadyList
  let (s, next) ← s.getNextTask
  return s.switchTo next frame

def collaborativeSchedule (s : LinkedSched κ) (frame : κ) : Except Stop (LinkedSched κ × κ) := do
  if s.listEmpty .ready = true then throw .emptyReadyList
  let (s, next) ← s.getNextTask
  return s.switchTo next frame

def diedTaskSchedule (s : LinkedSched κ) : Except Stop (LinkedSched κ × κ) := do
  if s.listEmpty .ready = true then throw .emptyReadyList
  let (s, next) ← s.popReady
  let s := s.setStatus next .running
  return ({ s with currentTask := next }, (s.task next).context)

def blockTaskSchedule (s : LinkedSched κ) (here : κ) : Except Stop (LinkedSched κ × κ) := do
  if s.listEmpty .ready = true then throw .emptyReadyList
  assert (s.listEmpty .ready = false)
  let (s, next) ← s.popReady
  let s := s.setStatus next .running
  return s.switchTo next here

def taskBlock (s : LinkedSched κ) (status : TaskStatus) (here : κ) :
    Except Stop (LinkedSched κ × κ) := do
  assert status.Suspended
  let s := s.setStatus s.currentTask status
  s.blockTaskSchedule here

def taskUnblock (s : LinkedSched κ) (ptask : TaskAddr) : Except Stop (LinkedSched κ) := do
  assert (s.task ptask).status.Suspended
  if (s.task ptask).status ≠ .ready then
    let found ← s.elemFind .ready ⟨ptask, .general⟩
    assert (found = false)
    let s ← s.listPush .ready ⟨ptask, .general⟩
    return s.setStatus ptask .ready
  else return s

def semaInit (s : LinkedSched κ) (psema : SemaId) (value : UInt8) : LinkedSched κ :=
  (s.setValue psema fun _ => value).listInit (.waiters psema)

def lockInit (s : LinkedSched κ) (plock : LockId) : LinkedSched κ :=
  (s.setLock plock fun _ => ⟨none, 0⟩).semaInit (.ofLock plock) 1

/-- The end of `sema_down`, once the value is not 0. -/
def semaTake (s : LinkedSched κ) (psema : SemaId) : Except Stop (LinkedSched κ) := do
  let s := s.setValue psema fun value => value - 1
  assert (s.value psema = 0)
  return s

/-- One round of the loop of `sema_down`. The `PANIC` after the assertion tests the same
condition again. -/
def semaDown (s : LinkedSched κ) (psema : SemaId) (here : κ) :
    Except Stop (LinkedSched κ × Option κ) := do
  if s.value psema = 0 then
    let found ← s.elemFind (.waiters psema) ⟨s.currentTask, .general⟩
    assert (found = false)
    let found ← s.elemFind (.waiters psema) ⟨s.currentTask, .general⟩
    assert (found = false)
    let s ← s.listAppend (.waiters psema) ⟨s.currentTask, .general⟩
    let (s, next) ← s.taskBlock .blocked here
    return (s, some next)
  else
    let s ← s.semaTake psema
    return (s, none)

def semaUp (s : LinkedSched κ) (psema : SemaId) : Except Stop (LinkedSched κ) := do
  assert (s.value psema = 0)
  let s ← if s.listEmpty (.waiters psema) = false then do
      let (s, elem) ← s.listPop (.waiters psema)
      let threadBlocked ← elem2entry .general elem
      s.taskUnblock threadBlocked
    else pure s
  let s := s.setValue psema fun value => value + 1
  assert (s.value psema = 1)
  return s

/-- `lock_acquire` of a lock that does not have to be waited for. -/
def lockAcquire (s : LinkedSched κ) (plock : LockId) : Except Stop (LinkedSched κ) := do
  if (s.lock plock).holder ≠ some s.currentTask then
    if s.value (.ofLock plock) = 0 then throw .wouldBlock
    let s ← s.semaTake (.ofLock plock)
    let s := s.setLock plock fun p => { p with holder := some s.currentTask }
    assert ((s.lock plock).holderRepeatNr = 0)
    return s.setLock plock fun p => { p with holderRepeatNr := 1 }
  else
    return s.setLock plock fun p => { p with holderRepeatNr := p.holderRepeatNr + 1 }

def lockRelease (s : LinkedSched κ) (plock : LockId) : Except Stop (LinkedSched κ) := do
  assert ((s.lock plock).holder = some s.currentTask)
  if (s.lock plock).holderRepeatNr > 1 then
    return s.setLock plock fun p => { p with holderRepeatNr := p.holderRepeatNr - 1 }
  assert ((s.lock plock).holderRepeatNr = 1)
  let s := s.setLock plock fun _ => ⟨none, 0⟩
  s.semaUp (.ofLock plock)

def tidPoolInit (s : LinkedSched κ) : LinkedSched κ :=
  let s := { s with tidStart := 1, tidBitmap := ⟨125100, Vector.replicate 125100 0⟩ }
  s.lockInit .tid

def allocateTid (s : LinkedSched κ) : Except Stop (LinkedSched κ × Int16) := do
  let s ← s.lockAcquire .tid
  let bitIdx ← s.tidBitmap.bitmapScan 1
  let btmp ← s.tidBitmap.bitmapSet bitIdx.toUInt32 1
  let s ← { s with tidBitmap := btmp }.lockRelease .tid
  return (s, (bitIdx.toUInt32 + s.tidStart).toUInt16.toInt16)

def releaseTid (s : LinkedSched κ) (tid : Int16) : Except Stop (LinkedSched κ) := do
  let s ← s.lockAcquire .tid
  let bitIdx := tid.toInt32.toUInt32 - s.tidStart
  let btmp ← s.tidBitmap.bitmapSet bitIdx 0
  { s with tidBitmap := btmp }.lockRelease .tid

/-- `tid_check` of the element that `list_traversal` has reached. -/
def tidCheck (s : LinkedSched κ) (pelem : TagCell) (tid : Int32) : Bool :=
  match elem2entry .allList pelem with
  | .ok ptask => (s.task ptask).tid.toInt32 = tid
  | .error _ => false

/-- The inner `none` is `NULL`. -/
def tid2task (s : LinkedSched κ) (tid : Int16) : Except Stop (Option TaskAddr) :=
  match Intrusive.listTraversal (s.taskAllNums.toNat + 1) s.links .all s.tidCheck tid.toInt32 with
  | none => .error .diverges
  | some none => .ok none
  | some (some pelem) => (elem2entry .allList pelem).map some

section Birth

variable [Inhabited κ]

def initTask (s : LinkedSched κ) (ptask stack : ℕ) (name : List UInt8) (prio : Int32) :
    Except Stop (LinkedSched κ) := do
  let s := s.clear ptask
  if 32 ≤ name.length then throw .outOfBounds
  let s := s.setTask ptask fun p => { p with name := name }
  let s := if ptask = s.mainTask
    then { s.setTask ptask (fun p => { p with status := .running, first := false }) with
      currentTask := ptask }
    else s.setTask ptask fun p => { p with status := .ready, first := true }
  let (s, tid) ← s.allocateTid
  let s := { s with alloc := insert stack s.alloc }
  return s.setTask ptask fun p => { p with
    tid := tid
    stackMinAddr := stack
    priority := prio.toUInt32.toUInt8
    ticks := prio.toUInt32.toUInt8
    elapsedTicks := 0
    stackMagic := TaskStruct.magic
    sleepMillisecond := 0
    isHook := false
    isCollaborativeSchedule := false }

def taskCreate (s : LinkedSched κ) (ptask : TaskAddr) (entry : κ) : LinkedSched κ :=
  s.setTask ptask fun p => { p with context := entry }

def taskStart (s : LinkedSched κ) (mem stack : ℕ) (name : List UInt8) (prio : Int32) (entry : κ) :
    Except Stop (LinkedSched κ × TaskAddr) := do
  let (s, task) ← if s.listEmpty .pool = false then do
      let (s, taskTag) ← s.listPop .pool
      let task ← elem2entry .pool taskTag
      assert (TaskStatus.died ≠ (s.task task).status)
      pure (s, task)
    else pure ({ s with alloc := insert mem s.alloc }, mem)
  let s ← s.initTask task stack name prio
  let s := s.taskCreate task entry
  let found ← s.elemFind .ready ⟨task, .general⟩
  assert (found = false)
  let s ← s.listAppend .ready ⟨task, .general⟩
  let found ← s.elemFind .all ⟨task, .allList⟩
  assert (found = false)
  let s ← s.listAppend .all ⟨task, .allList⟩
  return ({ s with taskAllNums := s.taskAllNums + 1 }, task)

def taskInit (s : LinkedSched κ) (mem stack : ℕ) : Except Stop (LinkedSched κ) := do
  let s := ((s.listInit .ready).listInit .all).listInit .pool
  let s := { s with taskAllNums := 0 }
  let s := s.tidPoolInit
  let s := { s with alloc := insert mem s.alloc, mainTask := mem }
  let s ← s.initTask mem stack [109, 97, 105, 110] 3
  let found ← s.elemFind .all ⟨s.mainTask, .allList⟩
  assert (found = false)
  let s ← s.listAppend .all ⟨s.mainTask, .allList⟩
  return { s with taskAllNums := s.taskAllNums + 1 }

end Birth

def taskExit (s : LinkedSched κ) (task : TaskAddr) : Except Stop (LinkedSched κ × κ) := do
  let s := s.setStatus task .died
  let found ← s.elemFind .ready ⟨task, .general⟩
  let s ← if found then s.listRemove ⟨task, .general⟩ else pure s
  let s ← s.listRemove ⟨task, .allList⟩
  let s := { s with taskAllNums := s.taskAllNums - 1 }
  let s ← if task ≠ s.mainTask then s.listAppend .pool ⟨task, .pool⟩ else pure s
  let s ← s.releaseTid (s.task task).tid
  s.diedTaskSchedule

def collaborativeScheduleHelper (s : LinkedSched κ) (task : TaskAddr) :
    Except Stop (LinkedSched κ) := do
  let found ← s.elemFind .ready ⟨task, .general⟩
  assert (found = false)
  let s ← s.listAppend .ready ⟨task, .general⟩
  return s.setTask task fun p => { p with
    ticks := p.priority
    status := .ready
    isCollaborativeSchedule := false
    sleepMillisecond := 0 }

def freeTask (s : LinkedSched κ) (task : TaskAddr) : LinkedSched κ :=
  { s with alloc := (s.alloc.erase (s.task task).stackMinAddr).erase task }

/-- The loop of `clean_dead_task`; every round pops. -/
def cleanLoop : ℕ → ℤ → LinkedSched κ → Except Stop (LinkedSched κ)
  | 0, _, _ => .error .diverges
  | fuel + 1, cleanCnt, s =>
    if s.listEmpty .pool = true ∨ cleanCnt = 0 then do
      let (s, taskTag) ← s.listPop .pool
      let task ← elem2entry .pool taskTag
      cleanLoop fuel (cleanCnt - 1) (s.freeTask task)
    else .ok s

/-- In the second round the count is negative, so there is no third one. -/
def cleanDeadTask (s : LinkedSched κ) : Except Stop (LinkedSched κ) :=
  if s.listEmpty .pool = true then .ok s
  else
    let cleanCnt := if s.taskAllNums.tdiv 8 > 16 then 16 else s.taskAllNums.tdiv 8
    cleanLoop 2 cleanCnt s

/-- `pTmr->timerFn(pTmr->pParam)`; a function of the users leaves the scheduler alone. -/
def callLibrary (n : Timer.TimerNode) (s : LinkedSched κ) : Except Stop (LinkedSched κ) :=
  match n.timerFn with
  | .cleanDeadTask => s.cleanDeadTask
  | .collaborativeScheduleHelper => s.collaborativeScheduleHelper n.pParam
  | .user _ => .ok s

def onLinked : Timer.Callback (Except Stop (LinkedSched κ)) := fun _ n c =>
  (c.1, c.2.bind (callLibrary n))

/-- `run_timer` at the clock reading `now`. -/
def runTimer (now : UInt32) (timers : Timer.TimerState) (s : LinkedSched κ) :
    Except Stop (Timer.TimerState × LinkedSched κ) := do
  let s ← s.lockAcquire .timer
  match Sched.runTimerLoop onLinked now (2 ^ 32) (timers, .ok s) with
  | none => .error .diverges
  | some (timers, r) => do
    let s ← r
    let s ← s.lockRelease .timer
    return (timers, s)

/-- `create_timer` with its lock, after a `malloc` that succeeds. -/
def createTimerLocked (timers : Timer.TimerState) (s : LinkedSched κ) (malloc : Timer.Addr)
    (timerFn : Timer.TimerFn) (pParam : ℕ) (uDueTime uPeriod : UInt32) :
    Except Stop (Timer.TimerState × LinkedSched κ) := do
  let s ← s.lockAcquire .timer
  let timers := (Timer.createTimer timers (some malloc) (some timerFn) pParam uDueTime uPeriod).1
  let s ← s.lockRelease .timer
  return (timers, s)

def interruptTimerHandler (now : UInt32) (malloc : Timer.Addr) (timers : Timer.TimerState)
    (s : LinkedSched κ) (frame : κ) : Except Stop (Timer.TimerState × LinkedSched κ × κ) := do
  assert (s.current.stackMagic = TaskStruct.magic)
  let s := s.setTask s.currentTask fun p => { p with elapsedTicks := p.elapsedTicks + 1 }
  let (timers, s) ← runTimer now timers s
  if s.current.isCollaborativeSchedule = false ∧ s.current.ticks = 0 then do
    let (s, frame) ← s.schedule frame
    return (timers, s, frame)
  else if s.current.isCollaborativeSchedule = false then
    return (timers, s.setTask s.currentTask fun p => { p with ticks := p.ticks - 1 }, frame)
  else do
    let (timers, s) ← createTimerLocked timers s malloc .collaborativeScheduleHelper s.currentTask
      s.current.sleepMillisecond 0
    let (s, frame) ← s.collaborativeSchedule frame
    return (timers, s, frame)

def coEnableHookSys (s : LinkedSched κ) : LinkedSched κ :=
  s.setTask s.currentTask fun p => { p with isHook := true }

def requestSleep (s : LinkedSched κ) (millisecond : UInt32) : LinkedSched κ :=
  s.setTask s.currentTask fun p => { p with
    isCollaborativeSchedule := true
    sleepMillisecond := millisecond }

/-- The globals before `task_init`. The waiters lists are initialised with their
semaphores. -/
def boot [Inhabited κ] (value : SemaId → UInt8) : LinkedSched κ where
  task := fun _ => TaskStruct.zero
  links
    | .head (.waiters i) => ⟨none, some (.tail (.waiters i))⟩
    | .tail (.waiters i) => ⟨some (.head (.waiters i)), none⟩
    | _ => ⟨none, none⟩
  alloc := ∅
  currentTask := 0
  mainTask := 0
  taskAllNums := 0
  tidBitmap := ⟨0, Vector.replicate 0 0⟩
  tidStart := 0
  lock := fun _ => ⟨none, 0⟩
  value
    | .ofLock _ => 1
    | .user n => value (.user n)

end LinkedSched
end Libtask
