import Mathlib
import Libtask.Machine.Statement
import Libtask.Transition

/-!
# The program, one statement at a time

`effect` is what a statement does to the data, `next` what it puts in front of
the code that is left. The statements of a context switch also exchange the
flow of control. A signal may be delivered whenever it is not blocked.

The callbacks of users are taken to return without calling the library. The
ready list and the lists of waiters are kept apart, while `general_tag` links a task
into either: the two agree as long as no task is linked into a second list.
-/
namespace Libtask.Machine
open Timer Transition

/-- The data of the program. `unlinked` holds the timer nodes that `create_timer`
has allocated and not yet linked. -/
structure Memory where
  timers : TimerState
  sched : Sched Ctx
  unlinked : Finset Addr

/-- A callback of a user touches nothing here. -/
def callTimer (n : TimerNode) (s : Sched Ctx) : Except Stop (Sched Ctx) :=
  match n.timerFn with
  | .user _ => .ok s
  | _ => Sched.callTimer n s

/-- The effect of the statements that touch the tasks, semaphores and locks.
`malloc` is the answer to a request for memory. -/
def Stmt.act (malloc : Option ℕ) (s : Sched Ctx) : Stmt → Except Stop (Sched Ctx)
  | .poolPop _ _ =>
    match s.taskPoolList with
    | [] => .error .emptyPop
    | t :: rest => .ok { s with taskPoolList := rest, taskTag := t }
  | .poolAssert task _ _ => do
    assert (TaskStatus.died ≠ (s.task task).status)
    return s
  | .mallocTask _ _ =>
    match malloc with
    | none => .error .outOfBounds
    | some p => .ok { s with alloc := insert p s.alloc }
  | .initZero ptask name _ =>
    if 32 ≤ name.length then .error .outOfBounds
    else .ok (s.setTask ptask fun _ => { (TaskStruct.zero : TaskStruct Ctx) with name := name })
  | .initStatus ptask _ =>
    if ptask = s.mainTask then
      .ok { s.setTask ptask (fun p => { p with status := .running, first := false }) with
        currentTask := ptask }
    else .ok (s.setTask ptask fun p => { p with status := .ready, first := true })
  | .bitmapScan _ _ => do
    let _ ← s.tidBitmap.bitmapScan 1
    return s
  | .bitmapSet _ _ bitIdx => do
    let btmp ← s.tidBitmap.bitmapSet bitIdx.toUInt32 1
    return { s with tidBitmap := btmp }
  | .initTid ptask _ bitIdx =>
    .ok (s.setTask ptask fun p => { p with
      tid := (bitIdx.toUInt32 + s.tidStart).toUInt16.toInt16 })
  | .initStack ptask prio =>
    match malloc with
    | none => .error .outOfBounds
    | some stack => .ok ({ s with alloc := insert stack s.alloc }.setTask ptask fun p => { p with
        stackMinAddr := stack
        priority := prio.toUInt32.toUInt8
        ticks := prio.toUInt32.toUInt8
        elapsedTicks := 0
        stackMagic := TaskStruct.magic
        sleepMillisecond := 0
        isHook := false
        isCollaborativeSchedule := false })
  | .taskCreate ptask => .ok (s.setTask ptask fun p => { p with
      context := ⟨[taskEntrance], false, true⟩ })
  | .startReady task => do
    assert (task ∉ s.taskReadyList)
    return { s with taskReadyList := s.taskReadyList ++ [task] }
  | .startAll task => do
    assert (task ∉ s.taskAllList)
    return { s with taskAllList := s.taskAllList ++ [task] }
  | .startNums => .ok { s with taskAllNums := s.taskAllNums + 1 }
  | .exitStatus task => .ok (s.setStatus task .died)
  | .exitReady task => .ok { s with taskReadyList := s.taskReadyList.erase task }
  | .exitAll task => .ok { s with taskAllList := s.taskAllList.erase task }
  | .exitNums => .ok { s with taskAllNums := s.taskAllNums - 1 }
  | .exitPool task =>
    if task ≠ s.mainTask then .ok { s with taskPoolList := s.taskPoolList ++ [task] } else .ok s
  | .bitmapClear tid => do
    let btmp ← s.tidBitmap.bitmapSet (tid.toInt32.toUInt32 - s.tidStart) 0
    return { s with tidBitmap := btmp }
  | .readyAssert => do
    assert (s.taskReadyList ≠ [])
    return s
  | .readyPop _ =>
    match s.taskReadyList with
    | [] => .error .emptyPop
    | t :: rest => .ok { s with taskReadyList := rest, taskTag := t }
  | .markRunning _ next => .ok (s.setStatus next .running)
  | .setCurrent next => .ok { s with currentTask := next }
  | .blockAssert status => do
    assert status.Suspended
    return s
  | .blockStatus status => .ok (s.setStatus s.currentTask status)
  | .unblockAssert ptask => do
    assert (s.task ptask).status.Suspended
    return s
  | .unblockPush ptask => do
    assert (ptask ∉ s.taskReadyList)
    return { s with taskReadyList := ptask :: s.taskReadyList }
  | .unblockStatus ptask => .ok (s.setStatus ptask .ready)
  | .semaQueue psema => do
    assert (s.currentTask ∉ (s.sema psema).waiters)
    return s.setSema psema fun p => { p with waiters := p.waiters ++ [s.currentTask] }
  | .semaTake psema => .ok (s.setSema psema fun p => { p with value := p.value - 1 })
  | .semaTaken psema | .semaUpAssert psema => do
    assert ((s.sema psema).value = 0)
    return s
  | .semaPop psema =>
    match (s.sema psema).waiters with
    | [] => .error .emptyPop
    | _ :: rest => .ok (s.setSema psema fun p => { p with waiters := rest })
  | .semaInc psema => .ok (s.setSema psema fun p => { p with value := p.value + 1 })
  | .semaGiven psema => do
    assert ((s.sema psema).value = 1)
    return s
  | .lockSetHolder plock => .ok (s.setLock plock fun p => { p with holder := some s.currentTask })
  | .lockAssertNr plock nr => do
    assert ((s.lock plock).holderRepeatNr = nr)
    return s
  | .lockSetNr plock nr => .ok (s.setLock plock fun p => { p with holderRepeatNr := nr })
  | .lockInc plock =>
    .ok (s.setLock plock fun p => { p with holderRepeatNr := p.holderRepeatNr + 1 })
  | .lockAssertHolder plock => do
    assert ((s.lock plock).holder = some s.currentTask)
    return s
  | .lockDec plock =>
    .ok (s.setLock plock fun p => { p with holderRepeatNr := p.holderRepeatNr - 1 })
  | .lockClearHolder plock => .ok (s.setLock plock fun p => { p with holder := none })
  | .tickAssert => do
    assert (s.current.stackMagic = TaskStruct.magic)
    return s
  | .tickElapsed =>
    .ok (s.setTask s.currentTask fun p => { p with elapsedTicks := p.elapsedTicks + 1 })
  | .tickDec => .ok (s.setTask s.currentTask fun p => { p with ticks := p.ticks - 1 })
  | .schedAssert => do
    assert (s.currentTask ∉ s.taskReadyList)
    return s
  | .schedAppend => .ok { s with taskReadyList := s.taskReadyList ++ [s.currentTask] }
  | .schedTicks => .ok (s.setTask s.currentTask fun p => { p with ticks := p.priority })
  | .schedStatus => .ok (s.setStatus s.currentTask .ready)
  | .enableHook => .ok (s.setTask s.currentTask fun p => { p with isHook := true })
  | .hookFlag _ _ =>
    .ok (s.setTask s.currentTask fun p => { p with isCollaborativeSchedule := true })
  | .hookSet set => .ok (s.setTask s.currentTask fun p => { p with sleepMillisecond := set })
  | .hookAdd add =>
    .ok (s.setTask s.currentTask fun p => { p with sleepMillisecond := p.sleepMillisecond + add })
  | _ => .ok s

/-- The effect of a statement on the data. -/
def Stmt.effect (malloc : Option ℕ) (m : Memory) : Stmt → Except Stop Memory
  | .timerLoop uJiffies =>
    match Sched.runTimerLoop (Sched.onSched callTimer) uJiffies (2 ^ 32)
      (m.timers, .ok m.sched) with
    | none => .error .diverges
    | some (timers, sched) => do
      let sched ← sched
      return { m with timers := timers, sched := sched }
  | .createTimer _ _ _ _ =>
    match malloc with
    | none => .ok m
    | some p => .ok { m with unlinked := insert p m.unlinked }
  | .timerAdd p timerFn pParam uDueTime uPeriod => .ok { m with
      timers := (Timer.createTimer m.timers (some p) (some timerFn) pParam uDueTime uPeriod).1
      unlinked := m.unlinked.erase p }
  | stmt => do
    let sched ← stmt.act malloc m.sched
    return { m with sched := sched }

/-- The statements that follow a statement, given the data before it and whether
SIGALRM is blocked. -/
def Stmt.next (malloc : Option ℕ) (masked : Bool) (s : Sched Ctx) : Stmt → List Stmt
  | .disable f => f.body ++ .enable f masked :: f.rest
  | .exitCurrent =>
    (Fn.taskExit s.currentTask).body ++ .enable (.taskExit s.currentTask) masked ::
      (Fn.taskExit s.currentTask).rest
  | .poolTest name prio =>
    if s.taskPoolList ≠ [] then [.poolPop name prio] else [.mallocTask name prio]
  | .poolPop name prio => s.taskPoolList.head?.toList.map fun t => .poolAssert t name prio
  | .poolAssert task name prio => [.initZero task name prio]
  | .mallocTask name prio => malloc.toList.map fun p => .initZero p name prio
  | .initZero ptask _ prio => [.initStatus ptask prio]
  | .initStatus ptask prio => lockAcquire .tid ++ [.bitmapScan ptask prio]
  | .bitmapScan ptask prio =>
    match s.tidBitmap.bitmapScan 1 with
    | .ok bitIdx => [.bitmapSet ptask prio bitIdx]
    | .error _ => []
  | .bitmapSet ptask prio bitIdx => lockRelease .tid ++ [.initTid ptask prio bitIdx]
  | .initTid ptask prio _ => [.initStack ptask prio]
  | .initStack ptask _ => [.taskCreate ptask]
  | .taskCreate ptask => [.startReady ptask]
  | .startReady task => [.startAll task]
  | .startAll _ => [.startNums]
  | .exitStatus task => [.exitReady task]
  | .exitReady task => [.exitAll task]
  | .exitAll task => [.exitNums, .exitPool task]
  | .exitPool task => [.releaseTid task]
  | .releaseTid task => lockAcquire .tid ++ .bitmapClear (s.task task).tid :: lockRelease .tid
  | .readyTest path =>
    if s.taskReadyList = [] then [.spin .emptyReadyList]
    else if path = .block then [.readyAssert, .readyPop path] else [.readyPop path]
  | .readyPop path => [.takeTag path]
  | .takeTag path => [.markRunning path s.taskTag]
  | .markRunning path next =>
    match path with
    | .schedule | .collaborative => [.saveFrame next]
    | .died => [.setCurrent next, .contextSet]
    | .block => [.swapTemp next]
  | .saveFrame next => [.setCurrent next, .loadFrame]
  | .swapTemp next => [.setCurrent next, .contextSwap s.currentTask next]
  | .blockAssert status => [.blockStatus status]
  | .blockStatus _ => [.readyTest .block]
  | .unblockAssert ptask => [.unblockTest ptask]
  | .unblockTest ptask => if (s.task ptask).status ≠ .ready then [.unblockPush ptask] else []
  | .unblockPush ptask => [.unblockStatus ptask]
  | .semaTest psema =>
    if (s.sema psema).value = 0 then [.semaQueue psema] else [.semaTake psema]
  | .semaQueue psema => taskBlock .blocked ++ [.semaTest psema]
  | .semaTake psema => [.semaTaken psema]
  | .semaUpAssert psema => [.semaWake psema]
  | .semaWake psema => if (s.sema psema).waiters ≠ [] then [.semaPop psema] else [.semaInc psema]
  | .semaPop psema =>
    ((s.sema psema).waiters.head?.toList.map fun t => .disable (.taskUnblock t)) ++ [.semaInc psema]
  | .semaInc psema => [.semaGiven psema]
  | .lockTest plock =>
    if (s.lock plock).holder ≠ some s.currentTask then
      [.disable (.semaDown (.ofLock plock)), .lockSetHolder plock, .lockAssertNr plock 0,
        .lockSetNr plock 1]
    else [.lockInc plock]
  | .lockTestNr plock =>
    if (s.lock plock).holderRepeatNr > 1 then [.lockDec plock]
    else [.lockAssertNr plock 1, .lockClearHolder plock, .lockSetNr plock 0,
      .disable (.semaUp (.ofLock plock))]
  | .tickTest =>
    if s.current.isCollaborativeSchedule = false ∧ s.current.ticks = 0 then [.schedAssert]
    else [.tickTestFlag]
  | .tickTestFlag =>
    if s.current.isCollaborativeSchedule = false then [.tickDec]
    else [.tickCreate, .readyTest .collaborative]
  | .tickCreate =>
    [.createTimer .collaborativeScheduleHelper s.currentTask s.current.sleepMillisecond 0]
  | .createTimer timerFn pParam uDueTime uPeriod =>
    match malloc with
    | none => []
    | some p =>
      lockAcquire .timer ++ .timerAdd p timerFn pParam uDueTime uPeriod :: lockRelease .timer
  | .schedAssert => [.schedAppend]
  | .schedAppend => [.schedTicks]
  | .schedTicks => [.schedStatus]
  | .schedStatus => [.readyTest .schedule]
  | .hookTest set add => if s.current.isHook = true then [.hookFlag set add] else []
  | .hookFlag set add => .hookSet set :: add.toList.map .hookAdd ++ [.hookSpin]
  | .hookSpin => if s.current.isCollaborativeSchedule = true then [.hookSpin] else []
  | .spin why => [.spin why]
  | _ => []

/-- Whether SIGALRM is blocked after a statement. -/
def Stmt.mask (masked : Bool) : Stmt → Bool
  | .disable _ | .exitCurrent => true
  | .enable _ _ => false
  | _ => masked

/-- What results about runs speak of, besides the data. A task is on its way
to semaphore `i` from the moment a `sema_up` takes it off the waiters until its
test of the value has had its outcome. -/
structure Record where
  onWay : SemaId → Finset TaskAddr

def Record.note (r : Record) (s : Sched Ctx) : Stmt → Record
  | .semaPop psema =>
    let popped := ((s.sema psema).waiters.take 1).toFinset
    { r with onWay := Function.update r.onWay psema (popped ∪ r.onWay psema) }
  | .semaQueue psema | .semaTake psema =>
    let left := (r.onWay psema).erase s.currentTask
    { r with onWay := Function.update r.onWay psema left }
  | _ => r

/-- The running flow, whether SIGALRM is blocked, and the rest. -/
structure State where
  masked : Bool
  stack : List (List Stmt)
  memory : Memory
  record : Record

/-- A statement has had its effect. A failed assertion ends in a spin loop; other stops
leave what C defines. -/
def State.after (s : State) (malloc : Option ℕ) (stmt : Stmt) (code : List Stmt)
    (tail : List (List Stmt)) : Except Stop Memory → Option State
  | .ok memory => some {
      masked := stmt.mask s.masked
      stack := (stmt.next malloc s.masked s.memory.sched ++ code) :: tail
      memory := memory
      record := s.record.note s.memory.sched stmt }
  | .error .assertion => some { s with stack := (.spin .assertion :: code) :: tail }
  | .error _ => none

/-- One statement: `code` is left in its frame and `tail` are the frames below. -/
def State.exec (s : State) (malloc : Option ℕ) (stmt : Stmt) (code : List Stmt)
    (tail : List (List Stmt)) : Option State :=
  let sched := s.memory.sched
  match stmt with
  | .user => none
  | .saveFrame _ =>
    -- the interrupted frames are the context of the signal frame
    some { s with
      memory := { s.memory with
        sched := sched.setTask sched.currentTask fun p => { p with
          context := ⟨tail, false, true⟩ } }
      stack := (stmt.next malloc s.masked sched ++ code) :: tail }
  | .loadFrame =>
    -- the return from the signal into a context without segment registers kills the process
    if sched.current.context.filled = true then
      some { s with stack := code :: sched.current.context.stack }
    else none
  | .contextSwap temp next =>
    let saved := sched.setTask temp fun p => { p with
      context := ⟨code :: tail, s.masked, p.context.filled⟩ }
    some { s with
      memory := { s.memory with sched := saved }
      stack := (saved.task next).context.stack }
  | .contextSet => some { s with stack := sched.current.context.stack }
  | stmt => s.after malloc stmt code tail (stmt.effect malloc s.memory)

inductive Op
  | tick (uJiffies : UInt32)
  | sigreturn
  | call (c : Call)
  | ret
  | run (malloc : Option ℕ)
  deriving DecidableEq, Repr

/-- `malloc` gives no block in use. A signal starts the handler on the stack of
the interrupted flow, with SIGALRM blocked; the return from it unblocks. The return of `main`
ends the program. -/
inductive Step (s : State) : Op → State → Prop
  | tick {uJiffies : UInt32} {code : List Stmt} {tail : List (List Stmt)}
      (hmask : s.masked = false) (hstack : s.stack = code :: tail) :
      Step s (.tick uJiffies) { s with
        masked := true
        stack := interruptTimerHandler uJiffies :: code :: tail }
  | sigreturn {code : List Stmt} {tail : List (List Stmt)} (hstack : s.stack = [] :: code :: tail) :
      Step s .sigreturn { s with masked := false, stack := code :: tail }
  | call {c : Call} {code : List Stmt} {tail : List (List Stmt)} (hallowed : c.Allowed)
      (hstack : s.stack = (.user :: code) :: tail) :
      Step s (.call c) { s with stack := (c.code ++ .user :: code) :: tail }
  | ret {code : List Stmt} {tail : List (List Stmt)} (hcode : code ≠ [])
      (hstack : s.stack = (.user :: code) :: tail) : Step s .ret { s with stack := code :: tail }
  | run {malloc : Option ℕ} {stmt : Stmt} {code : List Stmt} {tail : List (List Stmt)} {t : State}
      (hfresh : ∀ p ∈ malloc, p ∉ s.memory.sched.alloc ∧ p ∉ s.memory.timers.heap ∧
        p ∉ s.memory.unlinked)
      (hstack : s.stack = (stmt :: code) :: tail) (h : s.exec malloc stmt code tail = some t) :
      Step s (.run malloc) t

instance (c : Call) : Decidable c.Allowed := by
  unfold Call.Allowed Sched.Callers
  cases c <;> infer_instance

/-- The step of an operation, computed. -/
def State.apply (s : State) (op : Op) : Option State :=
  match op, s.stack with
  | .tick uJiffies, code :: tail =>
    if s.masked = false then some { s with
      masked := true
      stack := interruptTimerHandler uJiffies :: code :: tail }
    else none
  | .sigreturn, [] :: code :: tail => some { s with masked := false, stack := code :: tail }
  | .call c, (.user :: code) :: tail =>
    if c.Allowed then some { s with stack := (c.code ++ .user :: code) :: tail } else none
  | .ret, (.user :: stmt :: code) :: tail => some { s with stack := (stmt :: code) :: tail }
  | .run none, (stmt :: code) :: tail => s.exec none stmt code tail
  | .run (some p), (stmt :: code) :: tail =>
    if p ∉ s.memory.sched.alloc ∧ p ∉ s.memory.timers.heap ∧ p ∉ s.memory.unlinked then
      s.exec (some p) stmt code tail
    else none
  | _, _ => none

theorem step_of_apply {s t : State} {op : Op} (h : s.apply op = some t) : Step s op t := by
  unfold State.apply at h
  split at h
  next hstack =>
    split_ifs at h with hmask
    obtain rfl := Option.some.inj h
    exact .tick hmask hstack
  next hstack =>
    obtain rfl := Option.some.inj h
    exact .sigreturn hstack
  next hstack =>
    split_ifs at h with hallowed
    obtain rfl := Option.some.inj h
    exact .call hallowed hstack
  next hstack =>
    obtain rfl := Option.some.inj h
    exact .ret (List.cons_ne_nil _ _) hstack
  next hstack => exact .run nofun hstack h
  next p stmt code tail hstack =>
    split_ifs at h with hfresh
    exact .run (fun q hq => Option.some.inj hq ▸ hfresh) hstack h
  next => cases h

/-- The statements that do not exchange the flow of control. -/
def Stmt.Plain : Stmt → Prop
  | .user | .saveFrame _ | .loadFrame | .contextSwap _ _ | .contextSet => False
  | _ => True

lemma exec_of_plain {stmt : Stmt} (hplain : stmt.Plain) (s : State) (malloc : Option ℕ)
    (code : List Stmt) (tail : List (List Stmt)) :
    s.exec malloc stmt code tail = s.after malloc stmt code tail (stmt.effect malloc s.memory) := by
  cases stmt <;> first | rfl | cases hplain

/-- After `init()`: the main task is in the code of `main`. -/
def system : System State Op where
  init s := ∃ value mem stack b, (Sched.boot value).taskInit mem stack = .ok s.memory.sched ∧
    s.memory.timers = timerInit b ∧ s.memory.unlinked = ∅ ∧
    s.masked = false ∧ s.stack = [[.user]] ∧ s.record = ⟨fun _ => ∅⟩
  step := Step

/-- A computed run arrives. -/
theorem reachable_of_apply {s t : State} (hs : system.Reachable s) {ops : List Op}
    (h : ops.foldlM State.apply s = some t) : system.Reachable t := by
  induction ops generalizing s with
  | nil =>
    obtain rfl := Option.some.inj h
    exact hs
  | cons op ops ih =>
    rw [List.foldlM_cons] at h
    obtain ⟨m, hm, hrest⟩ := Option.bind_eq_some_iff.mp h
    exact ih (hs.step trivial (step_of_apply hm)) hrest

/-- The step of an operation that passes a test. -/
def State.applyIf (check : State → Op → Bool) (s : State) (op : Op) : Option State :=
  if check s op = true then s.apply op else none

/-- A computed run whose operations pass a test. -/
theorem reach_of_applyIf {S : System State Op} (hS : S.step = Step) {check : State → Op → Bool}
    {s t : State} (hs : S.Reach (fun s op => check s op = true) s) {ops : List Op}
    (h : ops.foldlM (State.applyIf check) s = some t) :
    S.Reach (fun s op => check s op = true) t := by
  induction ops generalizing s with
  | nil =>
    obtain rfl := Option.some.inj h
    exact hs
  | cons op ops ih =>
    rw [List.foldlM_cons] at h
    obtain ⟨m, hm, hrest⟩ := Option.bind_eq_some_iff.mp h
    rw [State.applyIf] at hm
    split_ifs at hm with hcheck
    exact ih (hs.step hcheck (hS ▸ step_of_apply hm)) hrest

/-- A computed run arrives in a state with a property. -/
theorem exists_reachable {s : State} (hs : system.Reachable s) {ops : List Op} {P : State → Bool}
    (h : (ops.foldlM State.apply s).any P = true) : ∃ t, system.Reachable t ∧ P t = true := by
  obtain ⟨t, ht, hP⟩ := (Option.any_eq_true P _).mp h
  exact ⟨t, reachable_of_apply hs ht, hP⟩

/-- The bitmap of the task ids after `init()`. -/
def mainBitmap : Bitmap :=
  ((Sched.boot (fun _ => 0) : Sched Ctx).taskInit 1 2).toOption.elim ⟨0, Vector.replicate 0 0⟩
    Sched.tidBitmap

/-- The main task, at block 1, after `init()`; the semaphores of the users are 0. -/
def mainState : State where
  masked := false
  stack := [[.user]]
  memory :=
    { timers := timerInit 1
      sched := { (Sched.boot fun _ => 0 : Sched Ctx) with
        task := Function.update (Sched.boot fun _ => 0).task 1 (Sched.mainTaskStruct 2)
        alloc := {2, 1}
        currentTask := 1
        mainTask := 1
        taskAllList := [1]
        taskAllNums := 1
        tidStart := 1
        tidBitmap := mainBitmap }
      unlinked := ∅ }
  record := ⟨fun _ => ∅⟩

lemma mainBitmap_spec : mainBitmap.size = 1000800 ∧ (∀ i, mainBitmap.bit i = decide (i = 0)) ∧
    (Sched.boot fun _ => 0).taskInit 1 2 = .ok mainState.memory.sched := by
  obtain ⟨b', hsize, hbit, heq⟩ := Sched.taskInit_spec (κ := Ctx) (fun _ => 0) 1 2
  have hbitmap : mainBitmap = b' := by
    rw [mainBitmap, heq]
    rfl
  rw [← hbitmap] at hsize hbit heq
  exact ⟨hsize, hbit, heq⟩

lemma mainState_init : system.init mainState :=
  ⟨fun _ => 0, 1, 2, 1, mainBitmap_spec.2.2, rfl, rfl, rfl, rfl, rfl⟩

/-- The runs from there. -/
def mainSystem : System State Op where
  init s := s = mainState
  step := Step

/-- The statements that keep to the running flow and link no task that a list may hold. -/
def Stmt.calm (ready : List TaskAddr) : Stmt → Bool
  | .semaQueue _ | .saveFrame _ | .loadFrame | .contextSwap _ _ | .contextSet => false
  | .timerLoop _ | .createTimer _ _ _ _ | .timerAdd _ _ _ _ _ => false
  | .schedAppend | .readyTest _ => false
  | .initZero ptask _ _ | .startReady ptask | .unblockPush ptask => ptask ∉ ready
  | _ => true

/-- A step without a signal, of a statement that does nothing but its own work. -/
def calm (s : State) : Op → Bool
  | .tick _ | .sigreturn => false
  | .call (.taskUnblock _) | .call (.lockAcquire _) | .call (.lockRelease _) => false
  | .run _ => (s.stack.head?.bind List.head?).all (Stmt.calm s.memory.sched.taskReadyList)
  | _ => true

lemma calm_run {s : State} {malloc : Option ℕ} (h : calm s (.run malloc) = true)
    {stmt : Stmt} {code : List Stmt} {tail : List (List Stmt)}
    (hstack : s.stack = (stmt :: code) :: tail) :
    stmt.calm s.memory.sched.taskReadyList = true := by
  change Option.all _ _ = true at h
  rw [hstack] at h
  exact h

/-- The main task calls `task_start` and gets the block at 3. -/
def allocOps : List Op :=
  [.call (.taskStart [] 0), .run none, .run none, .run (some 3)] ++ List.replicate 11 (.run none)

/-- `allocate_tid` holds its lock. -/
def allocating : State := (allocOps.foldlM (State.applyIf calm) mainState).getD mainState

/-- `allocate_tid` marks a bit, without a signal in between. -/
lemma reach_allocate {s : State} (hs : mainSystem.Reach (fun s op => calm s op = true) s)
    {ptask : TaskAddr} {prio bitIdx : Int32} {code : List Stmt} {tail : List (List Stmt)}
    {b : Bitmap} (hstack : s.stack = (.bitmapScan ptask prio :: code) :: tail)
    (hscan : s.memory.sched.tidBitmap.bitmapScan 1 = .ok bitIdx)
    (hset : s.memory.sched.tidBitmap.bitmapSet bitIdx.toUInt32 1 = .ok b) :
    mainSystem.Reach (fun s op => calm s op = true) { s with
      stack := ([.lockAssertHolder .tid, .lockTestNr .tid, .initTid ptask prio bitIdx] ++ code) ::
        tail
      memory := { s.memory with sched := { s.memory.sched with tidBitmap := b } } } := by
  let m : State := { s with stack := (.bitmapSet ptask prio bitIdx :: code) :: tail }
  have h1 : Step s (.run none) m := by
    have heff : (Stmt.bitmapScan ptask prio).effect none s.memory = .ok s.memory := by
      change (s.memory.sched.tidBitmap.bitmapScan 1 >>= fun _ => _) >>= _ = _
      rw [hscan]
      rfl
    have hnext : (Stmt.bitmapScan ptask prio).next none s.masked s.memory.sched =
        [.bitmapSet ptask prio bitIdx] := by
      rw [Stmt.next, hscan]
    refine Step.run nofun hstack ?_
    rw [exec_of_plain (show (Stmt.bitmapScan ptask prio).Plain from trivial), heff, State.after,
      hnext]
    rfl
  have hcalm : calm s (.run none) = true := by
    change Option.all _ _ = true
    rw [hstack]
    rfl
  have hm : mainSystem.Reach (fun s op => calm s op = true) m := hs.step hcalm h1
  have hcalm' : calm m (.run none) = true := rfl
  refine hm.step hcalm' (Step.run nofun rfl ?_)
  rw [exec_of_plain (show (Stmt.bitmapSet ptask prio bitIdx).Plain from trivial)]
  change State.after _ _ _ _ _
    ((s.memory.sched.tidBitmap.bitmapSet bitIdx.toUInt32 1 >>= _) >>= _) = _
  rw [hset]
  rfl

lemma mainBitmap_scan :
    mainBitmap.bitmapScan 1 = .ok 1 ∧ ∃ b, mainBitmap.bitmapSet 1 1 = .ok b := by
  obtain ⟨hsize, hbit, -⟩ := mainBitmap_spec
  obtain ⟨i, hi, hclear, hleast, hscan⟩ := @Bitmap.bitmapScan_one
    mainBitmap ⟨1, by omega, by rw [hbit]; rfl⟩
  obtain rfl : i = 1 := by
    by_contra hne
    rw [hbit, decide_eq_false_iff_not] at hclear
    have h1 := hleast 1 (by omega)
    rw [hbit] at h1
    cases h1
  obtain ⟨b, hset, -, -⟩ := @Bitmap.bitmapSet_spec mainBitmap 1 (by rw [hsize]; decide) true
  exact ⟨hscan, b, hset⟩

/-- `allocate_tid` has marked bit 1. -/
def allocated : State :=
  { allocating with
    stack := [[.lockAssertHolder .tid, .lockTestNr .tid, .initTid 3 0 1,
      .enable (.taskStart [] 0) false, .user]]
    memory := { allocating.memory with
      sched := { allocating.memory.sched with
        tidBitmap := (mainBitmap.bitmapSet 1 1).toOption.getD mainBitmap } } }

theorem allocated_main : mainSystem.Reach (fun s op => calm s op = true) allocated := by
  obtain ⟨hscan, b, hset⟩ := mainBitmap_scan
  have hrun : allocOps.foldlM (State.applyIf calm) mainState = some allocating :=
    (Option.getD_of_ne_none (Option.isSome_iff_ne_none.mp (by decide +kernel)) _).symm
  have h0 := reach_of_applyIf (S := mainSystem) rfl (.init rfl) hrun
  have hstack : allocating.stack =
      [[.bitmapScan 3 0, .enable (.taskStart [] 0) false, .user]] := rfl
  have hbitmap : allocating.memory.sched.tidBitmap = mainBitmap := rfl
  have hset' : (mainBitmap.bitmapSet 1 1).toOption.getD mainBitmap = b := by
    rw [hset]
    rfl
  have h1 := reach_allocate h0 hstack (hbitmap ▸ hscan) (hbitmap ▸ hset)
  rwa [← hset'] at h1

/-- The rest of `task_start`, with a stack at 4. -/
def startOps : List Op :=
  List.replicate 12 (.run none) ++ [.run (some 4)] ++ List.replicate 5 (.run none)

/-- A second task, at block 3, with no slice of time, is ready; the main task goes on. -/
def started : State := (startOps.foldlM (State.applyIf calm) allocated).getD allocated

theorem started_main : mainSystem.Reach (fun s op => calm s op = true) started :=
  reach_of_applyIf rfl allocated_main
    (Option.getD_of_ne_none (Option.isSome_iff_ne_none.mp (by decide +kernel)) _).symm

theorem started_calm : system.Reach (fun s op => calm s op = true) started := by
  refine started_main.map (S := mainSystem) (T := system) ?_ fun _ _ _ hg hst => ⟨hg, hst⟩
  rintro s rfl
  exact mainState_init

theorem started_reachable : system.Reachable started := started_calm.reachable

/-- A tick whose handler takes `n` statements. -/
def tickOps (n : ℕ) : List Op := .tick 0 :: List.replicate n (.run none) ++ [.sigreturn]

/-- Control is in the code of `main`. -/
def inUser : List (List Stmt) → Bool
  | [[.user]] => true
  | _ => false

lemma eq_of_inUser {stack : List (List Stmt)} (h : inUser stack = true) : stack = [[.user]] := by
  unfold inUser at h
  split at h
  next => rfl
  next => cases h

lemma started_user : started.masked = false ∧ started.stack = [[.user]] :=
  ⟨by decide +kernel, eq_of_inUser (by decide +kernel)⟩

/-- The tasks after `context_swap` has saved the running flow. -/
def State.swapped (s : State) (temp : TaskAddr) (code : List Stmt) (tail : List (List Stmt)) :
    Sched Ctx :=
  s.memory.sched.setTask temp fun p => { p with
    context := ⟨code :: tail, s.masked, p.context.filled⟩ }

/-- The outcomes of a statement. -/
inductive Ran (s : State) (malloc : Option ℕ) (code : List Stmt) (tail : List (List Stmt)) :
    Stmt → State → Prop
  | plain {stmt : Stmt} {memory : Memory} (hplain : stmt.Plain)
      (h : stmt.effect malloc s.memory = .ok memory) : Ran s malloc code tail stmt {
        masked := stmt.mask s.masked
        stack := (stmt.next malloc s.masked s.memory.sched ++ code) :: tail
        memory := memory
        record := s.record.note s.memory.sched stmt }
  | stuck {stmt : Stmt} (hplain : stmt.Plain)
      (h : stmt.effect malloc s.memory = .error .assertion) :
      Ran s malloc code tail stmt { s with stack := (.spin .assertion :: code) :: tail }
  | saveFrame {next : TaskAddr} : Ran s malloc code tail (.saveFrame next) { s with
        memory := { s.memory with
          sched := s.memory.sched.setTask s.memory.sched.currentTask fun p => { p with
            context := ⟨tail, false, true⟩ } }
        stack := (.setCurrent next :: .loadFrame :: code) :: tail }
  | loadFrame (hfilled : s.memory.sched.current.context.filled = true) :
      Ran s malloc code tail .loadFrame { s with
        stack := code :: s.memory.sched.current.context.stack }
  | contextSwap {temp next : TaskAddr} : Ran s malloc code tail (.contextSwap temp next) { s with
        memory := { s.memory with sched := s.swapped temp code tail }
        stack := ((s.swapped temp code tail).task next).context.stack }
  | contextSet : Ran s malloc code tail .contextSet { s with
        stack := s.memory.sched.current.context.stack }

theorem ran_of_exec {s t : State} {malloc : Option ℕ} {stmt : Stmt} {code : List Stmt}
    {tail : List (List Stmt)} (h : s.exec malloc stmt code tail = some t) :
    Ran s malloc code tail stmt t := by
  by_cases hplain : stmt.Plain
  · rw [exec_of_plain hplain] at h
    cases heff : stmt.effect malloc s.memory with
    | ok memory =>
      rw [heff] at h
      obtain rfl := Option.some.inj h
      exact .plain hplain heff
    | error e =>
      rw [heff] at h
      cases e with
      | assertion =>
        obtain rfl := Option.some.inj h
        exact .stuck hplain heff
      | _ => cases h
  · cases stmt with
    | user => cases h
    | saveFrame next =>
      obtain rfl := Option.some.inj h
      exact .saveFrame
    | loadFrame =>
      rw [State.exec] at h
      split_ifs at h with hfilled
      obtain rfl := Option.some.inj h
      exact .loadFrame hfilled
    | contextSwap temp next =>
      obtain rfl := Option.some.inj h
      exact .contextSwap
    | contextSet =>
      obtain rfl := Option.some.inj h
      exact .contextSet
    | _ => exact absurd trivial hplain

end Libtask.Machine
