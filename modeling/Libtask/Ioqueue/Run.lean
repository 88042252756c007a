import Libtask.Ioqueue.Ring

/-!
# One ioqueue and any number of tasks

`ioq_getchar` and `ioq_putchar` statement by statement, with a preemption
possible between any two statements. The two functions differ in the side that
they are on. `sema_down`, `sema_up`, `task_block` and `task_unblock` are one
step each; `lock_acquire` and `lock_release` of `ioq->lock` are those of the
module on locks, with their own statements. Which task runs next is left open.
-/
namespace Libtask.Ioq
open Locking Transition

inductive Assertion
  /-- `assert(*waiter == NULL && waiter != NULL)` of `ioq_wait` -/
  | waiterNull
  /-- `assert(*waiter != NULL)` of `wakeup` -/
  | waiterNotNull
  /-- the assertion of `task_unblock` on the status -/
  | status
  deriving DecidableEq, Repr

/-- The next statement of a task. -/
inductive Pc
  /-- outside both functions -/
  | user
  /-- `while(ioq_empty(ioq))`, `while(ioq_full(ioq))` -/
  | test
  /-- in `lock_acquire(&ioq->lock)` -/
  | acquire
  /-- the assertion of `ioq_wait` -/
  | waitAssert
  /-- `*waiter = current_task` -/
  | waitSet
  /-- `task_block(TASK_BLOCKED)` -/
  | block
  /-- suspended in `task_block` -/
  | blocked
  /-- made ready again; `ioq_wait` returns -/
  | woken
  /-- in `lock_release(&ioq->lock)` -/
  | release
  /-- `byte = ioq->buf[ioq->tail]`, `ioq->buf[ioq->head] = byte` -/
  | access
  /-- `ioq->tail = next_pos(ioq->tail)`, `ioq->head = next_pos(ioq->head)` -/
  | advance
  /-- `if(ioq->producer != NULL)`, `if(ioq->consumer != NULL)` -/
  | wakeTest
  /-- the assertion of `wakeup` -/
  | wakeAssert
  /-- `task_unblock(*waiter)` -/
  | unblock
  /-- `*waiter = NULL` -/
  | wakeClear
  /-- an assertion has failed -/
  | failed (a : Assertion)
  /-- a null pointer was followed, or an index lies outside `buf` -/
  | fault
  deriving DecidableEq, Repr

/-- A task: its next statement, the function that it is in, and the byte that
it puts or has got. -/
structure Local where
  pc : Pc
  side : Side
  byte : UInt8
  deriving DecidableEq, Repr

/-- `stored` are the bytes over which `head` was advanced, as their callers gave
them, and `returned` those over which `tail` was, as their readers read them. -/
structure IoqRun where
  queue : Ioqueue
  locking : LockRun
  task : TaskAddr → Local
  stored : List UInt8
  returned : List UInt8

namespace IoqRun

def set (s : IoqRun) (t : TaskAddr) (l : Local) : IoqRun :=
  { s with task := Function.update s.task t l }

/-- Task `t` goes on at `pc`. -/
def goto (s : IoqRun) (t : TaskAddr) (pc : Pc) : IoqRun := s.set t { s.task t with pc := pc }

/-- `assert(c)` before `pc`. -/
def check (s : IoqRun) (t : TaskAddr) (c : Prop) [Decidable c] (a : Assertion) (pc : Pc) : IoqRun :=
  s.goto t (if c then pc else .failed a)

/-- Write to a waiter slot. -/
def setWaiter (s : IoqRun) (side : Side) (w : Option TaskAddr) : IoqRun :=
  { s with queue := { s.queue with waiter := Function.update s.queue.waiter side w } }

/-- The condition of the `while` loop. -/
def mustWait (s : IoqRun) : Side → Bool
  | .consumer => ioqEmpty s.queue
  | .producer => ioqFull s.queue

/-- One statement inside `lock_acquire` or `lock_release`; `pc` follows their
return. -/
def runLock (s : IoqRun) (t : TaskAddr) (pc : Pc) : IoqRun :=
  let locking := s.locking.run t
  { s with locking := locking }.goto t
    (if (locking.task t).pc = Locking.Pc.user then pc else (s.task t).pc)

/-- `task_unblock`. A task may also have status BLOCKED because it waits for
the lock; it is then made ready although it stays among the waiters. -/
def taskUnblock (s : IoqRun) (ptask : TaskAddr) : Option IoqRun :=
  if (s.task ptask).pc = .blocked then some (s.goto ptask .woken)
  else if (s.locking.task ptask).pc = .waiting then
    some { s with locking := s.locking.goto ptask .semaDown }
  else none

/-- The access to the buffer. -/
def access (s : IoqRun) (t : TaskAddr) : IoqRun :=
  match (s.task t).side with
  | .consumer =>
    match cell s.queue.tail with
    | none => s.goto t .fault
    | some i => s.set t { s.task t with pc := .advance, byte := s.queue.buf i }
  | .producer =>
    match cell s.queue.head with
    | none => s.goto t .fault
    | some i =>
      { s with queue := { s.queue with
        buf := Function.update s.queue.buf i (s.task t).byte } }.goto t .advance

/-- The update of the index. -/
def advance (s : IoqRun) (t : TaskAddr) : IoqRun :=
  match (s.task t).side with
  | .consumer =>
    { s with
      queue := { s.queue with tail := nextPos s.queue.tail }
      returned := s.returned ++ [(s.task t).byte] }.goto t .wakeTest
  | .producer =>
    { s with
      queue := { s.queue with head := nextPos s.queue.head }
      stored := s.stored ++ [(s.task t).byte] }.goto t .wakeTest

/-- One statement of task `t`, which is `current_task`. -/
def run (s : IoqRun) (t : TaskAddr) : IoqRun :=
  let side := (s.task t).side
  match (s.task t).pc with
  | .user | .blocked | .failed _ | .fault => s
  | .test =>
    if s.mustWait side then { s with locking := s.locking.goto t .acquireTest }.goto t .acquire
    else s.goto t .access
  | .acquire => s.runLock t .waitAssert
  | .waitAssert => s.check t (s.queue.waiter side = none) .waiterNull .waitSet
  | .waitSet => (s.setWaiter side (some t)).goto t .block
  | .block => s.goto t .blocked
  | .woken =>
    { s with locking := s.locking.set t { s.locking.task t with
      pc := .assertHolder
      releases := (s.locking.task t).releases + 1 } }.goto t .release
  | .release => s.runLock t .test
  | .access => s.access t
  | .advance => s.advance t
  | .wakeTest => s.goto t (if s.queue.waiter side.other ≠ none then .wakeAssert else .user)
  | .wakeAssert => s.check t (s.queue.waiter side.other ≠ none) .waiterNotNull .unblock
  | .unblock =>
    match s.queue.waiter side.other with
    | none => s.goto t .fault
    | some w =>
      match s.taskUnblock w with
      | none => s.goto t (.failed .status)
      | some s => s.goto t .wakeClear
  | .wakeClear => (s.setWaiter side.other none).goto t .user

end IoqRun

inductive Op
  | getchar (t : TaskAddr)
  | putchar (t : TaskAddr) (byte : UInt8)
  | run (t : TaskAddr)
  deriving DecidableEq, Repr

/-- A task calls one of the functions or runs its next statement. -/
inductive Step (s : IoqRun) : Op → IoqRun → Prop
  | getchar {t : TaskAddr} (h : (s.task t).pc = .user) :
      Step s (.getchar t) (s.set t ⟨.test, .consumer, (s.task t).byte⟩)
  | putchar {t : TaskAddr} {byte : UInt8} (h : (s.task t).pc = .user) :
      Step s (.putchar t byte) (s.set t ⟨.test, .producer, byte⟩)
  | run {t : TaskAddr} : Step s (.run t) (s.run t)

/-- After `ioqueue_init`, with every task outside the two functions. -/
def ioqStart (buf : Fin 64 → UInt8) : IoqRun :=
  ⟨ioqueueInit buf, lockStart, fun _ => ⟨.user, .consumer, 0⟩, [], []⟩

def ioqSystem : System IoqRun Op where
  init s := ∃ buf, s = ioqStart buf
  step := Step

/-- Task `c` is the only one that gets and `p` the only one that puts. -/
def OneEach (p c : TaskAddr) (_ : IoqRun) : Op → Prop
  | .getchar t => t = c
  | .putchar t _ => t = p
  | .run _ => True

@[simp] lemma set_task_self (s : IoqRun) (t : TaskAddr) (l : Local) : (s.set t l).task t = l :=
  Function.update_self ..

lemma set_task_of_ne (s : IoqRun) {t u : TaskAddr} (l : Local) (h : u ≠ t) :
    (s.set t l).task u = s.task u := Function.update_of_ne h ..

section Reach

variable {guard : IoqRun → Op → Prop} {s : IoqRun} (hs : ioqSystem.Reach guard s) {t : TaskAddr}

include hs

lemma reach_run (hg : guard s (.run t)) : ioqSystem.Reach guard (s.run t) :=
  .step hs hg (show ioqSystem.step s (.run t) (s.run t) from .run)

lemma reach_getchar (hg : guard s (.getchar t)) (hpc : (s.task t).pc = .user) :
    ioqSystem.Reach guard (s.set t ⟨.test, .consumer, (s.task t).byte⟩) :=
  .step hs hg (show ioqSystem.step s (.getchar t) _ from .getchar hpc)

lemma reach_putchar (byte : UInt8) (hg : guard s (.putchar t byte)) (hpc : (s.task t).pc = .user) :
    ioqSystem.Reach guard (s.set t ⟨.test, .producer, byte⟩) :=
  .step hs hg (show ioqSystem.step s (.putchar t byte) _ from .putchar hpc)

end Reach

/-- `task_unblock` finds the task in `ioq_wait` or in `lock_acquire`. -/
lemma taskUnblock_cases {s r : IoqRun} {w : TaskAddr} (h : s.taskUnblock w = some r) :
    ((s.task w).pc = .blocked ∧ r = s.goto w .woken) ∨
    ((s.task w).pc ≠ .blocked ∧ (s.locking.task w).pc = .waiting ∧
      r = { s with locking := s.locking.goto w .semaDown }) := by
  unfold IoqRun.taskUnblock at h
  split_ifs at h with hblocked hwaiting
  · exact .inl ⟨hblocked, (Option.some.inj h).symm⟩
  · exact .inr ⟨hblocked, hwaiting, (Option.some.inj h).symm⟩

end Libtask.Ioq
