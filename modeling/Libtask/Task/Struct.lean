import Mathlib
import Libtask.Bitmap

/-!
# Tasks, semaphores, locks and the scheduler's global data

A task is named by the address of its `task_struct`. The intrusive lists are
lists of such addresses; `general_tag` links a task into `task_ready_list` and
into the `waiters` of a semaphore, the other two tags into the other two lists.
What a context holds is left open as `κ`.
-/
namespace Libtask

abbrev TaskAddr := ℕ

/-- `enum task_status`. -/
inductive TaskStatus
  | running
  | ready
  | blocked
  | died
  | waiting
  | hanging
  deriving DecidableEq, Repr, Inhabited

/-- The statuses that `task_block` accepts and `task_unblock` expects. -/
def TaskStatus.Suspended (status : TaskStatus) : Prop :=
  status = .blocked ∨ status = .waiting ∨ status = .hanging

instance (status : TaskStatus) : Decidable status.Suspended := by
  unfold TaskStatus.Suspended
  infer_instance

/-- `struct task_struct`. -/
structure TaskStruct (κ : Type) where
  stackMinAddr : ℕ
  context : κ
  tid : Int16
  status : TaskStatus
  name : List UInt8
  priority : UInt8
  ticks : UInt8
  elapsedTicks : UInt32
  stackMagic : UInt32
  sleepMillisecond : UInt32
  first : Bool
  isHook : Bool
  isCollaborativeSchedule : Bool

def TaskStruct.magic : UInt32 := 0x19991120

/-- `memset(ptask, 0, sizeof(*ptask))`. -/
def TaskStruct.zero {κ : Type} [Inhabited κ] : TaskStruct κ where
  stackMinAddr := 0
  context := default
  tid := 0
  status := .running
  name := []
  priority := 0
  ticks := 0
  elapsedTicks := 0
  stackMagic := 0
  sleepMillisecond := 0
  first := false
  isHook := false
  isCollaborativeSchedule := false

/-- The locks of the library and those of its users. -/
inductive LockId
  /-- `tid_pool.tid_lock` -/
  | tid
  /-- `timer_manager->lock` -/
  | timer
  | user (n : ℕ)
  deriving DecidableEq, Repr

/-- A semaphore is part of a lock or stands alone. -/
inductive SemaId
  | ofLock (l : LockId)
  | user (n : ℕ)
  deriving DecidableEq, Repr

/-- `struct semaphore`. -/
structure Semaphore where
  value : UInt8
  waiters : List TaskAddr
  deriving DecidableEq, Repr

/-- `struct lock` without its semaphore, which is `SemaId.ofLock`. -/
structure Lock where
  holder : Option TaskAddr
  holderRepeatNr : UInt32
  deriving DecidableEq, Repr

/-- `sema_init`. -/
def semaInit (value : UInt8) : Semaphore := ⟨value, []⟩

/-- What `lock_init` leaves, in the lock and in its semaphore. -/
def lockInit : Lock × Semaphore := (⟨none, 0⟩, semaInit 1)

/-- The globals of `task.c`, and the semaphores and locks. `alloc` holds the
blocks that `malloc` has given out. -/
structure Sched (κ : Type) where
  task : TaskAddr → TaskStruct κ
  alloc : Finset ℕ
  currentTask : TaskAddr
  mainTask : TaskAddr
  taskReadyList : List TaskAddr
  taskAllList : List TaskAddr
  taskPoolList : List TaskAddr
  taskAllNums : ℤ
  taskTag : TaskAddr
  tidBitmap : Bitmap
  tidStart : UInt32
  lock : LockId → Lock
  sema : SemaId → Semaphore

namespace Sched

variable {κ : Type}

/-- The globals before `task_init`. The semaphores of the users start with the
values given. -/
def boot [Inhabited κ] (value : SemaId → UInt8) : Sched κ where
  task := fun _ => TaskStruct.zero
  alloc := ∅
  currentTask := 0
  mainTask := 0
  taskReadyList := []
  taskAllList := []
  taskPoolList := []
  taskAllNums := 0
  taskTag := 0
  tidBitmap := ⟨0, Vector.replicate 0 0⟩
  tidStart := 0
  lock := fun _ => lockInit.1
  sema
    | .ofLock _ => lockInit.2
    | .user n => semaInit (value (.user n))

/-- Write to the `task_struct` at `t`. -/
def setTask (s : Sched κ) (t : TaskAddr) (f : TaskStruct κ → TaskStruct κ) : Sched κ :=
  { s with task := Function.update s.task t (f (s.task t)) }

/-- `t->status = status`. -/
def setStatus (s : Sched κ) (t : TaskAddr) (status : TaskStatus) : Sched κ :=
  s.setTask t fun p => { p with status := status }

/-- Write to a semaphore. -/
def setSema (s : Sched κ) (i : SemaId) (f : Semaphore → Semaphore) : Sched κ :=
  { s with sema := Function.update s.sema i (f (s.sema i)) }

def setLock (s : Sched κ) (l : LockId) (f : Lock → Lock) : Sched κ :=
  { s with lock := Function.update s.lock l (f (s.lock l)) }

/-- `current_task->...` -/
abbrev current (s : Sched κ) : TaskStruct κ := s.task s.currentTask

@[simp] lemma setTask_task_self (s : Sched κ) (t : TaskAddr) (f : TaskStruct κ → TaskStruct κ) :
    (s.setTask t f).task t = f (s.task t) := Function.update_self ..

lemma setTask_task_of_ne (s : Sched κ) {t u : TaskAddr} (f : TaskStruct κ → TaskStruct κ)
    (h : u ≠ t) : (s.setTask t f).task u = s.task u := Function.update_of_ne h ..

lemma setTask_task (s : Sched κ) (t u : TaskAddr) (f : TaskStruct κ → TaskStruct κ) :
    (s.setTask t f).task u = if u = t then f (s.task t) else s.task u := by
  by_cases h : u = t
  · subst h
    simp
  · rw [if_neg h, setTask_task_of_ne s f h]

@[simp] lemma setStatus_status_self (s : Sched κ) (t : TaskAddr) (status : TaskStatus) :
    ((s.setStatus t status).task t).status = status := by simp [setStatus]

lemma setStatus_task_of_ne (s : Sched κ) {t u : TaskAddr} (status : TaskStatus) (h : u ≠ t) :
    (s.setStatus t status).task u = s.task u := setTask_task_of_ne s _ h

@[simp] lemma setSema_sema_self (s : Sched κ) (i : SemaId) (f : Semaphore → Semaphore) :
    (s.setSema i f).sema i = f (s.sema i) := Function.update_self ..

lemma setSema_sema_of_ne (s : Sched κ) {i j : SemaId} (f : Semaphore → Semaphore) (h : j ≠ i) :
    (s.setSema i f).sema j = s.sema j := Function.update_of_ne h ..

end Sched
end Libtask
