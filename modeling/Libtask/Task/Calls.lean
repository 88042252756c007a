import Libtask.Task.Handler
import Libtask.Task.Moves

/-!
# The calls of the running task

What a task may ask of the library, what its callers promise, and what the call does:
it comes back, or hands the CPU to the task that goes on at the returned context. Each
call is one operation here. The runs of several levels are built from these calls.
-/
namespace Libtask.Conservation
open Sched

/-- `taskStart` carries the blocks that `malloc` has for the task and its stack, and
`taskExit` is `task_exit(current_task)`, as in `task_entrance`. -/
inductive TaskCall
  | taskStart (mem stack : ℕ) (name : List UInt8) (prio : Int32)
  | taskExit
  | taskBlock (status : TaskStatus)
  | taskUnblock (ptask : TaskAddr)
  | semaDown (psema : SemaId)
  | semaUp (psema : SemaId)
  | sleep (millisecond : UInt32)
  | coEnableHookSys

variable {κ : Type}

/-- The block of a new task is that of no task that has not been freed, a task that is
unblocked waits for no semaphore, the semaphores of the library are its own, and only a
hooked task sleeps here. -/
def Promised (s : Sched κ) : TaskCall → Prop
  | .taskStart mem _ _ _ => mem ∉ s.taskAllList ∧ mem ≠ s.mainTask
  | .taskUnblock ptask => ptask ∈ s.taskAllList ∧ ∀ i, ptask ∉ (s.sema i).waiters
  | .semaDown psema | .semaUp psema => Callers psema
  | .sleep _ => s.current.isHook = true
  | .taskExit | .taskBlock _ | .coEnableHookSys => True

section Performed

variable [Inhabited κ]

/-- `here` is where the caller goes on when it gets the CPU back, and `entry` the
context that calls the function of a new task. -/
def perform (s : Sched κ) (here entry : κ) : TaskCall → Except Stop (Sched κ × Option κ)
  | .taskStart mem stack name prio => do
    let (s, _) ← s.taskStart mem stack name prio entry
    return (s, none)
  | .taskExit => do
    let (s, k) ← s.taskExit s.currentTask
    return (s, some k)
  | .taskBlock status => do
    let (s, k) ← s.taskBlock status here
    return (s, some k)
  | .taskUnblock ptask => do
    let s ← s.taskUnblock ptask
    return (s, none)
  | .semaDown psema => s.semaDown psema here
  | .semaUp psema => do
    let s ← s.semaUp psema
    return (s, none)
  | .sleep millisecond => return (s.requestSleep millisecond, none)
  | .coEnableHookSys => return (s.coEnableHookSys, none)

/-- The calls that do not stop, one by one. -/
inductive Performed (s : Sched κ) (here entry : κ) : TaskCall → Sched κ → Option κ → Prop
  | taskStart {mem stack : ℕ} {name : List UInt8} {prio : Int32} {s' : Sched κ} {task : TaskAddr}
      (h : s.taskStart mem stack name prio entry = .ok (s', task)) :
      Performed s here entry (.taskStart mem stack name prio) s' none
  | taskExit {s' : Sched κ} {k : κ} (h : s.taskExit s.currentTask = .ok (s', k)) :
      Performed s here entry .taskExit s' (some k)
  | taskBlock {status : TaskStatus} {s' : Sched κ} {k : κ}
      (h : s.taskBlock status here = .ok (s', k)) :
      Performed s here entry (.taskBlock status) s' (some k)
  | taskUnblock {ptask : TaskAddr} {s' : Sched κ} (h : s.taskUnblock ptask = .ok s') :
      Performed s here entry (.taskUnblock ptask) s' none
  | semaDown {psema : SemaId} {s' : Sched κ} {k : Option κ}
      (h : s.semaDown psema here = .ok (s', k)) : Performed s here entry (.semaDown psema) s' k
  | semaUp {psema : SemaId} {s' : Sched κ} (h : s.semaUp psema = .ok s') :
      Performed s here entry (.semaUp psema) s' none
  | sleep {millisecond : UInt32} :
      Performed s here entry (.sleep millisecond) (s.requestSleep millisecond) none
  | coEnableHookSys : Performed s here entry .coEnableHookSys s.coEnableHookSys none

variable {s s' : Sched κ} {here entry : κ} {call : TaskCall} {k : Option κ}

lemma performed (h : perform s here entry call = .ok (s', k)) :
    Performed s here entry call s' k := by
  cases call with
  | taskStart mem stack name prio =>
    obtain ⟨⟨s1, task⟩, hstart, hret⟩ := bind_eq_ok.mp h
    obtain ⟨rfl, rfl⟩ := Prod.mk.inj (Except.ok.inj hret)
    exact .taskStart hstart
  | taskExit =>
    obtain ⟨⟨s1, c⟩, hexit, hret⟩ := bind_eq_ok.mp h
    obtain ⟨rfl, rfl⟩ := Prod.mk.inj (Except.ok.inj hret)
    exact .taskExit hexit
  | taskBlock status =>
    obtain ⟨⟨s1, c⟩, hblock, hret⟩ := bind_eq_ok.mp h
    obtain ⟨rfl, rfl⟩ := Prod.mk.inj (Except.ok.inj hret)
    exact .taskBlock hblock
  | taskUnblock ptask =>
    obtain ⟨s1, hunblock, hret⟩ := bind_eq_ok.mp h
    obtain ⟨rfl, rfl⟩ := Prod.mk.inj (Except.ok.inj hret)
    exact .taskUnblock hunblock
  | semaDown psema => exact .semaDown h
  | semaUp psema =>
    obtain ⟨s1, hup, hret⟩ := bind_eq_ok.mp h
    obtain ⟨rfl, rfl⟩ := Prod.mk.inj (Except.ok.inj hret)
    exact .semaUp hup
  | sleep millisecond =>
    obtain ⟨rfl, rfl⟩ := Prod.mk.inj (Except.ok.inj h)
    exact .sleep
  | coEnableHookSys =>
    obtain ⟨rfl, rfl⟩ := Prod.mk.inj (Except.ok.inj h)
    exact .coEnableHookSys

lemma Performed.perform_eq (h : Performed s here entry call s' k) :
    perform s here entry call = .ok (s', k) := by
  cases h with
  | taskStart h => exact bind_eq_ok.mpr ⟨_, h, rfl⟩
  | taskExit h => exact bind_eq_ok.mpr ⟨_, h, rfl⟩
  | taskBlock h => exact bind_eq_ok.mpr ⟨_, h, rfl⟩
  | taskUnblock h => exact bind_eq_ok.mpr ⟨_, h, rfl⟩
  | semaDown h => exact h
  | semaUp h => exact bind_eq_ok.mpr ⟨_, h, rfl⟩
  | sleep => rfl
  | coEnableHookSys => rfl

/-- A call that gives up the CPU leaves the caller at `here`. -/
lemma Performed.handsOver {k : κ} (hp : Performed s here entry call s' (some k))
    (hexit : call ≠ .taskExit) : HandsOver s here s' k := by
  cases hp with
  | taskExit => exact absurd rfl hexit
  | taskBlock h => exact taskBlock_handsOver h
  | semaDown h => exact semaDown_handsOver h

/-- One that keeps it saves nothing. -/
lemma Performed.stays (hp : Performed s here entry call s' none)
    (hstart : ∀ mem stack name prio, call ≠ .taskStart mem stack name prio) :
    s'.currentTask = s.currentTask ∧ ∀ t, (s'.task t).context = (s.task t).context := by
  cases hp with
  | taskStart => exact absurd rfl (hstart _ _ _ _)
  | taskUnblock h =>
    refine ⟨?_, taskUnblock_context h⟩
    obtain ⟨-, rfl⟩ := taskUnblock_ok h
    rfl
  | semaDown h =>
    rcases semaDown_ok h with ⟨-, rfl⟩ | ⟨⟨k, hk⟩, -⟩
    · exact ⟨rfl, fun _ => rfl⟩
    · cases hk
  | semaUp h => exact ⟨semaUp_current h, semaUp_context h⟩
  | sleep => exact ⟨rfl, setTask_context rfl⟩
  | coEnableHookSys => exact ⟨rfl, setTask_context rfl⟩

end Performed

section Law

variable {s s' : Sched κ} {wake : TaskAddr → ℕ}

lemma law_taskBlock (h : Roster.Law (some s.currentTask) wake s.roster) {status : TaskStatus}
    {here pc : κ} (hblock : s.taskBlock status here = .ok (s', pc)) :
    Roster.Law (some s'.currentTask) wake s'.roster ∧ Frame s s' := by
  obtain ⟨hst, hd⟩ := taskBlock_dispatched hblock
  refine ⟨hd.law ?_, (frame_setTask s _ _).trans hd.frame⟩
  rw [roster_setStatus]
  exact h.block hst

lemma law_taskUnblock (h : Roster.Law (some s.currentTask) wake s.roster) {ptask : TaskAddr}
    (hall : ptask ∈ s.taskAllList) (hwait : ∀ i, ptask ∉ (s.sema i).waiters)
    (hunblock : s.taskUnblock ptask = .ok s') :
    Roster.Law (some s'.currentTask) wake s'.roster ∧ Frame s s' := by
  obtain ⟨hst, rfl⟩ := taskUnblock_ok hunblock
  refine ⟨?_, rfl, fun _ _ => rfl, rfl, rfl, rfl, rfl⟩
  rw [roster_setStatus]
  exact h.unblock ⟨hall, hst⟩ hwait

lemma law_semaDown (h : Roster.Law (some s.currentTask) wake s.roster) {psema : SemaId}
    {here : κ} {pc : Option κ} (hcallers : Callers psema)
    (hdown : s.semaDown psema here = .ok (s', pc)) :
    Roster.Law (some s'.currentTask) wake s'.roster ∧ Frame s s' := by
  rcases semaDown_ok hdown with ⟨rfl, rfl⟩ | ⟨-, -, hd⟩
  · refine ⟨?_, frame_setSema s hcallers _⟩
    rw [roster_setSema_of_waiters _ _ rfl]
    exact h
  · have hf : Frame s (s.setStatus s.currentTask .blocked) := frame_setTask s _ _
    refine ⟨hd.law ?_, (hf.trans (frame_setSema _ hcallers _)).trans hd.frame⟩
    have hblocked := h.cur_alone.2.1
    have hlaw := h.block (show TaskStatus.blocked.Suspended from .inl rfl)
    rw [roster_setSema, roster_setStatus]
    refine hlaw.wait ?_ ?_ psema
    · exact Roster.blocked_withStatus_self.mpr ⟨h.cur_mem, .inl rfl⟩
    · exact h.not_waiter hblocked

lemma law_semaUp (h : Roster.Law (some s.currentTask) wake s.roster) {psema : SemaId}
    (hcallers : Callers psema) (hup : s.semaUp psema = .ok s') :
    Roster.Law (some s'.currentTask) wake s'.roster ∧ Frame s s' := by
  obtain ⟨m, rfl, ⟨-, rfl⟩ | ⟨t, rest, hw, hunblock⟩⟩ := semaUp_ok hup
  · refine ⟨?_, frame_setSema _ hcallers _⟩
    rw [roster_setSema_of_waiters _ _ rfl]
    exact h
  · -- the first waiter is taken off the list and unblocked
    obtain ⟨-, rfl⟩ := taskUnblock_ok hunblock
    obtain ⟨hlaw, hblocked, hfree⟩ := h.popWaiter hw
    have hpopped : (s.setSema psema fun p => { p with waiters := rest }).roster =
        { s.roster with waiters := Function.update s.roster.waiters psema rest } :=
      roster_setSema s psema _
    have hf := frame_setSema s hcallers fun p => { p with waiters := rest }
    constructor
    · rw [roster_setSema_of_waiters _ _ rfl, roster_setStatus]
      have hwait : ∀ j, t ∉ (s.setSema psema fun p => { p with
          waiters := rest }).roster.waiters j := by
        rw [hpopped]
        exact hfree
      rw [← hpopped] at hlaw
      exact hlaw.unblock hblocked hwait
    · refine Frame.trans ?_ (frame_setSema _ hcallers _)
      exact ⟨hf.lock, hf.sema, hf.alloc, hf.main, hf.all, hf.pool⟩

/-- A recycled task would fail an assertion, so the pool is empty. -/
lemma pool_nil [Inhabited κ] {cur : Option TaskAddr} (h : Roster.Law cur wake s.roster)
    {mem stack : ℕ} {name : List UInt8} {prio : Int32} {entry : κ} {r : Sched κ × TaskAddr}
    (hstart : s.taskStart mem stack name prio entry = .ok r) : s.taskPoolList = [] := by
  cases hp : s.taskPoolList with
  | nil => rfl
  | cons u rest =>
    have hu : u ∈ s.roster.pool := by simp [roster, hp]
    rw [taskStart_of_pool hp (h.pool_died u hu).1] at hstart
    cases hstart

lemma law_taskStart [Inhabited κ] (h : Roster.Law (some s.currentTask) wake s.roster)
    (hfree : s.LockFree .tid) {mem stack : ℕ} {name : List UInt8} {prio : Int32} {entry : κ}
    {task : TaskAddr} (hall : mem ∉ s.taskAllList) (hmain : mem ≠ s.mainTask)
    (hstart : s.taskStart mem stack name prio entry = .ok (s', task)) :
    task = mem ∧ (∃ b' tid, s' = s.bornState mem stack (bornTask stack name prio entry tid) b') ∧
      Roster.Law (some s'.currentTask) wake s'.roster := by
  have hpool := pool_nil h hstart
  have hready : mem ∉ s.taskReadyList := fun hm => hall (h.ready_mem hm)
  obtain ⟨rfl, b', tid, rfl⟩ := taskStart_ok hpool hmain hready hall hfree hstart
  refine ⟨rfl, ⟨b', tid, rfl⟩, ?_⟩
  rw [roster_bornState _ _ _ _ rfl]
  exact h.born hall (by simp [roster, hpool])

lemma law_taskExit (h : Roster.Law (some s.currentTask) wake s.roster) {b' : Bitmap}
    {k : κ}
    (hd : { s.exitState s.currentTask with tidBitmap := b' }.diedTaskSchedule = .ok (s', k)) :
    Roster.Law (some s'.currentTask) wake s'.roster := by
  apply (diedTaskSchedule_dispatched hd).law
  show Roster.Law none wake (s.exitState s.currentTask).roster
  rw [roster_exitState]
  exact h.exit s.mainTask

/-- The dead task goes to the pool, unless it is the main task. -/
lemma mem_pool_exitState (task t : TaskAddr) : t ∈ (s.exitState task).taskPoolList ↔
    t ∈ s.taskPoolList ∨ t = task ∧ t ≠ s.mainTask := by
  show t ∈ s.taskPoolList ++ (if task = s.mainTask then [] else [task]) ↔ _
  by_cases hmain : task = s.mainTask
  · simp only [if_pos hmain, List.append_nil]
    constructor
    · exact .inl
    · rintro (ht | ⟨rfl, hne⟩)
      · exact ht
      · exact absurd hmain hne
  · simp only [if_neg hmain, List.mem_append, List.mem_singleton]
    constructor
    · rintro (ht | rfl)
      · exact .inl ht
      · exact .inr ⟨rfl, hmain⟩
    · rintro (ht | ⟨ht, -⟩)
      · exact .inl ht
      · exact .inr ht

lemma free_of_frame (h : ∀ l ∈ libraryLocks, s.LockFree l) (hf : Frame s s') :
    ∀ l ∈ libraryLocks, s'.LockFree l := by
  intro l hl
  rw [LockFree, hf.lock, hf.sema l hl]
  exact h l hl

lemma law_setCurrent (h : Roster.Law (some s.currentTask) wake s.roster)
    {f : TaskStruct κ → TaskStruct κ} (hf : (f s.current).status = s.current.status) :
    Roster.Law (some (s.setTask s.currentTask f).currentTask) wake
      (s.setTask s.currentTask f).roster := by
  rw [roster_setTask_of_status _ _ hf]
  exact h

/-- Every call keeps the law of the roster, and leaves the locks of the library free. -/
theorem Performed.law [Inhabited κ] {here entry : κ} {call : TaskCall} {k : Option κ}
    (hp : Performed s here entry call s' k)
    (h : Roster.Law (some s.currentTask) wake s.roster)
    (hfree : ∀ l ∈ libraryLocks, s.LockFree l) (hpromise : Promised s call) :
    Roster.Law (some s'.currentTask) wake s'.roster ∧ ∀ l ∈ libraryLocks, s'.LockFree l := by
  have htid := hfree .tid (by decide)
  cases hp with
  | taskStart hstart =>
    obtain ⟨hall, hmain⟩ := hpromise
    obtain ⟨rfl, ⟨b', tid, rfl⟩, hlaw⟩ := law_taskStart h htid hall hmain hstart
    exact ⟨hlaw, hfree⟩
  | taskExit hexit =>
    obtain ⟨b', hd⟩ := taskExit_ok htid hexit
    refine ⟨law_taskExit h hd, ?_⟩
    exact free_of_frame (s := { s.exitState s.currentTask with tidBitmap := b' }) hfree
      (diedTaskSchedule_dispatched hd).frame
  | taskBlock hblock =>
    obtain ⟨hlaw, hf⟩ := law_taskBlock h hblock
    exact ⟨hlaw, free_of_frame hfree hf⟩
  | taskUnblock hunblock =>
    obtain ⟨hall, hwait⟩ := hpromise
    obtain ⟨hlaw, hf⟩ := law_taskUnblock h hall hwait hunblock
    exact ⟨hlaw, free_of_frame hfree hf⟩
  | semaDown hdown =>
    obtain ⟨hlaw, hf⟩ := law_semaDown h hpromise hdown
    exact ⟨hlaw, free_of_frame hfree hf⟩
  | semaUp hup =>
    obtain ⟨hlaw, hf⟩ := law_semaUp h hpromise hup
    exact ⟨hlaw, free_of_frame hfree hf⟩
  | sleep => exact ⟨law_setCurrent h rfl, hfree⟩
  | coEnableHookSys => exact ⟨law_setCurrent h rfl, hfree⟩

/-- Without a birth or a death, tasks move about only. -/
lemma Performed.frame [Inhabited κ] {here entry : κ} {call : TaskCall} {k : Option κ}
    (hp : Performed s here entry call s' k)
    (h : Roster.Law (some s.currentTask) wake s.roster) (hpromise : Promised s call)
    (hstart : ∀ mem stack name prio, call ≠ .taskStart mem stack name prio)
    (hexit : call ≠ .taskExit) : Frame s s' := by
  cases hp with
  | taskStart => exact absurd rfl (hstart _ _ _ _)
  | taskExit => exact absurd rfl hexit
  | taskBlock hblock => exact (law_taskBlock h hblock).2
  | taskUnblock hunblock => exact (law_taskUnblock h hpromise.1 hpromise.2 hunblock).2
  | semaDown hdown => exact (law_semaDown h hpromise hdown).2
  | semaUp hup => exact (law_semaUp h hpromise hup).2
  | sleep => exact frame_setTask s _ _
  | coEnableHookSys => exact frame_setTask s _ _

end Law

end Libtask.Conservation
