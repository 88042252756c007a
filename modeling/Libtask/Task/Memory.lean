import Libtask.Ownership
import Libtask.Task.RoundRobin

/-!
# The blocks of the tasks

A task is a block with its `task_struct`, which holds a second block for the stack. In
runs in which `malloc` gives out no block in use, the blocks in use are those of the live
tasks, of the dead tasks in the pool and of the main task. None is lost, and none is
freed while it is needed or twice.
-/
namespace Libtask.Conservation
open Transition Timer Sched Ownership

variable {κ : Type}

/-- The tasks that have not been freed. The main task is freed never. -/
def Owner (s : Sched κ) (t : TaskAddr) : Prop :=
  t ∈ s.taskAllList ∨ t ∈ s.taskPoolList ∨ t = s.mainTask

def stackOf (s : Sched κ) (t : TaskAddr) : ℕ := (s.task t).stackMinAddr

/-- The blocks in use are those of the tasks. -/
structure Owned (s : Sched κ) : Prop where
  held : Held (Owner s) (stackOf s) s.alloc
  main : s.mainTask ∉ s.taskPoolList

/-- Stacks stay with their tasks. -/
def StacksKept (s s' : Sched κ) : Prop := ∀ u, stackOf s' u = stackOf s u

lemma StacksKept.trans {s t u : Sched κ} (h : StacksKept s t) (h' : StacksKept t u) :
    StacksKept s u := fun v => (h' v).trans (h v)

lemma stacksKept_setTask {s : Sched κ} {t : TaskAddr} {f : TaskStruct κ → TaskStruct κ}
    (hf : (f (s.task t)).stackMinAddr = (s.task t).stackMinAddr) :
    StacksKept s (s.setTask t f) := by
  intro u
  unfold stackOf
  by_cases hu : u = t
  · subst hu
    rw [setTask_task_self, hf]
  · rw [setTask_task_of_ne _ _ hu]

lemma stacksKept_setStatus (s : Sched κ) (t : TaskAddr) (status : TaskStatus) :
    StacksKept s (s.setStatus t status) :=
  stacksKept_setTask (f := fun p => { p with status := status }) rfl

/-- Popping, marking as running and switching. -/
lemma stacksKept_of_ready (s : Sched κ) (next : TaskAddr) (rest : List TaskAddr) (frame : κ) :
    StacksKept s (({ s with taskReadyList := rest, taskTag := next }.setStatus next
      .running).switchTo next frame).1 := by
  let s1 : Sched κ := { s with taskReadyList := rest, taskTag := next }
  have hstatus : StacksKept s1 (s1.setStatus next .running) := stacksKept_setStatus s1 next .running
  have hsave : StacksKept (s1.setStatus next .running)
      ((s1.setStatus next .running).setTask s.currentTask fun p => { p with context := frame }) :=
    stacksKept_setTask rfl
  exact hstatus.trans hsave

lemma stacksKept_collaborativeSchedule {s s' : Sched κ} {frame k : κ}
    (h : s.collaborativeSchedule frame = .ok (s', k)) : StacksKept s s' := by
  obtain ⟨next, rest, -, rfl⟩ := collaborativeSchedule_ok h
  exact stacksKept_of_ready s next rest frame

lemma stacksKept_schedule {s s' : Sched κ} {frame k : κ} (h : s.schedule frame = .ok (s', k)) :
    StacksKept s s' := by
  obtain ⟨next, rest, -, rfl⟩ := schedule_ok h
  let s1 : Sched κ := { s with taskReadyList := s.taskReadyList ++ [s.currentTask] }
  have hqueue : StacksKept s1 s.requeued := stacksKept_setTask rfl
  exact hqueue.trans (stacksKept_of_ready s.requeued next rest frame)

lemma stacksKept_taskBlock {s s' : Sched κ} {status : TaskStatus} {here k : κ}
    (h : s.taskBlock status here = .ok (s', k)) : StacksKept s s' := by
  rw [taskBlock, bind_eq_ok] at h
  obtain ⟨-, -, h⟩ := h
  obtain ⟨next, rest, -, rfl⟩ := blockTaskSchedule_ok h
  exact (stacksKept_setStatus s s.currentTask status).trans (stacksKept_of_ready _ next rest here)

lemma stacksKept_taskUnblock {s s' : Sched κ} {t : TaskAddr} (h : s.taskUnblock t = .ok s') :
    StacksKept s s' := by
  obtain ⟨-, rfl⟩ := taskUnblock_ok h
  exact stacksKept_setStatus { s with taskReadyList := t :: s.taskReadyList } t .ready

lemma stacksKept_semaDown {s s' : Sched κ} {i : SemaId} {here : κ} {k : Option κ}
    (h : s.semaDown i here = .ok (s', k)) : StacksKept s s' := by
  by_cases hvalue : (s.sema i).value = 0
  · rw [semaDown, if_pos hvalue, bind_eq_ok] at h
    obtain ⟨-, -, h⟩ := h
    rw [bind_eq_ok] at h
    obtain ⟨⟨t, next⟩, hblock, hret⟩ := h
    obtain ⟨rfl, -⟩ := Prod.mk.inj (Except.ok.inj hret)
    have hkept := stacksKept_taskBlock hblock
    exact hkept
  · rcases semaDown_ok h with ⟨-, rfl⟩ | ⟨⟨c, rfl⟩, -⟩
    · exact fun _ => rfl
    · exact absurd (semaDown_value h) hvalue

lemma stacksKept_semaUp {s s' : Sched κ} {i : SemaId} (h : s.semaUp i = .ok s') :
    StacksKept s s' := by
  obtain ⟨m, rfl, ⟨-, rfl⟩ | ⟨t, rest, -, hunblock⟩⟩ := semaUp_ok h
  · exact fun _ => rfl
  · have hkept := stacksKept_taskUnblock hunblock
    exact hkept

lemma Owned.keep {s s' : Sched κ} (h : Owned s) (halloc : s'.alloc = s.alloc)
    (hall : s'.taskAllList = s.taskAllList) (hpool : s'.taskPoolList = s.taskPoolList)
    (hmain : s'.mainTask = s.mainTask) (hstack : StacksKept s s') : Owned s' := by
  constructor
  case held =>
    rw [halloc]
    apply h.held.congr
    · intro u
      rw [Owner, Owner, hall, hpool, hmain]
    · exact fun u _ => hstack u
  case main =>
    rw [hmain, hpool]
    exact h.main

lemma Owned.frame {s s' : Sched κ} (h : Owned s) (hf : Frame s s') (hstack : StacksKept s s') :
    Owned s' := h.keep hf.alloc hf.all hf.pool hf.main hstack

lemma Owned.exitState {s : Sched κ} (h : Owned s) {t : TaskAddr} (ht : t ∈ s.taskAllList)
    (hnodup : s.taskAllList.Nodup) : Owned (s.exitState t) := by
  constructor
  case held =>
    apply h.held.congr
    · intro u
      rw [Owner, Owner, mem_pool_exitState]
      show u ∈ s.taskAllList.erase t ∨ _ ∨ u = s.mainTask ↔ _
      rw [hnodup.mem_erase_iff]
      by_cases hu : u = t
      · subst hu
        by_cases hmain : u = s.mainTask
        · exact iff_of_true (.inr (.inr hmain)) (.inl ht)
        · exact iff_of_true (.inr (.inl (.inr ⟨rfl, hmain⟩))) (.inl ht)
      · simp [hu]
    · exact fun u _ => stacksKept_setStatus s t .died u
  case main =>
    rw [mem_pool_exitState]
    rintro (hm | ⟨-, hm⟩)
    · exact h.main hm
    · exact hm rfl

lemma owned_taskExit {s s' : Sched Resume} {t : TaskAddr} {k : Resume} (h : Owned s)
    (hfree : s.LockFree .tid) (ht : t ∈ s.taskAllList) (hnodup : s.taskAllList.Nodup)
    (hexit : s.taskExit t = .ok (s', k)) : Owned s' := by
  obtain ⟨b', hd⟩ := taskExit_ok hfree hexit
  obtain ⟨next, rest, b'', -, rfl⟩ := taskExit_next hfree hexit
  exact (h.exitState ht hnodup).frame ⟨rfl, fun _ _ => rfl, rfl, rfl, rfl, rfl⟩
    (stacksKept_setStatus (s.exitState t) next .running)

lemma Owned.bornState {s : Sched κ} (h : Owned s) {mem stack : ℕ} {task : TaskStruct κ}
    {btmp : Bitmap} (hmem : mem ∉ s.alloc) (hstack : stack ∉ s.alloc) (hne : stack ≠ mem)
    (htask : task.stackMinAddr = stack) : Owned (s.bornState mem stack task btmp) := by
  constructor
  case held =>
    apply h.held.insert hmem hstack hne
    · intro u
      show u ∈ s.taskAllList ++ [mem] ∨ _ ∨ _ ↔ (_ ∨ _ ∨ _) ∨ _
      rw [List.mem_append, List.mem_singleton]
      tauto
    · intro u hu
      have hum : u ≠ mem := by
        rintro rfl
        exact hmem (h.held.mem hu)
      show ((Function.update s.task mem task) u).stackMinAddr = _
      rw [Function.update_of_ne hum]
      rfl
    · show ((Function.update s.task mem task) mem).stackMinAddr = _
      rw [Function.update_self, htask]
  case main => exact h.main

/-- No dead task is live, and none stands twice in the pool. -/
structure Dead (s : Sched κ) : Prop where
  nodup : s.taskPoolList.Nodup
  apart : ∀ t ∈ s.taskPoolList, t ∉ s.taskAllList

lemma Dead.of_law {s : Sched κ} {cur : Option TaskAddr} {wake : TaskAddr → ℕ}
    (h : Roster.Law cur wake s.roster) : Dead s :=
  ⟨h.pool_nodup, fun t ht => (h.pool_died t ht).2⟩

lemma Owned.freeTask {s : Sched κ} {t : TaskAddr} {rest : List TaskAddr} (h : Owned s)
    (hdead : Dead s) (hpool : s.taskPoolList = t :: rest) :
    Owned ({ s with taskPoolList := rest, taskTag := t }.freeTask t) ∧
      Dead ({ s with taskPoolList := rest, taskTag := t }.freeTask t) := by
  obtain ⟨hnodup, hapart⟩ := hdead
  have hmain := h.main
  rw [hpool] at hnodup hapart hmain
  obtain ⟨htrest, hnodup'⟩ := List.nodup_cons.mp hnodup
  have htall := hapart t List.mem_cons_self
  have htmain : t ≠ s.mainTask := by
    rintro rfl
    exact hmain List.mem_cons_self
  refine ⟨⟨?_, fun hm => hmain (List.mem_cons_of_mem t hm)⟩, hnodup',
    fun u hu => hapart u (List.mem_cons_of_mem t hu)⟩
  apply h.held.erase
  · exact .inr (.inl (hpool ▸ List.mem_cons_self))
  · intro u
    show u ∈ s.taskAllList ∨ u ∈ rest ∨ u = s.mainTask ↔ (_ ∨ u ∈ s.taskPoolList ∨ _) ∧ u ≠ t
    rw [hpool, List.mem_cons]
    by_cases hu : u = t
    · subst hu
      simp [htall, htrest, htmain]
    · simp [hu]

lemma owned_cleanLoop {fuel : ℕ} {cnt : ℤ} {s s' : Sched κ} (h : Owned s) (hdead : Dead s)
    (hrun : cleanLoop fuel cnt s = .ok s') : Owned s' ∧ s'.alloc ⊆ s.alloc := by
  induction fuel generalizing cnt s with
  | zero => cases hrun
  | succ fuel ih =>
    rw [cleanLoop] at hrun
    split_ifs at hrun with hgo
    · cases hpool : s.taskPoolList with
      | nil =>
        rw [hpool] at hrun
        cases hrun
      | cons t rest =>
        simp only [hpool] at hrun
        obtain ⟨hfreed, hdead'⟩ := h.freeTask hdead hpool
        obtain ⟨hs', hsub⟩ := ih hfreed hdead' hrun
        exact ⟨hs', hsub.trans ((Finset.erase_subset _ _).trans (Finset.erase_subset _ _))⟩
    · obtain rfl := Except.ok.inj hrun
      exact ⟨h, Finset.Subset.refl _⟩

lemma owned_callLibrary {n : TimerNode} {s s' : Sched κ} (h : Owned s) (hdead : Dead s)
    (hcall : callLibrary n s = .ok s') : Owned s' ∧ s'.alloc ⊆ s.alloc := by
  unfold callLibrary at hcall
  cases hfn : n.timerFn with
  | cleanDeadTask =>
    simp only [hfn, callTimer, cleanDeadTask] at hcall
    split_ifs at hcall
    · obtain rfl := Except.ok.inj hcall
      exact ⟨h, Finset.Subset.refl _⟩
    · exact owned_cleanLoop h hdead hcall
    · exact owned_cleanLoop h hdead hcall
  | collaborativeScheduleHelper =>
    simp only [hfn, callTimer] at hcall
    obtain ⟨⟨hframe, -⟩, -⟩ := collaborativeScheduleHelper_ok hcall
    simp only [collaborativeScheduleHelper, bind_eq_ok] at hcall
    obtain ⟨-, -, hs'⟩ := hcall
    obtain rfl := Except.ok.inj hs'
    exact ⟨h.frame hframe (stacksKept_setTask rfl), Finset.Subset.refl _⟩
  | user f =>
    simp only [hfn] at hcall
    obtain rfl := Except.ok.inj hcall
    exact ⟨h, Finset.Subset.refl _⟩

/-- What the loop of `run_timer` keeps, compared with its start. -/
theorem owned_loopInv (s : Sched κ) :
    LoopInv (κ := κ) callLibrary fun rest timers' s' =>
      (TimedLaw rest timers' s' ∧ Woken s s') ∧ Owned s' ∧ s'.alloc ⊆ s.alloc := by
  have hwoken := woken_loopInv s
  constructor
  case call =>
    rintro p rest timers1 s1 s2 ⟨hlaw, howned, halloc⟩ hcall
    obtain ⟨howned', halloc'⟩ := owned_callLibrary howned (.of_law hlaw.1.law) hcall
    exact ⟨hwoken.call _ _ _ _ _ hlaw hcall, howned', halloc'.trans halloc⟩
  case cascade =>
    rintro timers1 s1 ⟨hlaw, hkept⟩
    exact ⟨hwoken.cascade _ _ hlaw, hkept⟩
  case tick =>
    rintro timers1 s1 ⟨hlaw, hkept⟩
    exact ⟨hwoken.tick _ _ hlaw, hkept⟩

lemma owned_runTimer {now : UInt32} {timers timers' : TimerState} {s s' : Sched κ}
    (h : Owned s) (hlaw : TimedLaw [] timers s) (hfree : s.LockFree .timer)
    (hrun : Sched.runTimer callLibrary now timers s = .ok (timers', s')) :
    Owned s' ∧ s'.alloc ⊆ s.alloc := by
  have howned : Owned (s.held .timer) := h.keep rfl rfl rfl rfl fun _ => rfl
  have hself : Woken (s.held .timer) (s.held .timer) :=
    ⟨queued_of_eq rfl rfl rfl, ⟨rfl, fun _ _ => rfl, rfl⟩, rfl⟩
  obtain ⟨m, hloop, hrel⟩ := runTimer_released hfree hrun
  obtain ⟨⟨-, hwoken⟩, hm, hsub⟩ := (owned_loopInv (s.held .timer)).loop
    ⟨⟨hlaw.held hfree, hself⟩, howned, Finset.Subset.refl _⟩ hloop
  obtain ⟨rfl, -, -⟩ := hrel hwoken.locks
  exact ⟨hm.keep rfl rfl rfl rfl fun _ => rfl, hsub⟩

/-- `malloc` gives out no block in use, neither of a task nor of a timer. The block for a
wake-up timer may be one that the same tick has freed. -/
def Fresh (s : TaskRun) : TaskOp → Prop
  | .call (.taskStart mem stack _ _) =>
    stack ≠ mem ∧ ∀ p ∈ [mem, stack], p ∉ s.sched.alloc ∧ p ∉ s.timers.heap
  | .tick now p => ∀ timers1 m, runTimer callLibrary now s.timers s.sched.tickBegun =
      .ok (timers1, m) → p ∉ m.alloc
  | .createTimer p .. => p ∉ s.sched.alloc
  | _ => True

/-- The runs with a heap. -/
def heapSystem : System TaskRun TaskOp where
  init s := ∃ value mem stack b, stack ≠ mem ∧ (∀ p ∈ [mem, stack], p ∉ (timerInit b).heap) ∧
    (boot value).taskInit mem stack = .ok s.sched ∧ s.timers = timerInit b ∧ s.pc = .user
  step s op s' := Fresh s op ∧ TaskStep callLibrary s op s'

/-- Each block in use belongs to one task or is one timer. -/
structure Allocated (s : TaskRun) : Prop where
  owned : Owned s.sched
  timers : ∀ p ∈ s.timers.heap, p ∉ s.sched.alloc

lemma Allocated.moved {s : TaskRun} (h : Allocated s) {sched : Sched Resume} {pc : Resume}
    (hf : Frame s.sched sched) (hstack : StacksKept s.sched sched) :
    Allocated { s with sched := sched, pc := pc } := by
  refine ⟨h.owned.frame hf hstack, fun p hp => ?_⟩
  rw [hf.alloc]
  exact h.timers p hp

/-- What the handler does after `run_timer` allocates a timer at most. -/
lemma handled_blocks {p : Addr} {timers timers' : TimerState} {s s' : Sched κ} {frame k : κ}
    (hfree : s.LockFree .timer) (h : Handled (some p) timers s frame timers' s' k) :
    StacksKept s s' ∧ timers'.heap ⊆ insert p timers.heap := by
  cases h with
  | schedule _ _ hsched => exact ⟨stacksKept_schedule hsched, Finset.subset_insert p _⟩
  | count => exact ⟨stacksKept_setTask rfl, Finset.subset_insert p _⟩
  | sleep _ hcreate hsched =>
    rw [createTimerLocked_of_free hfree] at hcreate
    obtain ⟨rfl, rfl⟩ := Prod.mk.inj (Except.ok.inj hcreate)
    exact ⟨stacksKept_collaborativeSchedule hsched, Finset.Subset.refl _⟩

/-- When `run_timer` is done. -/
lemma Allocated.called {s : TaskRun} (h : Allocated s) (hinv : TaskInv s) {now : UInt32}
    {timers1 : TimerState} {m : Sched Resume}
    (hrun : runTimer callLibrary now s.timers s.sched.tickBegun = .ok (timers1, m)) :
    Owned m ∧ m.alloc ⊆ s.sched.alloc := by
  have hfree : s.sched.tickBegun.LockFree .timer := hinv.free .timer (by decide)
  have hbegun : Owned s.sched.tickBegun := h.owned.keep rfl rfl rfl rfl (stacksKept_setTask rfl)
  obtain ⟨howned, halloc⟩ := owned_runTimer hbegun hinv.timed.tickBegun hfree hrun
  exact ⟨howned, halloc⟩

lemma Allocated.tick {s : TaskRun} (h : Allocated s) (hinv : TaskInv s) {now : UInt32} {p : Addr}
    {timers : TimerState} {sched : Sched Resume} {pc : Resume}
    (hmalloc : ∀ timers1 m, runTimer callLibrary now s.timers s.sched.tickBegun =
      .ok (timers1, m) → p ∉ timers1.heap)
    (hfresh : Fresh s (.tick now p))
    (hrun : interruptTimerHandler callLibrary now (some p) s.timers s.sched s.pc =
      .ok (timers, sched, pc)) : Allocated ⟨timers, sched, pc⟩ := by
  obtain ⟨timers1, m, hrt, hdone, hp, -⟩ := hinv.tick hmalloc hrun
  obtain ⟨hlaw, hlocks, -, hsub⟩ := hinv.called hrt
  obtain ⟨howned, halloc⟩ := h.called hinv hrt
  have hfree := hlocks .timer (by decide)
  obtain ⟨hstack, hheap⟩ := handled_blocks hfree hdone
  obtain ⟨-, hframe⟩ := hlaw.handled hfree hp hdone
  refine ⟨howned.frame hframe hstack, fun q hq hqa => ?_⟩
  rw [hframe.alloc] at hqa
  rcases Finset.mem_insert.mp (hheap hq) with rfl | hq
  · exact hfresh timers1 m hrt hqa
  · exact h.timers q (hsub hq) (halloc hqa)

lemma Allocated.taskStart {s : TaskRun} (h : Allocated s) (hinv : TaskInv s) {mem stack : ℕ}
    {name : List UInt8} {prio : Int32} {sched : Sched Resume} {task : TaskAddr}
    (hfresh : Fresh s (.call (.taskStart mem stack name prio))) (hall : mem ∉ s.sched.taskAllList)
    (hmain : mem ≠ s.sched.mainTask)
    (hstart : s.sched.taskStart mem stack name prio .user = .ok (sched, task)) :
    Allocated { s with sched := sched, pc := .user } := by
  obtain ⟨hne, hnew⟩ := hfresh
  obtain ⟨hmem, hmemHeap⟩ := hnew mem (by simp)
  obtain ⟨hstack, hstackHeap⟩ := hnew stack (by simp)
  obtain ⟨rfl, ⟨b', tid, rfl⟩, -⟩ := law_taskStart hinv.timed.law (hinv.free .tid (by decide))
    hall hmain hstart
  refine ⟨h.owned.bornState hmem hstack hne rfl, fun p hp hpa => ?_⟩
  rcases Finset.mem_insert.mp hpa with rfl | hpa
  · exact hstackHeap hp
  · rcases Finset.mem_insert.mp hpa with rfl | hpa
    · exact hmemHeap hp
    · exact h.timers p hp hpa

theorem Allocated.step {s s' : TaskRun} {op : TaskOp} (h : Allocated s) (hinv : TaskInv s)
    (hfresh : Fresh s op) (hst : TaskStep callLibrary s op s') : Allocated s' := by
  have htid := hinv.free .tid (by decide)
  have hlaw := hinv.timed.law
  cases hst with
  | call hmay hpromise hcall =>
    have hp := performed hcall
    have hframe := hp.frame hlaw hpromise
    cases hp with
    | taskStart hstart => exact h.taskStart hinv hfresh hpromise.1 hpromise.2 hstart
    | taskExit hexit =>
      obtain ⟨b', hd⟩ := taskExit_ok htid hexit
      refine ⟨owned_taskExit h.owned htid hlaw.cur_mem hlaw.all_nodup hexit, fun p hp => ?_⟩
      rw [(diedTaskSchedule_dispatched hd).frame.alloc]
      exact h.timers p hp
    | taskBlock hblock => exact h.moved (hframe (by simp) (by simp)) (stacksKept_taskBlock hblock)
    | taskUnblock hunblock =>
      exact h.moved (hframe (by simp) (by simp)) (stacksKept_taskUnblock hunblock)
    | semaDown hdown => exact h.moved (hframe (by simp) (by simp)) (stacksKept_semaDown hdown)
    | semaUp hup => exact h.moved (hframe (by simp) (by simp)) (stacksKept_semaUp hup)
    | sleep => exact h.moved (frame_setTask s.sched _ _) (stacksKept_setTask rfl)
    | coEnableHookSys => exact h.moved (frame_setTask s.sched _ _) (stacksKept_setTask rfl)
  | tick hmalloc hrun => exact h.tick hinv hmalloc hfresh hrun
  | @createTimer p f pParam due period hin hp =>
    refine ⟨h.owned, fun q hq => ?_⟩
    rcases Finset.mem_insert.mp hq with rfl | hq
    · exact hfresh
    · exact h.timers q hq
  | deleteTimer => exact ⟨h.owned, fun q hq => h.timers q (Finset.mem_of_mem_erase hq)⟩

theorem Allocated.init {s : TaskRun} (hs : heapSystem.init s) : Allocated s := by
  obtain ⟨value, mem, stack, b, hne, hheap, hinit, htimers, hpc⟩ := hs
  obtain ⟨b', -, -, heq⟩ := taskInit_spec (κ := Resume) value mem stack
  obtain ⟨timers, sched, pc⟩ := s
  dsimp only at hinit htimers hpc
  subst htimers hpc
  obtain rfl := Except.ok.inj (heq.symm.trans hinit)
  have hnone : Held (fun _ : ℕ => False) (fun _ => 0) ∅ := ⟨by simp, by simp, by simp⟩
  constructor
  case owned =>
    constructor
    case held =>
      rw [show ({stack, mem} : Finset ℕ) = insert stack (insert mem ∅) by simp]
      apply hnone.insert (Finset.notMem_empty mem) (Finset.notMem_empty stack) hne
      · intro u
        simp [Owner, boot]
      · exact fun u hu => hu.elim
      · simp [stackOf, mainTaskStruct, bornTask]
    case main => exact List.not_mem_nil
  case timers =>
    intro p hp hpa
    rcases Finset.mem_insert.mp hpa with rfl | hpa
    · exact hheap p (by simp) hp
    · obtain rfl := Finset.mem_singleton.mp hpa
      exact hheap p (by simp) hp

/-- The runs with a heap are runs. -/
lemma heap_reachable {s : TaskRun} (hs : heapSystem.Reachable s) : taskSystem.Reachable s := by
  induction hs with
  | init h =>
    obtain ⟨value, mem, stack, b, -, -, hinit, htimers, hpc⟩ := h
    exact .init ⟨value, mem, stack, b, hinit, htimers, hpc⟩
  | step _ _ hst ih => exact ih.step trivial hst.2

theorem allocated_of_reachable {s : TaskRun} (hs : heapSystem.Reachable s) : Allocated s := by
  induction hs with
  | init h => exact .init h
  | step hs _ hst ih => exact ih.step (taskInv_of_reachable (heap_reachable hs)) hst.1 hst.2

/-- The main task and a task that it has started own four blocks. -/
theorem allocated_pair : ∃ s, heapSystem.Reachable s ∧ s.sched.alloc = {4, 3, 2, 1} ∧
    Allocated s := by
  obtain ⟨b0, b, hinit, hstart, -, -⟩ := exists_mainStarts Resume.user
  have hheap : ∀ p ∈ [1, 2], p ∉ (timerInit 0).heap := by decide
  have h0 : heapSystem.Reachable ⟨timerInit 0, mainSched b0, .user⟩ :=
    .init ⟨fun _ => 0, 1, 2, 0, by decide, hheap, hinit, rfl, rfl⟩
  have hfresh : Fresh ⟨timerInit 0, mainSched b0, .user⟩ (.call (.taskStart 3 4 [] 3)) := by
    show 4 ≠ 3 ∧ ∀ p ∈ [3, 4], p ∉ ({2, 1} : Finset ℕ) ∧ p ∉ (timerInit 0).heap
    decide
  have h1 := h0.step (a := .call (.taskStart 3 4 [] 3)) trivial ⟨hfresh, .of_performed
    (.taskStart 3 4 [] 3) (.inl ⟨rfl, rfl⟩) (by simp [Promised, mainSched]) (.taskStart hstart)⟩
  exact ⟨_, h1, rfl, allocated_of_reachable h1⟩

end Libtask.Conservation
