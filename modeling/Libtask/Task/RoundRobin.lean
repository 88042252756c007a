import Libtask.Task.Places
import Libtask.Task.Returns

/-!
# Bounded waiting

A task on the ready list moves towards its head at the pace of the slices before it, as
long as what the tasks and the handler do comes back. The runs here end where it does not.
-/
namespace Libtask.Conservation
open Transition Timer Sched

variable {κ : Type}

/-- The ticks that the tasks of a list will run for. -/
def slices (s : Sched Resume) (l : List TaskAddr) : ℕ :=
  (l.map fun u => (s.task u).ticks.toNat + 1).sum

lemma slices_congr {s s' : Sched Resume} {l : List TaskAddr}
    (h : ∀ u ∈ l, (s'.task u).ticks = (s.task u).ticks) : slices s' l = slices s l := by
  unfold slices
  congr 1
  apply List.map_congr_left
  intro u hu
  rw [h u hu]

@[simp] lemma slices_cons (s : Sched Resume) (u : TaskAddr) (l : List TaskAddr) :
    slices s (u :: l) = (s.task u).ticks.toNat + 1 + slices s l := by simp [slices]

/-- The same number of ticks to run for, now and from the next dispatch on. -/
def SameSlice (p p' : TaskStruct κ) : Prop := p'.ticks = p.ticks ∧ p'.priority = p.priority

lemma sameSlice_setTask {s : Sched κ} {t : TaskAddr}
    {f : TaskStruct κ → TaskStruct κ} (hf : SameSlice (s.task t) (f (s.task t)))
    (u : TaskAddr) : SameSlice (s.task u) ((s.setTask t f).task u) := by
  by_cases hu : u = t
  · subst hu
    rwa [setTask_task_self]
  · rw [setTask_task_of_ne _ _ hu]
    exact ⟨rfl, rfl⟩

/-- The slice of a task is what it was, or a new one. -/
def SliceKept (s s' : Sched κ) (u : TaskAddr) : Prop :=
  SameSlice (s.task u) (s'.task u) ∨ (s'.task u).ticks = (s'.task u).priority

lemma SliceKept.trans {s t v : Sched κ} {u : TaskAddr} (h : SliceKept s t u)
    (h' : SliceKept t v u) : SliceKept s v u := by
  unfold SliceKept at *
  rcases h' with ⟨hticks, hprio⟩ | hnew
  · rcases h with ⟨hticks', hprio'⟩ | hnew'
    · exact .inl ⟨hticks.trans hticks', hprio.trans hprio'⟩
    · exact .inr (by rw [hticks, hnew', hprio])
  · exact .inr hnew

/-- The running task goes on, and tasks may have come to the end of the ready list. -/
structure Queued (s s' : Sched κ) : Prop where
  current : s'.currentTask = s.currentTask
  ready : ∃ added, s'.taskReadyList = s.taskReadyList ++ added
  slice : ∀ u, u = s.currentTask ∨ u ∈ s.taskReadyList →
    (s'.task u).ticks = (s.task u).ticks
  kept : ∀ u, SliceKept s s' u

lemma Queued.trans {s t v : Sched κ} (h : Queued s t) (h' : Queued t v) : Queued s v := by
  obtain ⟨added, hadded⟩ := h.ready
  obtain ⟨added', hadded'⟩ := h'.ready
  constructor
  case current => exact h'.current.trans h.current
  case ready => exact ⟨added ++ added', by rw [hadded', hadded, List.append_assoc]⟩
  case slice =>
    intro u hu
    have hu' : u = t.currentTask ∨ u ∈ t.taskReadyList := by
      rw [h.current, hadded]
      exact hu.imp_right (List.mem_append_left added)
    exact (h'.slice u hu').trans (h.slice u hu)
  case kept => exact fun u => (h.kept u).trans (h'.kept u)

/-- Writes to the running task that leave its slice alone. -/
lemma queued_setTask (s : Sched κ) {f : TaskStruct κ → TaskStruct κ}
    (hf : SameSlice s.current (f s.current)) : Queued s (s.setTask s.currentTask f) where
  current := rfl
  ready := ⟨[], (List.append_nil _).symm⟩
  slice u _ := (sameSlice_setTask hf u).1
  kept u := .inl (sameSlice_setTask hf u)

lemma queued_requestSleep (s : Sched κ) (millisecond : UInt32) :
    Queued s (s.requestSleep millisecond) := by
  unfold requestSleep
  exact queued_setTask s ⟨rfl, rfl⟩

lemma queued_coEnableHookSys (s : Sched κ) : Queued s s.coEnableHookSys := by
  unfold coEnableHookSys
  exact queued_setTask s ⟨rfl, rfl⟩

/-- The tasks, the ready list and the running task are the same. -/
lemma queued_of_eq {s s' : Sched κ} (htask : s'.task = s.task)
    (hready : s'.taskReadyList = s.taskReadyList) (hcur : s'.currentTask = s.currentTask) :
    Queued s s' := by
  constructor
  case current => exact hcur
  case ready => exact ⟨[], by rw [hready, List.append_nil]⟩
  case slice => exact fun u _ => by rw [htask]
  case kept => exact fun u => by rw [SliceKept, htask]; exact .inl ⟨rfl, rfl⟩
/-- What the calls of a tick do to the scheduler. -/
structure Woken (s s' : Sched κ) : Prop where
  queued : Queued s s'
  locks : LocksKept s s'
  flag : s'.current.isCollaborativeSchedule = s.current.isCollaborativeSchedule

lemma Woken.trans {s t v : Sched κ} (h : Woken s t) (h' : Woken t v) : Woken s v where
  queued := h.queued.trans h'.queued
  locks := h.locks.trans h'.locks
  flag := h'.flag.trans h.flag

/-- A task that is neither running nor ready is put at the end of the ready list. -/
lemma woken_wakeUp {s s' : Sched κ} {t : TaskAddr} (hcur : t ≠ s.currentTask)
    (hready : t ∉ s.taskReadyList) (h : s.collaborativeScheduleHelper t = .ok s') :
    Woken s s' := by
  simp only [collaborativeScheduleHelper, bind_eq_ok] at h
  obtain ⟨-, -, hs'⟩ := h
  obtain rfl := Except.ok.inj hs'
  refine ⟨⟨rfl, ⟨[t], rfl⟩, ?_, ?_⟩, ⟨rfl, fun _ _ => rfl, rfl⟩, ?_⟩
  · intro u hu
    have hne : u ≠ t := by
      rintro rfl
      exact hu.elim hcur hready
    rw [setTask_task_of_ne _ _ hne]
  · intro u
    rw [SliceKept, setTask_task]
    split_ifs with hu
    · exact .inr rfl
    · exact .inl ⟨rfl, rfl⟩
  · show (Sched.task _ s.currentTask).isCollaborativeSchedule = _
    rw [setTask_task_of_ne _ _ hcur.symm]

section Woken

variable {timers timers' : TimerState} {s s' : Sched κ}

/-- One call in the walk of `run_timer`. -/
lemma TimedLaw.woken {p : Addr} {rest : List Addr} (h : TimedLaw (p :: rest) timers s)
    (hcall : Conservation.callLibrary (timers.node p) s = .ok s') : Woken s s' := by
  by_cases hfn : (timers.node p).timerFn = .collaborativeScheduleHelper
  · simp only [Conservation.callLibrary, hfn, callTimer] at hcall
    obtain ⟨hheap, -, -⟩ := h.linked.not_mem
    have hpos : 0 < wakes timers (timers.node p).pParam :=
      Finset.card_pos.mpr ⟨p, Finset.mem_filter.mpr ⟨hheap, hfn, rfl⟩⟩
    obtain ⟨hcur, hready, -, -⟩ := h.law.wake_alone hpos
    exact woken_wakeUp (fun he => hcur (by rw [he])) hready hcall
  · obtain ⟨pool, alloc, tag, rfl, -⟩ := callLibrary_ok hcall hfn
    exact ⟨queued_of_eq rfl rfl rfl, ⟨rfl, fun _ _ => rfl, rfl⟩, rfl⟩

theorem woken_loopInv (s : Sched κ) :
    LoopInv Conservation.callLibrary fun rest timers' s' =>
      TimedLaw rest timers' s' ∧ Woken s s' := by
  constructor
  case call =>
    intro p rest timers1 s1 s2 ⟨hlaw, hwoken⟩ hcall
    exact ⟨(hlaw.callLibrary hcall).1, hwoken.trans (hlaw.woken hcall)⟩
  case cascade =>
    intro timers1 s1 ⟨hlaw, hwoken⟩
    exact ⟨hlaw.cascade, hwoken⟩
  case tick =>
    intro timers1 s1 ⟨hlaw, hwoken⟩
    exact ⟨⟨hlaw.law, hlaw.linked, hlaw.oneShot⟩, hwoken⟩

theorem TimedLaw.runWoken {now : UInt32} (h : TimedLaw [] timers s) (hfree : s.LockFree .timer)
    (hrun : Sched.runTimer Conservation.callLibrary now timers s = .ok (timers', s')) :
    Woken s s' := by
  obtain ⟨m, hloop, hrel⟩ := runTimer_released hfree hrun
  have hself : Woken (s.held .timer) (s.held .timer) :=
    ⟨queued_of_eq rfl rfl rfl, ⟨rfl, fun _ _ => rfl, rfl⟩, rfl⟩
  obtain ⟨-, hwoken⟩ := (woken_loopInv (s.held .timer)).loop ⟨h.held hfree, hself⟩ hloop
  obtain ⟨rfl, -, hlocks⟩ := hrel hwoken.locks
  have hbefore : Queued s (s.held .timer) := queued_of_eq rfl rfl rfl
  have hafter : Queued m (m.freed .timer) := queued_of_eq rfl rfl rfl
  exact ⟨(hbefore.trans hwoken.queued).trans hafter, hlocks, hwoken.flag⟩

end Woken

lemma woken_tickBegun (s : Sched κ) : Woken s s.tickBegun := by
  refine ⟨queued_setTask s ⟨rfl, rfl⟩, ⟨rfl, fun _ _ => rfl, rfl⟩, ?_⟩
  show (Sched.task (s.setTask _ _) s.currentTask).isCollaborativeSchedule = _
  rw [setTask_task_self]

/-- The head of the ready list runs, and no slice has changed. -/
structure Switched (s s' : Sched Resume) : Prop where
  ready : s.taskReadyList = s'.currentTask :: s'.taskReadyList
  slice : ∀ u, SameSlice (s.task u) (s'.task u)

lemma switched_of_ready {s : Sched Resume} {next : TaskAddr} {rest : List TaskAddr}
    (hready : s.taskReadyList = next :: rest) (frame : Resume) :
    Switched s (({ s with taskReadyList := rest, taskTag := next }.setStatus next
      .running).switchTo next frame).1 := by
  refine ⟨hready, fun u => ?_⟩
  let s1 := { s with taskReadyList := rest, taskTag := next }
  have hstatus : SameSlice (s1.task u) ((s1.setStatus next .running).task u) :=
    sameSlice_setTask (f := fun p => { p with status := .running }) ⟨rfl, rfl⟩ u
  have hswitch : SameSlice ((s1.setStatus next .running).task u)
      (((s1.setStatus next .running).switchTo next frame).1.task u) :=
    sameSlice_setTask (f := fun p => { p with context := frame }) ⟨rfl, rfl⟩ u
  exact ⟨hswitch.1.trans hstatus.1, hswitch.2.trans hstatus.2⟩

/-- Giving up the CPU after writes that are not about slices. -/
lemma Switched.of_eq {s t s' : Sched Resume} (h : Switched t s')
    (hready : t.taskReadyList = s.taskReadyList)
    (hslice : ∀ u, SameSlice (s.task u) (t.task u)) : Switched s s' where
  ready := hready.symm.trans h.ready
  slice u := ⟨(h.slice u).1.trans (hslice u).1, (h.slice u).2.trans (hslice u).2⟩

lemma switched_taskBlock {s s' : Sched Resume} {status : TaskStatus} {here k : Resume}
    (h : s.taskBlock status here = .ok (s', k)) : Switched s s' := by
  rw [taskBlock, bind_eq_ok] at h
  obtain ⟨-, -, h⟩ := h
  obtain ⟨next, rest, hready, rfl⟩ := blockTaskSchedule_ok h
  have hslice : ∀ u, SameSlice (s.task u) ((s.setStatus s.currentTask status).task u) :=
    sameSlice_setTask (f := fun p => { p with status := status }) ⟨rfl, rfl⟩
  exact (switched_of_ready hready here).of_eq rfl hslice

lemma switched_semaDown {s s' : Sched Resume} {psema : SemaId} {here : Resume} {k : Option Resume}
    (hvalue : (s.sema psema).value = 0) (h : s.semaDown psema here = .ok (s', k)) :
    Switched s s' := by
  rw [semaDown, if_pos hvalue, bind_eq_ok] at h
  obtain ⟨-, -, h⟩ := h
  rw [bind_eq_ok] at h
  obtain ⟨⟨t, next⟩, hblock, hret⟩ := h
  obtain ⟨rfl, -⟩ := Prod.mk.inj (Except.ok.inj hret)
  have hblocked := switched_taskBlock hblock
  exact hblocked.of_eq rfl fun _ => ⟨rfl, rfl⟩

lemma switched_taskExit {s s' : Sched Resume} {k : Resume} (hfree : s.LockFree .tid)
    (hcur : s.currentTask ∉ s.taskReadyList) (h : s.taskExit s.currentTask = .ok (s', k)) :
    Switched s s' := by
  obtain ⟨next, rest, b', hready, rfl⟩ := taskExit_next hfree h
  rw [List.erase_of_not_mem hcur] at hready
  refine ⟨hready, fun u => ?_⟩
  have hdied : SameSlice (s.task u) ((s.exitState s.currentTask).task u) :=
    sameSlice_setTask (f := fun p => { p with status := .died }) ⟨rfl, rfl⟩ u
  have hrun : SameSlice ((s.exitState s.currentTask).task u)
      (((s.exitState s.currentTask).setStatus next .running).task u) :=
    sameSlice_setTask (f := fun p => { p with status := .running }) ⟨rfl, rfl⟩ u
  exact ⟨hrun.1.trans hdied.1, hrun.2.trans hdied.2⟩

/-- The ticks until `t` is dispatched: none when it runs, and as many as the
running task and those before `t` have. -/
inductive Left (t : TaskAddr) (s : Sched Resume) : ℕ → Prop
  | dispatched (h : s.currentTask = t) : Left t s 0
  | waiting {ahead behind : List TaskAddr} (hready : s.taskReadyList = ahead ++ t :: behind) :
      Left t s (slices s (s.currentTask :: ahead))

section Step

variable {s s' : Sched Resume} {t : TaskAddr} {ahead behind : List TaskAddr}

lemma Switched.left (h : Switched s s') (hready : s.taskReadyList = ahead ++ t :: behind) :
    Left t s' (slices s ahead) := by
  have hs' := h.ready.symm.trans hready
  cases ahead with
  | nil => exact .dispatched (List.cons.inj hs').1
  | cons u rest =>
    obtain ⟨rfl, hrest⟩ := List.cons.inj hs'
    rw [← slices_congr fun u _ => (h.slice u).1]
    exact .waiting hrest

/-- What comes to the end of the ready list comes behind `t`. -/
lemma Queued.line (h : Queued s s') (hready : s.taskReadyList = ahead ++ t :: behind) :
    (∃ behind', s'.taskReadyList = ahead ++ t :: behind') ∧
      slices s' (s'.currentTask :: ahead) = slices s (s.currentTask :: ahead) := by
  obtain ⟨added, hadded⟩ := h.ready
  constructor
  · exact ⟨behind ++ added, by rw [hadded, hready, List.append_assoc, List.cons_append]⟩
  · rw [h.current]
    apply slices_congr
    intro u hu
    apply h.slice
    rw [hready]
    rcases List.mem_cons.mp hu with hu | hu
    · exact .inl hu
    · exact .inr (List.mem_append_left _ hu)

/-- The slice that the handler shortens is not used up. -/
lemma count_ticks (hticks : s.current.ticks ≠ 0) :
    ((s.setTask s.currentTask fun p => { p with ticks := p.ticks - 1 }).task
      s.currentTask).ticks.toNat + 1 = (s.task s.currentTask).ticks.toNat := by
  have hpos : s.current.ticks.toNat ≠ 0 := fun hz => hticks (UInt8.toNat_inj.mp hz)
  have hle : (1 : UInt8) ≤ s.current.ticks :=
    UInt8.le_iff_toNat_le.mpr (Nat.one_le_iff_ne_zero.mpr hpos)
  have hsub : (s.current.ticks - 1).toNat = s.current.ticks.toNat - 1 :=
    UInt8.toNat_sub_of_le _ _ hle
  rw [setTask_task_self]
  show (s.current.ticks - 1).toNat + 1 = s.current.ticks.toNat
  omega

/-- After the calls of a tick. -/
lemma handled_left {p : Addr} {timers timers' : TimerState} {frame k : Resume}
    (hfree : s.LockFree .timer) (hcur : s.currentTask ∉ s.taskReadyList)
    (hready : s.taskReadyList = ahead ++ t :: behind)
    (h : Handled (some p) timers s frame timers' s' k) :
    ∃ n, Left t s' n ∧ n + 1 ≤ slices s (s.currentTask :: ahead) ∧
      (s.current.isCollaborativeSchedule = false → n + 1 = slices s (s.currentTask :: ahead)) := by
  have hne : ∀ u ∈ ahead, u ≠ s.currentTask := by
    rintro u hu rfl
    exact hcur (by rw [hready]; exact List.mem_append_left _ hu)
  rw [slices_cons]
  cases h with
  | schedule _ hticks hsched =>
    obtain ⟨next, rest, hnext, rfl⟩ := schedule_ok hsched
    have hsame : slices s.requeued ahead = slices s ahead := by
      apply slices_congr
      intro u hu
      rw [requeued, setTask_task_of_ne _ _ (hne u hu)]
    have hready' : s.requeued.taskReadyList = ahead ++ t :: (behind ++ [s.currentTask]) := by
      show s.taskReadyList ++ [s.currentTask] = _
      rw [hready, List.append_assoc, List.cons_append]
    have hleft := (switched_of_ready hnext frame).left hready'
    rw [hsame] at hleft
    have hzero : (s.task s.currentTask).ticks.toNat = 0 := by rw [hticks]; rfl
    exact ⟨slices s ahead, hleft, by omega, fun _ => by omega⟩
  | count hflag hticks =>
    let s1 := s.setTask s.currentTask fun p => { p with ticks := p.ticks - 1 }
    have hone : (s1.task s.currentTask).ticks.toNat + 1 = (s.task s.currentTask).ticks.toNat :=
      count_ticks hticks
    have hsame : slices s1 ahead = slices s ahead := by
      apply slices_congr
      intro u hu
      rw [setTask_task_of_ne _ _ (hne u hu)]
    have hleft : Left t s1 (slices s1 (s1.currentTask :: ahead)) := .waiting hready
    rw [slices_cons, hsame] at hleft
    change Left t s1 ((s1.task s.currentTask).ticks.toNat + 1 + slices s ahead) at hleft
    exact ⟨_, hleft, by omega, fun _ => by omega⟩
  | sleep hflag hcreate hsched =>
    rw [createTimerLocked_of_free hfree] at hcreate
    obtain ⟨rfl, rfl⟩ := Prod.mk.inj (Except.ok.inj hcreate)
    obtain ⟨next, rest, hnext, rfl⟩ := collaborativeSchedule_ok hsched
    refine ⟨slices s ahead, (switched_of_ready hnext frame).left hready, by omega, ?_⟩
    intro hflag'
    rw [hflag] at hflag'
    cases hflag'

end Step

lemma TaskInv.woken {s : TaskRun} (h : TaskInv s) {now : UInt32} {timers : TimerState}
    {m : Sched Resume}
    (hrun : runTimer callLibrary now s.timers s.sched.tickBegun = .ok (timers, m)) :
    Woken s.sched m := by
  have hfree : s.sched.tickBegun.LockFree .timer := h.free .timer (by decide)
  exact (woken_tickBegun s.sched).trans (h.timed.tickBegun.runWoken hfree hrun)

/-- `task_unblock` is not called; `sema_up` calls it when there is a waiter. -/
def NoUnblock (s : TaskRun) : TaskOp → Prop
  | .call (.taskUnblock _) => False
  | .call (.semaUp psema) => (s.sched.sema psema).waiters = []
  | _ => True

/-- The running task gives up the CPU before its slice ends. -/
def GivesUp (s : TaskRun) : TaskOp → Prop
  | .call .taskExit | .call (.taskBlock _) => True
  | .call (.semaDown psema) => (s.sched.sema psema).value = 0
  | .tick _ _ => s.sched.current.isCollaborativeSchedule = true
  | _ => False

/-- Calls of `interrupt_timer_handler`. -/
def TaskOp.calls : TaskOp → ℕ
  | .tick _ _ => 1
  | _ => 0

lemma queued_taskStart {s s' : Sched Resume} {wake : TaskAddr → ℕ}
    (hlaw : Roster.Law (some s.currentTask) wake s.roster) (hfree : s.LockFree .tid)
    {mem stack : ℕ} {name : List UInt8} {prio : Int32} {task : TaskAddr}
    (hall : mem ∉ s.taskAllList) (hmain : mem ≠ s.mainTask)
    (h : s.taskStart mem stack name prio .user = .ok (s', task)) : Queued s s' := by
  obtain ⟨rfl, ⟨b', tid, rfl⟩, -⟩ := law_taskStart hlaw hfree hall hmain h
  have htask : ∀ u, u ≠ task → (s.bornState task stack
      (bornTask stack name prio Resume.user tid) b').task u = s.task u :=
    fun u hu => Function.update_of_ne hu ..
  refine ⟨rfl, ⟨[task], rfl⟩, ?_, ?_⟩
  · intro u hu
    have hne : u ≠ task := by
      rintro rfl
      exact hu.elim (fun he => hall (he ▸ hlaw.cur_mem)) fun hm => hall (hlaw.ready_mem hm)
    rw [htask u hne]
  · intro u
    by_cases hu : u = task
    · subst hu
      right
      simp [bornState, bornTask]
    · left
      rw [htask u hu]
      exact ⟨rfl, rfl⟩

lemma queued_semaDown {s s' : Sched Resume} {psema : SemaId} {here : Resume} {k : Option Resume}
    (hvalue : (s.sema psema).value ≠ 0) (h : s.semaDown psema here = .ok (s', k)) :
    Queued s s' := by
  rw [semaDown, if_neg hvalue, bind_eq_ok] at h
  obtain ⟨t, htake, hret⟩ := h
  obtain ⟨rfl, -⟩ := Prod.mk.inj (Except.ok.inj hret)
  rw [semaTake, bind_eq_ok] at htake
  obtain ⟨-, -, ht⟩ := htake
  obtain rfl := Except.ok.inj ht
  exact queued_of_eq rfl rfl rfl

lemma queued_semaUp {s s' : Sched Resume} {psema : SemaId} (hwaiters : (s.sema psema).waiters = [])
    (h : s.semaUp psema = .ok s') : Queued s s' := by
  obtain ⟨m, rfl, ⟨-, rfl⟩ | ⟨t, rest, hw, -⟩⟩ := semaUp_ok h
  · exact queued_of_eq rfl rfl rfl
  · rw [hwaiters] at hw
    cases hw
/-- A step uses up no more ticks than the calls it makes, and as many unless the
running task gives up the CPU. -/
theorem TaskInv.left {s s' : TaskRun} {op : TaskOp} (h : TaskInv s)
    (hst : TaskStep callLibrary s op s') (hg : NoUnblock s op) {t : TaskAddr}
    {ahead behind : List TaskAddr} (hready : s.sched.taskReadyList = ahead ++ t :: behind) :
    ∃ n, Left t s'.sched n ∧ n + op.calls ≤ slices s.sched (s.sched.currentTask :: ahead) ∧
      (¬ GivesUp s op → n + op.calls = slices s.sched (s.sched.currentTask :: ahead)) := by
  have htid := h.free .tid (by decide)
  have hcur := h.timed.law.cur_alone.1
  have stays : ∀ sched, Queued s.sched sched → ∃ n, Left t sched n ∧
      n + 0 ≤ slices s.sched (s.sched.currentTask :: ahead) ∧
      (¬ GivesUp s op → n + 0 = slices s.sched (s.sched.currentTask :: ahead)) := by
    intro sched hq
    obtain ⟨⟨behind', hready'⟩, hsame⟩ := hq.line hready
    exact ⟨_, .waiting hready', by omega, fun _ => by omega⟩
  have goes : ∀ sched, Switched s.sched sched → GivesUp s op → ∃ n, Left t sched n ∧
      n + 0 ≤ slices s.sched (s.sched.currentTask :: ahead) ∧
      (¬ GivesUp s op → n + 0 = slices s.sched (s.sched.currentTask :: ahead)) := by
    intro sched hsw hgives
    refine ⟨_, hsw.left hready, ?_, fun hkeeps => absurd hgives hkeeps⟩
    rw [slices_cons]
    omega
  cases hst with
  | call hmay hpromise hcall =>
    cases performed hcall with
    | taskStart hstart =>
      exact stays _ (queued_taskStart h.timed.law htid hpromise.1 hpromise.2 hstart)
    | taskExit hexit => exact goes _ (switched_taskExit htid hcur hexit) trivial
    | taskBlock hblock => exact goes _ (switched_taskBlock hblock) trivial
    | taskUnblock => exact hg.elim
    | @semaDown psema _ _ hdown =>
      by_cases hvalue : (s.sched.sema psema).value = 0
      · exact goes _ (switched_semaDown hvalue hdown) hvalue
      · exact stays _ (queued_semaDown hvalue hdown)
    | semaUp hup => exact stays _ (queued_semaUp hg hup)
    | sleep => exact stays _ (queued_requestSleep s.sched _)
    | coEnableHookSys => exact stays _ (queued_coEnableHookSys s.sched)
  | tick hmalloc hrun =>
    obtain ⟨timers1, m, hrt, hdone, -, -⟩ := h.tick hmalloc hrun
    obtain ⟨hlaw, hfree, -, -⟩ := h.called hrt
    have hwoken := h.woken hrt
    obtain ⟨⟨behind', hready'⟩, hsame⟩ := hwoken.queued.line hready
    obtain ⟨n, hleft, hle, heq⟩ := handled_left (hfree .timer (by decide)) hlaw.law.cur_alone.1
      hready' hdone
    rw [hsame] at hle heq
    refine ⟨n, hleft, hle, fun hkeeps => heq ?_⟩
    rw [hwoken.flag]
    exact Bool.eq_false_iff.mpr hkeeps
  | createTimer => exact stays _ (queued_of_eq rfl rfl rfl)
  | deleteTimer => exact stays _ (queued_of_eq rfl rfl rfl)

/-- A slice stays, starts anew, or is shortened by one tick that it has. -/
def Counts (s s' : Sched Resume) : Prop :=
  ∀ u, SliceKept s s' u ∨ (s'.task u).ticks.toNat + 1 = (s.task u).ticks.toNat

lemma Switched.kept {s s' : Sched Resume} (h : Switched s s') (u : TaskAddr) : SliceKept s s' u :=
  .inl (h.slice u)

lemma handled_counts {p : Addr} {timers timers' : TimerState} {s s' : Sched Resume}
    {frame k : Resume} (hfree : s.LockFree .timer)
    (h : Handled (some p) timers s frame timers' s' k) (u : TaskAddr) :
    SliceKept s s' u ∨
      u = s.currentTask ∧ (s'.task u).ticks.toNat + 1 = (s.task u).ticks.toNat := by
  cases h with
  | schedule _ _ hsched =>
    obtain ⟨next, rest, hnext, rfl⟩ := schedule_ok hsched
    have hqueue : SliceKept s s.requeued u := by
      rw [SliceKept, requeued, setTask_task]
      split_ifs with hu
      · exact .inr rfl
      · exact .inl ⟨rfl, rfl⟩
    exact .inl (hqueue.trans ((switched_of_ready hnext frame).kept u))
  | count hflag hticks =>
    by_cases hu : u = s.currentTask
    · subst hu
      exact .inr ⟨rfl, count_ticks hticks⟩
    · left
      rw [SliceKept, setTask_task_of_ne _ _ hu]
      exact .inl ⟨rfl, rfl⟩
  | sleep _ hcreate hsched =>
    rw [createTimerLocked_of_free hfree] at hcreate
    obtain ⟨rfl, rfl⟩ := Prod.mk.inj (Except.ok.inj hcreate)
    obtain ⟨next, rest, hnext, rfl⟩ := collaborativeSchedule_ok hsched
    exact .inl ((switched_of_ready hnext frame).kept u)

lemma kept_taskUnblock {s s' : Sched Resume} {t : TaskAddr} (h : s.taskUnblock t = .ok s')
    (u : TaskAddr) : SliceKept s s' u := by
  obtain ⟨-, rfl⟩ := taskUnblock_ok h
  exact .inl (sameSlice_setTask (s := { s with taskReadyList := t :: s.taskReadyList })
    (f := fun p => { p with status := .ready }) ⟨rfl, rfl⟩ u)
theorem TaskInv.counts {s s' : TaskRun} {op : TaskOp} (h : TaskInv s)
    (hst : TaskStep callLibrary s op s') : Counts s.sched s'.sched := by
  have htid := h.free .tid (by decide)
  intro u
  cases hst with
  | call hmay hpromise hcall =>
    cases performed hcall with
    | taskStart hstart =>
      exact .inl ((queued_taskStart h.timed.law htid hpromise.1 hpromise.2 hstart).kept u)
    | taskExit hexit =>
      exact .inl ((switched_taskExit htid h.timed.law.cur_alone.1 hexit).kept u)
    | taskBlock hblock => exact .inl ((switched_taskBlock hblock).kept u)
    | taskUnblock hunblock => exact .inl (kept_taskUnblock hunblock u)
    | @semaDown psema _ _ hdown =>
      by_cases hvalue : (s.sched.sema psema).value = 0
      · exact .inl ((switched_semaDown hvalue hdown).kept u)
      · exact .inl ((queued_semaDown hvalue hdown).kept u)
    | semaUp hup =>
      obtain ⟨m, rfl, ⟨-, rfl⟩ | ⟨t, rest, -, hunblock⟩⟩ := semaUp_ok hup
      · exact .inl (.inl ⟨rfl, rfl⟩)
      · exact .inl (kept_taskUnblock hunblock u)
    | sleep => exact .inl ((queued_requestSleep s.sched _).kept u)
    | coEnableHookSys => exact .inl ((queued_coEnableHookSys s.sched).kept u)
  | tick hmalloc hrun =>
    obtain ⟨timers1, m, hrt, hdone, -, -⟩ := h.tick hmalloc hrun
    obtain ⟨-, hfree, -, -⟩ := h.called hrt
    have hwoken := h.woken hrt
    rcases handled_counts (hfree .timer (by decide)) hdone u with hkept | ⟨hu, hcount⟩
    · exact .inl ((hwoken.queued.kept u).trans hkept)
    · right
      rw [hcount, hwoken.queued.slice u (.inl (hu.trans hwoken.queued.current))]
  | createTimer => exact .inl (.inl ⟨rfl, rfl⟩)
  | deleteTimer => exact .inl (.inl ⟨rfl, rfl⟩)

/-- Every operation that is asked for is a step here, and leads nowhere if it does not come
back: a failed assertion and a loop without an end hold the CPU, with SIGALRM masked. -/
inductive StopStep : Option TaskRun → TaskOp → Option TaskRun → Prop
  | returns {s s' : TaskRun} {op : TaskOp} (h : TaskStep callLibrary s op s') :
      StopStep (some s) op (some s')
  | stops {s : TaskRun} {op : TaskOp} (hasked : s.Asked op)
      (h : ¬ ∃ s', TaskStep callLibrary s op s') : StopStep (some s) op none

def stoppingSystem : System (Option TaskRun) TaskOp where
  init s := ∃ r, s = some r ∧ taskSystem.init r
  step := StopStep

/-- What is asked of the steps, as long as the run has not stopped. -/
def during (guard : TaskRun → TaskOp → Prop) (s : Option TaskRun) (op : TaskOp) : Prop :=
  ∀ r ∈ s, guard r op

/-- The calls of the handler in a run, the one that does not come back among them. -/
def handlerCalls (run : List (TaskOp × Option TaskRun)) : ℕ := (run.map fun x => x.1.calls).sum

@[simp] lemma handlerCalls_cons (op : TaskOp) (s : Option TaskRun)
    (run : List (TaskOp × Option TaskRun)) :
    handlerCalls ((op, s) :: run) = op.calls + handlerCalls run := by simp [handlerCalls]

/-- `t` is the running task in a state of the run. -/
def GetsCpu (t : TaskAddr) (run : List (TaskOp × Option TaskRun)) : Prop :=
  ∃ x ∈ run, ∃ s ∈ x.2, s.sched.currentTask = t

/-- The run has come to an operation that does not come back. -/
def Stops (run : List (TaskOp × Option TaskRun)) : Prop := ∃ x ∈ run, x.2 = none

/-- `t` is dispatched after at most so many calls of the handler. When the run stops, no
task is dispatched any more. -/
def DispatchedWithin (bound : ℕ) (t : TaskAddr) (run : List (TaskOp × Option TaskRun)) : Prop :=
  bound ≤ handlerCalls run ∨ Stops run → GetsCpu t run

/-- As long as a task is ready, an operation that has what it needs is a step. -/
lemma StopStep.returned {s : TaskRun} {op : TaskOp} {x : Option TaskRun}
    (hst : StopStep (some s) op x) (h : TaskInv s) (hs : Sound s.sched)
    (hready : s.sched.taskReadyList ≠ []) (hback : s.ComesBack op) :
    ∃ s', x = some s' ∧ TaskStep callLibrary s op s' := by
  cases hst with
  | returns hst => exact ⟨_, rfl, hst⟩
  | stops hasked hnone => exact absurd ((step_iff h hs hready hasked).mpr hback) hnone

/-- And one that lacks it stops the run. -/
lemma stops_iff {s : TaskRun} (hs : taskSystem.Reachable s) (hready : s.sched.taskReadyList ≠ [])
    {op : TaskOp} (hasked : s.Asked op) :
    stoppingSystem.step (some s) op none ↔ ¬ s.ComesBack op := by
  rw [← step_iff (taskInv_of_reachable hs) (sound_of_reachable hs) hready hasked]
  constructor
  · intro hst
    cases hst with
    | stops _ hnone => exact hnone
  · exact .stops hasked

/-- A task of the line gets the CPU before the slices are used up, and before the run stops. -/
lemma dispatchedWithin_of_comesBack {x : Option TaskRun} {run : List (TaskOp × Option TaskRun)}
    (hrun : stoppingSystem.Run (during fun s op => NoUnblock s op ∧ s.ComesBack op) x run)
    {s : TaskRun} (hx : x = some s) (h : TaskInv s) (hs : Sound s.sched) {t : TaskAddr}
    {ahead behind : List TaskAddr} (hready : s.sched.taskReadyList = ahead ++ t :: behind) :
    DispatchedWithin (slices s.sched (s.sched.currentTask :: ahead)) t run := by
  induction hrun generalizing s ahead behind with
  | nil x =>
    rintro (hle | ⟨y, hy, -⟩)
    · rw [slices_cons] at hle
      simp [handlerCalls] at hle
    · cases hy
  | @cons x x' op rest hg hst hrest ih =>
    subst hx
    obtain ⟨hno, hback⟩ := hg s rfl
    obtain ⟨s', rfl, hreturns⟩ := StopStep.returned hst h hs (by simp [hready]) hback
    obtain ⟨n, hleft, hn, -⟩ := h.left hreturns hno hready
    intro hend
    cases hleft with
    | dispatched hcur => exact ⟨(op, some s'), List.mem_cons_self, s', rfl, hcur⟩
    | @waiting ahead' _ hready' =>
      have hend' : slices s'.sched (s'.sched.currentTask :: ahead') ≤ handlerCalls rest ∨
          Stops rest := by
        rcases hend with hle | ⟨y, hy, hnone⟩
        · left
          rw [handlerCalls_cons] at hle
          omega
        · right
          rcases List.mem_cons.mp hy with rfl | hy
          · cases hnone
          · exact ⟨y, hy, hnone⟩
      obtain ⟨y, hy, hcur⟩ := ih rfl (h.step hreturns) (hs.step h hreturns) hready' hend'
      exact ⟨y, List.mem_cons_of_mem _ hy, hcur⟩

/-- The running task is not on the ready list, so `t` runs only once no tick is left. -/
lemma calls_of_getsCpu {x : Option TaskRun} {run : List (TaskOp × Option TaskRun)}
    (hrun : stoppingSystem.Run (during fun s op => NoUnblock s op ∧ ¬ GivesUp s op) x run)
    {s : TaskRun} (hx : x = some s) (h : TaskInv s) {t : TaskAddr} {ahead behind : List TaskAddr}
    (hready : s.sched.taskReadyList = ahead ++ t :: behind) (hgets : GetsCpu t run) :
    slices s.sched (s.sched.currentTask :: ahead) ≤ handlerCalls run := by
  induction hrun generalizing s ahead behind with
  | nil x =>
    obtain ⟨y, hy, -⟩ := hgets
    cases hy
  | @cons x x' op rest hg hst hrest ih =>
    subst hx
    obtain ⟨hno, hkeeps⟩ := hg s rfl
    cases hst with
    | stops =>
      -- nothing comes after the stop
      obtain ⟨y, hy, r, hr, -⟩ := hgets
      rcases List.mem_cons.mp hy with rfl | hy
      · cases hr
      · cases hrest with
        | nil => cases hy
        | cons _ hst' _ => cases hst'
    | @returns _ s' _ hst =>
      obtain ⟨n, hleft, -, hn⟩ := h.left hst hno hready
      have hn' := hn hkeeps
      have h' := h.step hst
      rw [handlerCalls_cons]
      cases hleft with
      | dispatched => omega
      | waiting hready' =>
        have hgets' : GetsCpu t rest := by
          obtain ⟨y, hy, r, hr, hcur⟩ := hgets
          rcases List.mem_cons.mp hy with rfl | hy
          · exfalso
            obtain rfl := Option.some.inj hr
            apply h'.timed.law.cur_alone.1
            rw [hcur]
            show t ∈ s'.sched.taskReadyList
            simp [hready']
          · exact ⟨y, hy, r, hr, hcur⟩
        have hrest := ih rfl h' hready' hgets'
        omega

/-- A run of operations that all have what they need. A task of the ready list is dispatched
after at most as many ticks as the slices before it have, after exactly as many if no task
gives up the CPU, and no slice is ever counted below 0. The operations that do not come
back are those that lack it. -/
theorem bounded_waiting {s : TaskRun} (hs : taskSystem.Reachable s) {t : TaskAddr}
    {ahead behind : List TaskAddr} (hready : s.sched.taskReadyList = ahead ++ t :: behind) :
    (∀ run, stoppingSystem.Run (during fun s op => NoUnblock s op ∧ s.ComesBack op) (some s) run →
      DispatchedWithin (s.sched.current.ticks.toNat + 1 + slices s.sched ahead) t run) ∧
    (∀ run, stoppingSystem.Run (during fun s op =>
        (NoUnblock s op ∧ s.ComesBack op) ∧ ¬ GivesUp s op) (some s) run →
      (GetsCpu t run ↔
        s.sched.current.ticks.toNat + 1 + slices s.sched ahead ≤ handlerCalls run)) ∧
    (∀ v, taskSystem.Reachable v → ∀ op v', taskSystem.step v op v' → Counts v.sched v'.sched) ∧
    ∀ op, s.Asked op → (stoppingSystem.step (some s) op none ↔ ¬ s.ComesBack op) := by
  have h := taskInv_of_reachable hs
  have hsound := sound_of_reachable hs
  have hbound : s.sched.current.ticks.toNat + 1 + slices s.sched ahead =
      slices s.sched (s.sched.currentTask :: ahead) := (slices_cons ..).symm
  rw [hbound]
  refine ⟨?_, ?_, ?_, ?_⟩
  · exact fun run hrun => dispatchedWithin_of_comesBack hrun rfl h hsound hready
  · intro run hrun
    constructor
    · exact calls_of_getsCpu (hrun.mono fun _ _ hg r hr => ⟨(hg r hr).1.1, (hg r hr).2⟩) rfl h
        hready
    · exact fun hle => dispatchedWithin_of_comesBack (hrun.mono fun _ _ hg r hr => (hg r hr).1) rfl
        h hsound hready (.inl hle)
  · exact fun v hv op v' hst => (taskInv_of_reachable hv).counts hst
  · exact fun op hasked => stops_iff hs (by simp [hready]) hasked

/-- The main task waits, the task at block 3 has exited, and the task at block 5 has three
ticks left. -/
theorem bounded_waiting_pooled : ∃ s : TaskRun, s.sched.taskPoolList = [3] ∧
    s.sched.currentTask = 5 ∧ s.sched.taskReadyList = [7, 9] ∧
    ∀ run, stoppingSystem.Run (during fun s op => NoUnblock s op ∧ s.ComesBack op) (some s) run →
      DispatchedWithin (s.sched.current.ticks.toNat + 1 + ((s.sched.task 7).ticks.toNat + 1)) 9
        run := by
  obtain ⟨s, hs, -, hpool, hcur, hready, -⟩ := exists_pooled
  refine ⟨s.toTaskRun, hpool, hcur, hready, fun run hrun => ?_⟩
  exact (bounded_waiting (toTaskRun_reachable hs)
    (show s.sched.taskReadyList = [7] ++ 9 :: [] from hready)).1 run hrun

/-- There, neither a call of `task_start` nor a tick at the largest reading of the clock
comes back, and the tasks that are ready never get the CPU. -/
theorem not_bounded_waiting : ∃ s : TaskRun, taskSystem.Reachable s ∧
    s.sched.taskReadyList = [7, 9] ∧
    ∀ op ∈ [.call (.taskStart 11 12 [] 3), .tick 0xffffffff 1],
      stoppingSystem.Run (during NoUnblock) (some s) [(op, none)] ∧
      ∀ n, ¬ DispatchedWithin n 7 [(op, none)] := by
  obtain ⟨s, hs, -, hpool, hcur, hready, -, hin, hall, hmain⟩ := exists_pooled
  have hreach := toTaskRun_reachable hs
  have hinv := taskInv_of_reachable hreach
  refine ⟨s.toTaskRun, hreach, hready, fun op hop => ?_⟩
  have hstop : stoppingSystem.step (some s.toTaskRun) op none ∧ NoUnblock s.toTaskRun op := by
    rcases List.mem_cons.mp hop with rfl | hop
    · have hpromise : Promised s.sched (.taskStart 11 12 [] 3) := by
        rw [Promised, hall, hmain]
        decide
      have hasked : s.Asked (.call (.taskStart 11 12 [] 3)) := ⟨.inl hin, hpromise⟩
      refine ⟨(stops_iff hreach (by simp [hready]) hasked).mpr ?_, trivial⟩
      rintro ⟨hnil, -⟩
      rw [hpool] at hnil
      cases hnil
    · obtain rfl := List.mem_singleton.mp hop
      refine ⟨(stops_iff hreach (by simp [hready]) ?_).mpr fun hback => hback.1 rfl, trivial⟩
      -- the loop has no end
      intro timers1 m hrun
      have hfree : s.sched.tickBegun.LockFree .timer := hinv.free .timer (by decide)
      obtain ⟨m', hloop, -⟩ := runTimer_ok hfree hrun
      rw [loop_diverges (by rfl)] at hloop
      cases hloop
  refine ⟨.cons ?_ hstop.1 (.nil none), fun n hwithin => ?_⟩
  · rintro r ⟨⟩
    exact hstop.2
  · obtain ⟨x, hx, r, hr, -⟩ := hwithin (.inr ⟨_, List.mem_cons_self, rfl⟩)
    obtain rfl := List.mem_singleton.mp hx
    cases hr

end Libtask.Conservation
