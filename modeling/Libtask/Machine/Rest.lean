import Libtask.Machine.Ticks
import Libtask.Task.Contexts

/-!
# Tasks at rest

A task rests in its own code, in the loop of a hook, or before it tests a semaphore
again. The functions that dispatch save a flow at rest and load another one, and the
clock wakes tasks without touching their contexts.
-/
namespace Libtask.Machine
open Transition Timer Settling Sched Conservation

/-- Where a flow goes on. -/
def resumeAt : List (List Stmt) → Resume
  | (.semaTest psema :: _) :: _ => .semaDown psema
  | _ => .user

def Ctx.resume (k : Ctx) : Resume := resumeAt k.stack

/-- The code of a task, outside of the library. -/
def InUser (code : List Stmt) : Prop := code = [.user] ∨ code = taskEntrance

lemma InUser.resumeAt {code : List Stmt} (h : InUser code) : resumeAt [code] = .user := by
  rcases h with rfl | rfl <;> rfl

/-- A frame at rest. Only a hook lets a task rest that has asked for a sleep. -/
inductive AtRest : Bool → List Stmt → Prop
  | user {code : List Stmt} (h : InUser code) : AtRest false code
  | sleep {flag : Bool} {code : List Stmt} (h : InUser code) : AtRest flag (.hookSpin :: code)
  | wait {psema : SemaId} {was : Bool} {code : List Stmt} (hcallers : Callers psema)
      (h : InUser code) : AtRest false (.semaTest psema :: .enable (.semaDown psema) was :: code)

lemma AtRest.awake {flag : Bool} {code : List Stmt} (h : AtRest flag (.user :: code)) :
    flag = false := by
  cases h with
  | user => rfl

lemma AtRest.inUser {flag : Bool} {code : List Stmt} (h : AtRest flag (.user :: code)) :
    InUser (.user :: code) := by
  cases h with
  | user h => exact h

lemma AtRest.waiting {flag : Bool} {psema : SemaId} {code : List Stmt}
    (h : AtRest flag (.semaTest psema :: code)) : flag = false := by
  cases h with
  | user h => rcases h with h | h <;> cases h
  | wait => rfl

/-- A flow without interrupted frames, at rest. -/
def Parked (flag : Bool) (stack : List (List Stmt)) : Prop :=
  ∃ code, stack = [code] ∧ AtRest flag code

lemma Parked.atRest {flag : Bool} {code : List Stmt} (h : Parked flag [code]) :
    AtRest flag code := by
  obtain ⟨code', hstack, hrest⟩ := h
  obtain rfl := (List.cons.inj hstack).1
  exact hrest

lemma Parked.awake {flag : Bool} {stack : List (List Stmt)} (h : Parked flag stack) :
    Parked false stack := by
  obtain ⟨code, hstack, hrest⟩ := h
  refine ⟨code, hstack, ?_⟩
  cases hrest with
  | user h => exact .user h
  | sleep h => exact .sleep h
  | wait hcallers h => exact .wait hcallers h

lemma Parked.rests {flag b : Bool} {stack : List (List Stmt)} {m : Memory} {r : Record}
    (h : Parked flag stack) : Rests ⟨b, stack, m, r⟩ := by
  obtain ⟨code, rfl, hrest⟩ := h
  cases hrest with
  | user h => rcases h with rfl | rfl <;> exact ⟨_, _, _, rfl, trivial⟩
  | sleep h => exact ⟨_, _, _, rfl, trivial⟩
  | wait hcallers h => exact ⟨_, _, _, rfl, hcallers⟩

/-- The context of a task and whether it has asked for a sleep. -/
def saved (s : Sched Ctx) (t : TaskAddr) : Ctx × Bool :=
  ((s.task t).context, (s.task t).isCollaborativeSchedule)

/-- The tasks that are off the CPU rest. -/
def OffCpu (s : Sched Ctx) : Prop :=
  ∀ t ∈ s.taskAllList, t ≠ s.currentTask → Parked (saved s t).2 (saved s t).1.stack

variable {s s' : Sched Ctx}

lemma saved_setTask {t : TaskAddr} {f : TaskStruct Ctx → TaskStruct Ctx}
    (hf : ((f (s.task t)).context, (f (s.task t)).isCollaborativeSchedule) = saved s t) :
    saved (s.setTask t f) = saved s := by
  funext u
  unfold saved
  by_cases hu : u = t
  · subst hu
    rw [setTask_task_self]
    exact hf
  · rw [setTask_task_of_ne s f hu]

lemma OffCpu.keep (h : OffCpu s) (hall : s'.taskAllList = s.taskAllList)
    (hcur : s'.currentTask = s.currentTask) (hsaved : saved s' = saved s) : OffCpu s' := by
  intro t ht hne
  rw [hsaved]
  rw [hall] at ht
  rw [hcur] at hne
  exact h t ht hne

/-- The running task is saved at `frame`, and `k` is loaded. -/
structure Dispatches (s s' : Sched Ctx) (frame k : Ctx) : Prop where
  all : s'.taskAllList = s.taskAllList
  others : ∀ t, t ≠ s.currentTask → saved s' t = saved s t
  self : saved s' s.currentTask = (frame, (saved s s.currentTask).2)
  load : k = (saved s' s'.currentTask).1

/-- Whoever is dispatched rests, and so does the task that gives up the CPU. -/
theorem Dispatches.parked {frame k : Ctx} (h : Dispatches s s' frame k) (hoff : OffCpu s)
    (hframe : Parked (saved s s.currentTask).2 frame.stack)
    (hnext : s'.currentTask ∈ s'.taskAllList) :
    Parked (saved s' s'.currentTask).2 k.stack ∧ OffCpu s' := by
  have hall : ∀ t ∈ s'.taskAllList, Parked (saved s' t).2 (saved s' t).1.stack := by
    intro t ht
    by_cases hcur : t = s.currentTask
    · subst hcur
      rw [h.self]
      exact hframe
    · rw [h.others t hcur]
      exact hoff t (h.all ▸ ht) hcur
  refine ⟨?_, fun t ht _ => hall t ht⟩
  rw [h.load]
  exact hall _ hnext

lemma dispatches_switchTo (next : TaskAddr) (frame : Ctx) :
    Dispatches s (s.switchTo next frame).1 frame (s.switchTo next frame).2 := by
  constructor
  case all => rfl
  case others =>
    intro t ht
    have htask := setTask_task_of_ne s (fun p => { p with context := frame }) ht
    exact congrArg (fun p => (p.context, p.isCollaborativeSchedule)) htask
  case self =>
    have htask := setTask_task_self s s.currentTask fun p => { p with context := frame }
    exact congrArg (fun p => (p.context, p.isCollaborativeSchedule)) htask
  case load => rfl

/-- What comes before the switch. -/
lemma Dispatches.after {m : Sched Ctx} {frame k : Ctx} (h : Dispatches m s' frame k)
    (hall : m.taskAllList = s.taskAllList) (hcur : m.currentTask = s.currentTask)
    (hsaved : saved m = saved s) : Dispatches s s' frame k where
  all := h.all.trans hall
  others t ht := by rw [h.others t (hcur ▸ ht), hsaved]
  self := by rw [← hcur, h.self, hsaved]
  load := h.load

/-- The head of the ready list is popped, marked and switched to. -/
lemma dispatches_popped {r : Sched Ctx × Ctx} {next : TaskAddr} {rest : List TaskAddr} {frame : Ctx}
    (hr : (({ s with taskReadyList := rest, taskTag := next }.setStatus next .running).switchTo next
      frame) = r) : Dispatches s r.1 frame r.2 := by
  subst hr
  let m : Sched Ctx := { s with taskReadyList := rest, taskTag := next }
  have hsaved : saved (m.setStatus next .running) = saved m := saved_setTask rfl
  exact (dispatches_switchTo next frame).after rfl rfl hsaved

lemma dispatches_collaborativeSchedule {frame k : Ctx}
    (h : s.collaborativeSchedule frame = .ok (s', k)) : Dispatches s s' frame k := by
  obtain ⟨next, rest, hready, -⟩ := collaborativeSchedule_ok h
  rw [collaborativeSchedule_of_ready hready] at h
  exact dispatches_popped (Except.ok.inj h)

lemma dispatches_schedule {frame k : Ctx} (h : s.schedule frame = .ok (s', k)) :
    Dispatches s s' frame k := by
  have hnew : s.currentTask ∉ s.taskReadyList := by
    by_contra hmem
    rw [schedule, assert_of_false (not_not.mpr hmem)] at h
    cases h
  obtain ⟨next, rest, hready, -⟩ := schedule_ok h
  rw [schedule_of_ready hnew hready] at h
  have hsaved : saved s.requeued = saved { s with
      taskReadyList := s.taskReadyList ++ [s.currentTask] } := saved_setTask rfl
  exact (dispatches_popped (Except.ok.inj h)).after rfl rfl hsaved

lemma dispatches_taskBlock {status : TaskStatus} {here k : Ctx}
    (h : s.taskBlock status here = .ok (s', k)) : Dispatches s s' here k := by
  rw [Sched.taskBlock, bind_eq_ok] at h
  obtain ⟨-, -, h⟩ := h
  obtain ⟨next, rest, hready, -⟩ := blockTaskSchedule_ok h
  rw [blockTaskSchedule_of_ready hready] at h
  have hsaved : saved (s.setStatus s.currentTask status) = saved s := saved_setTask rfl
  exact (dispatches_popped (Except.ok.inj h)).after rfl rfl hsaved

lemma dispatches_semaDown {i : SemaId} {here k : Ctx}
    (h : s.semaDown i here = .ok (s', some k)) : Dispatches s s' here k := by
  by_cases hvalue : (s.sema i).value = 0
  · rw [Sched.semaDown, if_pos hvalue, bind_eq_ok] at h
    obtain ⟨-, -, h⟩ := h
    rw [bind_eq_ok] at h
    obtain ⟨⟨t, next⟩, hblock, hret⟩ := h
    obtain ⟨rfl, hk⟩ := Prod.mk.inj (Except.ok.inj hret)
    obtain rfl := Option.some.inj hk
    exact (dispatches_taskBlock hblock).after rfl rfl rfl
  · rw [Sched.semaDown, if_neg hvalue, bind_eq_ok] at h
    obtain ⟨m, -, hret⟩ := h
    cases (Prod.mk.inj (Except.ok.inj hret)).2

/-- A dead task is not saved. -/
theorem parked_taskExit {k : Ctx} (hoff : OffCpu s) (hnodup : s.taskAllList.Nodup)
    (hfree : s.LockFree .tid) (h : s.taskExit s.currentTask = .ok (s', k))
    (hnext : s'.currentTask ∈ s'.taskAllList) :
    Parked (saved s' s'.currentTask).2 k.stack ∧ OffCpu s' := by
  obtain ⟨b', hdied⟩ := taskExit_ok hfree h
  rw [diedTaskSchedule_eq] at hdied
  cases hready : (s.exitState s.currentTask).taskReadyList with
  | nil =>
    simp only [hready] at hdied
    cases hdied
  | cons next rest =>
    simp only [hready] at hdied
    obtain ⟨rfl, hk⟩ := Prod.mk.inj (Except.ok.inj hdied)
    have hdead : saved (s.exitState s.currentTask) = saved s :=
      saved_setTask (f := fun p => { p with status := .died }) rfl
    have hsaved : saved ((s.exitState s.currentTask).setStatus next .running) = saved s :=
      (saved_setTask rfl).trans hdead
    have hall : ∀ t ∈ s.taskAllList.erase s.currentTask,
        Parked (saved ((s.exitState s.currentTask).setStatus next .running) t).2
          (saved ((s.exitState s.currentTask).setStatus next .running) t).1.stack := by
      intro t ht
      rw [hnodup.mem_erase_iff] at ht
      rw [hsaved]
      exact hoff t ht.2 ht.1
    refine ⟨?_, fun t ht _ => hall t ht⟩
    have hload : k = (saved ((s.exitState s.currentTask).setStatus next .running) next).1 := by
      rw [hsaved, ← hdead, ← hk]
      rfl
    rw [hload]
    exact hall next hnext

/-- What the calls of a tick do to the tasks: a wake-up ends a sleep. -/
structure Softened (s s' : Sched Ctx) : Prop where
  all : s'.taskAllList = s.taskAllList
  current : s'.currentTask = s.currentTask
  context : ∀ t, (saved s' t).1 = (saved s t).1
  flag : ∀ t, (saved s' t).2 = (saved s t).2 ∨ (saved s' t).2 = false

lemma Softened.refl (s : Sched Ctx) : Softened s s := ⟨rfl, rfl, fun _ => rfl, fun _ => .inl rfl⟩

lemma Softened.trans {m : Sched Ctx} (h : Softened s m) (h' : Softened m s') : Softened s s' where
  all := h'.all.trans h.all
  current := h'.current.trans h.current
  context t := (h'.context t).trans (h.context t)
  flag t := by
    rcases h'.flag t with ht | ht
    · rw [ht]
      exact h.flag t
    · exact .inr ht

lemma Softened.of_saved (hall : s'.taskAllList = s.taskAllList)
    (hcur : s'.currentTask = s.currentTask) (hsaved : saved s' = saved s) : Softened s s' :=
  ⟨hall, hcur, fun t => by rw [hsaved], fun t => .inl (by rw [hsaved])⟩

lemma softened_setTask {t : TaskAddr} {f : TaskStruct Ctx → TaskStruct Ctx}
    (hf : ((f (s.task t)).context, (f (s.task t)).isCollaborativeSchedule) = saved s t) :
    Softened s (s.setTask t f) := .of_saved rfl rfl (saved_setTask hf)

lemma Softened.parked (h : Softened s s') {t : TaskAddr} {stack : List (List Stmt)}
    (hparked : Parked (saved s t).2 stack) : Parked (saved s' t).2 stack := by
  rcases h.flag t with ht | ht
  · rw [ht]
    exact hparked
  · rw [ht]
    exact hparked.awake

lemma Softened.offCpu (h : Softened s s') (hoff : OffCpu s) : OffCpu s' := by
  intro t ht hne
  rw [h.context]
  rw [h.all] at ht
  rw [h.current] at hne
  exact h.parked (hoff t ht hne)

lemma softened_callLibrary {n : TimerNode} (h : callLibrary n s = .ok s') : Softened s s' := by
  by_cases hfn : n.timerFn = .collaborativeScheduleHelper
  · simp only [callLibrary, hfn, Sched.callTimer, collaborativeScheduleHelper, bind_eq_ok] at h
    obtain ⟨-, -, hs'⟩ := h
    obtain rfl := Except.ok.inj hs'
    refine ⟨rfl, rfl, fun t => ?_, fun t => ?_⟩
    · by_cases ht : t = n.pParam
      · subst ht
        simp [saved]
      · simp [saved, setTask_task_of_ne _ _ ht]
    · by_cases ht : t = n.pParam
      · subst ht
        simp [saved]
      · simp [saved, setTask_task_of_ne _ _ ht]
  · obtain ⟨pool, alloc, tag, rfl, -⟩ := callLibrary_ok h hfn
    exact .of_saved rfl rfl rfl

lemma callTimer_eq : callTimer = callLibrary := by
  funext n s
  unfold callTimer callLibrary
  cases n.timerFn <;> rfl

lemma softened_runTimer {uJiffies : UInt32} {timers timers' : TimerState}
    (hfree : s.LockFree .timer)
    (h : Sched.runTimer callLibrary uJiffies timers s = .ok (timers', s')) :
    Softened s s' ∧ s'.LockFree .timer := by
  obtain ⟨m, hloop, hrel⟩ := runTimer_released hfree h
  have hinv : LoopInv callLibrary fun _ _ t => Softened (s.held .timer) t :=
    ⟨fun _ _ _ _ _ hc hcall => hc.trans (softened_callLibrary hcall), fun _ _ hc => hc,
      fun _ _ hc => hc⟩
  have hm := hinv.loop (Softened.refl _) hloop
  have hcalled := called_loop (callTimer_eq ▸ hloop)
  obtain ⟨rfl, -, -⟩ := hrel ⟨hcalled.lock, fun _ _ => congrFun hcalled.sema _, hcalled.current⟩
  have hheld : Softened s (s.held .timer) := .of_saved rfl rfl rfl
  have hfreed : Softened m (m.freed .timer) := .of_saved rfl rfl rfl
  exact ⟨(hheld.trans hm).trans hfreed, by simp [LockFree, freed]⟩

/-- A tick at a task that rests. -/
theorem parked_interruptTimerHandler {uJiffies : UInt32} {p : Addr} {timers timers' : TimerState}
    {frame k : Ctx} (hoff : OffCpu s) (hframe : Parked (saved s s.currentTask).2 frame.stack)
    (hfree : s.LockFree .timer)
    (h : Sched.interruptTimerHandler callLibrary uJiffies (some p) timers s frame =
      .ok (timers', s', k)) (hnext : s'.currentTask ∈ s'.taskAllList) :
    Parked (saved s' s'.currentTask).2 k.stack ∧ OffCpu s' := by
  obtain ⟨timers1, m, hrun, hdone⟩ := interruptTimerHandler_ok h
  have hbegun : Softened s s.tickBegun := softened_setTask rfl
  obtain ⟨hcalled, hmfree⟩ := softened_runTimer (s := s.tickBegun) hfree hrun
  have hm := hbegun.trans hcalled
  have hframe' : Parked (saved m m.currentTask).2 frame.stack := by
    rw [hm.current]
    exact hm.parked hframe
  cases hdone with
  | schedule _ _ hsched =>
    exact (dispatches_schedule hsched).parked (hm.offCpu hoff) hframe' hnext
  | count =>
    have hcount : Softened m (m.setTask m.currentTask fun p => { p with ticks := p.ticks - 1 }) :=
      softened_setTask rfl
    exact ⟨hcount.parked hframe', hcount.offCpu (hm.offCpu hoff)⟩
  | sleep _ hcreate hsched =>
    rw [createTimerLocked_of_free hmfree] at hcreate
    obtain ⟨-, rfl⟩ := Prod.mk.inj (Except.ok.inj hcreate)
    exact (dispatches_collaborativeSchedule hsched).parked (hm.offCpu hoff) hframe' hnext

end Libtask.Machine
