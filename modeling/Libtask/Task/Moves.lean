import Libtask.Task.Roster
import Libtask.Task.Specs

/-!
# What the functions do to the roster

The lists and the status fields of the scheduler spell out a roster. Each
function that moves tasks makes one or two moves of it, and what else it touches
is bounded by `Frame`.
-/
namespace Libtask

variable {κ : Type}

/-- The roster that the lists and the status fields spell out. -/
def Sched.roster (s : Sched κ) : Roster where
  status t := (s.task t).status
  ready := s.taskReadyList
  all := s.taskAllList
  nums := s.taskAllNums
  pool := s.taskPoolList
  waiters i := (s.sema i).waiters

namespace Sched

lemma roster_setTask (s : Sched κ) (t : TaskAddr) {f : TaskStruct κ → TaskStruct κ}
    {status : TaskStatus} (hf : (f (s.task t)).status = status) :
    (s.setTask t f).roster = s.roster.withStatus t status := by
  have hstatus : (fun u => ((s.setTask t f).task u).status) =
      Function.update (fun u => (s.task u).status) t status := by
    ext u
    by_cases hu : u = t
    · subst hu
      simp [hf]
    · rw [setTask_task_of_ne s f hu, Function.update_of_ne hu]
  simp only [roster, Roster.withStatus, hstatus]
  rfl

lemma roster_setTask_of_status (s : Sched κ) (t : TaskAddr) {f : TaskStruct κ → TaskStruct κ}
    (hf : (f (s.task t)).status = (s.task t).status) : (s.setTask t f).roster = s.roster := by
  rw [roster_setTask s t hf]
  simp only [Roster.withStatus, roster]
  rw [Function.update_eq_self]

lemma roster_setSema (s : Sched κ) (i : SemaId) (f : Semaphore → Semaphore) :
    (s.setSema i f).roster = { s.roster with
      waiters := Function.update s.roster.waiters i (f (s.sema i)).waiters } := by
  have hwaiters : (fun j => ((s.setSema i f).sema j).waiters) =
      Function.update (fun j => (s.sema j).waiters) i (f (s.sema i)).waiters := by
    ext1 j
    by_cases hj : j = i
    · subst hj
      simp
    · rw [setSema_sema_of_ne s f hj, Function.update_of_ne hj]
  simp only [roster, hwaiters]
  rfl

lemma roster_setSema_of_waiters (s : Sched κ) (i : SemaId) {f : Semaphore → Semaphore}
    (hf : (f (s.sema i)).waiters = (s.sema i).waiters) : (s.setSema i f).roster = s.roster := by
  rw [roster_setSema, hf]
  simp only [roster]
  rw [Function.update_eq_self_iff.mpr rfl]

/-- The locks that the library takes for itself. -/
def libraryLocks : List LockId := [.tid, .timer]

/-- A semaphore that callers may use: it belongs to no lock of the library. -/
def Callers (i : SemaId) : Prop := ∀ l ∈ libraryLocks, i ≠ .ofLock l

/-- What moving tasks about does not touch. -/
structure Frame (s s' : Sched κ) : Prop where
  lock : s'.lock = s.lock
  sema : ∀ l ∈ libraryLocks, s'.sema (.ofLock l) = s.sema (.ofLock l)
  alloc : s'.alloc = s.alloc
  main : s'.mainTask = s.mainTask
  all : s'.taskAllList = s.taskAllList
  pool : s'.taskPoolList = s.taskPoolList

lemma Frame.refl (s : Sched κ) : Frame s s := ⟨rfl, fun _ _ => rfl, rfl, rfl, rfl, rfl⟩

lemma Frame.trans {s t u : Sched κ} (h : Frame s t) (h' : Frame t u) : Frame s u where
  lock := h'.lock.trans h.lock
  sema l hl := (h'.sema l hl).trans (h.sema l hl)
  alloc := h'.alloc.trans h.alloc
  main := h'.main.trans h.main
  all := h'.all.trans h.all
  pool := h'.pool.trans h.pool

lemma frame_setTask (s : Sched κ) (t : TaskAddr) (f : TaskStruct κ → TaskStruct κ) :
    Frame s (s.setTask t f) := ⟨rfl, fun _ _ => rfl, rfl, rfl, rfl, rfl⟩

lemma frame_setSema (s : Sched κ) {i : SemaId} (hi : Callers i) (f : Semaphore → Semaphore) :
    Frame s (s.setSema i f) :=
  ⟨rfl, fun l hl => setSema_sema_of_ne s f (hi l hl).symm, rfl, rfl, rfl, rfl⟩

/-- The head of the ready list has become the running task. -/
structure Dispatched (s s' : Sched κ) : Prop where
  frame : Frame s s'
  next : ∃ rest, s.taskReadyList = s'.currentTask :: rest ∧
    s'.roster = { s.roster with ready := rest }.withStatus s'.currentTask .running

theorem Dispatched.law {s s' : Sched κ} {wake : TaskAddr → ℕ} (h : Dispatched s s')
    (hlaw : Roster.Law none wake s.roster) :
    Roster.Law (some s'.currentTask) wake s'.roster := by
  obtain ⟨rest, hready, hroster⟩ := h.next
  rw [hroster]
  exact hlaw.dispatch hready

lemma roster_switchTo (s : Sched κ) (next : TaskAddr) (frame : κ) :
    (s.switchTo next frame).1.roster = s.roster :=
  roster_setTask_of_status s s.currentTask (f := fun p => { p with context := frame }) rfl

lemma roster_setStatus (s : Sched κ) (t : TaskAddr) (status : TaskStatus) :
    (s.setStatus t status).roster = s.roster.withStatus t status := roster_setTask s t rfl

/-- Popping, marking as running, saving a context and loading another one. -/
lemma dispatched_of_ready {s : Sched κ} {next : TaskAddr} {rest : List TaskAddr}
    (hready : s.taskReadyList = next :: rest) (frame : κ) :
    Dispatched s (({ s with taskReadyList := rest, taskTag := next }.setStatus next
      .running).switchTo next frame).1 := by
  refine ⟨⟨rfl, fun _ _ => rfl, rfl, rfl, rfl, rfl⟩, rest, hready, ?_⟩
  rw [roster_switchTo, roster_setStatus]
  rfl

lemma getNextTask_ok {s t : Sched κ} {next : TaskAddr} (h : s.getNextTask = .ok (t, next)) :
    ∃ rest, s.taskReadyList = next :: rest ∧
      t = { s with taskReadyList := rest, taskTag := next }.setStatus next .running := by
  rw [getNextTask, popReady] at h
  cases hready : s.taskReadyList with
  | nil =>
    rw [hready] at h
    cases h
  | cons u rest =>
    rw [hready] at h
    obtain ⟨rfl, rfl⟩ := Prod.mk.inj (Except.ok.inj h)
    exact ⟨rest, rfl, rfl⟩

lemma collaborativeSchedule_of_ready {s : Sched κ} {next : TaskAddr} {rest : List TaskAddr}
    (hready : s.taskReadyList = next :: rest) (frame : κ) :
    s.collaborativeSchedule frame = .ok (({ s with
      taskReadyList := rest, taskTag := next }.setStatus next .running).switchTo next frame) := by
  simp [collaborativeSchedule, getNextTask, popReady, hready, bind, Except.bind, pure, Except.pure]

lemma collaborativeSchedule_ok {s s' : Sched κ} {frame k : κ}
    (h : s.collaborativeSchedule frame = .ok (s', k)) :
    ∃ next rest, s.taskReadyList = next :: rest ∧
      s' = (({ s with taskReadyList := rest, taskTag := next }.setStatus next
        .running).switchTo next frame).1 := by
  cases hready : s.taskReadyList with
  | nil =>
    simp [collaborativeSchedule, hready, bind, Except.bind, throw, throwThe,
      MonadExceptOf.throw] at h
  | cons next rest =>
    rw [collaborativeSchedule_of_ready hready] at h
    exact ⟨next, rest, rfl, (congrArg Prod.fst (Except.ok.inj h)).symm⟩

theorem collaborativeSchedule_dispatched {s s' : Sched κ} {frame k : κ}
    (h : s.collaborativeSchedule frame = .ok (s', k)) : Dispatched s s' := by
  obtain ⟨next, rest, hready, rfl⟩ := collaborativeSchedule_ok h
  exact dispatched_of_ready hready frame

lemma blockTaskSchedule_ok {s s' : Sched κ} {here k : κ}
    (h : s.blockTaskSchedule here = .ok (s', k)) :
    ∃ next rest, s.taskReadyList = next :: rest ∧
      s' = (({ s with taskReadyList := rest, taskTag := next }.setStatus next
        .running).switchTo next here).1 := by
  cases hready : s.taskReadyList with
  | nil =>
    simp [blockTaskSchedule, hready, bind, Except.bind, throw, throwThe,
      MonadExceptOf.throw] at h
  | cons next rest =>
    simp [blockTaskSchedule, popReady, hready, bind, Except.bind, pure, Except.pure] at h
    exact ⟨next, rest, rfl, by rw [h]⟩

theorem blockTaskSchedule_dispatched {s s' : Sched κ} {here k : κ}
    (h : s.blockTaskSchedule here = .ok (s', k)) : Dispatched s s' := by
  obtain ⟨next, rest, hready, rfl⟩ := blockTaskSchedule_ok h
  exact dispatched_of_ready hready here

theorem diedTaskSchedule_dispatched {s s' : Sched κ} {k : κ}
    (h : s.diedTaskSchedule = .ok (s', k)) : Dispatched s s' := by
  rw [diedTaskSchedule_eq] at h
  cases hready : s.taskReadyList with
  | nil =>
    simp only [hready] at h
    cases h
  | cons next rest =>
    simp only [hready] at h
    obtain ⟨rfl, -⟩ := Prod.mk.inj (Except.ok.inj h)
    refine ⟨⟨rfl, fun _ _ => rfl, rfl, rfl, rfl, rfl⟩, rest, hready, ?_⟩
    exact roster_setStatus { s with taskReadyList := rest, taskTag := next } next .running

/-- The running task at the end of the ready list, with a new slice. -/
def requeued (s : Sched κ) : Sched κ :=
  { s with taskReadyList := s.taskReadyList ++ [s.currentTask] }.setTask s.currentTask
    fun p => { p with ticks := p.priority, status := .ready }

lemma schedule_ok {s s' : Sched κ} {frame k : κ} (h : s.schedule frame = .ok (s', k)) :
    ∃ next rest, s.requeued.taskReadyList = next :: rest ∧
      s' = (({ s.requeued with taskReadyList := rest, taskTag := next }.setStatus next
        .running).switchTo next frame).1 := by
  rw [schedule, bind_eq_ok] at h
  obtain ⟨-, -, h⟩ := h
  dsimp only at h
  split_ifs at h with hnil
  · exact absurd hnil (List.append_ne_nil_of_right_ne_nil _ (List.cons_ne_nil _ _))
  · rw [bind_eq_ok] at h
    obtain ⟨⟨t, next⟩, hnext, hswitch⟩ := h
    have hnext' : s.requeued.getNextTask = .ok (t, next) := hnext
    obtain ⟨rest, hready, ht⟩ := getNextTask_ok hnext'
    refine ⟨next, rest, hready, ?_⟩
    rw [← ht]
    exact (congrArg Prod.fst (Except.ok.inj hswitch)).symm

/-- There is always somebody to go on with: the running task itself, if nobody else. -/
lemma schedule_of_ready {s : Sched κ} {next : TaskAddr} {rest : List TaskAddr}
    (hcur : s.currentTask ∉ s.taskReadyList) (hready : s.requeued.taskReadyList = next :: rest)
    (frame : κ) : s.schedule frame =
      .ok (({ s.requeued with taskReadyList := rest, taskTag := next }.setStatus next
        .running).switchTo next frame) := by
  have hnext : s.requeued.getNextTask =
      .ok ({ s.requeued with taskReadyList := rest, taskTag := next }.setStatus next .running,
        next) := by
    simp [getNextTask, popReady, hready, bind, Except.bind, pure, Except.pure]
  have hne : s.requeued.taskReadyList ≠ [] := by simp [hready]
  rw [requeued] at hnext hne
  simp only [schedule, assert_of_true hcur, bind, Except.bind, pure, Except.pure, hnext, hne,
    if_false, requeued]

/-- `schedule` queues the running task before it dispatches. -/
theorem schedule_dispatched {s s' : Sched κ} {frame k : κ}
    (h : s.schedule frame = .ok (s', k)) : ∃ m, Frame s m ∧
      m.roster = { s.roster with
        ready := s.taskReadyList ++ [s.currentTask] }.withStatus s.currentTask .ready ∧
      Dispatched m s' := by
  obtain ⟨next, rest, hready, rfl⟩ := schedule_ok h
  refine ⟨s.requeued, ⟨rfl, fun _ _ => rfl, rfl, rfl, rfl, rfl⟩, ?_,
    dispatched_of_ready hready frame⟩
  exact roster_setTask { s with taskReadyList := s.taskReadyList ++ [s.currentTask] }
    s.currentTask rfl

lemma setTask_context {s : Sched κ} {t : TaskAddr} {f : TaskStruct κ → TaskStruct κ}
    (hf : (f (s.task t)).context = (s.task t).context) (u : TaskAddr) :
    ((s.setTask t f).task u).context = (s.task u).context := by
  rw [setTask_task]
  split_ifs with hu
  · rw [hf, hu]
  · rfl

lemma setStatus_context (s : Sched κ) (t u : TaskAddr) (status : TaskStatus) :
    ((s.setStatus t status).task u).context = (s.task u).context :=
  setTask_context (f := fun p => { p with status := status }) rfl u

/-- The next task goes on with its own context, and the one that gives up the CPU
leaves `frame`. -/
def HandsOver (s : Sched κ) (frame : κ) (s' : Sched κ) (k : κ) : Prop :=
  k = s'.current.context ∧ ∀ u, (s'.task u).context =
    if u = s.currentTask then frame else (s.task u).context

lemma handsOver_of_ready (s : Sched κ) (next : TaskAddr) (rest : List TaskAddr) (frame : κ) :
    HandsOver s frame
      (({ s with taskReadyList := rest, taskTag := next }.setStatus next
        .running).switchTo next frame).1
      (({ s with taskReadyList := rest, taskTag := next }.setStatus next
        .running).switchTo next frame).2 := by
  refine ⟨rfl, fun u => ?_⟩
  rw [switchTo_context, setStatus_context]
  rfl

lemma HandsOver.of_context {s t s' : Sched κ} {frame k : κ} (h : HandsOver t frame s' k)
    (hcurrent : t.currentTask = s.currentTask)
    (hcontext : ∀ u, (t.task u).context = (s.task u).context) : HandsOver s frame s' k := by
  refine ⟨h.1, fun u => ?_⟩
  rw [h.2 u, hcurrent, hcontext u]

lemma schedule_handsOver {s s' : Sched κ} {frame k : κ}
    (h : s.schedule frame = .ok (s', k)) : HandsOver s frame s' k := by
  rw [schedule, bind_eq_ok] at h
  obtain ⟨-, -, h⟩ := h
  dsimp only at h
  split_ifs at h with hnil
  · exact absurd hnil (List.append_ne_nil_of_right_ne_nil _ (List.cons_ne_nil _ _))
  · rw [bind_eq_ok] at h
    obtain ⟨⟨t, next⟩, hnext, hswitch⟩ := h
    have hnext' : s.requeued.getNextTask = .ok (t, next) := hnext
    obtain ⟨rest, -, rfl⟩ := getNextTask_ok hnext'
    obtain ⟨rfl, rfl⟩ := Prod.mk.inj (Except.ok.inj hswitch)
    exact (handsOver_of_ready s.requeued next rest frame).of_context rfl
      (setTask_context (s := { s with taskReadyList := s.taskReadyList ++ [s.currentTask] })
        (f := fun p => { p with ticks := p.priority, status := .ready }) rfl)

lemma collaborativeSchedule_handsOver {s s' : Sched κ} {frame k : κ}
    (h : s.collaborativeSchedule frame = .ok (s', k)) : HandsOver s frame s' k := by
  obtain ⟨next, rest, hready, -⟩ := collaborativeSchedule_ok h
  rw [collaborativeSchedule_of_ready hready] at h
  obtain ⟨rfl, rfl⟩ := Prod.mk.inj (Except.ok.inj h)
  exact handsOver_of_ready s next rest frame

lemma blockTaskSchedule_handsOver {s s' : Sched κ} {here k : κ}
    (h : s.blockTaskSchedule here = .ok (s', k)) : HandsOver s here s' k := by
  obtain ⟨next, rest, hready, -⟩ := blockTaskSchedule_ok h
  simp [blockTaskSchedule, popReady, hready, bind, Except.bind, pure, Except.pure] at h
  obtain ⟨rfl, rfl⟩ := Prod.mk.inj h
  exact handsOver_of_ready s next rest here

/-- A dead task leaves nothing. -/
lemma diedTaskSchedule_context {s s' : Sched κ} {k : κ}
    (h : s.diedTaskSchedule = .ok (s', k)) : k = s'.current.context ∧
      ∀ u, (s'.task u).context = (s.task u).context := by
  rw [diedTaskSchedule_eq] at h
  cases hready : s.taskReadyList with
  | nil =>
    simp only [hready] at h
    cases h
  | cons next rest =>
    simp only [hready] at h
    obtain ⟨rfl, rfl⟩ := Prod.mk.inj (Except.ok.inj h)
    have hcontext : ∀ u, _ := fun u => setStatus_context s next u .running
    exact ⟨(hcontext next).symm, hcontext⟩

lemma taskBlock_handsOver {s s' : Sched κ} {st : TaskStatus} {here k : κ}
    (h : s.taskBlock st here = .ok (s', k)) : HandsOver s here s' k := by
  rw [taskBlock, bind_eq_ok] at h
  obtain ⟨-, -, h⟩ := h
  exact (blockTaskSchedule_handsOver h).of_context rfl fun u => setStatus_context s _ u _

theorem taskBlock_dispatched {s s' : Sched κ} {st : TaskStatus} {here k : κ}
    (h : s.taskBlock st here = .ok (s', k)) :
    st.Suspended ∧ Dispatched (s.setStatus s.currentTask st) s' := by
  by_cases hst : st.Suspended
  · simp only [taskBlock, assert_of_true hst, bind, Except.bind] at h
    exact ⟨hst, blockTaskSchedule_dispatched h⟩
  · simp [taskBlock, hst, bind, Except.bind] at h

lemma taskBlock_of_ready {s : Sched κ} {next : TaskAddr} {rest : List TaskAddr}
    {status : TaskStatus} (hst : status.Suspended) (hready : s.taskReadyList = next :: rest)
    (here : κ) : s.taskBlock status here = .ok
      (({ s.setStatus s.currentTask status with taskReadyList := rest, taskTag := next }.setStatus
        next .running).switchTo next here) := by
  have hready' : (s.setStatus s.currentTask status).taskReadyList = next :: rest := hready
  rw [taskBlock, assert_of_true hst]
  simp [blockTaskSchedule, popReady, hready', bind, Except.bind, pure, Except.pure]

theorem taskUnblock_ok {s s' : Sched κ} {t : TaskAddr} (h : s.taskUnblock t = .ok s') :
    (s.task t).status.Suspended ∧ s' = ({ s with
      taskReadyList := t :: s.taskReadyList }).setStatus t .ready := by
  by_cases hst : (s.task t).status.Suspended
  · have hne : (s.task t).status ≠ .ready := by
      intro he
      rw [he] at hst
      exact absurd hst (by decide)
    by_cases hr : t ∈ s.taskReadyList
    · simp [taskUnblock, hst, hne, hr, bind, Except.bind] at h
    · simp [taskUnblock, hst, hne, hr, bind, Except.bind, pure, Except.pure] at h
      exact ⟨hst, h.symm⟩
  · simp [taskUnblock, hst, bind, Except.bind] at h

/-- `sema_down` takes the unit, or queues the task behind the other waiters,
marks it as blocked and dispatches. -/
theorem semaDown_ok {s s' : Sched κ} {i : SemaId} {here : κ} {k : Option κ}
    (h : s.semaDown i here = .ok (s', k)) :
    (k = none ∧ s' = s.setSema i fun p => { p with value := p.value - 1 }) ∨
    ((∃ c, k = some c) ∧ s.currentTask ∉ (s.sema i).waiters ∧
      Dispatched ((s.setStatus s.currentTask .blocked).setSema i fun p => { p with
        waiters := p.waiters ++ [s.currentTask] }) s') := by
  rw [semaDown] at h
  split_ifs at h with hv
  · rw [bind_eq_ok] at h
    obtain ⟨u, hassert, h⟩ := h
    have hw : s.currentTask ∉ (s.sema i).waiters := by simpa using hassert
    rw [bind_eq_ok] at h
    obtain ⟨r, hblock, hret⟩ := h
    obtain ⟨rfl, rfl⟩ := Prod.mk.inj (Except.ok.inj hret)
    exact .inr ⟨⟨r.2, rfl⟩, hw, (taskBlock_dispatched hblock).2⟩
  · rw [bind_eq_ok] at h
    obtain ⟨t, htake, hret⟩ := h
    obtain ⟨rfl, rfl⟩ := Prod.mk.inj (Except.ok.inj hret)
    rw [semaTake, bind_eq_ok] at htake
    obtain ⟨-, -, ht⟩ := htake
    exact .inl ⟨rfl, (Except.ok.inj ht).symm⟩

/-- The end of `sema_up`: the value is raised. -/
def semaGive (s : Sched κ) (i : SemaId) : Except Stop (Sched κ) := do
  let s := s.setSema i fun p => { p with value := p.value + 1 }
  assert ((s.sema i).value = 1)
  return s

/-- `sema_up` up to its end: the first waiter is unblocked. -/
def semaWake (s : Sched κ) (i : SemaId) : Except Stop (Sched κ) :=
  match (s.sema i).waiters with
  | [] => .ok s
  | t :: rest => (s.setSema i fun p => { p with waiters := rest }).taskUnblock t

lemma semaUp_eq (s : Sched κ) (i : SemaId) : s.semaUp i =
    assert ((s.sema i).value = 0) >>= fun _ => s.semaWake i >>= fun s => s.semaGive i := by
  unfold semaUp semaWake
  cases (s.sema i).waiters <;> rfl

/-- `sema_up` unblocks the first waiter, if there is one, and gives the unit. -/
theorem semaUp_ok {s s' : Sched κ} {i : SemaId} (h : s.semaUp i = .ok s') :
    ∃ m : Sched κ, s' = (m.setSema i fun p => { p with value := p.value + 1 }) ∧
      ((s.sema i).waiters = [] ∧ m = s ∨
        ∃ t rest, (s.sema i).waiters = t :: rest ∧
          (s.setSema i fun p => { p with waiters := rest }).taskUnblock t = .ok m) := by
  rw [semaUp_eq, bind_eq_ok] at h
  obtain ⟨-, -, h⟩ := h
  obtain ⟨m, hwake, hgive⟩ := bind_eq_ok.mp h
  obtain ⟨-, -, hs'⟩ := bind_eq_ok.mp hgive
  refine ⟨m, (Except.ok.inj hs').symm, ?_⟩
  unfold semaWake at hwake
  cases hw : (s.sema i).waiters with
  | nil =>
    rw [hw] at hwake
    exact .inl ⟨rfl, (Except.ok.inj hwake).symm⟩
  | cons t rest =>
    rw [hw] at hwake
    exact .inr ⟨t, rest, rfl, hwake⟩

/-- A task waits for a unit that is not there. -/
lemma semaDown_value {s s' : Sched κ} {i : SemaId} {here k : κ}
    (h : s.semaDown i here = .ok (s', some k)) : (s.sema i).value = 0 := by
  by_contra hv
  rw [semaDown, if_neg hv, bind_eq_ok] at h
  obtain ⟨t, -, hret⟩ := h
  cases (Prod.mk.inj (Except.ok.inj hret)).2

lemma semaDown_handsOver {s s' : Sched κ} {i : SemaId} {here k : κ}
    (h : s.semaDown i here = .ok (s', some k)) : HandsOver s here s' k := by
  rw [semaDown, if_pos (semaDown_value h), bind_eq_ok] at h
  obtain ⟨-, -, h⟩ := h
  rw [bind_eq_ok] at h
  obtain ⟨⟨t, next⟩, hblock, hret⟩ := h
  obtain ⟨rfl, hk⟩ := Prod.mk.inj (Except.ok.inj hret)
  obtain rfl := Option.some.inj hk
  exact (taskBlock_handsOver hblock).of_context rfl fun _ => rfl

lemma taskUnblock_context {s s' : Sched κ} {t : TaskAddr} (h : s.taskUnblock t = .ok s')
    (u : TaskAddr) : (s'.task u).context = (s.task u).context := by
  obtain ⟨-, rfl⟩ := taskUnblock_ok h
  exact setStatus_context { s with taskReadyList := t :: s.taskReadyList } t u .ready

lemma semaUp_context {s s' : Sched κ} {i : SemaId} (h : s.semaUp i = .ok s') (u : TaskAddr) :
    (s'.task u).context = (s.task u).context := by
  obtain ⟨m, rfl, ⟨-, rfl⟩ | ⟨t, rest, -, hunblock⟩⟩ := semaUp_ok h
  · rfl
  · exact taskUnblock_context hunblock u

lemma semaUp_current {s s' : Sched κ} {i : SemaId} (h : s.semaUp i = .ok s') :
    s'.currentTask = s.currentTask := by
  obtain ⟨m, rfl, ⟨-, rfl⟩ | ⟨t, rest, -, hunblock⟩⟩ := semaUp_ok h
  · rfl
  · obtain ⟨-, rfl⟩ := taskUnblock_ok hunblock
    rfl

lemma roster_bornState (s : Sched κ) (mem stack : ℕ) {task : TaskStruct κ} (btmp : Bitmap)
    (hready : task.status = .ready) :
    (s.bornState mem stack task btmp).roster = { s.roster with
      ready := s.roster.ready ++ [mem]
      all := s.roster.all ++ [mem]
      nums := s.roster.nums + 1 }.withStatus mem .ready :=
  roster_setTask { s with
    taskReadyList := s.taskReadyList ++ [mem]
    taskAllList := s.taskAllList ++ [mem]
    taskAllNums := s.taskAllNums + 1 } mem (f := fun _ => task) hready

lemma roster_exitState (s : Sched κ) (task : TaskAddr) :
    (s.exitState task).roster = { s.roster with
      ready := s.roster.ready.erase task
      all := s.roster.all.erase task
      nums := s.roster.nums - 1
      pool := s.roster.pool ++ if task = s.mainTask then [] else [task] }.withStatus task .died :=
  roster_setStatus { s with
    taskReadyList := s.taskReadyList.erase task
    taskAllList := s.taskAllList.erase task
    taskAllNums := s.taskAllNums - 1
    taskPoolList := s.taskPoolList ++ if task = s.mainTask then [] else [task] } task .died

lemma roster_held {s : Sched κ} {l : LockId} (h : s.LockFree l) : (s.held l).roster = s.roster := by
  have hwaiters : (fun j => ((s.held l).sema j).waiters) = fun j => (s.sema j).waiters := by
    ext1 j
    by_cases hj : j = .ofLock l
    · subst hj
      simp [held, h.2]
    · simp [held, hj]
  simp only [roster, hwaiters]
  rfl

lemma roster_freed {s : Sched κ} {l : LockId} (h : s.sema (.ofLock l) = ⟨0, []⟩) :
    (s.freed l).roster = s.roster := by
  have hwaiters : (fun j => ((s.freed l).sema j).waiters) = fun j => (s.sema j).waiters := by
    ext1 j
    by_cases hj : j = .ofLock l
    · subst hj
      simp [freed, h]
    · simp [freed, hj]
  simp only [roster, hwaiters]
  rfl

end Sched
end Libtask
