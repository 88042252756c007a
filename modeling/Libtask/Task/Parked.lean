import Libtask.Task.Blocking

/-!
# Parked tasks stay parked

The law of the roster is followed through the statements of `task_block`: each
of them makes a part of a move, and `View` is what has to be added for the law
to hold between two of them. A tick that dispatches nobody wakes tasks up, and
keeps every view.
-/
namespace Libtask.Blocking
open Transition Timer Sched Conservation

namespace BlockRun

/-- The task whose code is executed. -/
def owner (s : BlockRun) : TaskAddr :=
  match s.pc with
  | .block _ (.contextSwap temp _) => temp
  | _ => s.sched.currentTask

/-- Where a task goes on. -/
def point (s : BlockRun) (u : TaskAddr) : Point :=
  if u = s.owner then s.pc else (s.sched.task u).context

/-- What the `wakeup` that a live task is in has read. -/
def waking (s : BlockRun) (u : TaskAddr) : Option (ℕ × Option TaskAddr) :=
  if u ∈ s.sched.taskAllList then (s.point u).waking else none

/-- `t` is parked as a waiter, or registered and about to be parked. -/
def Waiting (s : BlockRun) (t : TaskAddr) (via : Via) : Prop :=
  s.parked t = some ⟨via, .blocked⟩ ∨ t = s.owner ∧ ∃ stmt, s.pc = .block ⟨via, .blocked⟩ stmt

end BlockRun

/-- The waiters lists without the task that `sema_down` has just appended. -/
def Via.dequeue (waiters : SemaId → List TaskAddr) : Via → SemaId → List TaskAddr
  | .sema psema => Function.update waiters psema.1 (waiters psema.1).dropLast
  | _ => waiters

/-- What the law takes for the running task, for the ready list (`front` is to be
put before it) and for the waiters lists. -/
structure View where
  cur : Option TaskAddr
  front : List TaskAddr
  waiters : SemaId → List TaskAddr

def View.Sees (v : View) (wake : TaskAddr → ℕ) (r : Roster) : Prop :=
  Roster.Law v.cur wake { r with ready := v.front ++ r.ready, waiters := v.waiters }

/-- A wake-up goes to the other end of the ready list. -/
lemma tolerant_sees (v : View) : Tolerant v.Sees where
  once h t := (tolerant_law v.cur).once h t
  wakeUp {wake r t} h ht := by
    have hlaw := Roster.Law.wakeUp h ht
    unfold View.Sees
    simp only [List.append_assoc] at hlaw
    exact hlaw
  pool h hsub := law_pool h hsub

namespace BlockRun

def view (s : BlockRun) : View :=
  match s.pc with
  | .block call .setStatus =>
    ⟨some s.sched.currentTask, [], call.via.dequeue s.sched.roster.waiters⟩
  | .block _ .testReady => ⟨none, [], s.sched.roster.waiters⟩
  | .block _ .readyPop => ⟨none, [], s.sched.roster.waiters⟩
  | .block _ .takeTag => ⟨none, [s.sched.taskTag], s.sched.roster.waiters⟩
  | .block _ (.markRunning next) => ⟨none, [next], s.sched.roster.waiters⟩
  | .block _ (.setCurrent next) => ⟨some next, [], s.sched.roster.waiters⟩
  | _ => ⟨some s.sched.currentTask, [], s.sched.roster.waiters⟩

end BlockRun

/-- What holds in the call `task_block(call.status)` before the statement `stmt`. -/
structure InCall (s : BlockRun) (call : BlockCall) (stmt : BlockStmt) : Prop where
  blocked : call.via ≠ .user → call.status = .blocked
  queued : ∀ psema, call.via = .sema psema → stmt = .setStatus →
    ∃ old, (s.sched.sema psema).waiters = old ++ [s.sched.currentTask]
  written : stmt ≠ .setStatus →
    call.status.Suspended ∧ (s.sched.task s.owner).status = call.status
  swap : ∀ temp next, stmt = .contextSwap temp next → next = s.sched.currentTask

/-- The waiters lists and slots name tasks that wait there, but for the slots
that a `wakeup` is about to clear. -/
structure Waits (s : BlockRun) : Prop where
  queued : ∀ (psema : CallerSema) (t : TaskAddr), t ∈ (s.sched.sema psema).waiters →
    s.Waiting t (.sema psema)
  slots : ∀ waiter t, s.slot waiter = some t →
    (∃ u, s.waking u = some (waiter, none)) ∨ s.Waiting t (.slot waiter)
  unblocks : ∀ u waiter t, s.waking u = some (waiter, some t) → s.Waiting t (.slot waiter)
  one : ∀ u v waiter x y, s.waking u = some (waiter, x) → s.waking v = some (waiter, y) → u = v

structure Inv (s : BlockRun) : Prop where
  pending : Pending s.view.Sees [] s.timers s.sched
  free : ∀ l ∈ libraryLocks, s.sched.LockFree l
  owner : s.owner ∈ s.sched.taskAllList
  call : ∀ call stmt, s.pc = .block call stmt → InCall s call stmt
  parked : ∀ t call, s.parked t = some call → t ∈ s.sched.taskAllList ∧ t ≠ s.owner ∧
    call.status.Suspended ∧ (s.sched.task t).status = call.status
  waits : Waits s
  calm : ∀ u ∈ s.sched.taskAllList, u ≠ s.owner → ¬ (s.sched.task u).context.Exposed

/-- The mask does not matter to the tasks. -/
lemma Inv.mask {s : BlockRun} (h : Inv s) (masked : Bool) : Inv { s with masked := masked } :=
  ⟨h.pending, h.free, h.owner, fun call stmt hpc =>
    have hin := h.call call stmt hpc
    ⟨hin.blocked, hin.queued, hin.written, hin.swap⟩, h.parked,
    ⟨h.waits.queued, h.waits.slots, h.waits.unblocks, h.waits.one⟩, h.calm⟩

section Calm

variable {s : BlockRun}

lemma Point.calm_cases {call : BlockCall} {stmt : BlockStmt}
    (h : ¬ (Point.block call stmt).Exposed) : stmt = .setStatus ∧ call.via = .user := by
  cases stmt <;> simp_all [Point.Exposed]

lemma owner_of_calm (h : ¬ s.pc.Exposed) : s.owner = s.sched.currentTask := by
  unfold BlockRun.owner
  split
  · rename_i hpc
    rw [hpc] at h
    exact absurd trivial h
  · rfl

/-- Outside a call, and in a call that has done nothing yet, the law holds as it
stands. -/
lemma view_of_calm (h : ¬ s.pc.Exposed) :
    s.view = ⟨some s.sched.currentTask, [], s.sched.roster.waiters⟩ := by
  unfold BlockRun.view
  split
  case h_1 call hpc =>
    rw [hpc] at h
    rw [(Point.calm_cases h).2, Via.dequeue]
    rintro _ ⟨⟩
  case h_7 => rfl
  all_goals
    rename_i hpc
    rw [hpc] at h
    exact absurd trivial h

lemma inCall_of_calm (h : ¬ s.pc.Exposed) (call : BlockCall) (stmt : BlockStmt)
    (hpc : s.pc = .block call stmt) : InCall s call stmt := by
  rw [hpc] at h
  obtain ⟨rfl, hvia⟩ := Point.calm_cases h
  constructor
  case blocked => exact fun hne => absurd hvia hne
  case queued =>
    intro psema hsema
    rw [hvia] at hsema
    cases hsema
  case written => exact fun hne => absurd rfl hne
  case swap =>
    intro temp next hstmt
    cases hstmt

lemma Inv.timed (h : Inv s) (hcalm : ¬ s.pc.Exposed) : TimedLaw [] s.timers s.sched := by
  have hpending := h.pending
  rw [view_of_calm hcalm] at hpending
  exact ⟨hpending.holds, hpending.linked, hpending.oneShot⟩

lemma pending_of_timed (hcalm : ¬ s.pc.Exposed) (h : TimedLaw [] s.timers s.sched) :
    Pending s.view.Sees [] s.timers s.sched := by
  rw [view_of_calm hcalm]
  exact ⟨h.law, h.linked, h.oneShot⟩

end Calm

section Places

variable {s : BlockRun}

/-- A task with a suspended status is in no other place. -/
lemma View.Sees.alone {v : View} {wake : TaskAddr → ℕ} {r : Roster} (h : v.Sees wake r)
    {t : TaskAddr} (hall : t ∈ r.all) (hst : (r.status t).Suspended) :
    v.cur ≠ some t ∧ t ∉ v.front ∧ t ∉ r.ready ∧ wake t = 0 := by
  obtain ⟨hcur, hready, hwake⟩ := Roster.Law.blocked_alone h ⟨hall, hst⟩
  refine ⟨hcur, ?_, ?_, hwake⟩
  · exact fun hm => hready (List.mem_append_left _ hm)
  · exact fun hm => hready (List.mem_append_right _ hm)

lemma Inv.parked_alone (h : Inv s) {t : TaskAddr} {call : BlockCall}
    (hparked : s.parked t = some call) : s.view.cur ≠ some t ∧ t ∉ s.view.front ∧
      t ∉ s.sched.taskReadyList ∧ wakes s.timers t = 0 := by
  obtain ⟨hall, -, hst, hstatus⟩ := h.parked t call hparked
  exact h.pending.holds.alone hall (by rw [← hstatus] at hst; exact hst)

/-- The task in a call that has written the status is suspended already. -/
lemma Inv.owner_alone (h : Inv s) {call : BlockCall} {stmt : BlockStmt}
    (hpc : s.pc = .block call stmt) (hstmt : stmt ≠ .setStatus) : s.view.cur ≠ some s.owner ∧
      s.owner ∉ s.view.front ∧ s.owner ∉ s.sched.taskReadyList ∧ wakes s.timers s.owner = 0 := by
  obtain ⟨hst, hstatus⟩ := (h.call call stmt hpc).written hstmt
  exact h.pending.holds.alone h.owner (by rw [← hstatus] at hst; exact hst)

lemma Inv.wakes_of_cur (h : Inv s) {c : TaskAddr} (hcur : s.view.cur = some c) :
    wakes s.timers c = 0 := by
  have hlaw := h.pending.holds
  rw [View.Sees, hcur] at hlaw
  exact hlaw.cur_alone.2.2

/-- Neither the task whose code is executed nor `current_task` has a wake-up. -/
lemma Inv.wakes_running (h : Inv s) :
    wakes s.timers s.owner = 0 ∧ wakes s.timers s.sched.currentTask = 0 := by
  have hsame : s.owner = s.sched.currentTask → wakes s.timers s.owner = 0 →
      wakes s.timers s.owner = 0 ∧ wakes s.timers s.sched.currentTask = 0 := by
    intro heq hzero
    exact ⟨hzero, heq ▸ hzero⟩
  by_cases hblock : ∃ call stmt, s.pc = .block call stmt
  · obtain ⟨call, stmt, hpc⟩ := hblock
    by_cases hstmt : stmt = .setStatus
    · subst hstmt
      have hcur : s.view.cur = some s.sched.currentTask := by rw [BlockRun.view, hpc]
      have howner : s.owner = s.sched.currentTask := by rw [BlockRun.owner, hpc]
      exact hsame howner (howner ▸ h.wakes_of_cur hcur)
    · have hzero := (h.owner_alone hpc hstmt).2.2.2
      cases stmt with
      | contextSwap temp next =>
        have hcur : s.view.cur = some s.sched.currentTask := by rw [BlockRun.view, hpc]
        exact ⟨hzero, h.wakes_of_cur hcur⟩
      | _ => exact hsame (by rw [BlockRun.owner, hpc]) hzero
  · have hcalm : ¬ s.pc.Exposed := by
      intro hexp
      cases hpc : s.pc with
      | block call stmt => exact hblock ⟨call, stmt, hpc⟩
      | _ =>
        rw [hpc] at hexp
        exact hexp
    have howner := owner_of_calm hcalm
    exact hsame howner (howner ▸ h.wakes_of_cur (by rw [view_of_calm hcalm]))

end Places

/-- The running task, the lists but for the ready list and the pool, the contexts,
and the status of every task that has no wake-up are the same. -/
structure Steady (wake : TaskAddr → ℕ) (s s' : Sched Point) : Prop where
  current : s'.currentTask = s.currentTask
  all : s'.taskAllList = s.taskAllList
  waiters : s'.roster.waiters = s.roster.waiters
  status : ∀ t, wake t = 0 → (s'.task t).status = (s.task t).status
  context : ∀ t, (s'.task t).context = (s.task t).context

lemma steady_of_ticked {wake : TaskAddr → ℕ} {s s' : Sched Point} (h : Ticked wake s s') :
    Steady wake s s' where
  current := h.locks.current
  all := h.all
  waiters := funext h.waiters
  status t ht := congrArg TaskStruct.status (h.task t ht)
  context := h.context

lemma steady_setTask {wake : TaskAddr → ℕ} (s : Sched Point) (t : TaskAddr)
    {f : TaskStruct Point → TaskStruct Point} (hstatus : (f (s.task t)).status = (s.task t).status)
    (hcontext : (f (s.task t)).context = (s.task t).context) : Steady wake s (s.setTask t f) where
  current := rfl
  all := rfl
  waiters := rfl
  status u _ := by
    rw [setTask_task]
    split_ifs with hu
    · rw [hu, hstatus]
    · rfl
  context u := by
    rw [setTask_task]
    split_ifs with hu
    · rw [hu, hcontext]
    · rfl

section Steady

variable {s : BlockRun} {timers : TimerState} {sched : Sched Point}

lemma Steady.owner {wake : TaskAddr → ℕ} (h : Steady wake s.sched sched) :
    ({ s with timers := timers, sched := sched } : BlockRun).owner = s.owner := by
  simp only [BlockRun.owner, h.current]

lemma Steady.waking {wake : TaskAddr → ℕ} (h : Steady wake s.sched sched) :
    ({ s with timers := timers, sched := sched } : BlockRun).waking = s.waking := by
  funext u
  unfold BlockRun.waking BlockRun.point
  rw [h.owner]
  dsimp only
  rw [h.all, h.context u]

lemma Steady.view {wake : TaskAddr → ℕ} (h : Steady wake s.sched sched)
    (htag : (∃ call, s.pc = .block call .takeTag) → sched.taskTag = s.sched.taskTag) :
    ({ s with timers := timers, sched := sched } : BlockRun).view = s.view := by
  unfold BlockRun.view
  dsimp only
  split
  case h_4 call hpc => rw [htag ⟨call, hpc⟩, h.waiters]
  all_goals simp only [h.waiters, h.current]

lemma Steady.waiting {wake : TaskAddr → ℕ} (h : Steady wake s.sched sched) (t : TaskAddr)
    (via : Via) : ({ s with timers := timers, sched := sched } : BlockRun).Waiting t via ↔
      s.Waiting t via := by
  unfold BlockRun.Waiting
  rw [h.owner]

theorem Inv.steady (h : Inv s) (hsteady : Steady (wakes s.timers) s.sched sched)
    (hpending : Pending s.view.Sees [] timers sched) (hfree : ∀ l ∈ libraryLocks, sched.LockFree l)
    (htag : (∃ call, s.pc = .block call .takeTag) → sched.taskTag = s.sched.taskTag) :
    Inv { s with timers := timers, sched := sched } := by
  have howner : ({ s with timers := timers, sched := sched } : BlockRun).owner = s.owner :=
    hsteady.owner
  have hwaiters : ∀ i, (sched.sema i).waiters = (s.sched.sema i).waiters :=
    fun i => congrFun hsteady.waiters i
  constructor
  case pending =>
    rw [hsteady.view htag]
    exact hpending
  case free => exact hfree
  case owner =>
    rw [howner]
    exact hsteady.all ▸ h.owner
  case call =>
    intro call stmt hpc
    have hin := h.call call stmt hpc
    refine ⟨hin.blocked, ?_, ?_, ?_⟩
    · simp only [hwaiters, hsteady.current]
      exact hin.queued
    · rw [howner]
      intro hne
      obtain ⟨hst, hstatus⟩ := hin.written hne
      exact ⟨hst, (hsteady.status _ h.wakes_running.1).trans hstatus⟩
    · simp only [hsteady.current]
      exact hin.swap
  case parked =>
    intro t call hparked
    obtain ⟨hall, hne, hst, hstatus⟩ := h.parked t call hparked
    rw [howner]
    refine ⟨hsteady.all ▸ hall, hne, hst, ?_⟩
    exact (hsteady.status t (h.parked_alone hparked).2.2.2).trans hstatus
  case waits =>
    constructor
    · intro psema t ht
      rw [hsteady.waiting]
      exact h.waits.queued psema t (hwaiters psema ▸ ht)
    · simp only [hsteady.waiting, hsteady.waking]
      exact h.waits.slots
    · simp only [hsteady.waiting, hsteady.waking]
      exact h.waits.unblocks
    · simp only [hsteady.waking]
      exact h.waits.one
  case calm =>
    intro u hu hne
    rw [howner] at hne
    show ¬ (sched.task u).context.Exposed
    rw [hsteady.context u]
    exact h.calm u (hsteady.all ▸ hu) hne

end Steady

section Dispatch

variable {s s' : BlockRun}

lemma waking_of_contexts (howner : s'.owner = s'.sched.currentTask)
    (hpc : s'.pc = s'.sched.current.context) (hwaking : ∀ u ∈ s'.sched.taskAllList,
      (s'.sched.task u).context.waking = s.waking u)
    (hdead : ∀ u ∉ s'.sched.taskAllList, s.waking u = none) : s'.waking = s.waking := by
  funext u
  by_cases hu : u ∈ s'.sched.taskAllList
  · rw [BlockRun.waking, if_pos hu, BlockRun.point, ← hwaking u hu]
    split_ifs with heq
    · rw [hpc, heq, howner]
    · rfl
  · rw [BlockRun.waking, if_neg hu, hdead u hu]

/-- The task that is dispatched goes on where its context says; every task has a
context in which it was interrupted or gave up the CPU. -/
theorem Inv.dispatched (h : Inv s) (hslot : s'.slot = s.slot)
    (htimed : TimedLaw [] s'.timers s'.sched) (hfree : ∀ l ∈ libraryLocks, s'.sched.LockFree l)
    (hpc : s'.pc = s'.sched.current.context)
    (hwaking : ∀ u ∈ s'.sched.taskAllList, (s'.sched.task u).context.waking = s.waking u)
    (hdead : ∀ u ∉ s'.sched.taskAllList, s.waking u = none)
    (hcalm : ∀ u ∈ s'.sched.taskAllList, ¬ (s'.sched.task u).context.Exposed)
    (hparked : ∀ t call, s'.parked t = some call → t ∈ s'.sched.taskAllList ∧
      call.status.Suspended ∧ (s'.sched.task t).status = call.status)
    (hwaiting : ∀ t via, via ≠ .user → s.Waiting t via → s'.parked t = some ⟨via, .blocked⟩)
    (hwaiters : ∀ i t, t ∈ (s'.sched.sema i).waiters → t ∈ (s.sched.sema i).waiters) :
    Inv s' := by
  have hcur := htimed.law.cur_mem
  have hpc' : ¬ s'.pc.Exposed := by
    rw [hpc]
    exact hcalm _ hcur
  have howner := owner_of_calm hpc'
  have hsame := waking_of_contexts howner hpc hwaking hdead
  constructor
  case pending => exact pending_of_timed hpc' htimed
  case free => exact hfree
  case owner =>
    rw [howner]
    exact hcur
  case call => exact inCall_of_calm hpc'
  case parked =>
    intro t call ht
    obtain ⟨hall, hst, hstatus⟩ := hparked t call ht
    refine ⟨hall, ?_, hst, hstatus⟩
    rw [howner]
    rintro rfl
    exact htimed.law.cur_alone.2.1 ⟨hall, by rw [← hstatus] at hst; exact hst⟩
  case waits =>
    constructor
    · intro psema t ht
      exact .inl (hwaiting t _ (by simp) (h.waits.queued psema t (hwaiters _ t ht)))
    · intro waiter t ht
      rw [hslot] at ht
      rw [hsame]
      exact (h.waits.slots waiter t ht).imp_right fun hw => .inl (hwaiting t _ (by simp) hw)
    · intro u waiter t hu
      rw [hsame] at hu
      exact .inl (hwaiting t _ (by simp) (h.waits.unblocks u waiter t hu))
    · rw [hsame]
      exact h.waits.one
  case calm => exact fun u hu _ => hcalm u hu

lemma Dispatched.status {s s' : Sched Point} (h : Dispatched s s') {t : TaskAddr}
    (ht : t ∉ s.taskReadyList) : (s'.task t).status = (s.task t).status := by
  obtain ⟨rest, hready, hroster⟩ := h.next
  have hne : t ≠ s'.currentTask := by
    rintro rfl
    exact ht (by simp [hready])
  have hstatus : s'.roster.status t =
      Function.update s.roster.status s'.currentTask .running t := by
    rw [hroster]
    rfl
  rw [Function.update_of_ne hne] at hstatus
  exact hstatus

lemma Dispatched.waiters {s s' : Sched Point} (h : Dispatched s s') :
    s'.roster.waiters = s.roster.waiters := by
  obtain ⟨rest, -, hroster⟩ := h.next
  rw [hroster]
  rfl

/-- A dispatch that keeps the frame of the interrupted task in its context. -/
lemma Inv.saved (h : Inv s) (hcalm : ¬ s.pc.Exposed) {timers : TimerState} {sched : Sched Point}
    {pc : Point} (htimed : TimedLaw [] timers sched) (hframe : Frame s.sched sched)
    (hwaiters : sched.roster.waiters = s.sched.roster.waiters)
    (hstatus : ∀ t call, s.parked t = some call →
      (sched.task t).status = (s.sched.task t).status)
    (hpc : pc = sched.current.context) (hcontext : ∀ u, (sched.task u).context =
      if u = s.sched.currentTask then s.pc else (s.sched.task u).context) :
    Inv { s.goto sched pc with timers := timers } := by
  have howner := owner_of_calm hcalm
  have hpoint : ∀ u, (sched.task u).context = s.point u := by
    intro u
    rw [hcontext, BlockRun.point, howner]
  have hall : ∀ u, u ∈ sched.taskAllList ↔ u ∈ s.sched.taskAllList := by
    intro u
    rw [hframe.all]
  refine h.dispatched rfl htimed (free_of_frame h.free hframe) hpc ?_ ?_ ?_ ?_ ?_ ?_
  · intro u hu
    show (sched.task u).context.waking = _
    rw [BlockRun.waking, if_pos ((hall u).mp hu), hpoint]
  · intro u hu
    exact if_neg fun hm => hu ((hall u).mpr hm)
  · intro u hu
    show ¬ (sched.task u).context.Exposed
    rw [hcontext]
    split_ifs with heq
    · exact hcalm
    · exact h.calm u ((hall u).mp hu) (by rwa [howner])
  · intro t call ht
    obtain ⟨hmem, -, hst, hold⟩ := h.parked t call ht
    exact ⟨(hall t).mpr hmem, hst, (hstatus t call ht).trans hold⟩
  · rintro t via hvia (hparked | ⟨-, stmt, hblock⟩)
    · exact hparked
    · rw [hblock] at hcalm
      exact absurd (Point.calm_cases hcalm).2 hvia
  · intro i t ht
    have heq : (sched.sema i).waiters = (s.sched.sema i).waiters := congrFun hwaiters i
    exact heq ▸ ht

/-- What the handler does after `run_timer` to a task that may be dispatched. -/
theorem Inv.handled (h : Inv s) (hcalm : ¬ s.pc.Exposed) {p : Addr} (hp : p ∉ s.timers.heap)
    {timers : TimerState} {sched : Sched Point} {pc : Point}
    (hdone : Handled (some p) s.timers s.sched s.pc timers sched pc) :
    Inv { s.goto sched pc with timers := timers } := by
  have hfree := h.free .timer (by decide)
  have htimed := h.timed hcalm
  obtain ⟨htimed', hframe⟩ := htimed.handled hfree hp hdone
  have hcur := htimed.law.cur_alone
  have hparked : ∀ t call, s.parked t = some call →
      t ∉ s.sched.taskReadyList ∧ t ≠ s.sched.currentTask := by
    intro t call ht
    obtain ⟨-, hne, -, -⟩ := h.parked t call ht
    exact ⟨(h.parked_alone ht).2.2.1, owner_of_calm hcalm ▸ hne⟩
  cases hdone with
  | count hflag hticks =>
    have hsteady : Steady (wakes s.timers) s.sched (s.sched.setTask s.sched.currentTask
        fun p => { p with ticks := p.ticks - 1 }) := steady_setTask s.sched _ rfl rfl
    refine h.steady hsteady ?_ h.free fun _ => rfl
    have hview : ({ s with timers := s.timers, sched := _ } : BlockRun).view = s.view :=
      hsteady.view fun _ => rfl
    rw [← hview]
    exact pending_of_timed (s := { s with sched := _ }) hcalm htimed'
  | schedule _ _ hsched =>
    obtain ⟨m, -, hroster, hd⟩ := schedule_dispatched hsched
    obtain ⟨hpc, hcontext⟩ := schedule_handsOver hsched
    refine h.saved hcalm htimed' hframe ?_ ?_ hpc hcontext
    · rw [Dispatched.waiters hd, hroster]
      rfl
    · intro t call ht
      obtain ⟨hready, hne⟩ := hparked t call ht
      have hmready : m.taskReadyList = s.sched.taskReadyList ++ [s.sched.currentTask] :=
        congrArg Roster.ready hroster
      rw [Dispatched.status hd (by simp [hmready, hready, hne])]
      have hstatus : m.roster.status t = _ := congrFun (congrArg Roster.status hroster) t
      refine hstatus.trans ?_
      exact Function.update_of_ne hne ..
  | sleep _ hcreate hsched =>
    rw [createTimerLocked_of_free hfree] at hcreate
    obtain ⟨rfl, rfl⟩ := Prod.mk.inj (Except.ok.inj hcreate)
    have hd := collaborativeSchedule_dispatched hsched
    obtain ⟨hpc, hcontext⟩ := collaborativeSchedule_handsOver hsched
    refine h.saved hcalm htimed' hframe (Dispatched.waiters hd) ?_ hpc hcontext
    exact fun t call ht => Dispatched.status hd (hparked t call ht).1

lemma Inv.setCurrent (h : Inv s) {f : TaskStruct Point → TaskStruct Point}
    (hstatus : (f s.sched.current).status = s.sched.current.status)
    (hcontext : (f s.sched.current).context = s.sched.current.context) :
    Inv { s with sched := s.sched.setTask s.sched.currentTask f } := by
  have hsteady : Steady (wakes s.timers) s.sched (s.sched.setTask s.sched.currentTask f) :=
    steady_setTask s.sched _ hstatus hcontext
  refine h.steady hsteady ⟨?_, h.pending.linked, h.pending.oneShot⟩ h.free fun _ => rfl
  rw [roster_setTask_of_status _ _ hstatus]
  exact h.pending.holds

/-- A tick: tasks are woken up, and the running task is not dispatched away from
within its call. -/
theorem Inv.tick (h : Inv s) {now : UInt32} {p : Addr} {timers : TimerState}
    {sched : Sched Point} {pc : Point} (hg : Undisturbed s (.tick now p))
    (hp : ∀ timers1 m, Sched.runTimer callLibrary now s.timers s.sched.tickBegun =
      .ok (timers1, m) → p ∉ timers1.heap)
    (hrun : interruptTimerHandler callLibrary now (some p) s.timers s.sched s.pc =
      .ok (timers, sched, pc)) : Inv { s.goto sched pc with timers := timers } := by
  obtain ⟨timers1, m, hrt, hdone⟩ := interruptTimerHandler_ok hrun
  have h0 : Inv { s with sched := s.sched.tickBegun } := h.setCurrent rfl rfl
  obtain ⟨hpending, hticked, -⟩ := h0.pending.runLibrary (tolerant_sees _)
    (h0.free .timer (by decide)) hrt
  have hfree : ∀ l ∈ libraryLocks, m.LockFree l :=
    fun l hl => hticked.locks.free hl (h0.free l hl)
  by_cases hexp : s.pc.Exposed
  · obtain ⟨⟨hflag, hticks⟩, htag⟩ := hg hexp
    have h1 : Inv { s with timers := timers1, sched := m } :=
      h0.steady (steady_of_ticked hticked) hpending hfree fun htake => htag htake timers1 m hrt
    -- the running task has no wake-up, so the calls leave its slice and its flag alone
    have hcurrent : m.current = s.sched.tickBegun.current := by
      rw [Sched.current, hticked.locks.current]
      exact hticked.task _ h.wakes_running.2
    have hbegun : s.sched.tickBegun.current = { s.sched.current with
        elapsedTicks := s.sched.current.elapsedTicks + 1 } := setTask_task_self ..
    rw [hbegun] at hcurrent
    cases hdone with
    | schedule _ hzero =>
      rw [hcurrent] at hzero
      exact absurd hzero hticks
    | count => exact h1.setCurrent (f := fun p => { p with ticks := p.ticks - 1 }) rfl rfl
    | sleep hsleep =>
      rw [hcurrent] at hsleep
      exact absurd (hflag.symm.trans hsleep) Bool.false_ne_true
  · have htag : (∃ call, s.pc = .block call .takeTag) → m.taskTag = s.sched.taskTag := by
      rintro ⟨call, hpc⟩
      rw [hpc] at hexp
      exact absurd trivial hexp
    have h1 : Inv { s with timers := timers1, sched := m } :=
      h0.steady (steady_of_ticked hticked) hpending hfree htag
    exact h1.handled hexp (hp timers1 m hrt) hdone

end Dispatch

end Libtask.Blocking
