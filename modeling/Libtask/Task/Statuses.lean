import Libtask.Task.Places

/-!
# What the status field says

Every routine that dispatches a task marks it as running, and every routine that
queues one marks it as ready. `collaborative_schedule` takes the CPU from a task
without marking it at all, so a sleeping task goes on saying that it runs. It is
the only one that does.
-/
namespace Libtask.Roster

variable {cur cur' : Option TaskAddr} {wake wake' : TaskAddr → ℕ} {r : Roster}

/-- What the status fields say of the running task, of the queued ones and of those
that wait for a wake-up. -/
structure Stated (cur : Option TaskAddr) (wake : TaskAddr → ℕ) (r : Roster) : Prop where
  running : ∀ t, cur = some t → r.status t = .running
  ready : ∀ t ∈ r.ready, r.status t = .ready
  asleep : ∀ t, 0 < wake t → r.status t = .running

/-- Only `t` changes its place, and it gets the status of the new one. -/
lemma Stated.move (h : Stated cur wake r) {t : TaskAddr} {status : TaskStatus} {r' : Roster}
    (hstatus : r'.status = Function.update r.status t status)
    (hcur : ∀ u, u ≠ t → cur' = some u → cur = some u)
    (hready : ∀ u, u ≠ t → u ∈ r'.ready → u ∈ r.ready)
    (hwake : ∀ u, u ≠ t → 0 < wake' u → 0 < wake u)
    (htcur : cur' = some t → status = .running) (htready : t ∈ r'.ready → status = .ready)
    (htwake : wake' t = 0) : Stated cur' wake' r' := by
  constructor
  · intro u hu
    rw [hstatus]
    by_cases hut : u = t
    · subst hut
      rw [Function.update_self, htcur hu]
    · rw [Function.update_of_ne hut, h.running u (hcur u hut hu)]
  · intro u hu
    rw [hstatus]
    by_cases hut : u = t
    · subst hut
      rw [Function.update_self, htready hu]
    · rw [Function.update_of_ne hut, h.ready u (hready u hut hu)]
  · intro u hu
    rw [hstatus]
    by_cases hut : u = t
    · subst hut
      omega
    · rw [Function.update_of_ne hut, h.asleep u (hwake u hut hu)]

/-- The pool is not asked. -/
lemma Stated.clean (h : Stated cur wake r) (pool : List TaskAddr) :
    Stated cur wake { r with pool := pool } := ⟨h.running, h.ready, h.asleep⟩

section Moves

variable {c n t : TaskAddr}

lemma Stated.block (h : Stated (some c) wake r) (hlaw : Law (some c) wake r) (st : TaskStatus) :
    Stated none wake (r.withStatus c st) := by
  obtain ⟨hready, -, hwake⟩ := hlaw.cur_alone
  exact h.move rfl nofun (fun _ _ hu => hu) (fun _ _ hu => hu) nofun (fun hc => absurd hc hready)
    hwake

lemma Stated.requeue (h : Stated (some c) wake r) (hlaw : Law (some c) wake r) :
    Stated none wake ({ r with ready := r.ready ++ [c] }.withStatus c .ready) := by
  obtain ⟨-, -, hwake⟩ := hlaw.cur_alone
  refine h.move rfl nofun ?_ (fun _ _ hu => hu) nofun (fun _ => rfl) hwake
  intro u hu hmem
  exact (List.mem_append.mp hmem).resolve_right fun hc => hu (List.mem_singleton.mp hc)

lemma Stated.dispatch {rest : List TaskAddr} (h : Stated none wake r) (hlaw : Law none wake r)
    (hr : r.ready = n :: rest) :
    Stated (some n) wake ({ r with ready := rest }.withStatus n .running) := by
  have hmem : n ∈ r.ready := by simp [hr]
  obtain ⟨-, -, hwake, hcount⟩ := hlaw.ready_alone hmem
  rw [hr, List.count_cons_self] at hcount
  have hnot : n ∉ rest := List.count_eq_zero.mp (by omega)
  refine h.move rfl ?_ ?_ (fun _ _ hu => hu) (fun _ => rfl) (fun hn => absurd hn hnot) hwake
  · intro u hu hc
    exact absurd (Option.some.inj hc).symm hu
  · intro u hu hmem'
    rw [hr]
    exact List.mem_cons_of_mem n hmem'

lemma Stated.wakeUp (h : Stated cur wake r) (hlaw : Law cur wake r) (ht : 0 < wake t) :
    Stated cur (Function.update wake t 0)
      ({ r with ready := r.ready ++ [t] }.withStatus t .ready) := by
  obtain ⟨hcur, -, -, -⟩ := hlaw.wake_alone ht
  refine h.move rfl (fun _ _ hu => hu) ?_ ?_ (fun hc => absurd hc hcur) (fun _ => rfl) ?_
  · intro u hu hmem
    exact (List.mem_append.mp hmem).resolve_right fun hc => hu (List.mem_singleton.mp hc)
  · intro u hu hpos
    rwa [Function.update_of_ne hu] at hpos
  · rw [Function.update_self]

lemma Stated.unblock (h : Stated cur wake r) (hlaw : Law cur wake r) (ht : r.Blocked t) :
    Stated cur wake ({ r with ready := t :: r.ready }.withStatus t .ready) := by
  obtain ⟨hcur, -, hwake⟩ := hlaw.blocked_alone ht
  refine h.move rfl (fun _ _ hu => hu) ?_ (fun _ _ hu => hu) (fun hc => absurd hc hcur)
    (fun _ => rfl) hwake
  intro u hu hmem
  exact (List.mem_cons.mp hmem).resolve_left hu

/-- The one move that leaves the status as it is. -/
lemma Stated.sleep (h : Stated (some c) wake r) : Stated none (Function.update wake c 1) r := by
  refine ⟨nofun, h.ready, ?_⟩
  intro u hu
  by_cases huc : u = c
  · subst huc
    exact h.running u rfl
  · rw [Function.update_of_ne huc] at hu
    exact h.asleep u hu

lemma Stated.born (h : Stated cur wake r) (hlaw : Law cur wake r) (ht : t ∉ r.all) :
    Stated cur wake ({ r with
      ready := r.ready ++ [t]
      all := r.all ++ [t]
      nums := r.nums + 1 }.withStatus t .ready) := by
  refine h.move rfl (fun _ _ hu => hu) ?_ (fun _ _ hu => hu) ?_ (fun _ => rfl) ?_
  · intro u hu hmem
    exact (List.mem_append.mp hmem).resolve_right fun hc => hu (List.mem_singleton.mp hc)
  · rintro rfl
    exact absurd hlaw.cur_mem ht
  · by_contra hwake
    exact ht (hlaw.wake_mem (by omega))

lemma Stated.exit {main : TaskAddr} (h : Stated (some c) wake r) (hlaw : Law (some c) wake r) :
    Stated none wake ({ r with
      ready := r.ready.erase c
      all := r.all.erase c
      nums := r.nums - 1
      pool := r.pool ++ if c = main then [] else [c] }.withStatus c .died) := by
  obtain ⟨hready, -, hwake⟩ := hlaw.cur_alone
  refine h.move rfl nofun ?_ (fun _ _ hu => hu) nofun ?_ hwake
  · exact fun u _ hmem => List.mem_of_mem_erase hmem
  · exact fun hc => absurd (List.mem_of_mem_erase hc) hready

end Moves

end Libtask.Roster

namespace Libtask.Conservation
open Transition Timer Sched Roster

/-- What holds of the status fields between two operations. -/
def StatedRun (timers : TimerState) (s : Sched Resume) : Prop :=
  Stated (some s.currentTask) (wakes timers) s.roster

lemma dispatched_stated {s s' : Sched Resume} {wake : TaskAddr → ℕ} (h : Dispatched s s')
    (hlaw : Law none wake s.roster) (hs : Stated none wake s.roster) :
    Stated (some s'.currentTask) wake s'.roster := by
  obtain ⟨rest, hready, hroster⟩ := h.next
  rw [hroster]
  exact hs.dispatch hlaw hready

lemma tolerant_stated (cur : Option TaskAddr) :
    Tolerant fun wake r => Law cur wake r ∧ Stated cur wake r where
  once h := (tolerant_law cur).once h.1
  wakeUp h ht := ⟨h.1.wakeUp ht, h.2.wakeUp h.1 ht⟩
  pool h hsub := ⟨law_pool h.1 hsub, h.2.clean _⟩

/-- The status fields after the calls of a tick. -/
lemma StatedRun.called {now : UInt32} {timers timers' : TimerState} {s s' : Sched Resume}
    (hs : StatedRun timers s) (h : TimedLaw [] timers s) (hfree : s.LockFree .timer)
    (hrun : runTimer callLibrary now timers s = .ok (timers', s')) : StatedRun timers' s' := by
  have hpending : Pending (fun wake r => Law (some s.currentTask) wake r ∧
      Stated (some s.currentTask) wake r) [] timers s := ⟨⟨h.law, hs⟩, h.linked, h.oneShot⟩
  obtain ⟨hpending', hticked, -⟩ := hpending.runLibrary (tolerant_stated _) hfree hrun
  rw [StatedRun, hticked.locks.current]
  exact hpending'.holds.2

lemma StatedRun.handled {p : Addr} {timers timers' : TimerState} {s s' : Sched Resume}
    {frame k : Resume} (hs : StatedRun timers s) (h : TimedLaw [] timers s)
    (hfree : s.LockFree .timer) (hp : p ∉ timers.heap)
    (hdone : Handled (some p) timers s frame timers' s' k) : StatedRun timers' s' := by
  cases hdone with
  | schedule _ _ hsched =>
    obtain ⟨m, -, hroster, hd⟩ := schedule_dispatched hsched
    apply dispatched_stated hd
    · rw [hroster]
      exact h.law.requeue
    · rw [hroster]
      exact hs.requeue h.law
  | count =>
    rw [StatedRun, roster_setTask_of_status _ _ rfl]
    exact hs
  | sleep _ hcreate hsched =>
    rw [createTimerLocked_of_free hfree] at hcreate
    obtain ⟨rfl, rfl⟩ := Prod.mk.inj (Except.ok.inj hcreate)
    have hd := collaborativeSchedule_dispatched hsched
    obtain ⟨-, -, hzero⟩ := h.law.cur_alone
    rw [StatedRun, wakes_createTimer hp _ _ hzero]
    exact dispatched_stated hd h.law.sleep (Stated.sleep hs)

section Calls

variable {timers : TimerState} {s s' : Sched Resume} (hs : StatedRun timers s)
  (h : TimedLaw [] timers s)
include hs h

lemma StatedRun.semaDown {psema : SemaId} {here : Resume} {k : Option Resume}
    (hdown : s.semaDown psema here = .ok (s', k)) : StatedRun timers s' := by
  rcases semaDown_ok hdown with ⟨-, rfl⟩ | ⟨-, -, hd⟩
  · rw [StatedRun, roster_setSema_of_waiters _ _ rfl]
    exact hs
  · have hblocked := h.law.cur_alone.2.1
    have hlaw := h.law.block (show TaskStatus.blocked.Suspended from .inl rfl)
    have hstated := Stated.block hs h.law .blocked
    apply dispatched_stated hd
    · rw [roster_setSema, roster_setStatus]
      refine hlaw.wait ?_ ?_ psema
      · exact Roster.blocked_withStatus_self.mpr ⟨h.law.cur_mem, .inl rfl⟩
      · exact h.law.not_waiter hblocked
    · rw [roster_setSema, roster_setStatus]
      exact ⟨hstated.running, hstated.ready, hstated.asleep⟩

lemma StatedRun.semaUp {psema : SemaId} (hup : s.semaUp psema = .ok s') : StatedRun timers s' := by
  obtain ⟨m, rfl, ⟨-, rfl⟩ | ⟨t, rest, hw, hunblock⟩⟩ := semaUp_ok hup
  · rw [StatedRun, roster_setSema_of_waiters _ _ rfl]
    exact hs
  · obtain ⟨-, rfl⟩ := taskUnblock_ok hunblock
    have ht : s.roster.Blocked t := by
      apply h.law.waiting psema
      show t ∈ (s.sema psema).waiters
      simp [hw]
    have hstated := Stated.unblock hs h.law ht
    rw [StatedRun, roster_setSema_of_waiters _ _ rfl, roster_setStatus]
    exact ⟨hstated.running, hstated.ready, hstated.asleep⟩

/-- Every call marks the tasks that it moves. -/
theorem StatedRun.performed {here entry : Resume} {call : TaskCall} {k : Option Resume}
    (hp : Performed s here entry call s' k) (hfree : s.LockFree .tid)
    (hpromise : Promised s call) : StatedRun timers s' := by
  cases hp with
  | taskStart hstart =>
    obtain ⟨hall, hmain⟩ := hpromise
    obtain ⟨rfl, ⟨b', tid, rfl⟩, -⟩ := law_taskStart h.law hfree hall hmain hstart
    rw [StatedRun, roster_bornState _ _ _ _ rfl]
    exact Stated.born hs h.law hall
  | taskExit hexit =>
    obtain ⟨b', hd⟩ := taskExit_ok hfree hexit
    apply dispatched_stated (diedTaskSchedule_dispatched hd)
    · show Law none (wakes timers) (s.exitState s.currentTask).roster
      rw [roster_exitState]
      exact h.law.exit _
    · show Stated none (wakes timers) (s.exitState s.currentTask).roster
      rw [roster_exitState]
      exact Stated.exit hs h.law
  | taskBlock hblock =>
    obtain ⟨hst, hd⟩ := taskBlock_dispatched hblock
    apply dispatched_stated hd
    · rw [roster_setStatus]
      exact h.law.block hst
    · rw [roster_setStatus]
      exact Stated.block hs h.law _
  | taskUnblock hunblock =>
    obtain ⟨hst, rfl⟩ := taskUnblock_ok hunblock
    rw [StatedRun, roster_setStatus]
    exact Stated.unblock hs h.law ⟨hpromise.1, hst⟩
  | semaDown hdown => exact hs.semaDown h hdown
  | semaUp hup => exact hs.semaUp h hup
  | sleep =>
    rw [StatedRun, Sched.requestSleep, roster_setTask_of_status _ _ rfl]
    exact hs
  | coEnableHookSys =>
    rw [StatedRun, Sched.coEnableHookSys, roster_setTask_of_status _ _ rfl]
    exact hs

end Calls

theorem StatedRun.step {s s' : TaskRun} {op : TaskOp} (hs : StatedRun s.timers s.sched)
    (h : TaskInv s) (hst : TaskStep callLibrary s op s') : StatedRun s'.timers s'.sched := by
  cases hst with
  | call hmay hpromise hcall =>
    exact hs.performed h.timed (Conservation.performed hcall) (h.free .tid (by decide)) hpromise
  | tick hmalloc hrun =>
    obtain ⟨timers1, m, hrt, hdone, hp, -⟩ := h.tick hmalloc hrun
    obtain ⟨hlaw, hfree, -, -⟩ := h.called hrt
    have hbegun : StatedRun s.timers s.sched.tickBegun := by
      rw [StatedRun, Sched.tickBegun, roster_setTask_of_status _ _ rfl]
      exact hs
    have hcalled := hbegun.called h.timed.tickBegun (h.free .timer (by decide)) hrt
    exact hcalled.handled hlaw (hfree .timer (by decide)) hp hdone
  | createTimer hin hmalloc =>
    rw [StatedRun, wakes_createUser hmalloc]
    exact hs
  | deleteTimer hin hp hf =>
    rw [StatedRun, wakes_deleteUser hf]
    exact hs

lemma StatedRun.init {s : TaskRun} (hs : taskSystem.init s) : StatedRun s.timers s.sched := by
  obtain ⟨value, mem, stack, b, hinit, htimers, -⟩ := hs
  obtain ⟨b', -, -, heq⟩ := taskInit_spec (κ := Resume) value mem stack
  rw [heq] at hinit
  rw [htimers, ← Except.ok.inj hinit]
  constructor
  · intro t ht
    obtain rfl := Option.some.inj ht
    simp [roster, mainTaskStruct]
  · intro t ht
    cases ht
  · intro t ht
    rw [wakes_timerInit] at ht
    omega

end Libtask.Conservation
