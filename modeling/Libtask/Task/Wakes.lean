import Libtask.Task.Calls
import Libtask.Timer.Delivery

/-!
# Wake-ups

The callbacks of the library and what they do to the roster: a wake-up timer takes its
task to the ready list, and `clean_dead_task` shortens the pool. What holds of the
roster and of the pending wake-ups together is kept by a whole call of `run_timer`.
-/
namespace Libtask.Conservation
open Timer Sched

variable {κ : Type}

/-- A timer that will put `t` on the ready list. -/
def IsWake (t : TaskAddr) (n : TimerNode) : Prop :=
  n.timerFn = .collaborativeScheduleHelper ∧ n.pParam = t

instance (t : TaskAddr) (n : TimerNode) : Decidable (IsWake t n) := by
  unfold IsWake
  infer_instance

/-- How many pending timers will wake `t`. -/
def wakes (timers : TimerState) (t : TaskAddr) : ℕ :=
  (timers.heap.filter fun p => IsWake t (timers.node p)).card

/-- A `timerFn` of the users leaves the scheduler alone. -/
def callLibrary (n : TimerNode) (s : Sched κ) : Except Stop (Sched κ) :=
  match n.timerFn with
  | .user _ => .ok s
  | _ => callTimer n s

lemma wakes_congr {a b : TimerState} (hheap : b.heap = a.heap) (hnode : b.node = a.node) :
    wakes b = wakes a := by
  funext t
  simp only [wakes, hheap, hnode]

/-- A wake-up timer is freed after its call. -/
lemma wakes_freeNode {s : TimerState} {p : Addr} {t : TaskAddr} (hp : p ∈ s.heap)
    (hwake : IsWake t (s.node p)) (hone : wakes s t = 1) :
    wakes (freeNode s p) = Function.update (wakes s) t 0 := by
  funext u
  have herase : (freeNode s p).heap.filter (fun q => IsWake u ((freeNode s p).node q)) =
      (s.heap.filter fun q => IsWake u (s.node q)).erase p :=
    Finset.filter_erase _ _ _
  by_cases hu : u = t
  · subst hu
    rw [Function.update_self]
    simp only [wakes] at hone ⊢
    rw [herase, Finset.card_erase_of_mem (Finset.mem_filter.mpr ⟨hp, hwake⟩), hone]
  · rw [Function.update_of_ne hu]
    simp only [wakes]
    rw [herase, Finset.erase_eq_of_notMem]
    intro hmem
    have hu' := (Finset.mem_filter.mp hmem).2
    exact hu (hu'.2.symm.trans hwake.2)

/-- A new timer for `t`. -/
lemma wakes_createTimer {s : TimerState} {p : Addr} (hp : p ∉ s.heap) (t : TaskAddr)
    (due : UInt32) (hzero : wakes s t = 0) :
    wakes (createTimer s (some p) (some .collaborativeScheduleHelper) t due 0).1 =
      Function.update (wakes s) t 1 := by
  let n : TimerNode := ⟨s.uJiffies + due, 0, .collaborativeScheduleHelper, t⟩
  funext u
  change ((insert p s.heap).filter fun q => IsWake u (Function.update s.node p n q)).card = _
  have hold : s.heap.filter (fun q => IsWake u (Function.update s.node p n q)) =
      s.heap.filter fun q => IsWake u (s.node q) := by
    apply Finset.filter_congr
    intro q hq
    have hqp : q ≠ p := by
      rintro rfl
      exact hp hq
    rw [Function.update_of_ne hqp]
  rw [Finset.filter_insert, Function.update_self, hold]
  by_cases hu : u = t
  · subst hu
    rw [if_pos ⟨rfl, rfl⟩, Function.update_self,
      Finset.card_insert_of_notMem fun hm => hp (Finset.mem_filter.mp hm).1]
    exact congrArg (· + 1) hzero
  · rw [if_neg fun hw => hu hw.2.symm, Function.update_of_ne hu]
    rfl

/-- The timers of the users are no wake-ups. -/
lemma wakes_createUser {timers : TimerState} {p : Addr} (hp : p ∉ timers.heap) (f pParam : ℕ)
    (due period : UInt32) :
    wakes (Timer.createTimer timers (some p) (some (.user f)) pParam due period).1 =
      wakes timers := by
  funext t
  change ((insert p timers.heap).filter fun q =>
    IsWake t (Function.update timers.node p _ q)).card = _
  rw [Finset.filter_insert, Function.update_self, if_neg (by simp [IsWake])]
  refine congrArg Finset.card (Finset.filter_congr fun q hq => ?_)
  have hqp : q ≠ p := by
    rintro rfl
    exact hp hq
  rw [Function.update_of_ne hqp]

lemma wakes_deleteUser {timers : TimerState} {p : Addr} {f : ℕ}
    (hf : (timers.node p).timerFn = .user f) :
    wakes (Timer.deleteTimer timers p) = wakes timers := by
  funext t
  have herase : (timers.heap.erase p).filter (fun q => IsWake t (timers.node q)) =
      (timers.heap.filter fun q => IsWake t (timers.node q)).erase p :=
    Finset.filter_erase _ _ _
  change ((timers.heap.erase p).filter fun q => IsWake t (timers.node q)).card = _
  rw [herase, Finset.erase_eq_of_notMem]
  · rfl
  · intro hm
    have hwake := (Finset.mem_filter.mp hm).2.1
    rw [hf] at hwake
    cases hwake

/-- The timer of `timer_init` wakes nobody. -/
lemma wakes_timerInit (b : UInt32) (t : TaskAddr) : wakes (timerInit b) t = 0 := by
  apply Finset.card_eq_zero.mpr
  apply Finset.filter_eq_empty_iff.mpr
  intro p hp hwake
  obtain rfl : p = 0 := Finset.mem_singleton.mp hp
  exact absurd hwake.1 (by simp [timerInit, createTimer, addTimer, listTimerInsertTail])

/-- The timers of the users are not among the wake-ups. -/
lemma wakes_rearmOrFree {timers : TimerState} {p : Addr}
    (hfn : (timers.node p).timerFn ≠ .collaborativeScheduleHelper) :
    wakes (rearmOrFree timers p) = wakes timers := by
  funext t
  unfold rearmOrFree
  dsimp only
  split_ifs with hperiod
  · refine congrArg Finset.card (Finset.filter_congr fun q _ => ?_)
    show IsWake t (Function.update timers.node p _ q) ↔ _
    by_cases hq : q = p
    · subst hq
      rw [Function.update_self]
      rfl
    · rw [Function.update_of_ne hq]
  · have herase : (timers.heap.erase p).filter (fun q => IsWake t (timers.node q)) =
        (timers.heap.filter fun q => IsWake t (timers.node q)).erase p :=
      Finset.filter_erase _ _ _
    show ((timers.heap.erase p).filter fun q => IsWake t (timers.node q)).card = _
    rw [herase, Finset.erase_eq_of_notMem]
    · rfl
    · exact fun hm => hfn (Finset.mem_filter.mp hm).2.1

lemma oneShot_rearmOrFree {timers : TimerState} {p : Addr}
    (hfn : (timers.node p).timerFn ≠ .collaborativeScheduleHelper)
    (h : ∀ q ∈ timers.heap, (timers.node q).timerFn = .collaborativeScheduleHelper →
      (timers.node q).uPeriod = 0) :
    ∀ q ∈ (rearmOrFree timers p).heap,
      ((rearmOrFree timers p).node q).timerFn = .collaborativeScheduleHelper →
        ((rearmOrFree timers p).node q).uPeriod = 0 := by
  unfold rearmOrFree
  dsimp only
  split_ifs with hperiod
  · intro q hq
    show (Function.update timers.node p _ q).timerFn = _ →
      (Function.update timers.node p _ q).uPeriod = 0
    by_cases hqp : q = p
    · subst hqp
      rw [Function.update_self]
      exact fun hwake => absurd hwake hfn
    · rw [Function.update_of_ne hqp]
      exact h q hq
  · intro q hq
    exact h q (Finset.mem_of_mem_erase hq)

lemma cleanLoop_ok {fuel : ℕ} {cnt : ℤ} {s s' : Sched κ}
    (h : cleanLoop fuel cnt s = .ok s') : ∃ pool alloc tag,
      s' = { s with taskPoolList := pool, alloc := alloc, taskTag := tag } ∧
        pool.Sublist s.taskPoolList := by
  induction fuel generalizing cnt s with
  | zero => cases h
  | succ fuel ih =>
    rw [cleanLoop] at h
    split_ifs at h with hgo
    · cases hpool : s.taskPoolList with
      | nil =>
        rw [hpool] at h
        cases h
      | cons task rest =>
        simp only [hpool] at h
        obtain ⟨pool, alloc, tag, rfl, hsub⟩ := ih h
        exact ⟨pool, alloc, tag, rfl, hsub.trans (List.sublist_cons_self task rest)⟩
    · obtain rfl := Except.ok.inj h
      exact ⟨s.taskPoolList, s.alloc, s.taskTag, rfl, List.Sublist.refl _⟩

lemma cleanDeadTask_ok {s s' : Sched κ} (h : s.cleanDeadTask = .ok s') :
    ∃ pool alloc tag, s' = { s with taskPoolList := pool, alloc := alloc, taskTag := tag } ∧
      pool.Sublist s.taskPoolList := by
  by_cases hnil : s.taskPoolList = []
  · rw [cleanDeadTask, if_pos hnil] at h
    obtain rfl := Except.ok.inj h
    exact ⟨s.taskPoolList, s.alloc, s.taskTag, rfl, List.Sublist.refl _⟩
  · rw [cleanDeadTask, if_neg hnil] at h
    exact cleanLoop_ok h

/-- A call that wakes nobody shortens the pool at most. -/
lemma callLibrary_ok {n : TimerNode} {s s' : Sched κ} (h : callLibrary n s = .ok s')
    (hfn : n.timerFn ≠ .collaborativeScheduleHelper) : ∃ pool alloc tag,
      s' = { s with taskPoolList := pool, alloc := alloc, taskTag := tag } ∧
        pool.Sublist s.taskPoolList := by
  rw [callLibrary] at h
  cases hf : n.timerFn with
  | collaborativeScheduleHelper => exact absurd hf hfn
  | cleanDeadTask =>
    simp only [hf, callTimer] at h
    exact cleanDeadTask_ok h
  | user f =>
    simp only [hf] at h
    obtain rfl := Except.ok.inj h
    exact ⟨s.taskPoolList, s.alloc, s.taskTag, rfl, List.Sublist.refl _⟩

/-- Tasks have moved, and the running task is the same. -/
def Kept (s s' : Sched κ) : Prop := Frame s s' ∧ s'.currentTask = s.currentTask

lemma Kept.trans {s t u : Sched κ} (h : Kept s t) (h' : Kept t u) : Kept s u :=
  ⟨h.1.trans h'.1, h'.2.trans h.2⟩

lemma collaborativeScheduleHelper_ok {s s' : Sched κ} {t : TaskAddr}
    (h : s.collaborativeScheduleHelper t = .ok s') :
    Kept s s' ∧ s'.roster =
      { s.roster with ready := s.taskReadyList ++ [t] }.withStatus t .ready := by
  simp only [collaborativeScheduleHelper, bind_eq_ok] at h
  obtain ⟨-, -, hs'⟩ := h
  obtain rfl := Except.ok.inj hs'
  refine ⟨⟨⟨rfl, fun _ _ => rfl, rfl, rfl, rfl, rfl⟩, rfl⟩, ?_⟩
  exact roster_setTask { s with taskReadyList := s.taskReadyList ++ [t] } t rfl

/-- What is said of the wake-ups and the roster stays true when a task goes from
its timer to the ready list, and when the pool is cleaned. -/
structure Tolerant (P : (TaskAddr → ℕ) → Roster → Prop) : Prop where
  once : ∀ {wake r}, P wake r → ∀ t, wake t ≤ 1
  wakeUp : ∀ {wake r t}, P wake r → 0 < wake t →
    P (Function.update wake t 0) ({ r with ready := r.ready ++ [t] }.withStatus t .ready)
  pool : ∀ {wake r pool}, P wake r → pool.Sublist r.pool → P wake { r with pool := pool }

lemma law_pool {r : Roster} {cur : Option TaskAddr} {wake : TaskAddr → ℕ} {pool : List TaskAddr}
    (h : Roster.Law cur wake r) (hsub : pool.Sublist r.pool) :
    Roster.Law cur wake { r with pool := pool } where
  place := h.place
  waiting := h.waiting
  waiters_nodup := h.waiters_nodup
  waiters_once := h.waiters_once
  all_nodup := h.all_nodup
  nums_eq := h.nums_eq
  pool_nodup := h.pool_nodup.sublist hsub
  pool_died t ht := h.pool_died t (hsub.subset ht)

lemma tolerant_law (cur : Option TaskAddr) : Tolerant (Roster.Law cur) where
  once h t := by
    by_contra hn
    have hone := (h.wake_alone (t := t) (by omega)).2.2.2
    omega
  wakeUp h ht := h.wakeUp ht
  pool h hsub := law_pool h hsub

/-- A property of the roster in the middle of `run_timer`: the nodes of `rest`
are in its hands. -/
structure Pending (P : (TaskAddr → ℕ) → Roster → Prop) (rest : List Addr) (timers : TimerState)
    (s : Sched κ) : Prop where
  holds : P (wakes timers) s.roster
  linked : Linked rest timers
  oneShot : ∀ p ∈ timers.heap, (timers.node p).timerFn = .collaborativeScheduleHelper →
    (timers.node p).uPeriod = 0

/-- The law in the middle of `run_timer`. -/
structure TimedLaw (rest : List Addr) (timers : TimerState) (s : Sched κ) : Prop where
  law : Roster.Law (some s.currentTask) (wakes timers) s.roster
  linked : Linked rest timers
  oneShot : ∀ p ∈ timers.heap, (timers.node p).timerFn = .collaborativeScheduleHelper →
    (timers.node p).uPeriod = 0

lemma TimedLaw.pending {rest : List Addr} {timers : TimerState} {s : Sched κ}
    (h : TimedLaw rest timers s) : Pending (Roster.Law (some s.currentTask)) rest timers s :=
  ⟨h.law, h.linked, h.oneShot⟩

lemma Pending.timed {rest : List Addr} {timers : TimerState} {s s' : Sched κ}
    (h : Pending (Roster.Law (some s.currentTask)) rest timers s')
    (hcur : s'.currentTask = s.currentTask) : TimedLaw rest timers s' :=
  ⟨hcur ▸ h.holds, h.linked, h.oneShot⟩

/-- The running task and the locks of the library are as before. -/
structure LocksKept (s s' : Sched κ) : Prop where
  lock : s'.lock = s.lock
  sema : ∀ l ∈ libraryLocks, s'.sema (.ofLock l) = s.sema (.ofLock l)
  current : s'.currentTask = s.currentTask

lemma Kept.locks {s s' : Sched κ} (h : Kept s s') : LocksKept s s' :=
  ⟨h.1.lock, h.1.sema, h.2⟩

lemma LocksKept.trans {s t u : Sched κ} (h : LocksKept s t) (h' : LocksKept t u) :
    LocksKept s u where
  lock := h'.lock.trans h.lock
  sema l hl := (h'.sema l hl).trans (h.sema l hl)
  current := h'.current.trans h.current

lemma LocksKept.free {s s' : Sched κ} (h : LocksKept s s') {l : LockId}
    (hl : l ∈ libraryLocks) (hfree : s.LockFree l) : s'.LockFree l := by
  rw [LockFree, h.lock, h.sema l hl]
  exact hfree

/-- `run_timer` around its loop. -/
lemma runTimer_released {call : TimerNode → Sched κ → Except Stop (Sched κ)}
    {now : UInt32} {timers timers' : TimerState} {s s' : Sched κ}
    (hfree : s.LockFree .timer) (hrun : Sched.runTimer call now timers s = .ok (timers', s')) :
    ∃ m, runTimerLoop (onSched call) now (2 ^ 32) (timers, .ok (s.held .timer)) =
      some (timers', .ok m) ∧ (LocksKept (s.held .timer) m →
        s' = m.freed .timer ∧ s'.roster = m.roster ∧ LocksKept s s') := by
  obtain ⟨m, hloop, hrel⟩ := runTimer_ok hfree hrun
  refine ⟨m, hloop, fun h => ?_⟩
  have hlock : m.lock .timer = ⟨some m.currentTask, 1⟩ := by
    rw [h.lock, h.current]
    simp [held]
  have hsema : m.sema (.ofLock .timer) = ⟨0, []⟩ := by
    rw [h.sema .timer (by decide)]
    simp [held]
  rw [lockRelease_of_held hlock hsema] at hrel
  obtain rfl := Except.ok.inj hrel
  refine ⟨rfl, roster_freed hsema, ?_, ?_, h.current⟩
  · simp only [freed, h.lock, held, Function.update_idem]
    rw [← hfree.1, Function.update_eq_self]
  · intro l hl
    by_cases hlt : l = .timer
    · subst hlt
      simp [freed, hfree.2]
    · have hne : SemaId.ofLock l ≠ .ofLock .timer := fun he => hlt (SemaId.ofLock.inj he)
      simp only [freed, Function.update_of_ne hne, h.sema l hl, held]

/-- The tasks that have no wake-up are as before, and so is everything that the
lists other than the ready list and the pool say. -/
structure Ticked (wake : TaskAddr → ℕ) (s s' : Sched κ) : Prop where
  locks : LocksKept s s'
  all : s'.taskAllList = s.taskAllList
  waiters : ∀ i, (s'.sema i).waiters = (s.sema i).waiters
  task : ∀ t, wake t = 0 → s'.task t = s.task t
  context : ∀ t, (s'.task t).context = (s.task t).context

lemma Ticked.refl (wake : TaskAddr → ℕ) (s : Sched κ) : Ticked wake s s :=
  ⟨⟨rfl, fun _ _ => rfl, rfl⟩, rfl, fun _ => rfl, fun _ _ => rfl, fun _ => rfl⟩

lemma Ticked.trans {wake : TaskAddr → ℕ} {s t u : Sched κ} (h : Ticked wake s t)
    (h' : Ticked wake t u) : Ticked wake s u where
  locks := h.locks.trans h'.locks
  all := h'.all.trans h.all
  waiters i := (h'.waiters i).trans (h.waiters i)
  task v hv := (h'.task v hv).trans (h.task v hv)
  context v := (h'.context v).trans (h.context v)

lemma Ticked.mono {wake wake' : TaskAddr → ℕ} {s s' : Sched κ} (h : Ticked wake' s s')
    (hle : ∀ t, wake t = 0 → wake' t = 0) : Ticked wake s s' :=
  { h with task := fun t ht => h.task t (hle t ht) }

lemma ticked_wakeUp {wake : TaskAddr → ℕ} {s s' : Sched κ} {t : TaskAddr} (ht : 0 < wake t)
    (h : s.collaborativeScheduleHelper t = .ok s') : Ticked wake s s' := by
  simp only [collaborativeScheduleHelper, bind_eq_ok] at h
  obtain ⟨-, -, hs'⟩ := h
  obtain rfl := Except.ok.inj hs'
  refine ⟨⟨rfl, fun _ _ => rfl, rfl⟩, rfl, fun _ => rfl, ?_, ?_⟩
  · intro u hu
    have hne : u ≠ t := by
      rintro rfl
      omega
    rw [setTask_task_of_ne _ _ hne]
  · intro u
    rw [setTask_task]
    split_ifs with hu
    · subst hu
      rfl
    · rfl

section Pending

variable {P : (TaskAddr → ℕ) → Roster → Prop} {p : Addr} {rest : List Addr} {timers : TimerState}
  {s s' : Sched κ}

/-- A wake-up in the walk of `run_timer`: its task goes to the end of the ready list, and
the timer is freed. -/
lemma Pending.wakeUp (hP : Tolerant P) (h : Pending P (p :: rest) timers s)
    (hfn : (timers.node p).timerFn = .collaborativeScheduleHelper)
    (hcall : Conservation.callLibrary (timers.node p) s = .ok s') :
    let t := (timers.node p).pParam
    s.collaborativeScheduleHelper t = .ok s' ∧ rearmOrFree timers p = freeNode timers p ∧
      0 < wakes timers t ∧
      wakes (freeNode timers p) = Function.update (wakes timers) t 0 ∧
      s'.roster = { s.roster with ready := s.roster.ready ++ [t] }.withStatus t .ready := by
  simp only [Conservation.callLibrary, hfn, callTimer] at hcall
  obtain ⟨-, hroster⟩ := collaborativeScheduleHelper_ok hcall
  obtain ⟨hheap, -, -⟩ := h.linked.not_mem
  have hwake : IsWake (timers.node p).pParam (timers.node p) := ⟨hfn, rfl⟩
  have hpos : 0 < wakes timers (timers.node p).pParam :=
    Finset.card_pos.mpr ⟨p, Finset.mem_filter.mpr ⟨hheap, hwake⟩⟩
  have hone : wakes timers (timers.node p).pParam = 1 := le_antisymm (hP.once h.holds _) hpos
  refine ⟨hcall, if_neg (not_not.mpr (h.oneShot p hheap hfn)), hpos, ?_, hroster⟩
  exact wakes_freeNode hheap hwake hone

/-- One call in the walk of `run_timer`. -/
theorem Pending.callLibrary (hP : Tolerant P) (h : Pending P (p :: rest) timers s)
    (hcall : Conservation.callLibrary (timers.node p) s = .ok s') :
    Pending P rest (rearmOrFree timers p) s' ∧ Ticked (wakes timers) s s' ∧
      (rearmOrFree timers p).heap ⊆ timers.heap ∧
      ∀ t, wakes timers t = 0 → wakes (rearmOrFree timers p) t = 0 := by
  by_cases hfn : (timers.node p).timerFn = .collaborativeScheduleHelper
  · obtain ⟨hhelper, hfree, hpos, hwakes, hroster⟩ := h.wakeUp hP hfn hcall
    have hlinked := h.linked.rearmOrFree
    rw [hfree] at hlinked ⊢
    refine ⟨⟨?_, hlinked, ?_⟩, ticked_wakeUp hpos hhelper, Finset.erase_subset p timers.heap, ?_⟩
    · rw [hroster, hwakes]
      exact hP.wakeUp h.holds hpos
    · intro q hq
      exact h.oneShot q (Finset.mem_of_mem_erase hq)
    · intro t ht
      rw [hwakes, Function.update_apply]
      split_ifs
      · rfl
      · exact ht
  · obtain ⟨pool, alloc, tag, rfl, hsub⟩ := callLibrary_ok hcall hfn
    have hwakes := wakes_rearmOrFree hfn
    refine ⟨⟨?_, h.linked.rearmOrFree, oneShot_rearmOrFree hfn h.oneShot⟩, ?_,
      rearmOrFree_heap timers p, ?_⟩
    · rw [hwakes]
      exact hP.pool h.holds hsub
    · exact ⟨⟨rfl, fun _ _ => rfl, rfl⟩, rfl, fun _ => rfl, fun _ _ => rfl, fun _ => rfl⟩
    · intro t ht
      rw [hwakes, ht]

/-- The cascades and the detaching of the expired slot. -/
lemma Pending.cascade (h : Pending P [] timers s) :
    let idx := Slot.tv1 (tvrIndex (cascadeTick timers).uJiffies)
    Pending P ((cascadeTick timers).arrListTimer idx)
      (listTimerReplaceInit (cascadeTick timers) idx) s := by
  obtain ⟨hheap, hnode⟩ := cascadeTick_heap timers
  refine ⟨?_, h.linked.cascadeTick.detach _, ?_⟩
  · rw [wakes_congr (a := timers) (b := listTimerReplaceInit (cascadeTick timers) _) hheap hnode]
    exact h.holds
  · show ∀ p ∈ (cascadeTick timers).heap, ((cascadeTick timers).node p).timerFn = _ →
      ((cascadeTick timers).node p).uPeriod = 0
    rw [hheap, hnode]
    exact h.oneShot

/-- What the loop of `run_timer` keeps, compared with its start. -/
theorem ticked_loopInv (hP : Tolerant P) (timers : TimerState) (s : Sched κ) :
    LoopInv Conservation.callLibrary fun rest timers' s' =>
      Pending P rest timers' s' ∧ Ticked (wakes timers) s s' ∧ timers'.heap ⊆ timers.heap ∧
        ∀ t, wakes timers t = 0 → wakes timers' t = 0 := by
  constructor
  case call =>
    intro p rest timers1 s1 s2 ⟨hpending, hticked, hsub, hzero⟩ hcall
    obtain ⟨hpending', hticked', hsub', hzero'⟩ := hpending.callLibrary hP hcall
    exact ⟨hpending', hticked.trans (hticked'.mono hzero), hsub'.trans hsub,
      fun t ht => hzero' t (hzero t ht)⟩
  case cascade =>
    intro timers1 s1 ⟨hpending, hticked, hsub, hzero⟩
    obtain ⟨hheap, hnode⟩ := cascadeTick_heap timers1
    refine ⟨hpending.cascade, hticked, hheap.subset.trans hsub, ?_⟩
    rw [wakes_congr (a := timers1) (b := listTimerReplaceInit (cascadeTick timers1) _) hheap hnode]
    exact hzero
  case tick =>
    intro timers1 s1 ⟨hpending, hticked, hsub, hzero⟩
    exact ⟨⟨hpending.holds, hpending.linked, hpending.oneShot⟩, hticked, hsub, hzero⟩

theorem Pending.runLibrary {now : UInt32} {timers timers' : TimerState} {s s' : Sched κ}
    (hP : Tolerant P) (h : Pending P [] timers s) (hfree : s.LockFree .timer)
    (hrun : Sched.runTimer Conservation.callLibrary now timers s = .ok (timers', s')) :
    Pending P [] timers' s' ∧ Ticked (wakes timers) s s' ∧ timers'.heap ⊆ timers.heap := by
  have hheld : Pending P [] timers (s.held .timer) :=
    ⟨by rw [roster_held hfree]; exact h.holds, h.linked, h.oneShot⟩
  obtain ⟨m, hloop, hrel⟩ := runTimer_released hfree hrun
  obtain ⟨hpending, hticked, hsub, -⟩ := (ticked_loopInv hP timers (s.held .timer)).loop
    ⟨hheld, .refl _ _, Finset.Subset.refl _, fun _ => id⟩ hloop
  obtain ⟨rfl, hroster, hlocks⟩ := hrel hticked.locks
  refine ⟨⟨?_, hpending.linked, hpending.oneShot⟩, ?_, hsub⟩
  · rw [hroster]
    exact hpending.holds
  · refine ⟨hlocks, hticked.all, ?_, hticked.task, hticked.context⟩
    intro i
    have hwaiters : (m.freed .timer).roster.waiters i = m.roster.waiters i := by rw [hroster]
    have hheldi : (s.held .timer).roster.waiters i = s.roster.waiters i := by rw [roster_held hfree]
    exact hwaiters.trans ((hticked.waiters i).trans hheldi)

end Pending

section TimedLaw

variable {p : Addr} {rest : List Addr} {timers timers' : TimerState} {s s' : Sched κ}

lemma TimedLaw.cascade (h : TimedLaw [] timers s) :
    let idx := Slot.tv1 (tvrIndex (cascadeTick timers).uJiffies)
    TimedLaw ((cascadeTick timers).arrListTimer idx)
      (listTimerReplaceInit (cascadeTick timers) idx) s :=
  h.pending.cascade.timed rfl

theorem TimedLaw.callLibrary (h : TimedLaw (p :: rest) timers s)
    (hcall : Conservation.callLibrary (timers.node p) s = .ok s') :
    TimedLaw rest (rearmOrFree timers p) s' ∧ Ticked (wakes timers) s s' ∧
      (rearmOrFree timers p).heap ⊆ timers.heap ∧
      ∀ t, wakes timers t = 0 → wakes (rearmOrFree timers p) t = 0 := by
  obtain ⟨hpending, hticked, hsub, hzero⟩ := h.pending.callLibrary (tolerant_law _) hcall
  exact ⟨hpending.timed hticked.locks.current, hticked, hsub, hzero⟩

theorem TimedLaw.runLibrary {now : UInt32} (h : TimedLaw [] timers s) (hfree : s.LockFree .timer)
    (hrun : Sched.runTimer Conservation.callLibrary now timers s = .ok (timers', s')) :
    TimedLaw [] timers' s' ∧ Ticked (wakes timers) s s' ∧ timers'.heap ⊆ timers.heap := by
  obtain ⟨hpending, hticked, hsub⟩ := h.pending.runLibrary (tolerant_law _) hfree hrun
  exact ⟨hpending.timed hticked.locks.current, hticked, hsub⟩

/-- The lock that `run_timer` takes for its loop. -/
lemma TimedLaw.held {l : LockId} (h : TimedLaw [] timers s) (hfree : s.LockFree l) :
    TimedLaw [] timers (s.held l) :=
  ⟨by rw [roster_held hfree]; exact h.law, h.linked, h.oneShot⟩

lemma TimedLaw.tickBegun (h : TimedLaw [] timers s) :
    TimedLaw [] timers s.tickBegun := by
  refine ⟨?_, h.linked, h.oneShot⟩
  rw [Sched.tickBegun, roster_setTask_of_status _ _ rfl]
  exact h.law

/-- What the handler does after `run_timer`. -/
theorem TimedLaw.handled {frame k : κ} (h : TimedLaw [] timers s) (hfree : s.LockFree .timer)
    (hp : p ∉ timers.heap) (hdone : Handled (some p) timers s frame timers' s' k) :
    TimedLaw [] timers' s' ∧ Frame s s' := by
  cases hdone with
  | schedule _ _ hsched =>
    obtain ⟨m, hframe, hroster, hd⟩ := schedule_dispatched hsched
    refine ⟨⟨hd.law ?_, h.linked, h.oneShot⟩, hframe.trans hd.frame⟩
    rw [hroster]
    exact h.law.requeue
  | count =>
    refine ⟨⟨?_, h.linked, h.oneShot⟩, frame_setTask s _ _⟩
    rw [roster_setTask_of_status _ _ rfl]
    exact h.law
  | sleep _ hcreate hsched =>
    -- the CPU for a wake-up timer
    rw [createTimerLocked_of_free hfree] at hcreate
    obtain ⟨rfl, rfl⟩ := Prod.mk.inj (Except.ok.inj hcreate)
    have hd := collaborativeSchedule_dispatched hsched
    obtain ⟨-, -, hzero⟩ := h.law.cur_alone
    refine ⟨⟨hd.law ?_, (h.linked.insert hp _).addTimer, ?_⟩, hd.frame⟩
    · rw [wakes_createTimer hp _ _ hzero]
      exact h.law.sleep
    · intro q hq hfn
      change (Function.update timers.node p _ q).uPeriod = 0
      change (Function.update timers.node p _ q).timerFn = _ at hfn
      by_cases hqp : q = p
      · subst hqp
        rw [Function.update_self]
      · rw [Function.update_of_ne hqp] at hfn ⊢
        exact h.oneShot q (Finset.mem_of_mem_insert_of_ne hq hqp) hfn

lemma TimedLaw.createTimer (h : TimedLaw [] timers s)
    (hp : p ∉ timers.heap) (f pParam : ℕ) (due period : UInt32) :
    TimedLaw [] (Timer.createTimer timers (some p) (some (.user f)) pParam due period).1 s := by
  refine ⟨?_, (h.linked.insert hp _).addTimer, ?_⟩
  · rw [wakes_createUser hp]
    exact h.law
  · intro q hq hfn
    change (Function.update timers.node p _ q).uPeriod = 0
    change (Function.update timers.node p _ q).timerFn = _ at hfn
    by_cases hqp : q = p
    · subst hqp
      rw [Function.update_self] at hfn
      cases hfn
    · have hmem := Finset.mem_of_mem_insert_of_ne hq hqp
      rw [Function.update_of_ne hqp] at hfn ⊢
      exact h.oneShot q hmem hfn

lemma TimedLaw.deleteTimer (h : TimedLaw [] timers s) {f : ℕ}
    (hf : (timers.node p).timerFn = .user f) :
    TimedLaw [] (Timer.deleteTimer timers p) s := by
  refine ⟨?_, h.linked.deleteTimer p, ?_⟩
  · rw [wakes_deleteUser hf]
    exact h.law
  · exact fun q hq => h.oneShot q (Finset.mem_of_mem_erase hq)

end TimedLaw

/-- After `init()` the main task runs, and nothing is locked or waited for. -/
theorem timedLaw_init {κ : Type} [Inhabited κ] {value : SemaId → UInt8} {mem stack : ℕ}
    (b : UInt32) {s : Sched κ} (hinit : (boot value).taskInit mem stack = .ok s) :
    TimedLaw [] (timerInit b) s ∧ (∀ l ∈ libraryLocks, s.LockFree l) ∧
      s.taskAllList = [mem] ∧ s.currentTask = mem ∧ ∀ i, (s.sema i).waiters = [] := by
  obtain ⟨b', -, -, heq⟩ := taskInit_spec (κ := κ) value mem stack
  obtain rfl := Except.ok.inj (heq.symm.trans hinit)
  have hwaiters : ∀ i, ((boot value : Sched κ).sema i).waiters = [] := by
    intro i
    cases i <;> rfl
  refine ⟨⟨?_, (wheelInv_of_reachable (.init ⟨b, rfl⟩)).linked, ?_⟩, fun l _ => ⟨rfl, rfl⟩, rfl,
    rfl, hwaiters⟩
  · constructor
    case place =>
      intro t
      simp only [Roster.tokens, roster, Roster.Blocked, wakes_timerInit, List.mem_singleton]
      by_cases ht : t = mem
      · subst ht
        simp [mainTaskStruct, Roster.not_suspended_running, boot]
      · simp [ht, Ne.symm ht, boot]
    case waiting =>
      intro i t ht
      simp [roster, hwaiters] at ht
    case waiters_nodup =>
      intro i
      simp [roster, hwaiters]
    case waiters_once =>
      intro i j t ht
      simp [roster, hwaiters] at ht
    case all_nodup => exact List.nodup_singleton mem
    case nums_eq => rfl
    case pool_nodup => exact List.nodup_nil
    case pool_died =>
      intro t ht
      exact absurd ht List.not_mem_nil
  · intro p hp hfn
    obtain rfl : p = 0 := Finset.mem_singleton.mp hp
    exact absurd hfn (by simp [timerInit, createTimer, addTimer, listTimerInsertTail])

end Libtask.Conservation
