import Libtask.FirstFit
import Libtask.Task.Exit

/-!
# Operations that come back

An operation ends in an assertion, on an empty list or in an endless loop, or it comes
back. As long as a task is ready, the state before it tells which: for the handler by the
reading of the clock and by what the calls of `clean_dead_task` find in the pool.
-/
namespace Libtask.Conservation
open Transition Timer Sched

variable {κ : Type}

section Clean

variable {s : Sched κ}

/-- With a quota the loop is not entered. -/
lemma cleanDeadTask_of_many (hmany : 8 ≤ s.taskAllNums) : s.cleanDeadTask = .ok s := by
  by_cases hpool : s.taskPoolList = []
  · rw [cleanDeadTask, if_pos hpool]
  · have hdiv : s.taskAllNums.tdiv 8 = s.taskAllNums / 8 := Int.tdiv_eq_ediv_of_nonneg (by omega)
    have hcnt : (if s.taskAllNums / 8 > 16 then 16 else s.taskAllNums / 8) ≠ 0 := by
      split_ifs <;> omega
    rw [cleanDeadTask, if_neg hpool, hdiv, cleanLoop, if_neg (by simp [hpool, hcnt])]

/-- Without one, the oldest task is freed, and the next round goes wrong if it was alone. -/
lemma cleanDeadTask_of_few {t : TaskAddr} {rest : List TaskAddr}
    (hpool : s.taskPoolList = t :: rest) (hnums : 0 ≤ s.taskAllNums) (hfew : s.taskAllNums < 8) :
    s.cleanDeadTask = if rest = [] then .error .emptyPop
      else .ok ({ s with taskPoolList := rest, taskTag := t }.freeTask t) := by
  have hdiv : s.taskAllNums.tdiv 8 = 0 := by
    rw [Int.tdiv_eq_ediv_of_nonneg hnums]
    omega
  rw [cleanDeadTask, if_neg (by simp [hpool]), hdiv]
  cases rest with
  | nil => simp [hpool, cleanLoop, freeTask]
  | cons u rest => simp [hpool, cleanLoop, freeTask]

/-- `n` calls of `clean_dead_task` come back. -/
def CanClean (s : Sched κ) (n : ℕ) : Prop :=
  s.taskPoolList = [] ∨ 8 ≤ s.taskAllNums ∨ n < s.taskPoolList.length

lemma CanClean.mono {n m : ℕ} (h : CanClean s n) (hle : m ≤ n) : CanClean s m :=
  h.imp_right fun h => h.imp_right fun hlt => by omega

/-- What `n` calls of `clean_dead_task` leave in the pool. -/
def Cleaned (s s' : Sched κ) (n : ℕ) : Prop :=
  s'.taskAllNums = s.taskAllNums ∧
    s'.taskPoolList = if 8 ≤ s.taskAllNums then s.taskPoolList else s.taskPoolList.drop n

/-- One call more. -/
lemma Cleaned.call {s' : Sched κ} {n : ℕ} (h : Cleaned s s' n) (hnums : 0 ≤ s.taskAllNums)
    (hcan : CanClean s n) :
    (∃ m, s'.cleanDeadTask = .ok m ∧ CanClean s (n + 1) ∧ Cleaned s m (n + 1)) ∨
      s'.cleanDeadTask = .error .emptyPop ∧ ¬ CanClean s (n + 1) := by
  obtain ⟨hsame, hpool⟩ := h
  by_cases hmany : 8 ≤ s.taskAllNums
  · rw [if_pos hmany] at hpool
    exact .inl ⟨s', cleanDeadTask_of_many (hsame ▸ hmany), .inr (.inl hmany), hsame,
      by rw [hpool, if_pos hmany]⟩
  · rw [if_neg hmany] at hpool
    cases hdrop : s.taskPoolList.drop n with
    | nil =>
      -- nothing was there
      have hlen := congrArg List.length hdrop
      rw [List.length_drop, List.length_nil] at hlen
      have hnil : s.taskPoolList = [] := by
        rcases hcan with hnil | hge | hlt
        · exact hnil
        · exact absurd hge hmany
        · omega
      left
      refine ⟨s', ?_, .inl hnil, hsame, ?_⟩
      · rw [cleanDeadTask, if_pos (by rw [hpool, hdrop])]
      · rw [hpool, if_neg hmany, hnil, List.drop_nil, List.drop_nil]
    | cons t rest =>
      have hlen := congrArg List.length hdrop
      rw [List.length_drop, List.length_cons] at hlen
      have hclean := cleanDeadTask_of_few (hpool.trans hdrop) (hsame ▸ hnums)
        (by rw [hsame]; omega)
      by_cases hrest : rest = []
      · right
        rw [if_pos hrest] at hclean
        refine ⟨hclean, ?_⟩
        rw [hrest, List.length_nil] at hlen
        rintro (hnil | hge | hlt)
        · rw [hnil, List.length_nil] at hlen
          omega
        · exact hmany hge
        · omega
      · left
        rw [if_neg hrest] at hclean
        have hpos := List.length_pos_iff.mpr hrest
        refine ⟨_, hclean, .inr (.inr (by omega)), hsame, ?_⟩
        rw [if_neg hmany, ← List.tail_drop, hdrop]
        rfl

end Clean

/-- Counts the calls of `clean_dead_task`. -/
def countClean : Callback ℕ := fun _ n c =>
  (c.1, if n.timerFn = .cleanDeadTask then c.2 + 1 else c.2)

/-- How many of the calls of `run_timer` are calls of `clean_dead_task`. -/
def cleanCalls (now : UInt32) (timers : TimerState) : ℕ :=
  ((runTimerLoop countClean now (2 ^ 32) (timers, 0)).map Prod.snd).getD 0

section Fuel

variable {ε : Type} {call : Callback ε} {now : UInt32} {c : TimerState × ε}

/-- The loop of `run_timer` ends with the largest fuel if it ends. -/
lemma runTimerLoop_mono {fuel more : ℕ} {r : TimerState × ε} (hle : fuel ≤ more)
    (h : runTimerLoop call now fuel c = some r) : runTimerLoop call now more c = some r := by
  induction fuel generalizing more c with
  | zero => cases h
  | succ fuel ih =>
    obtain ⟨more, rfl⟩ : ∃ m, more = m + 1 := ⟨more - 1, by omega⟩
    rw [runTimerLoop] at h ⊢
    by_cases hgo : timeAfterEq now c.1.uJiffies
    · rw [if_pos hgo] at h ⊢
      exact ih (by omega) h
    · rw [if_neg hgo] at h ⊢
      exact h

/-- It ends unless the clock shows the largest reading. -/
lemma runTimerLoop_ends (hcall : KeepsJiffies call) (hmax : now ≠ 0xffffffff) :
    ∃ r, runTimerLoop call now (2 ^ 32) c = some r := by
  have hlt := now.toNat_lt
  have hne : now.toNat ≠ 2 ^ 32 - 1 := fun h => hmax (UInt32.toNat_inj.mp h)
  by_cases hle : c.1.uJiffies.toNat ≤ now.toNat + 1
  · obtain ⟨r, hrun, -, -⟩ := loop_ends hcall (now.toNat + 1 - c.1.uJiffies.toNat)
      (Nat.add_sub_cancel' hle) (by omega)
    exact ⟨r, runTimerLoop_mono (by omega) hrun⟩
  · have hstop : ¬ timeAfterEq now c.1.uJiffies := by
      rw [timeAfterEq_iff]
      omega
    have hone : runTimerLoop call now 1 c = some c := by rw [runTimerLoop, if_neg hstop]
    exact ⟨c, runTimerLoop_mono (by omega) hone⟩

end Fuel

section RunTimer

variable {now : UInt32} {timers : TimerState} {s : Sched κ}

/-- The task of a wake-up timer is on no list. -/
lemma TimedLaw.wakeUp_returns {p : Addr} {rest : List Addr} (h : TimedLaw (p :: rest) timers s)
    (hfn : (timers.node p).timerFn = .collaborativeScheduleHelper) :
    ∃ s', Conservation.callLibrary (timers.node p) s = .ok s' ∧ s'.taskAllNums = s.taskAllNums ∧
      s'.taskPoolList = s.taskPoolList := by
  obtain ⟨hheap, -, -⟩ := h.linked.not_mem
  have hpos : 0 < wakes timers (timers.node p).pParam :=
    Finset.card_pos.mpr ⟨p, Finset.mem_filter.mpr ⟨hheap, hfn, rfl⟩⟩
  set t := (timers.node p).pParam with ht
  have hready : t ∉ s.taskReadyList := (h.law.wake_alone hpos).2.1
  have hcall : Conservation.callLibrary (timers.node p) s =
      .ok ({ s with taskReadyList := s.taskReadyList ++ [t] }.setTask t fun p => { p with
        ticks := p.priority
        status := .ready
        isCollaborativeSchedule := false
        sleepMillisecond := 0 }) := by
    simp only [Conservation.callLibrary, hfn, callTimer, collaborativeScheduleHelper, ← ht,
      assert_of_true hready]
    rfl
  exact ⟨_, hcall, rfl, rfl⟩

/-- The calls of `run_timer` beside the count of the calls of `clean_dead_task`. -/
def CleansBeside (s0 : Sched κ) (rest : List Addr) (timers : TimerState)
    (r : Except Stop (Sched κ)) (n : ℕ) : Prop :=
  (∃ m, r = .ok m ∧ TimedLaw rest timers m ∧ CanClean s0 n ∧ Cleaned s0 m n) ∨
    (∃ e, r = .error e) ∧ ¬ CanClean s0 n

lemma CleansBeside.call {s0 : Sched κ} (hnums : 0 ≤ s0.taskAllNums) {p : Addr} {rest : List Addr}
    {r : Except Stop (Sched κ)} {n : ℕ} (h : CleansBeside s0 (p :: rest) timers r n) :
    CleansBeside s0 rest (rearmOrFree timers p) (r.bind (callLibrary (timers.node p)))
      (if (timers.node p).timerFn = .cleanDeadTask then n + 1 else n) := by
  rcases h with ⟨m, rfl, hlaw, hcan, hcleaned⟩ | ⟨⟨e, rfl⟩, hnot⟩
  · have hnext : ∀ m', callLibrary (timers.node p) m = .ok m' →
        TimedLaw rest (rearmOrFree timers p) m' := fun m' hm' => (hlaw.callLibrary hm').1
    cases hfn : (timers.node p).timerFn with
    | collaborativeScheduleHelper =>
      obtain ⟨m', hcall, hsame, hpool⟩ := hlaw.wakeUp_returns hfn
      rw [if_neg (by simp)]
      refine .inl ⟨m', hcall, hnext m' hcall, hcan, hsame.trans hcleaned.1, ?_⟩
      rw [hpool]
      exact hcleaned.2
    | cleanDeadTask =>
      have hclean : callLibrary (timers.node p) m = m.cleanDeadTask := by
        simp only [callLibrary, hfn, callTimer]
      rw [if_pos rfl]
      rcases hcleaned.call hnums hcan with ⟨m', hm', hcan', hcleaned'⟩ | ⟨herror, hnot⟩
      · exact .inl ⟨m', hclean.trans hm', hnext m' (hclean.trans hm'), hcan', hcleaned'⟩
      · exact .inr ⟨⟨_, hclean.trans herror⟩, hnot⟩
    | user f =>
      have hcall : callLibrary (timers.node p) m = .ok m := by simp only [callLibrary, hfn]
      rw [if_neg (by simp)]
      exact .inl ⟨m, hcall, hnext m hcall, hcan, hcleaned⟩
  · refine .inr ⟨⟨e, rfl⟩, fun hcan => hnot (hcan.mono ?_)⟩
    split_ifs <;> omega

lemma twinInv_clean {s0 : Sched κ} (hnums : 0 ≤ s0.taskAllNums) :
    TwinInv (onSched callLibrary) countClean (CleansBeside s0) where
  keeps := keepsTimers_onSched callLibrary
  keeps' _ _ _ := rfl
  call _ _ _ _ _ h := h.call hnums
  cascade timers r n h := by
    rcases h with ⟨m, hm, hlaw, hrest⟩ | herror
    · exact .inl ⟨m, hm, hlaw.cascade, hrest⟩
    · exact .inr herror
  tick timers r n h := by
    rcases h with ⟨m, hm, hlaw, hrest⟩ | herror
    · exact .inl ⟨m, hm, ⟨hlaw.law, hlaw.linked, hlaw.oneShot⟩, hrest⟩
    · exact .inr herror

/-- `run_timer` comes back exactly if the clock does not show the largest reading and every
call of `clean_dead_task` finds what it pops. -/
theorem runTimer_returns_iff (h : TimedLaw [] timers s) (hfree : s.LockFree .timer) :
    (∃ r, runTimer callLibrary now timers s = .ok r) ↔
      now ≠ 0xffffffff ∧ CanClean s (cleanCalls now timers) := by
  have hnums : 0 ≤ s.taskAllNums := by
    have heq : s.taskAllNums = s.taskAllList.length := h.law.nums_eq
    omega
  have hzero : CanClean s 0 := by
    by_cases hnil : s.taskPoolList = []
    · exact .inl hnil
    · exact .inr (.inr (List.length_pos_iff.mpr hnil))
  have hstart : CleansBeside s [] timers (.ok (s.held .timer)) 0 :=
    .inl ⟨_, rfl, h.held hfree, hzero, rfl, by simp [held]⟩
  by_cases hmax : now = 0xffffffff
  · refine iff_of_false ?_ fun hnow => hnow.1 hmax
    rintro ⟨⟨timers1, m⟩, hrun⟩
    obtain ⟨m', hloop, -⟩ := runTimer_ok hfree hrun
    rw [loop_diverges (by rw [hmax]; rfl)] at hloop
    cases hloop
  · have hkeeps : KeepsJiffies countClean := fun _ _ _ => rfl
    obtain ⟨⟨timers1, n⟩, hcount⟩ := runTimerLoop_ends (c := (timers, 0)) hkeeps hmax
    have hn : cleanCalls now timers = n := by
      rw [cleanCalls, hcount]
      rfl
    have htwin := (twinInv_clean hnums).loop now (2 ^ 32) timers hstart
    rw [hcount] at htwin
    rw [hn, and_iff_right hmax]
    generalize hloop : runTimerLoop (onSched callLibrary) now (2 ^ 32)
      (timers, .ok (s.held .timer)) = a at htwin
    cases htwin with
    | @some a _ hab =>
      obtain ⟨timers2, r⟩ := a
      obtain ⟨rfl, ⟨m, hm, -, hcan, -⟩ | ⟨⟨e, he⟩, hnot⟩⟩ := hab
      · refine iff_of_true ?_ hcan
        obtain rfl := hm
        -- the lock is still held
        have hheld := (h.held hfree).pending
        obtain ⟨-, hticked, -, -⟩ := (ticked_loopInv (tolerant_law _) timers (s.held .timer)).loop
          ⟨hheld, .refl _ _, Finset.Subset.refl _, fun _ => id⟩ hloop
        have hlock : m.lock .timer = ⟨some m.currentTask, 1⟩ := by
          rw [hticked.locks.lock, hticked.locks.current]
          simp [held]
        have hsema : m.sema (.ofLock .timer) = ⟨0, []⟩ := by
          rw [hticked.locks.sema .timer (by decide)]
          simp [held]
        refine ⟨(timers2, m.freed .timer), ?_⟩
        simp only [runTimer, lockAcquire_of_free hfree, bind, Except.bind, hloop,
          lockRelease_of_held hlock hsema, pure, Except.pure]
      · refine iff_of_false ?_ hnot
        obtain rfl := he
        rintro ⟨⟨timers3, m⟩, hrun⟩
        obtain ⟨m', hloop', -⟩ := runTimer_ok hfree hrun
        rw [hloop] at hloop'
        cases hloop'

end RunTimer

lemma taskUnblock_of_blocked {s : Sched κ} {cur : Option TaskAddr}
    {wake : TaskAddr → ℕ} (h : Roster.Law cur wake s.roster) {t : TaskAddr}
    (ht : s.roster.Blocked t) : ∃ s', s.taskUnblock t = .ok s' := by
  have hst : (s.task t).status.Suspended := ht.2
  have hready : t ∉ s.taskReadyList := (h.blocked_alone ht).2.1
  have hne : (s.task t).status ≠ .ready := by
    intro he
    rw [he] at hst
    exact absurd hst (by decide)
  refine ⟨({ s with taskReadyList := t :: s.taskReadyList }).setStatus t .ready, ?_⟩
  simp only [taskUnblock, assert_of_true hst, assert_of_true hready, if_pos hne, bind, Except.bind,
    pure, Except.pure]

section Calls

variable {s : Sched κ} {wake : TaskAddr → ℕ}

/-- What a call needs to come back. -/
def CanReturn (s : Sched κ) : TaskCall → Prop
  | .taskStart _ _ name _ => s.taskPoolList = [] ∧ name.length < 32 ∧
      ∃ i < s.tidBitmap.size, s.tidBitmap.bit i = false
  | .taskExit => (s.bitIdxOf s.current.tid).toNat < s.tidBitmap.size
  | .taskBlock status => status.Suspended
  | .taskUnblock ptask => (s.task ptask).status.Suspended
  | .semaDown psema => (s.sema psema).value ≤ 1
  | .semaUp psema => (s.sema psema).value = 0
  | .sleep _ | .coEnableHookSys => True

lemma clear_of_taskStart [Inhabited κ] (h : Roster.Law (some s.currentTask) wake s.roster)
    (hfree : s.LockFree .tid) {mem stack : ℕ} {name : List UInt8} {prio : Int32} {entry : κ}
    {r : Sched κ × TaskAddr} (hall : mem ∉ s.taskAllList) (hmain : mem ≠ s.mainTask)
    (hstart : s.taskStart mem stack name prio entry = .ok r) :
    s.taskPoolList = [] ∧ name.length < 32 ∧ ∃ i < s.tidBitmap.size, s.tidBitmap.bit i = false := by
  have hpool := pool_nil h hstart
  have hready : mem ∉ s.taskReadyList := fun hm => hall (h.ready_mem hm)
  have hname : name.length < 32 := by
    by_contra hlong
    rw [taskStart_of_name (not_lt.mp hlong) hpool] at hstart
    cases hstart
  refine ⟨hpool, hname, ?_⟩
  by_contra hfull
  -- the search reads past the end of the map
  have hset : ∀ i < s.tidBitmap.size, s.tidBitmap.bit i = true := by
    intro i hi
    by_contra hclear
    exact hfull ⟨i, hi, by simpa using hclear⟩
  have hfree' : (s.initBlock mem name).LockFree .tid := hfree
  have hscan : (s.initBlock mem name).tidBitmap.bitmapScan 1 = .error .outOfBounds :=
    Bitmap.bitmapScan_full hset
  have halloc : (s.initBlock mem name).allocateTid = .error .outOfBounds := by
    rw [allocateTid, lockAcquire_of_free hfree']
    change ((s.initBlock mem name).tidBitmap.bitmapScan 1 >>= _) = _
    rw [hscan]
    rfl
  rw [(taskStart_eq stack name prio entry hpool hname hmain hready hall).2 _ halloc] at hstart
  cases hstart

lemma semaDown_returns_iff (h : Roster.Law (some s.currentTask) wake s.roster)
    (hready : s.taskReadyList ≠ []) (psema : SemaId) (here : κ) :
    (∃ r, s.semaDown psema here = .ok r) ↔ (s.sema psema).value ≤ 1 := by
  by_cases hzero : (s.sema psema).value = 0
  · refine iff_of_true ?_ (by rw [hzero]; decide)
    obtain ⟨next, rest, hnext⟩ := List.exists_cons_of_ne_nil hready
    have hwait : s.currentTask ∉ (s.sema psema).waiters := h.not_waiter h.cur_alone.2.1 psema
    obtain ⟨r, hblock⟩ : ∃ r, (s.setSema psema fun p => { p with
        waiters := p.waiters ++ [s.currentTask] }).taskBlock .blocked here = .ok r :=
      ⟨_, taskBlock_of_ready (s := s.setSema psema fun p => { p with
        waiters := p.waiters ++ [s.currentTask] }) (.inl rfl) hnext here⟩
    refine ⟨(r.1, some r.2), ?_⟩
    rw [semaDown, if_pos hzero, assert_of_true hwait]
    change (Sched.taskBlock _ _ _ >>= _) = _
    rw [hblock]
    rfl
  · have hle : (s.sema psema).value ≤ 1 ↔ (s.sema psema).value = 1 := by
      have hne : (s.sema psema).value.toNat ≠ 0 := fun hz => hzero (UInt8.toNat_inj.mp hz)
      rw [UInt8.le_iff_toNat_le, ← UInt8.toNat_inj, show (1 : UInt8).toNat = 1 from rfl]
      omega
    rw [hle]
    constructor
    · rintro ⟨r, hr⟩
      rw [semaDown, if_neg hzero] at hr
      obtain ⟨m, htake, -⟩ := bind_eq_ok.mp hr
      rw [semaTake, bind_eq_ok] at htake
      obtain ⟨u, hassert, -⟩ := htake
      rw [assert_eq_ok, setSema_sema_self] at hassert
      exact sub_eq_zero.mp hassert
    · exact fun hone => ⟨_, semaDown_of_one hone here⟩

lemma semaUp_returns_iff (h : Roster.Law (some s.currentTask) wake s.roster) (psema : SemaId) :
    (∃ s', s.semaUp psema = .ok s') ↔ (s.sema psema).value = 0 := by
  constructor
  · rintro ⟨s', hup⟩
    rw [semaUp, bind_eq_ok] at hup
    obtain ⟨u, hassert, -⟩ := hup
    exact assert_eq_ok.mp hassert
  · intro hzero
    cases hw : (s.sema psema).waiters with
    | nil =>
      refine ⟨s.setSema psema fun p => { p with value := p.value + 1 }, ?_⟩
      simp [semaUp, hzero, hw, bind, Except.bind, pure, Except.pure]
    | cons t rest =>
      -- the first waiter is blocked and is put on the ready list
      have hpop := h.popWaiter hw
      have hroster : (s.setSema psema fun p => { p with waiters := rest }).roster =
          { s.roster with waiters := Function.update s.roster.waiters psema rest } :=
        roster_setSema s psema _
      rw [← hroster] at hpop
      obtain ⟨m, hm⟩ := taskUnblock_of_blocked hpop.1 hpop.2.1
      have hvalue : (m.sema psema).value = 0 := by
        obtain ⟨-, rfl⟩ := taskUnblock_ok hm
        show ((s.setSema psema fun p => { p with waiters := rest }).sema psema).value = 0
        rw [setSema_sema_self]
        exact hzero
      refine ⟨m.setSema psema fun p => { p with value := p.value + 1 }, ?_⟩
      simp [semaUp, hzero, hw, hm, hvalue, bind, Except.bind, pure, Except.pure]

/-- What is done with a result does not stop. -/
lemma returns_bind_iff {α β : Type} {x : Except Stop α} (f : α → β) :
    (∃ r, (x >>= fun a => Except.ok (f a)) = .ok r) ↔ ∃ a, x = .ok a := by
  constructor
  · rintro ⟨r, hr⟩
    obtain ⟨a, ha, -⟩ := bind_eq_ok.mp hr
    exact ⟨a, ha⟩
  · rintro ⟨a, ha⟩
    exact ⟨f a, bind_eq_ok.mpr ⟨a, ha, rfl⟩⟩

/-- As long as a task is ready, the state before a call tells whether it comes back. -/
theorem perform_returns_iff [Inhabited κ] (h : Roster.Law (some s.currentTask) wake s.roster)
    (hfree : s.LockFree .tid) (hsize : s.tidBitmap.size < 2 ^ 32) (hready : s.taskReadyList ≠ [])
    (here entry : κ) {call : TaskCall} (hpromise : Promised s call) :
    (∃ r, perform s here entry call = .ok r) ↔ CanReturn s call := by
  obtain ⟨next, rest, hnext⟩ := List.exists_cons_of_ne_nil hready
  cases call with
  | taskStart mem stack name prio =>
    obtain ⟨hall, hmain⟩ := hpromise
    refine (returns_bind_iff fun a : Sched κ × TaskAddr => (a.1, none)).trans ?_
    constructor
    · rintro ⟨r, hr⟩
      exact clear_of_taskStart h hfree hall hmain hr
    · rintro ⟨hpool, hname, hclear⟩
      obtain ⟨i, -, -, -, -, b', -, hstart⟩ := taskStart_spec stack name prio entry hpool hname
        hmain (fun hm => hall (h.ready_mem hm)) hall hfree hsize hclear
      exact ⟨_, hstart⟩
  | taskExit =>
    refine (returns_bind_iff fun a : Sched κ × κ => (a.1, some a.2)).trans ?_
    constructor
    · rintro ⟨r, hr⟩
      exact lt_size_of_taskExit hfree hr
    · intro hin
      obtain ⟨b', -, hexit⟩ := taskExit_spec _ hfree hin
      have hready' : (s.exitState s.currentTask).taskReadyList = next :: rest := by
        rw [← hnext]
        exact List.erase_of_not_mem h.cur_alone.1
      rw [diedTaskSchedule_eq] at hexit
      simp only [hready'] at hexit
      exact ⟨_, hexit⟩
  | taskBlock status =>
    refine (returns_bind_iff fun a : Sched κ × κ => (a.1, some a.2)).trans ?_
    constructor
    · rintro ⟨r, hr⟩
      exact (taskBlock_dispatched hr).1
    · exact fun hst => ⟨_, taskBlock_of_ready hst hnext here⟩
  | taskUnblock ptask =>
    refine (returns_bind_iff fun a : Sched κ => (a, (none : Option κ))).trans ?_
    constructor
    · rintro ⟨r, hr⟩
      exact (taskUnblock_ok hr).1
    · exact fun hst => taskUnblock_of_blocked h ⟨hpromise.1, hst⟩
  | semaDown psema => exact semaDown_returns_iff h hready psema here
  | semaUp psema =>
    exact (returns_bind_iff fun a : Sched κ => (a, (none : Option κ))).trans
      (semaUp_returns_iff h psema)
  | sleep => exact iff_of_true ⟨_, rfl⟩ trivial
  | coEnableHookSys => exact iff_of_true ⟨_, rfl⟩ trivial

end Calls

/-- The handler, when a task is ready: what comes after `run_timer` comes back. -/
theorem handler_returns_iff {now : UInt32} {timers : TimerState} {s : Sched κ} (p : Addr)
    (frame : κ) (h : TimedLaw [] timers s) (hfree : ∀ l ∈ libraryLocks, s.LockFree l)
    (hmagic : s.current.stackMagic = TaskStruct.magic) (hready : s.taskReadyList ≠ []) :
    (∃ r, interruptTimerHandler callLibrary now (some p) timers s frame = .ok r) ↔
      now ≠ 0xffffffff ∧ CanClean s (cleanCalls now timers) := by
  have hbegun : s.tickBegun.LockFree .timer := hfree .timer (by decide)
  have hrun : _ ↔ now ≠ 0xffffffff ∧ CanClean _ (cleanCalls now timers) :=
    runTimer_returns_iff h.tickBegun hbegun
  refine Iff.trans ?_ hrun
  constructor
  · rintro ⟨⟨timers', s', k⟩, hhandler⟩
    obtain ⟨timers1, m, hrt, -⟩ := interruptTimerHandler_ok hhandler
    exact ⟨_, hrt⟩
  · rintro ⟨⟨timers1, m⟩, hrt⟩
    -- the ready list has grown, and the lock is free again
    have hgrows : Tolerant fun wake r =>
        Roster.Law (some s.currentTask) wake r ∧ r.ready ≠ [] := by
      constructor
      · exact fun h => (tolerant_law _).once h.1
      · intro wake r t h ht
        exact ⟨h.1.wakeUp ht, List.append_ne_nil_of_right_ne_nil _ (List.cons_ne_nil _ _)⟩
      · exact fun h hsub => ⟨law_pool h.1 hsub, h.2⟩
    have hpending : Pending (fun wake r => Roster.Law (some s.currentTask) wake r ∧ r.ready ≠ [])
        [] timers s.tickBegun := ⟨⟨h.tickBegun.law, hready⟩, h.linked, h.oneShot⟩
    obtain ⟨hpending', hticked, -⟩ := hpending.runLibrary hgrows hbegun hrt
    have hlaw : Roster.Law (some m.currentTask) (wakes timers1) m.roster := by
      rw [hticked.locks.current]
      exact hpending'.holds.1
    have hcur : m.currentTask ∉ m.taskReadyList := hlaw.cur_alone.1
    have hmfree : m.LockFree .timer := hticked.locks.free (by decide) hbegun
    obtain ⟨next, rest, hnext⟩ := List.exists_cons_of_ne_nil hpending'.holds.2
    rw [Sched.tickBegun] at hrt
    simp only [interruptTimerHandler, assert_of_true hmagic, bind, Except.bind, hrt]
    split_ifs with hslice hflag
    · obtain ⟨first, others, hfirst⟩ := List.exists_cons_of_ne_nil
        (show m.requeued.taskReadyList ≠ [] from
          List.append_ne_nil_of_right_ne_nil _ (List.cons_ne_nil _ _))
      rw [schedule_of_ready hcur hfirst]
      exact ⟨_, rfl⟩
    · exact ⟨_, rfl⟩
    · rw [createTimerLocked_of_free hmfree]
      dsimp only
      rw [collaborativeSchedule_of_ready hnext]
      exact ⟨_, rfl⟩

namespace TaskRun

/-- What may be asked for in a state. -/
def Asked (s : TaskRun) : TaskOp → Prop
  | .call call => s.MayCall call ∧ Promised s.sched call
  | .tick now p => ∀ timers1 m, runTimer callLibrary now s.timers s.sched.tickBegun =
      .ok (timers1, m) → p ∉ timers1.heap
  | .createTimer p _ _ _ _ => s.InTask ∧ p ∉ s.timers.heap
  | .deleteTimer p => s.InTask ∧ p ∈ s.timers.heap ∧ ∃ f, (s.timers.node p).timerFn = .user f

/-- What an operation needs to come back. -/
def ComesBack (s : TaskRun) : TaskOp → Prop
  | .call call => CanReturn s.sched call
  | .tick now _ => now ≠ 0xffffffff ∧ CanClean s.sched (cleanCalls now s.timers)
  | .createTimer _ _ _ _ _ | .deleteTimer _ => True

end TaskRun

/-- The bitmap keeps its size, and no stack has overflowed. -/
structure Sound (s : Sched κ) : Prop where
  size : s.tidBitmap.size = 1000800
  magic : ∀ t ∈ s.taskAllList, (s.task t).stackMagic = TaskStruct.magic

/-- The sizes and marks are as before, and nobody was born. -/
structure Marks (s s' : Sched κ) : Prop where
  size : s'.tidBitmap.size = s.tidBitmap.size
  magic : ∀ t, (s'.task t).stackMagic = (s.task t).stackMagic
  all : s'.taskAllList ⊆ s.taskAllList

section Marks

variable {s s' : Sched κ}

lemma Marks.refl (s : Sched κ) : Marks s s := ⟨rfl, fun _ => rfl, List.Subset.refl _⟩

lemma Marks.trans {t : Sched κ} (h : Marks s t) (h' : Marks t s') : Marks s s' where
  size := h'.size.trans h.size
  magic u := (h'.magic u).trans (h.magic u)
  all := fun _ hu => h.all (h'.all hu)

lemma Sound.marks (hs : Sound s) (h : Marks s s') : Sound s' where
  size := h.size.trans hs.size
  magic t ht := (h.magic t).trans (hs.magic t (h.all ht))

/-- What else is written does not matter. -/
lemma Marks.of_eq {t : Sched κ} (h : Marks t s') (hsize : t.tidBitmap = s.tidBitmap)
    (htask : t.task = s.task) (hall : t.taskAllList = s.taskAllList) : Marks s s' where
  size := by rw [h.size, hsize]
  magic u := by rw [h.magic, htask]
  all := by
    rw [← hall]
    exact h.all

lemma marks_setTask (s : Sched κ) (t : TaskAddr) (f : TaskStruct κ → TaskStruct κ)
    (hf : (f (s.task t)).stackMagic = (s.task t).stackMagic) : Marks s (s.setTask t f) := by
  refine ⟨rfl, fun u => ?_, List.Subset.refl _⟩
  rw [setTask_task]
  split_ifs with hu
  · rw [hf, hu]
  · rfl

lemma marks_setStatus (s : Sched κ) (t : TaskAddr) (status : TaskStatus) :
    Marks s (s.setStatus t status) := marks_setTask s t (fun p => { p with status := status }) rfl

/-- A dispatch. -/
lemma marks_switched (s : Sched κ) (next : TaskAddr) (rest : List TaskAddr) (frame : κ) :
    Marks s (({ s with taskReadyList := rest, taskTag := next }.setStatus next
      .running).switchTo next frame).1 := by
  have hstatus := marks_setStatus { s with taskReadyList := rest, taskTag := next } next .running
  have hswitch := marks_setTask ({ s with taskReadyList := rest, taskTag := next }.setStatus next
    .running) s.currentTask (fun p => { p with context := frame }) rfl
  have hboth := hstatus.trans hswitch
  exact ⟨hboth.size, hboth.magic, hboth.all⟩

lemma marks_taskBlock {status : TaskStatus} {here k : κ}
    (h : s.taskBlock status here = .ok (s', k)) : Marks s s' := by
  rw [taskBlock, bind_eq_ok] at h
  obtain ⟨-, -, h⟩ := h
  obtain ⟨next, rest, -, rfl⟩ := blockTaskSchedule_ok h
  exact (marks_setStatus s s.currentTask status).trans (marks_switched _ next rest here)

lemma marks_taskUnblock {t : TaskAddr} (h : s.taskUnblock t = .ok s') : Marks s s' := by
  obtain ⟨-, rfl⟩ := taskUnblock_ok h
  exact (marks_setStatus { s with taskReadyList := t :: s.taskReadyList } t .ready).of_eq rfl rfl
    rfl

lemma marks_semaDown {psema : SemaId} {here : κ} {k : Option κ}
    (h : s.semaDown psema here = .ok (s', k)) : Marks s s' := by
  rw [semaDown] at h
  split_ifs at h with hzero
  · obtain ⟨-, -, h⟩ := bind_eq_ok.mp h
    obtain ⟨⟨m, next⟩, hblock, hret⟩ := bind_eq_ok.mp h
    obtain ⟨rfl, -⟩ := Prod.mk.inj (Except.ok.inj hret)
    exact (marks_taskBlock hblock).of_eq rfl rfl rfl
  · obtain ⟨m, htake, hret⟩ := bind_eq_ok.mp h
    obtain ⟨rfl, -⟩ := Prod.mk.inj (Except.ok.inj hret)
    rw [semaTake, bind_eq_ok] at htake
    obtain ⟨-, -, hm⟩ := htake
    obtain rfl := Except.ok.inj hm
    exact ⟨rfl, fun _ => rfl, List.Subset.refl _⟩

lemma marks_semaUp {psema : SemaId} (h : s.semaUp psema = .ok s') : Marks s s' := by
  obtain ⟨m, rfl, ⟨-, rfl⟩ | ⟨t, rest, -, hunblock⟩⟩ := semaUp_ok h
  · exact ⟨rfl, fun _ => rfl, List.Subset.refl _⟩
  · have hm := marks_taskUnblock hunblock
    exact ⟨hm.size, hm.magic, hm.all⟩

/-- The new task has its stack marked. -/
theorem Sound.performed [Inhabited κ] {wake : TaskAddr → ℕ} {here entry : κ} {call : TaskCall}
    {k : Option κ} (hs : Sound s) (h : Roster.Law (some s.currentTask) wake s.roster)
    (hfree : s.LockFree .tid) (hpromise : Promised s call)
    (hp : Performed s here entry call s' k) : Sound s' := by
  cases hp with
  | @taskStart mem stack name prio _ task hstart =>
    obtain ⟨hall, hmain⟩ := hpromise
    obtain ⟨hpool, hname, hclear⟩ := clear_of_taskStart h hfree hall hmain hstart
    obtain ⟨i, -, -, -, -, b', hset, heq⟩ := taskStart_spec stack name prio entry hpool hname hmain
      (fun hm => hall (h.ready_mem hm)) hall hfree (by rw [hs.size]; decide) hclear
    rw [heq] at hstart
    obtain ⟨rfl, rfl⟩ := Prod.mk.inj (Except.ok.inj hstart)
    refine ⟨hset.size.trans hs.size, fun t ht => ?_⟩
    show (Function.update s.task mem (bornTask stack name prio entry _) t).stackMagic = _
    by_cases htm : t = mem
    · subst htm
      rw [Function.update_self]
      rfl
    · rw [Function.update_of_ne htm]
      refine hs.magic t ?_
      rcases List.mem_append.mp (show t ∈ s.taskAllList ++ [mem] from ht) with ht | ht
      · exact ht
      · exact absurd (List.mem_singleton.mp ht) htm
  | taskExit hexit =>
    obtain ⟨b', hset, heq⟩ := taskExit_spec s.currentTask hfree (lt_size_of_taskExit hfree hexit)
    rw [heq, diedTaskSchedule_eq] at hexit
    cases hready : (s.exitState s.currentTask).taskReadyList with
    | nil =>
      simp only [hready] at hexit
      cases hexit
    | cons next rest =>
      simp only [hready] at hexit
      obtain ⟨rfl, -⟩ := Prod.mk.inj (Except.ok.inj hexit)
      refine ⟨hset.size.trans hs.size, fun t ht => ?_⟩
      have hmem : t ∈ s.taskAllList := List.mem_of_mem_erase ht
      have hdied := (marks_setStatus s s.currentTask .died).magic t
      have hrun := (marks_setStatus (s.exitState s.currentTask) next .running).magic t
      exact hrun.trans (hdied.trans (hs.magic t hmem))
  | taskBlock hblock => exact hs.marks (marks_taskBlock hblock)
  | taskUnblock hunblock => exact hs.marks (marks_taskUnblock hunblock)
  | semaDown hdown => exact hs.marks (marks_semaDown hdown)
  | semaUp hup => exact hs.marks (marks_semaUp hup)
  | sleep => exact hs.marks (marks_setTask s _ _ rfl)
  | coEnableHookSys => exact hs.marks (marks_setTask s _ _ rfl)

lemma marks_callLibrary {n : TimerNode} (h : callLibrary n s = .ok s') : Marks s s' := by
  by_cases hfn : n.timerFn = .collaborativeScheduleHelper
  · simp only [callLibrary, hfn, callTimer, collaborativeScheduleHelper] at h
    obtain ⟨-, -, hs'⟩ := bind_eq_ok.mp h
    obtain rfl := Except.ok.inj hs'
    exact (marks_setTask { s with taskReadyList := s.taskReadyList ++ [n.pParam] } n.pParam _
      rfl).of_eq rfl rfl rfl
  · obtain ⟨pool, alloc, tag, rfl, -⟩ := callLibrary_ok h hfn
    exact ⟨rfl, fun _ => rfl, List.Subset.refl _⟩

lemma marks_runTimer {now : UInt32} {timers timers' : TimerState} (hfree : s.LockFree .timer)
    (h : runTimer callLibrary now timers s = .ok (timers', s')) : Marks s s' := by
  have hinv : LoopInv callLibrary fun _ _ m =>
      Marks (s.held .timer) m ∧ LocksKept (s.held .timer) m := by
    constructor
    case call =>
      intro p rest timers1 s1 s2 hs1 hcall
      refine ⟨hs1.1.trans (marks_callLibrary hcall), ?_⟩
      by_cases hfn : (timers1.node p).timerFn = .collaborativeScheduleHelper
      · simp only [callLibrary, hfn, callTimer] at hcall
        have hlocks := (collaborativeScheduleHelper_ok hcall).1.locks
        exact ⟨hlocks.lock.trans hs1.2.lock, fun l hl => (hlocks.sema l hl).trans (hs1.2.sema l hl),
          hlocks.current.trans hs1.2.current⟩
      · obtain ⟨pool, alloc, tag, rfl, -⟩ := callLibrary_ok hcall hfn
        exact ⟨hs1.2.lock, hs1.2.sema, hs1.2.current⟩
    case cascade => exact fun _ _ hs1 => hs1
    case tick => exact fun _ _ hs1 => hs1
  obtain ⟨m, hloop, hrel⟩ := runTimer_released hfree h
  obtain ⟨hmarks, hlocks⟩ := hinv.loop (show Marks (s.held .timer) (s.held .timer) ∧ _ from
    ⟨.refl _, ⟨rfl, fun _ _ => rfl, rfl⟩⟩) hloop
  obtain ⟨rfl, -, -⟩ := hrel hlocks
  exact ⟨hmarks.size, hmarks.magic, hmarks.all⟩

lemma marks_handled {p : Addr} {timers timers' : TimerState} {frame k : κ}
    (hfree : s.LockFree .timer) (h : Handled (some p) timers s frame timers' s' k) :
    Marks s s' := by
  cases h with
  | schedule _ _ hsched =>
    obtain ⟨next, rest, -, rfl⟩ := schedule_ok hsched
    have hqueue : Marks s s.requeued :=
      (marks_setTask { s with taskReadyList := s.taskReadyList ++ [s.currentTask] } _ _
        rfl).of_eq rfl rfl rfl
    exact hqueue.trans (marks_switched _ next rest frame)
  | count => exact marks_setTask s _ _ rfl
  | sleep _ hcreate hsched =>
    rw [createTimerLocked_of_free hfree] at hcreate
    obtain ⟨-, rfl⟩ := Prod.mk.inj (Except.ok.inj hcreate)
    obtain ⟨next, rest, -, rfl⟩ := collaborativeSchedule_ok hsched
    exact marks_switched s next rest frame

end Marks

theorem Sound.step {s s' : TaskRun} {op : TaskOp} (hs : Sound s.sched) (h : TaskInv s)
    (hst : TaskStep callLibrary s op s') : Sound s'.sched := by
  cases hst with
  | call _ hpromise hcall =>
    exact hs.performed h.timed.law (h.free .tid (by decide)) hpromise (Conservation.performed hcall)
  | tick hmalloc hrun =>
    obtain ⟨timers1, m, hrt, hdone, -, -⟩ := h.tick hmalloc hrun
    obtain ⟨-, hfree, -, -⟩ := h.called hrt
    have hbegun : Marks s.sched s.sched.tickBegun := marks_setTask s.sched _ _ rfl
    have hfreeT : s.sched.tickBegun.LockFree .timer := h.free .timer (by decide)
    have hcalled := marks_runTimer hfreeT hrt
    exact hs.marks ((hbegun.trans hcalled).trans (marks_handled (hfree .timer (by decide)) hdone))
  | createTimer => exact hs
  | deleteTimer => exact hs

theorem sound_of_reachable {s : TaskRun} (hs : taskSystem.Reachable s) : Sound s.sched := by
  induction hs with
  | @init s h =>
    obtain ⟨value, mem, stack, b, hinit, -, -⟩ := h
    obtain ⟨b', hsize, -, heq⟩ := taskInit_spec (κ := Resume) value mem stack
    rw [Except.ok.inj (hinit.symm.trans heq)]
    refine ⟨hsize, fun t ht => ?_⟩
    obtain rfl := List.mem_singleton.mp ht
    simp [mainTaskStruct, bornTask]
  | step hs _ hst ih => exact ih.step (taskInv_of_reachable hs) hst

/-- As long as a task is ready, an operation comes back exactly if it has what it needs. -/
theorem step_iff {s : TaskRun} (h : TaskInv s) (hs : Sound s.sched)
    (hready : s.sched.taskReadyList ≠ []) {op : TaskOp} (hasked : s.Asked op) :
    (∃ s', TaskStep callLibrary s op s') ↔ s.ComesBack op := by
  cases op with
  | call call =>
    obtain ⟨hmay, hpromise⟩ := hasked
    refine Iff.trans ?_ (perform_returns_iff h.timed.law (h.free .tid (by decide))
      (by rw [hs.size]; decide) hready call.back .user hpromise)
    constructor
    · rintro ⟨s', hst⟩
      cases hst with
      | call _ _ hcall => exact ⟨_, hcall⟩
    · rintro ⟨⟨sched, k⟩, hcall⟩
      exact ⟨_, .call hmay hpromise hcall⟩
  | tick now p =>
    refine Iff.trans ?_ (handler_returns_iff p s.pc h.timed h.free
      (hs.magic _ h.timed.law.cur_mem) hready)
    constructor
    · rintro ⟨s', hst⟩
      cases hst with
      | tick _ hrun => exact ⟨_, hrun⟩
    · rintro ⟨⟨timers, sched, k⟩, hrun⟩
      exact ⟨_, .tick hasked hrun⟩
  | createTimer p f pParam due period =>
    exact iff_of_true ⟨_, .createTimer hasked.1 hasked.2⟩ trivial
  | deleteTimer p =>
    obtain ⟨hin, hp, f, hf⟩ := hasked
    exact iff_of_true ⟨_, .deleteTimer hin hp hf⟩ trivial

end Libtask.Conservation
