import Libtask.Machine.Footprint
import Libtask.Timer.Delivery

/-!
# The loops that wait for a ready task

Three dispatchers stay in a loop when the ready list is empty, and none of them looks at
it again. A task that sleeps is on no list, so control may be in one of the loops although
a timer would make a task ready.
-/
namespace Libtask.Machine
open Timer Transition

/-- A task is asleep. -/
def WakeUpPending (timers : TimerState) : Prop :=
  ∃ p ∈ timers.heap, (timers.node p).timerFn = .collaborativeScheduleHelper

instance (timers : TimerState) : Decidable (WakeUpPending timers) := by
  unfold WakeUpPending
  infer_instance

/-- The flow is in the loop of a dispatcher. -/
def Loops (stack : List (List Stmt)) : Prop :=
  ∃ code tail, stack = (.spin .emptyReadyList :: code) :: tail

/-- `Loops`, computed. -/
def loops : List (List Stmt) → Bool
  | (.spin .emptyReadyList :: _) :: _ => true
  | _ => false

lemma loops_eq_true {stack : List (List Stmt)} (h : loops stack = true) : Loops stack := by
  unfold loops at h
  split at h
  next code tail => exact ⟨code, tail, rfl⟩
  next => cases h

/-- Control is in no loop while a timer would make a task ready. -/
def NoFalseDeadlock (s : State) : Prop := Loops s.stack → ¬ WakeUpPending s.memory.timers

/-- No task is in one of the loops, on the CPU or switched out. -/
def NobodyLoops : State → Prop := Frames fun code => .spin .emptyReadyList ∉ code

/-- When a dispatcher looks at the ready list, a task is ready or nobody is asleep; and the
timer of a sleep is made only while no task is in one of the loops. -/
def Continues (s : State) : Op → Prop
  | .run _ => ∀ stmt code tail, s.stack = (stmt :: code) :: tail →
    match stmt with
    | .readyTest _ => s.memory.sched.taskReadyList ≠ [] ∨ ¬ WakeUpPending s.memory.timers
    | .timerAdd _ .collaborativeScheduleHelper _ _ _ => NobodyLoops s
    | _ => True
  | _ => True

section Timers

variable {timers timers' : TimerState}

lemma rearmOrFree_timerFn (p q : Addr) :
    ((rearmOrFree timers p).node q).timerFn = (timers.node q).timerFn := by
  unfold rearmOrFree
  dsimp only
  split_ifs
  · show (Function.update timers.node p _ q).timerFn = _
    by_cases hq : q = p
    · rw [hq, Function.update_self]
    · rw [Function.update_of_ne hq]
  · rfl

lemma wakeUpPending_rearmOrFree {p : Addr} (h : WakeUpPending (rearmOrFree timers p)) :
    WakeUpPending timers := by
  obtain ⟨q, hq, hfn⟩ := h
  exact ⟨q, rearmOrFree_heap _ _ hq, (rearmOrFree_timerFn p q).symm.trans hfn⟩

/-- `run_timer` makes no timer. -/
lemma wakeUpPending_loop {uJiffies : UInt32} {fuel : ℕ} {s s' : Sched Ctx}
    (hrun : Sched.runTimerLoop (Sched.onSched callTimer) uJiffies fuel (timers, .ok s) =
      some (timers', .ok s')) (h : WakeUpPending timers') : WakeUpPending timers := by
  have hinv : Sched.LoopInv callTimer fun _ t _ => WakeUpPending t → WakeUpPending timers := by
    constructor
    case call => exact fun p rest t s s' ht _ h => ht (wakeUpPending_rearmOrFree h)
    case cascade =>
      intro t s ht idx h
      obtain ⟨hheap, hnode⟩ := cascadeTick_heap t
      obtain ⟨q, hq, hfn⟩ := h
      exact ht ⟨q, hheap ▸ hq, hnode ▸ hfn⟩
    case tick => exact fun _ _ ht h => ht h
  exact hinv.loop (P := fun _ t _ => WakeUpPending t → WakeUpPending timers) id hrun h

/-- A timer that is no wake-up. -/
lemma wakeUpPending_createTimer {p : Addr} {fn : TimerFn} (hfn : fn ≠ .collaborativeScheduleHelper)
    {pParam : ℕ} {due period : UInt32}
    (h : WakeUpPending (createTimer timers (some p) (some fn) pParam due period).1) :
    WakeUpPending timers := by
  obtain ⟨q, hq, hwake⟩ := h
  change q ∈ insert p timers.heap at hq
  change (Function.update timers.node p _ q).timerFn = _ at hwake
  by_cases hqp : q = p
  · rw [hqp, Function.update_self] at hwake
    exact absurd hwake hfn
  · rw [Function.update_of_ne hqp] at hwake
    exact ⟨q, (Finset.mem_insert.mp hq).resolve_left hqp, hwake⟩

end Timers

/-- Only `timerAdd` makes a wake-up. -/
lemma wakeUpPending_effect {malloc : Option ℕ} {stmt : Stmt} {m m' : Memory}
    (heff : stmt.effect malloc m = .ok m')
    (hno : ∀ p pParam due period, stmt ≠ .timerAdd p .collaborativeScheduleHelper pParam due period)
    (h : WakeUpPending m'.timers) : WakeUpPending m.timers := by
  rcases effect_cases heff with ⟨_, _, _, -, hrun, rfl⟩ | ⟨_, _, _, _, -, -, htimers⟩ |
    ⟨p, fn, pParam, due, period, rfl, rfl⟩ | ⟨sched, hact, rfl⟩
  · exact wakeUpPending_loop hrun h
  · rwa [htimers] at h
  · refine wakeUpPending_createTimer ?_ h
    rintro rfl
    exact hno p pParam due period rfl
  · exact h

/-- The loop is entered by a dispatcher that finds the ready list empty. -/
lemma loop_next {malloc : Option ℕ} {masked : Bool} {s : Sched Ctx} {stmt : Stmt}
    (h : .spin .emptyReadyList ∈ stmt.next malloc masked s) :
    (∃ path, stmt = .readyTest path ∧ s.taskReadyList = []) ∨ stmt = .spin .emptyReadyList := by
  cases stmt
  case readyTest path =>
    left
    refine ⟨path, rfl, ?_⟩
    by_contra hready
    simp only [Stmt.next, if_neg hready] at h
    split_ifs at h <;> simp at h
  case spin why =>
    right
    exact (List.mem_singleton.mp h).symm
  case disable f => cases f <;> simp [Stmt.next, Fn.body, Fn.rest] at h
  case poolPop => cases hpool : s.taskPoolList <;> simp [Stmt.next, hpool] at h
  case mallocTask => cases malloc <;> simp [Stmt.next] at h
  case bitmapScan =>
    simp only [Stmt.next] at h
    split at h <;> simp at h
  case markRunning path next => cases path <;> simp [Stmt.next] at h
  case semaPop psema => cases hw : (s.sema psema).waiters <;> simp [Stmt.next, hw] at h
  case createTimer => cases malloc <;> simp [Stmt.next, lockAcquire, lockRelease] at h
  case hookFlag set add => cases add <;> simp [Stmt.next] at h
  all_goals
    simp only [Stmt.next] at h
    try split_ifs at h
  all_goals simp [Fn.body, Fn.rest, lockAcquire, lockRelease, Machine.taskBlock] at h

/-- As long as nobody enters a loop, nobody is in one. -/
lemma nobodyLoops_step {s t : State} {op : Op} (h : NobodyLoops s) (hst : Step s op t)
    (hno : ∀ malloc path code tail, op = .run malloc → s.stack = (.readyTest path :: code) :: tail →
      s.memory.sched.taskReadyList ≠ []) : NobodyLoops t := by
  have hhead : ∀ {stmt : Stmt} {code : List Stmt} {tail : List (List Stmt)},
      s.stack = (stmt :: code) :: tail → .spin .emptyReadyList ∉ stmt :: code :=
    fun hstack => h.running _ (by simp [hstack])
  have hrest : ∀ {stmt : Stmt} {code : List Stmt} {tail : List (List Stmt)},
      s.stack = (stmt :: code) :: tail → .spin .emptyReadyList ∉ code :=
    fun hstack hmem => hhead hstack (List.mem_cons_of_mem _ hmem)
  refine Frames.step h hst (by simp [taskEntrance]) ?_ ?_
  · simp [interruptTimerHandler, runTimer, lockAcquire, lockRelease]
  · intro code hcode
    cases hcode with
    | @next malloc stmt code tail memory hstack hplain heff =>
      intro hmem
      rcases List.mem_append.mp hmem with hmem | hmem
      · rcases loop_next hmem with ⟨path, rfl, hready⟩ | rfl
        · exact hno malloc path code tail rfl hstack hready
        · exact hhead hstack List.mem_cons_self
      · exact hrest hstack hmem
    | spin hstack => simpa using hrest hstack
    | saveFrame hstack => simpa using hrest hstack
    | left hstack => exact hrest hstack
    | @call c code tail hallowed hstack =>
      intro hmem
      rcases List.mem_append.mp hmem with hmem | hmem
      · cases c <;> simp [Call.code, Machine.taskBlock, lockAcquire, lockRelease] at hmem
      · exact hhead hstack hmem
    | ret hstack => exact hrest hstack

/-- A task that is in a loop, and a task that is asleep, exclude each other. -/
def DeadlockInv (s : State) : Prop := NobodyLoops s ∨ ¬ WakeUpPending s.memory.timers

/-- A step that is no arming of a sleep makes no wake-up. -/
lemma wakeUpPending_step {s t : State} {op : Op} (hst : Step s op t)
    (hno : ∀ malloc p pParam due period code tail, op = .run malloc →
      s.stack ≠ (.timerAdd p .collaborativeScheduleHelper pParam due period :: code) :: tail)
    (h : WakeUpPending t.memory.timers) : WakeUpPending s.memory.timers := by
  cases hst with
  | tick | sigreturn | call | ret => exact h
  | @run malloc stmt code tail t hfresh hstack hexec =>
    cases ran_of_exec hexec with
    | plain hplain heff =>
      refine wakeUpPending_effect heff ?_ h
      rintro p pParam due period rfl
      exact hno malloc p pParam due period code tail rfl hstack
    | stuck | saveFrame | loadFrame | contextSwap | contextSet => exact h

theorem DeadlockInv.step {s t : State} {op : Op} (h : DeadlockInv s) (hg : Continues s op)
    (hst : Step s op t) : DeadlockInv t := by
  by_cases harm : ∃ malloc p pParam due period code tail, op = .run malloc ∧
      s.stack = (.timerAdd p .collaborativeScheduleHelper pParam due period :: code) :: tail
  · -- the timer of a sleep is made
    obtain ⟨malloc, p, pParam, due, period, code, tail, rfl, hstack⟩ := harm
    left
    refine nobodyLoops_step (hg _ code tail hstack) hst ?_
    rintro - path code' tail' - hstack'
    cases hstack.symm.trans hstack'
  · have hkept : ¬ WakeUpPending s.memory.timers → ¬ WakeUpPending t.memory.timers := by
      refine mt (wakeUpPending_step hst ?_)
      exact fun malloc p pParam due period code tail hop hstack =>
        harm ⟨malloc, p, pParam, due, period, code, tail, hop, hstack⟩
    rcases h with hnobody | hnone
    · by_cases htest : ∃ malloc path code tail, op = .run malloc ∧
          s.stack = (.readyTest path :: code) :: tail ∧ s.memory.sched.taskReadyList = []
      · obtain ⟨malloc, path, code, tail, rfl, hstack, hready⟩ := htest
        exact .inr (hkept ((hg _ code tail hstack).resolve_left (not_not.mpr hready)))
      · left
        refine nobodyLoops_step hnobody hst ?_
        exact fun malloc path code tail hop hstack hready =>
          htest ⟨malloc, path, code, tail, hop, hstack, hready⟩
    · exact .inr (hkept hnone)

theorem deadlockInv_of_reach {s : State} (hs : system.Reach Continues s) : DeadlockInv s :=
  hs.invariant (fun _ hs => .inl (frames_init hs (by simp))) fun _ _ _ h hg hst => h.step hg hst

/-- No run has control in a loop while a task is asleep, as long as no dispatcher finds the
ready list empty then. -/
theorem noFalseDeadlock_of_continues {s : State} (hs : system.Reach Continues s) :
    NoFalseDeadlock s := by
  rintro ⟨code, tail, hstack⟩
  refine (deadlockInv_of_reach hs).resolve_left fun hnobody => ?_
  exact hnobody.running _ (by rw [hstack]; exact List.mem_cons_self) List.mem_cons_self

/-- `Continues`, computed; no timer is made. -/
def continues (s : State) : Op → Bool
  | .run _ => (s.stack.head?.bind List.head?).all fun
    | .readyTest _ => s.memory.sched.taskReadyList ≠ [] ∨ ¬ WakeUpPending s.memory.timers
    | .timerAdd _ _ _ _ _ => false
    | _ => true
  | _ => true

lemma continues_of_computed {s : State} {op : Op} (h : continues s op = true) : Continues s op := by
  cases op with
  | tick | sigreturn | call | ret => trivial
  | run malloc =>
    intro stmt code tail hstack
    change Option.all _ _ = true at h
    rw [hstack] at h
    cases stmt
    case readyTest path => exact of_decide_eq_true h
    case timerAdd => cases h
    all_goals trivial

lemma continues_of_calm {s : State} {op : Op} (h : calm s op = true) : continues s op = true := by
  cases op with
  | tick | sigreturn | call | ret => rfl
  | run malloc =>
    change Option.all _ _ = true at h ⊢
    cases hhead : s.stack.head?.bind List.head? with
    | none => rfl
    | some stmt =>
      rw [hhead] at h
      cases stmt
      case readyTest | timerAdd => cases h
      all_goals rfl

/-- Two tasks block, one after the other. -/
def blockOps : List Op :=
  .call (.taskBlock .blocked) :: List.replicate 10 (.run none) ++
    .call (.taskBlock .blocked) :: List.replicate 3 (.run none)

/-- The second task is in a loop, and nobody is asleep. -/
theorem noFalseDeadlock_blocked : ∃ s, Loops s.stack ∧ s.memory.sched.currentTask = 3 ∧
    NoFalseDeadlock s := by
  have hs : system.Reach (fun s op => continues s op = true) started :=
    started_calm.mono fun _ _ => continues_of_calm
  have hrun : (blockOps.foldlM (State.applyIf continues) started).any
      (fun s => loops s.stack && s.memory.sched.currentTask == 3) = true := by
    decide +kernel
  obtain ⟨s, hs', hP⟩ := (Option.any_eq_true ..).mp hrun
  obtain ⟨hloops, hcurrent⟩ := Bool.and_eq_true_iff.mp hP
  have hreach : system.Reach Continues s :=
    (reach_of_applyIf rfl hs hs').mono fun _ _ => continues_of_computed
  exact ⟨s, loops_eq_true hloops, beq_iff_eq.mp hcurrent, noFalseDeadlock_of_continues hreach⟩

/-- The main task alone asks for a sleep, and a tick comes. -/
def sleepOps : List Op :=
  .call .coEnableHookSys :: .run none :: .call (.sleep 1) :: List.replicate 3 (.run none) ++
    .tick 0 :: List.replicate 26 (.run none) ++ .run (some 3) :: List.replicate 22 (.run none)

/-- The handler stays in the loop of `collaborative_schedule`, with the wake-up pending. -/
theorem not_noFalseDeadlock : ¬ ∀ s, system.Reachable s → NoFalseDeadlock s := by
  intro hall
  have hrun : (sleepOps.foldlM State.apply mainState).any
      (fun s => loops s.stack && decide (WakeUpPending s.memory.timers)) = true := by
    decide +kernel
  obtain ⟨s, hs, hP⟩ := exists_reachable (.init mainState_init) hrun
  obtain ⟨hloops, hpending⟩ := Bool.and_eq_true_iff.mp hP
  exact hall s hs (loops_eq_true hloops) (of_decide_eq_true hpending)

end Libtask.Machine
