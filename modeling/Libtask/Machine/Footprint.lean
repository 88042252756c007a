import Libtask.Machine.Step

/-!
# What each statement leaves alone

For each part of the data, the statements that may change it, and for each frame
of code, where it comes from.
-/
namespace Libtask.Machine
open Timer

/-- A statement is one of those of the timers, or acts on the tasks alone. -/
lemma effect_cases {malloc : Option ℕ} {stmt : Stmt} {m m' : Memory}
    (h : stmt.effect malloc m = .ok m') :
    (∃ uJiffies timers sched, stmt = .timerLoop uJiffies ∧
      Sched.runTimerLoop (Sched.onSched callTimer) uJiffies (2 ^ 32) (m.timers, .ok m.sched) =
        some (timers, .ok sched) ∧ m' = { m with timers := timers, sched := sched }) ∨
    (∃ fn pParam due period, stmt = .createTimer fn pParam due period ∧ m'.sched = m.sched ∧
      m'.timers = m.timers) ∨
    (∃ p fn pParam due period, stmt = .timerAdd p fn pParam due period ∧ m' = { m with
      timers := (createTimer m.timers (some p) (some fn) pParam due period).1
      unlinked := m.unlinked.erase p }) ∨
    ∃ sched, stmt.act malloc m.sched = .ok sched ∧ m' = { m with sched := sched } := by
  cases stmt with
  | timerLoop uJiffies =>
    left
    simp only [Stmt.effect] at h
    cases hrun : Sched.runTimerLoop (Sched.onSched callTimer) uJiffies (2 ^ 32)
        (m.timers, .ok m.sched) with
    | none =>
      rw [hrun] at h
      cases h
    | some r =>
      obtain ⟨timers, r⟩ := r
      rw [hrun] at h
      cases r with
      | error e => cases h
      | ok sched => exact ⟨uJiffies, timers, sched, rfl, hrun, (Except.ok.inj h).symm⟩
  | createTimer fn pParam due period =>
    right; left
    refine ⟨fn, pParam, due, period, rfl, ?_⟩
    cases malloc <;> obtain rfl := Except.ok.inj h <;> exact ⟨rfl, rfl⟩
  | timerAdd p fn pParam due period =>
    right; right; left
    exact ⟨p, fn, pParam, due, period, rfl, (Except.ok.inj h).symm⟩
  | _ =>
    right; right; right
    obtain ⟨sched, hact, hm⟩ := bind_eq_ok.mp h
    exact ⟨sched, hact, (Except.ok.inj hm).symm⟩

/-- What the callbacks of a tick leave alone. -/
structure Called (s s' : Sched Ctx) : Prop where
  sema : s'.sema = s.sema
  lock : s'.lock = s.lock
  current : s'.currentTask = s.currentTask
  main : s'.mainTask = s.mainTask
  context : ∀ t, (s'.task t).context = (s.task t).context

lemma Called.refl (s : Sched Ctx) : Called s s := ⟨rfl, rfl, rfl, rfl, fun _ => rfl⟩

lemma Called.trans {s t u : Sched Ctx} (h : Called s t) (h' : Called t u) : Called s u :=
  ⟨h'.sema.trans h.sema, h'.lock.trans h.lock, h'.current.trans h.current, h'.main.trans h.main,
    fun v => (h'.context v).trans (h.context v)⟩

lemma called_cleanLoop {fuel : ℕ} {cnt : ℤ} {s s' : Sched Ctx}
    (h : Sched.cleanLoop fuel cnt s = .ok s') : Called s s' := by
  induction fuel generalizing cnt s with
  | zero => cases h
  | succ fuel ih =>
    rw [Sched.cleanLoop] at h
    split_ifs at h with hgo
    · cases hp : s.taskPoolList with
      | nil =>
        simp only [hp] at h
        cases h
      | cons t rest =>
        simp only [hp] at h
        exact ⟨(ih h).sema, (ih h).lock, (ih h).current, (ih h).main, (ih h).context⟩
    · obtain rfl := Except.ok.inj h
      exact Called.refl s

lemma called_callTimer {n : TimerNode} {s s' : Sched Ctx} (h : callTimer n s = .ok s') :
    Called s s' := by
  unfold callTimer at h
  cases hfn : n.timerFn with
  | user f =>
    rw [hfn] at h
    obtain rfl := Except.ok.inj h
    exact Called.refl s
  | cleanDeadTask =>
    simp only [hfn, Sched.callTimer, Sched.cleanDeadTask] at h
    split_ifs at h
    · obtain rfl := Except.ok.inj h
      exact Called.refl s
    all_goals exact called_cleanLoop h
  | collaborativeScheduleHelper =>
    simp only [hfn, Sched.callTimer, Sched.collaborativeScheduleHelper, bind_eq_ok] at h
    obtain ⟨-, -, h⟩ := h
    obtain rfl := Except.ok.inj h
    exact ⟨rfl, rfl, rfl, rfl, Sched.setTask_context (s := { s with
      taskReadyList := s.taskReadyList ++ [n.pParam] }) (t := n.pParam) rfl⟩

theorem called_loop {uJiffies : UInt32} {fuel : ℕ} {timers timers' : TimerState}
    {s s' : Sched Ctx}
    (h : Sched.runTimerLoop (Sched.onSched callTimer) uJiffies fuel (timers, .ok s) =
      some (timers', .ok s')) : Called s s' := by
  have hinv : Sched.LoopInv callTimer fun _ _ t => Called s t :=
    ⟨fun _ _ _ _ _ hc hcall => hc.trans (called_callTimer hcall), fun _ _ hc => hc,
      fun _ _ hc => hc⟩
  exact hinv.loop (Called.refl s) h

variable {malloc : Option ℕ} {stmt : Stmt} {s s' : Sched Ctx} {m m' : Memory}

lemma act_sema (h : stmt.act malloc s = .ok s') {i : SemaId} (h1 : stmt ≠ .semaQueue i)
    (h2 : stmt ≠ .semaTake i) (h3 : stmt ≠ .semaPop i) (h4 : stmt ≠ .semaInc i) :
    s'.sema i = s.sema i := by
  cases stmt <;> simp only [Stmt.act, bind_eq_ok] at h
  case semaQueue j =>
    obtain ⟨-, -, h⟩ := h
    obtain rfl := Except.ok.inj h
    exact Sched.setSema_sema_of_ne s _ fun hij => h1 (congrArg Stmt.semaQueue hij.symm)
  case semaTake j =>
    obtain rfl := Except.ok.inj h
    exact Sched.setSema_sema_of_ne s _ fun hij => h2 (congrArg Stmt.semaTake hij.symm)
  case semaPop j =>
    split at h
    · cases h
    · obtain rfl := Except.ok.inj h
      exact Sched.setSema_sema_of_ne s _ fun hij => h3 (congrArg Stmt.semaPop hij.symm)
  case semaInc j =>
    obtain rfl := Except.ok.inj h
    exact Sched.setSema_sema_of_ne s _ fun hij => h4 (congrArg Stmt.semaInc hij.symm)
  all_goals try (obtain rfl := Except.ok.inj h; rfl)
  all_goals try (obtain ⟨_, _, h⟩ := h; obtain rfl := Except.ok.inj h; rfl)
  all_goals split at h <;> first | (obtain rfl := Except.ok.inj h; rfl) | cases h

/-- A context is written by the switches alone, apart from the birth of a task. -/
lemma act_context (h : stmt.act malloc s = .ok s') (t : TaskAddr) :
    (s'.task t).context = (s.task t).context ∨ (s'.task t).context = ⟨[], false, false⟩ ∨
      (s'.task t).context = ⟨[taskEntrance], false, true⟩ := by
  cases stmt <;> simp only [Stmt.act, bind_eq_ok] at h
  case initZero ptask name prio =>
    split at h
    · cases h
    · obtain rfl := Except.ok.inj h
      rw [Sched.setTask_task]
      split_ifs
      · exact .inr (.inl rfl)
      · exact .inl rfl
  case taskCreate ptask =>
    obtain rfl := Except.ok.inj h
    rw [Sched.setTask_task]
    split_ifs
    · exact .inr (.inr rfl)
    · exact .inl rfl
  all_goals left
  case initStatus ptask prio =>
    split at h
    · obtain rfl := Except.ok.inj h
      exact Sched.setTask_context
        (f := fun p => { p with status := .running, first := false }) rfl t
    · obtain rfl := Except.ok.inj h
      exact Sched.setTask_context rfl t
  all_goals try (obtain rfl := Except.ok.inj h; exact Sched.setTask_context rfl t)
  all_goals try (obtain rfl := Except.ok.inj h; rfl)
  all_goals try (obtain ⟨_, _, h⟩ := h; obtain rfl := Except.ok.inj h; rfl)
  all_goals split at h <;>
    first | (obtain rfl := Except.ok.inj h; rfl) |
      (obtain rfl := Except.ok.inj h; exact Sched.setTask_context rfl t) | cases h

lemma effect_context (h : stmt.effect malloc m = .ok m') (t : TaskAddr) :
    (m'.sched.task t).context = (m.sched.task t).context ∨
      (m'.sched.task t).context = ⟨[], false, false⟩ ∨
      (m'.sched.task t).context = ⟨[taskEntrance], false, true⟩ := by
  rcases effect_cases h with ⟨_, _, _, -, hrun, rfl⟩ | ⟨_, _, _, _, -, hs, -⟩ |
    ⟨_, _, _, _, _, -, rfl⟩ | ⟨sched, hact, rfl⟩
  · exact .inl ((called_loop hrun).context t)
  · rw [hs]
    exact .inl rfl
  · exact .inl rfl
  · exact act_context hact t

/-- Every frame of the running flow and of the saved contexts. -/
structure Frames (P : List Stmt → Prop) (s : State) : Prop where
  running : ∀ code ∈ s.stack, P code
  saved : ∀ t, ∀ code ∈ (s.memory.sched.task t).context.stack, P code

/-- What a step makes of the topmost frame. -/
inductive Expands (s : State) : Op → List Stmt → Prop
  | next {malloc : Option ℕ} {stmt : Stmt} {code : List Stmt} {tail : List (List Stmt)}
      {memory : Memory} (hstack : s.stack = (stmt :: code) :: tail) (hplain : stmt.Plain)
      (h : stmt.effect malloc s.memory = .ok memory) :
      Expands s (.run malloc) (stmt.next malloc s.masked s.memory.sched ++ code)
  | spin {malloc : Option ℕ} {stmt : Stmt} {code : List Stmt} {tail : List (List Stmt)}
      (hstack : s.stack = (stmt :: code) :: tail) :
      Expands s (.run malloc) (.spin .assertion :: code)
  | saveFrame {malloc : Option ℕ} {next : TaskAddr} {code : List Stmt} {tail : List (List Stmt)}
      (hstack : s.stack = (.saveFrame next :: code) :: tail) :
      Expands s (.run malloc) (.setCurrent next :: .loadFrame :: code)
  | left {malloc : Option ℕ} {stmt : Stmt} {code : List Stmt} {tail : List (List Stmt)}
      (hstack : s.stack = (stmt :: code) :: tail) : Expands s (.run malloc) code
  | call {c : Call} {code : List Stmt} {tail : List (List Stmt)} (hallowed : c.Allowed)
      (hstack : s.stack = (.user :: code) :: tail) : Expands s (.call c) (c.code ++ .user :: code)
  | ret {code : List Stmt} {tail : List (List Stmt)} (hstack : s.stack = (.user :: code) :: tail) :
      Expands s .ret code

/-- A property of frames is kept by a step if it holds of new tasks, of the
handler and of what becomes of the topmost frame. -/
theorem Frames.step {P : List Stmt → Prop} {s t : State} {op : Op} (h : Frames P s)
    (hst : Step s op t) (hentrance : P taskEntrance)
    (hhandler : ∀ u, P (interruptTimerHandler u)) (htop : ∀ code, Expands s op code → P code) :
    Frames P t := by
  have hbelow : ∀ {code : List Stmt} {tail : List (List Stmt)}, s.stack = code :: tail →
      ∀ c ∈ tail, P c := fun hstack c hc =>
    h.running c (by rw [hstack]; exact List.mem_cons_of_mem _ hc)
  cases hst with
  | @tick uJiffies code tail hmask hstack =>
    refine ⟨?_, h.saved⟩
    intro c hc
    rcases List.mem_cons.mp hc with rfl | hc
    · exact hhandler uJiffies
    · exact h.running c (hstack ▸ hc)
  | @sigreturn code tail hstack => exact ⟨hbelow hstack, h.saved⟩
  | @call c code tail hallowed hstack =>
    refine ⟨?_, h.saved⟩
    intro d hd
    rcases List.mem_cons.mp hd with rfl | hd
    · exact htop _ (.call hallowed hstack)
    · exact hbelow hstack d hd
  | @ret code tail hcode hstack =>
    refine ⟨?_, h.saved⟩
    intro d hd
    rcases List.mem_cons.mp hd with rfl | hd
    · exact htop _ (.ret hstack)
    · exact hbelow hstack d hd
  | @run malloc stmt code tail t hfresh hstack hexec =>
    cases ran_of_exec hexec with
    | @plain stmt memory hplain heff =>
      constructor
      · intro c hc
        rcases List.mem_cons.mp hc with rfl | hc
        · exact htop _ (.next hstack hplain heff)
        · exact hbelow hstack c hc
      · intro u c hc
        rcases effect_context heff u with hctx | hctx | hctx <;> rw [hctx] at hc
        · exact h.saved u c hc
        · cases hc
        · rw [List.mem_singleton.mp hc]
          exact hentrance
    | stuck hplain herr =>
      refine ⟨?_, h.saved⟩
      intro c hc
      rcases List.mem_cons.mp hc with rfl | hc
      · exact htop _ (.spin hstack)
      · exact hbelow hstack c hc
    | @saveFrame next =>
      constructor
      · intro c hc
        rcases List.mem_cons.mp hc with rfl | hc
        · exact htop _ (.saveFrame hstack)
        · exact hbelow hstack c hc
      · intro u c hc
        simp only [Sched.setTask_task] at hc
        split_ifs at hc
        · exact hbelow hstack c hc
        · exact h.saved u c hc
    | loadFrame =>
      refine ⟨?_, h.saved⟩
      intro c hc
      rcases List.mem_cons.mp hc with rfl | hc
      · exact htop _ (.left hstack)
      · exact h.saved _ c hc
    | @contextSwap temp next =>
      have hsaved : ∀ u, ∀ c ∈ ((s.swapped temp code tail).task u).context.stack, P c := by
        intro u c hc
        simp only [State.swapped, Sched.setTask_task] at hc
        split_ifs at hc
        · rcases List.mem_cons.mp hc with rfl | hc
          · exact htop _ (.left hstack)
          · exact hbelow hstack c hc
        · exact h.saved u c hc
      exact ⟨hsaved next, hsaved⟩
    | contextSet => exact ⟨fun c hc => h.saved _ c hc, h.saved⟩

lemma context_init {s : State} (hs : system.init s) (t : TaskAddr) :
    (s.memory.sched.task t).context = ⟨[], false, false⟩ := by
  obtain ⟨value, mem, stack, b, hinit, -⟩ := hs
  obtain ⟨b', -, -, heq⟩ := Sched.taskInit_spec (κ := Ctx) value mem stack
  rw [← Except.ok.inj (heq.symm.trans hinit)]
  show (Function.update (Sched.boot value).task mem (Sched.mainTaskStruct stack) t).context = _
  by_cases ht : t = mem
  · rw [ht, Function.update_self]
    rfl
  · rw [Function.update_of_ne ht]
    rfl

/-- What holds of the code of `main` holds of all frames at the start. -/
lemma frames_init {P : List Stmt → Prop} {s : State} (hs : system.init s) (hmain : P [.user]) :
    Frames P s := by
  constructor
  · obtain ⟨-, -, -, -, -, -, -, -, hstack, -⟩ := hs
    intro code hcode
    rw [hstack] at hcode
    rwa [List.mem_singleton.mp hcode]
  · intro t code hcode
    rw [context_init hs t] at hcode
    cases hcode

end Libtask.Machine
