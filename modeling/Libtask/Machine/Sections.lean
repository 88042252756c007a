import Libtask.Machine.Masks

/-!
# Critical sections

A section is the code between the `interrupt_disable` of a call and its own
closing `interrupt_enable`. A call made in any reachable state is followed, whatever
the other tasks do, while it runs and while it waits in the context of a task, as long
as SIGALRM was blocked at each of its steps. Masking does not nest, so that is over
with the first inner `interrupt_enable`.
-/
namespace Libtask.Machine
open Timer Transition

/-- A call, with the mask in force when it was made and the code it returns to. -/
structure Activation where
  fn : Fn
  was : Bool
  code : List Stmt
  tail : List (List Stmt)

/-- From the closing `interrupt_enable` on. -/
def Activation.rest (k : Activation) : List Stmt := .enable k.fn k.was :: k.fn.rest ++ k.code

/-- The statement that calls a function. -/
def Stmt.Calls (s : State) (f : Fn) (stmt : Stmt) : Prop :=
  stmt = .disable f ∨ stmt = .exitCurrent ∧ f = .taskExit s.memory.sched.currentTask

inductive Place
  /-- on the CPU, with SIGALRM blocked or not -/
  | running (masked : Bool)
  /-- switched out, in the context of a task -/
  | away (t : TaskAddr)
  /-- past the closing `interrupt_enable`, with SIGALRM blocked or not -/
  | returned (masked : Bool)

/-- A state, and where the call is. -/
structure Followed where
  state : State
  place : Place

/-- The task whose context is resumed. -/
def resumes (s : State) : Op → Option TaskAddr
  | .run _ =>
    match s.stack with
    | (.loadFrame :: _) :: _ | (.contextSet :: _) :: _ => some s.memory.sched.currentTask
    | (.contextSwap _ next :: _) :: _ => some next
    | _ => none
  | _ => none

/-- One step of the program, for the call. A call whose context is written over takes no
further step. -/
inductive CallStep (k : Activation) : Followed → Op → Followed → Prop
  | own {s t : State} {op : Op} (hst : Step s op t) (hopen : s.stack ≠ k.rest :: k.tail)
      (hstay : resumes s op = none) : CallStep k ⟨s, .running true⟩ op ⟨t, .running t.masked⟩
  | leave {s t : State} {malloc : Option ℕ} {temp next : TaskAddr} {code : List Stmt}
      {tail : List (List Stmt)} (hst : Step s (.run malloc) t)
      (hstack : s.stack = (.contextSwap temp next :: code) :: tail) :
      CallStep k ⟨s, .running true⟩ (.run malloc)
        ⟨t, if next = temp then .running t.masked else .away temp⟩
  | wait {s t : State} {op : Op} {u : TaskAddr} (hst : Step s op t)
      (hkept : (t.memory.sched.task u).context = (s.memory.sched.task u).context)
      (hother : resumes s op ≠ some u) : CallStep k ⟨s, .away u⟩ op ⟨t, .away u⟩
  | resume {s t : State} {op : Op} {u : TaskAddr} {masked : Bool} {c : Ctx} (hst : Step s op t)
      (hkept : (t.memory.sched.task u).context = (s.memory.sched.task u).context)
      (hres : resumes s op = some u) (hmask : resumed s t op = some (masked, c)) :
      CallStep k ⟨s, .away u⟩ op ⟨t, .running masked⟩
  | close {s t : State} {op : Op} (hst : Step s op t) (hstack : s.stack = k.rest :: k.tail) :
      CallStep k ⟨s, .running true⟩ op ⟨t, .returned t.masked⟩

/-- A call is made in any state that any run reaches. -/
def callSystem (k : Activation) : System Followed Op where
  init s := ∃ s0 malloc stmt, system.Reachable s0 ∧ s0.stack = (stmt :: k.code) :: k.tail ∧
    stmt.Calls s0 k.fn ∧ k.was = s0.masked ∧ Step s0 (.run malloc) s.state ∧
    s.place = .running s.state.masked
  step := CallStep k

/-- SIGALRM is blocked at the steps of the call, and left blocked if it was blocked before. -/
def Atomic (k : Activation) (s : Followed) : Prop :=
  match s.place with
  | .running masked => masked = true
  | .away _ => True
  | .returned masked => k.was = true → masked = true

/-- The call runs no `interrupt_enable` of a function that it calls; it is resumed by a
`context_swap` or `context_set` with SIGALRM blocked, and by no signal return; it was made
with SIGALRM not blocked. -/
def Sealed (k : Activation) (s : Followed) (op : Op) : Prop :=
  match s.place with
  | .running _ => (s.state.stack = k.rest :: k.tail → k.was = false) ∧
      (s.state.stack ≠ k.rest :: k.tail →
        ∀ f was code tail, s.state.stack ≠ (.enable f was :: code) :: tail)
  | .away t => resumes s.state op = some t →
      s.state.masked = true ∧ ∀ code tail, s.state.stack ≠ (.loadFrame :: code) :: tail
  | .returned _ => True

/-- The statements of a section: no code of the user, and of the dispatchers
`block_task_schedule` alone. -/
def Stmt.Inner : Stmt → Prop
  | .user | .exitCurrent | .disable (.taskExit _) => False
  | .readyTest path | .readyPop path | .takeTag path | .markRunning path _ => path = .block
  | .saveFrame _ | .loadFrame | .contextSet => False
  | .tickTest | .tickTestFlag | .schedAssert | .schedAppend | .schedTicks | .schedStatus => False
  | _ => True

/-- A flow that is in the section. -/
def Inside (k : Activation) (stack : List (List Stmt)) : Prop :=
  ∃ p, stack = (p ++ k.rest) :: k.tail ∧ ∀ stmt ∈ p, stmt.Inner

def CallInv (k : Activation) (s : Followed) : Prop :=
  match s.place with
  | .running masked => masked = true → s.state.masked = true ∧ Inside k s.state.stack
  | .away t => Inside k (s.state.memory.sched.task t).context.stack
  | .returned _ => True

section Inner

variable {stmt : Stmt} {malloc : Option ℕ} {masked : Bool} {s : Sched Ctx}

lemma inner_body (f : Fn) : ∀ q ∈ f.body, q.Inner := by
  cases f <;> simp [Fn.body, Stmt.Inner]

lemma inner_next (h : stmt.Inner) : ∀ q ∈ stmt.next malloc masked s, q.Inner := by
  cases stmt
  case disable f => cases f <;> simp_all [Stmt.next, Fn.body, Fn.rest, Stmt.Inner]
  case poolPop => cases hpool : s.taskPoolList <;> simp [Stmt.next, hpool, Stmt.Inner]
  case mallocTask => cases malloc <;> simp [Stmt.next, Stmt.Inner]
  case bitmapScan =>
    simp only [Stmt.next]
    split <;> simp [Stmt.Inner]
  case markRunning path next => cases path <;> simp_all [Stmt.next, Stmt.Inner]
  case semaPop psema =>
    cases hwaiters : (s.sema psema).waiters <;> simp [Stmt.next, hwaiters, Stmt.Inner]
  case createTimer =>
    cases malloc <;> simp [Stmt.next, lockAcquire, lockRelease, Stmt.Inner]
  case hookFlag set add => cases add <;> simp [Stmt.next, Stmt.Inner]
  all_goals
    simp only [Stmt.next]
    try split_ifs
  all_goals simp_all [Stmt.Inner, lockAcquire, lockRelease, Machine.taskBlock]

end Inner

lemma Inside.next {k : Activation} {stmt : Stmt} {p q : List Stmt} (hp : ∀ r ∈ stmt :: p, r.Inner)
    (hq : ∀ r ∈ q, r.Inner) : Inside k ((q ++ (p ++ k.rest)) :: k.tail) := by
  refine ⟨q ++ p, by rw [List.append_assoc], ?_⟩
  intro r hr
  rcases List.mem_append.mp hr with hr | hr
  · exact hq r hr
  · exact hp r (List.mem_cons_of_mem _ hr)

/-- The running flow is in the section, and not at its end. -/
lemma Inside.head {k : Activation} {stack : List (List Stmt)} (h : Inside k stack)
    (hopen : stack ≠ k.rest :: k.tail) : ∃ stmt p, stack = (stmt :: (p ++ k.rest)) :: k.tail ∧
      ∀ r ∈ stmt :: p, r.Inner := by
  obtain ⟨p, hstack, hp⟩ := h
  cases p with
  | nil => exact absurd hstack hopen
  | cons stmt p => exact ⟨stmt, p, hstack, hp⟩

/-- A statement of the call with SIGALRM blocked: it unblocks the signal if and only if
it is an `interrupt_enable`. -/
lemma Inside.own {k : Activation} {s t : State} {op : Op} (h : Inside k s.stack)
    (hmasked : s.masked = true) (hopen : s.stack ≠ k.rest :: k.tail) (hst : Step s op t)
    (hstay : resumes s op = none) :
    (t.masked = true ↔ ∀ f was code tail, s.stack ≠ (.enable f was :: code) :: tail) ∧
      (t.masked = true → Inside k t.stack) := by
  obtain ⟨stmt, p, hstack, hp⟩ := h.head hopen
  have hinner := hp stmt List.mem_cons_self
  have henable : (∀ f was code tail, s.stack ≠ (.enable f was :: code) :: tail) ↔
      ∀ f was, stmt ≠ .enable f was := by
    rw [hstack]
    constructor
    · rintro hall f was rfl
      exact hall f was _ _ rfl
    · intro hne f was code tail heq
      exact hne f was (List.cons.inj (List.cons.inj heq).1).1
  rw [henable]
  cases hst with
  | tick hmask => simp [hmasked] at hmask
  | sigreturn hstack' =>
    rw [hstack] at hstack'
    cases hstack'
  | call hallowed hstack' | ret hcode hstack' =>
    rw [hstack] at hstack'
    obtain ⟨rfl, -⟩ := List.cons.inj (List.cons.inj hstack').1
    cases hinner
  | @run malloc stmt' code tail t hfresh hstack' hexec =>
    obtain ⟨hhead, rfl⟩ := List.cons.inj (hstack'.symm.trans hstack)
    obtain ⟨rfl, rfl⟩ := List.cons.inj hhead
    cases ran_of_exec hexec with
    | plain hplain heff =>
      refine ⟨?_, fun _ => .next hp (inner_next hinner)⟩
      show stmt'.mask s.masked = true ↔ _
      cases stmt'
      case enable f was => simp [Stmt.mask]
      all_goals simp [Stmt.mask, hmasked]
    | stuck hplain herr =>
      refine ⟨iff_of_true hmasked ?_, fun _ => .next (q := [.spin _]) hp (by simp [Stmt.Inner])⟩
      rintro f was rfl
      cases herr
    | saveFrame => cases hinner
    | loadFrame hfilled => cases hinner
    | contextSwap =>
      rw [resumes, hstack] at hstay
      cases hstay
    | contextSet => cases hinner

/-- The closing `interrupt_enable`. -/
lemma masked_close {k : Activation} {s t : State} {op : Op} (hmasked : s.masked = true)
    (hstack : s.stack = k.rest :: k.tail) (hst : Step s op t) : t.masked = false := by
  cases hst with
  | tick hmask => simp [hmasked] at hmask
  | sigreturn hstack' | call hallowed hstack' | ret hcode hstack' =>
    cases hstack.symm.trans hstack'
  | run hfresh hstack' hexec =>
    obtain ⟨hhead, -⟩ := List.cons.inj (hstack'.symm.trans hstack)
    obtain ⟨rfl, -⟩ := List.cons.inj hhead
    cases ran_of_exec hexec with
    | plain hplain heff => rfl
    | stuck hplain herr => cases herr

/-- A context is resumed by the return from a signal, which unblocks the signal, or as
`context_swap` and `context_set` do, which keep the mask. -/
lemma resume_cases {s t : State} {op : Op} {u : TaskAddr} (hst : Step s op t)
    (hres : resumes s op = some u) :
    (∃ code tail c, s.stack = (.loadFrame :: code) :: tail ∧ resumed s t op = some (false, c)) ∨
    (∀ code tail, s.stack ≠ (.loadFrame :: code) :: tail) ∧ t.masked = s.masked ∧
      (∃ c, resumed s t op = some (s.masked, c)) ∧
      t.stack = (t.memory.sched.task u).context.stack := by
  cases hst with
  | tick | sigreturn | call | ret => cases hres
  | @run malloc stmt code tail t hfresh hstack hexec =>
    have hplain : ¬ stmt.Plain := by
      intro hplain
      rw [resumes, hstack] at hres
      cases stmt <;> first | exact False.elim hplain | cases hres
    rw [resumes, hstack] at hres
    cases ran_of_exec hexec with
    | plain h | stuck h => exact absurd h hplain
    | saveFrame => cases hres
    | loadFrame hfilled =>
      left
      refine ⟨code, tail, s.memory.sched.current.context, hstack, ?_⟩
      rw [resumed, hstack]
    | @contextSwap temp next =>
      obtain rfl := Option.some.inj hres
      right
      refine ⟨?_, rfl, ⟨((s.swapped temp code tail).task next).context, ?_⟩, rfl⟩
      · rw [hstack]
        intro code' tail' heq
        cases heq
      · rw [resumed, hstack]
    | contextSet =>
      obtain rfl := Option.some.inj hres
      right
      refine ⟨?_, rfl, ⟨s.memory.sched.current.context, by rw [resumed, hstack]⟩, rfl⟩
      rw [hstack]
      intro code' tail' heq
      cases heq

/-- One step of the program: the call stays atomic if and only if the step meets the
condition. -/
theorem CallInv.step {k : Activation} {s t : Followed} {op : Op} (h : CallInv k s)
    (hst : CallStep k s op t) : (Atomic k t ↔ Sealed k s op) ∧ CallInv k t := by
  cases hst with
  | @own s t op hst hopen hstay =>
    obtain ⟨hmasked, hinside⟩ := h rfl
    obtain ⟨hiff, hkept⟩ := hinside.own hmasked hopen hst hstay
    refine ⟨?_, fun ht => ⟨ht, hkept ht⟩⟩
    show t.masked = true ↔ _ ∧ _
    rw [hiff]
    exact ⟨fun hne => ⟨fun heq => absurd heq hopen, fun _ => hne⟩, fun hboth => hboth.2 hopen⟩
  | @leave s t malloc temp next code tail hst hstack =>
    obtain ⟨hmasked, hinside⟩ := h rfl
    have hopen : s.stack ≠ k.rest :: k.tail := by
      rw [hstack]
      intro heq
      cases heq
    obtain ⟨stmt, p, hstack', hp⟩ := hinside.head hopen
    obtain ⟨hhead, rfl⟩ := List.cons.inj (hstack.symm.trans hstack')
    obtain ⟨rfl, rfl⟩ := List.cons.inj hhead
    have hsealed : Sealed k ⟨s, .running true⟩ (.run malloc) := by
      refine ⟨fun heq => absurd heq hopen, fun _ f was code tail heq => ?_⟩
      rw [hstack] at heq
      cases heq
    have hparked : Inside k ((p ++ k.rest) :: k.tail) :=
      ⟨p, rfl, fun r hr => hp r (List.mem_cons_of_mem _ hr)⟩
    cases hst with
    | run hfresh hstack'' hexec =>
      obtain ⟨hhead, rfl⟩ := List.cons.inj (hstack''.symm.trans hstack)
      obtain ⟨rfl, rfl⟩ := List.cons.inj hhead
      cases ran_of_exec hexec with
      | plain hplain heff => cases hplain
      | stuck hplain herr => cases hplain
      | contextSwap =>
        split_ifs with hnext
        · -- the task has taken itself from the ready list
          refine ⟨iff_of_true hmasked hsealed, fun _ => ⟨hmasked, ?_⟩⟩
          show Inside k ((s.swapped temp (p ++ k.rest) k.tail).task next).context.stack
          rw [hnext, State.swapped, Sched.setTask_task_self]
          exact hparked
        · refine ⟨iff_of_true trivial hsealed, ?_⟩
          show Inside k ((s.swapped temp (p ++ k.rest) k.tail).task temp).context.stack
          rw [State.swapped, Sched.setTask_task_self]
          exact hparked
  | @wait s t op u hst hkept hother =>
    refine ⟨iff_of_true trivial fun hres => absurd hres hother, ?_⟩
    show Inside k (t.memory.sched.task u).context.stack
    rw [hkept]
    exact h
  | @resume s t op u masked c hst hkept hres hmask =>
    show (masked = true ↔ (resumes s op = some u → s.masked = true ∧ _)) ∧
      (masked = true → t.masked = true ∧ Inside k t.stack)
    rcases resume_cases hst hres with ⟨code, tail, c', hstack, hsig⟩ |
      ⟨hload, hmasked, ⟨c', hswap⟩, hstack⟩
    · obtain ⟨rfl, -⟩ := Prod.mk.inj (Option.some.inj (hmask.symm.trans hsig))
      have hload : ¬ (s.masked = true ∧ ∀ code tail, s.stack ≠ (.loadFrame :: code) :: tail) :=
        fun hsealed => hsealed.2 code tail hstack
      simp [hload, hres]
    · obtain ⟨rfl, -⟩ := Prod.mk.inj (Option.some.inj (hmask.symm.trans hswap))
      refine ⟨⟨fun hm _ => ⟨hm, hload⟩, fun hsealed => (hsealed hres).1⟩, fun hm => ?_⟩
      rw [hmasked, hstack, hkept]
      exact ⟨hm, h⟩
  | @close s t op hst hstack =>
    obtain ⟨hmasked, -⟩ := h rfl
    have hfalse := masked_close hmasked hstack hst
    refine ⟨?_, trivial⟩
    show (k.was = true → t.masked = true) ↔ _ ∧ _
    rw [hfalse]
    constructor
    · intro hwas
      refine ⟨fun _ => by simpa using hwas, fun hopen => absurd hstack hopen⟩
    · rintro ⟨hwas, -⟩ htrue
      rw [hwas hstack] at htrue
      exact htrue

/-- The call has masked the signal. -/
lemma inside_of_call {k : Activation} {s t : State} {malloc : Option ℕ} {stmt : Stmt}
    (hstack : s.stack = (stmt :: k.code) :: k.tail) (hcall : stmt.Calls s k.fn)
    (hwas : k.was = s.masked) (hst : Step s (.run malloc) t) :
    t.masked = true ∧ Inside k t.stack := by
  have hnext : stmt.next malloc s.masked s.memory.sched ++ k.code = k.fn.body ++ k.rest := by
    rw [Activation.rest, hwas]
    rcases hcall with rfl | ⟨rfl, hf⟩
    · simp [Stmt.next]
    · simp [Stmt.next, hf]
  cases hst with
  | run hfresh hstack' hexec =>
    obtain ⟨hhead, rfl⟩ := List.cons.inj (hstack'.symm.trans hstack)
    obtain ⟨rfl, rfl⟩ := List.cons.inj hhead
    have hran := ran_of_exec hexec
    rcases hcall with rfl | ⟨rfl, -⟩
    all_goals
      cases hran with
      | plain hplain heff => exact ⟨rfl, k.fn.body, by rw [hnext], inner_body k.fn⟩
      | stuck hplain herr => cases herr

theorem callInv_of_reach {k : Activation} {s : Followed}
    (hs : (callSystem k).Reach (Sealed k) s) : CallInv k s ∧ Atomic k s := by
  induction hs with
  | @init s h =>
    obtain ⟨s0, malloc, stmt, -, hstack, hcall, hwas, hst, hplace⟩ := h
    obtain ⟨hmasked, hinside⟩ := inside_of_call hstack hcall hwas hst
    rw [CallInv, Atomic, hplace]
    exact ⟨fun _ => ⟨hmasked, hinside⟩, hmasked⟩
  | step hs hg hst ih =>
    obtain ⟨hiff, hinv⟩ := ih.1.step hst
    exact ⟨hinv, hiff.mpr hg⟩

/-- A call stays atomic as long as its steps meet the condition, and the first one that
does not ends that. -/
theorem atomic_iff_sealed {k : Activation} {s : Followed}
    (hs : (callSystem k).Reach (Sealed k) s) :
    Atomic k s ∧ ∀ op t, CallStep k s op t → (Atomic k t ↔ Sealed k s op) :=
  ⟨(callInv_of_reach hs).2, fun _ _ hst => ((callInv_of_reach hs).1.step hst).1⟩

/-- The next step is a statement of the call, before its closing `interrupt_enable`. -/
def ownStep (k : Activation) (s : State) (op : Op) : Bool :=
  s.masked && (s.stack.headD []).length != k.rest.length && (resumes s op).isNone

/-- A computed run of the statements of a call. -/
lemma reach_of_ownStep {k : Activation} {guard : Followed → Op → Prop}
    {check : State → Op → Bool} (hown : ∀ s op, check s op = true → ownStep k s op = true)
    (hguard : ∀ s op, check s op = true → guard ⟨s, .running true⟩ op) {s t : State}
    (hs : (callSystem k).Reach guard ⟨s, .running s.masked⟩) {ops : List Op}
    (h : ops.foldlM (State.applyIf check) s = some t) :
    (callSystem k).Reach guard ⟨t, .running t.masked⟩ := by
  induction ops generalizing s with
  | nil =>
    obtain rfl := Option.some.inj h
    exact hs
  | cons op ops ih =>
    rw [List.foldlM_cons] at h
    obtain ⟨m, hm, hrest⟩ := Option.bind_eq_some_iff.mp h
    rw [State.applyIf] at hm
    split_ifs at hm with hcheck
    obtain ⟨⟨hmasked, hlength⟩, hstay⟩ : (s.masked = true ∧
        (s.stack.headD []).length ≠ k.rest.length) ∧ resumes s op = none := by
      simpa [ownStep] using hown s op hcheck
    have hopen : s.stack ≠ k.rest :: k.tail := by
      intro hstack
      rw [hstack] at hlength
      exact hlength rfl
    rw [hmasked] at hs
    exact ih (hs.step (hguard s op hcheck) (.own (step_of_apply hm) hopen hstay)) hrest

/-- A user calls a function that masks SIGALRM. -/
lemma reach_begin {s : State} (hs : system.Reachable s) {c : Call} {f : Fn} (hc : c.Allowed)
    (hcode : c.code = [.disable f]) {code : List Stmt} {tail : List (List Stmt)}
    (hstack : s.stack = (.user :: code) :: tail) (guard : Followed → Op → Prop) :
    let k : Activation := ⟨f, s.masked, .user :: code, tail⟩
    (callSystem k).Reach guard
      ⟨{ s with masked := true, stack := (f.body ++ k.rest) :: tail }, .running true⟩ := by
  intro k
  have hcall : system.Reachable { s with stack := (.disable f :: .user :: code) :: tail } := by
    refine hs.step (a := .call c) trivial ?_
    have hst := Step.call hc hstack
    rwa [hcode] at hst
  refine .init ⟨_, none, .disable f, hcall, rfl, .inl rfl, rfl, .run nofun rfl ?_, rfl⟩
  rw [exec_of_plain (show (Stmt.disable f).Plain from trivial)]
  change some _ = some _
  rw [Stmt.next, List.append_assoc]
  rfl

/-- The next statement is an `interrupt_enable`. -/
def enables : List (List Stmt) → Bool
  | (.enable _ _ :: _) :: _ => true
  | _ => false

lemma enables_of_eq {stack : List (List Stmt)} {f : Fn} {was : Bool} {code : List Stmt}
    {tail : List (List Stmt)} (h : stack = (.enable f was :: code) :: tail) :
    enables stack = true := by
  rw [h]
  rfl

/-- The main task calls `sema_up`. -/
def upCall : Activation := ⟨.semaUp (.user 0), false, [.user], []⟩

/-- The unit is given back with another task ready, and the call is atomic to its end. -/
theorem atomic_upCall : ∃ s, (s.memory.sched.sema (.user 0)).value = 1 ∧
    s.memory.sched.taskReadyList = [3] ∧ Atomic upCall ⟨s, .running s.masked⟩ ∧
      ∀ op t, CallStep upCall ⟨s, .running s.masked⟩ op t →
        (Atomic upCall t ↔ Sealed upCall ⟨s, .running s.masked⟩ op) := by
  obtain ⟨hmasked, hstack⟩ := started_user
  have hbegun := reach_begin (c := .semaUp (.user 0)) started_reachable (fun l _ => nofun) rfl
    hstack (Sealed upCall)
  rw [hmasked] at hbegun
  have hrun : ((List.replicate 4 (.run none)).foldlM
      (State.applyIf fun s op => ownStep upCall s op && !enables s.stack)
      { started with masked := true, stack := [[.semaUpAssert (.user 0)] ++ upCall.rest] }).any
        (fun s => (s.memory.sched.sema (.user 0)).value == 1 &&
          s.memory.sched.taskReadyList == [3]) = true := by
    decide +kernel
  obtain ⟨s, hs, hP⟩ := (Option.any_eq_true ..).mp hrun
  obtain ⟨hvalue, hready⟩ : (s.memory.sched.sema (.user 0)).value = 1 ∧
      s.memory.sched.taskReadyList = [3] := by simpa using hP
  refine ⟨s, hvalue, hready, atomic_iff_sealed (reach_of_ownStep ?_ ?_ hbegun hs)⟩
  · intro s op h
    exact (Bool.and_eq_true_iff.mp h).1
  · intro s op h
    obtain ⟨hown, henable⟩ := Bool.and_eq_true_iff.mp h
    refine ⟨fun hclose => ?_, fun _ f was code tail heq => ?_⟩
    · rw [ownStep, hclose] at hown
      simp [upCall] at hown
    · simp [enables_of_eq heq] at henable

/-- The main task calls `task_start`. -/
def startCall : Activation := ⟨.taskStart [] 0, false, [.user], []⟩

/-- The `interrupt_enable` of `sema_down`, in `lock_acquire`, opens the section of `task_start`. -/
theorem not_atomic : ¬ ∀ k s, (callSystem k).Reachable s → Atomic k s := by
  intro hall
  have hbegun : (callSystem startCall).Reachable _ :=
    reach_begin (c := .taskStart [] 0) (.init mainState_init) trivial rfl rfl unguarded
  have hopen : ((.run none :: .run (some 3) :: List.replicate 8 (.run none)).foldlM
      (State.applyIf (ownStep startCall))
      { mainState with masked := true, stack := [[.poolTest [] 0] ++ startCall.rest] }).any
        (fun s => !s.masked) = true := by
    decide +kernel
  obtain ⟨s, hs, hmasked⟩ := (Option.any_eq_true ..).mp hopen
  have hreach := reach_of_ownStep (fun _ _ => id) (fun _ _ _ => trivial) hbegun hs
  have hatomic : s.masked = true := hall startCall _ hreach
  simp [hatomic] at hmasked

end Libtask.Machine
