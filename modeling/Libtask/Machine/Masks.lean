import Libtask.Machine.Footprint

/-!
# The mask of a context

A context does not hold the signal mask. A task that is switched out inside
`sema_down` has SIGALRM blocked, every other one has not, and the switch leaves
the mask as it finds it. What the pending code expects of the mask is read off
its next statement that matters.
-/
namespace Libtask.Machine
open Timer Transition

/-- What a statement fixes: it expects SIGALRM to be blocked or not (`some`), or sets
the mask itself, or does not return (`none`). Other statements pass the mask on. -/
def Stmt.fixes : Stmt → Option (Option Bool)
  | .semaTest _ | .semaQueue _ => some (some true)
  | .user | .readyTest .died | .readyPop .died | .takeTag .died | .markRunning .died _
  | .contextSet => some (some false)
  | .enable _ _ | .disable _ | .exitCurrent | .spin _ => some none
  | _ => none

/-- The mask that a frame expects. -/
def expected : List Stmt → Option Bool
  | [] => none
  | stmt :: code => stmt.fixes.getD (expected code)

/-- `task_block` is called by users and by `sema_down`. -/
def Lands (code : List Stmt) : Prop :=
  (∃ rest, code = .user :: rest) ∨ ∃ psema rest, code = .semaTest psema :: rest

/-- What follows a statement in its frame. -/
def Fits (code : List Stmt) : Stmt → Prop
  | .semaTest _ | .semaQueue _ => expected code = none
  | .blockAssert _ | .blockStatus _ | .readyTest .block | .readyPop .block | .takeTag .block
  | .markRunning .block _ | .swapTemp _ | .contextSwap _ _ => Lands code
  | .setCurrent _ | .readyAssert | .spin _ => True
  | _ => expected code ≠ some true

def Shape : List Stmt → Prop
  | [] => True
  | stmt :: code => Fits code stmt ∧ Shape code

/-- The flow of a task that waits in `sema_down`. -/
def InSemaDown (stack : List (List Stmt)) : Prop :=
  ∃ psema code tail, stack = (.semaTest psema :: code) :: tail

/-- `InSemaDown`, computed. -/
def inSemaDown : List (List Stmt) → Bool
  | (.semaTest _ :: _) :: _ => true
  | _ => false

lemma inSemaDown_eq_true {stack : List (List Stmt)} :
    inSemaDown stack = true ↔ InSemaDown stack := by
  constructor
  · intro h
    unfold inSemaDown at h
    split at h
    next psema code tail => exact ⟨psema, code, tail, rfl⟩
    next => cases h
  · rintro ⟨psema, code, tail, rfl⟩
    rfl

instance (stack : List (List Stmt)) : Decidable (InSemaDown stack) :=
  decidable_of_iff _ inSemaDown_eq_true

/-- The context that a step resumes, and whether SIGALRM is blocked then. The return
from a signal frame, which follows `loadFrame`, unblocks it. -/
def resumed (s t : State) : Op → Option (Bool × Ctx)
  | .run _ =>
    match s.stack with
    | (.loadFrame :: _) :: _ => some (false, s.memory.sched.current.context)
    | (.contextSwap temp next :: code) :: tail =>
      some (t.masked, ((s.swapped temp code tail).task next).context)
    | (.contextSet :: _) :: _ => some (t.masked, s.memory.sched.current.context)
    | _ => none
  | _ => none

/-- A task resumes with the mask that it was suspended with. -/
def Transparent (s : State) (op : Op) (t : State) : Prop :=
  ∀ masked c, resumed s t op = some (masked, c) → masked = c.masked

/-- A task that waits in `sema_down` is resumed by another one that begins to wait in
`sema_down`, and such a one resumes no other task. -/
def LikeWithLike (s : State) : Op → Prop
  | .run _ =>
    match s.stack with
    | (.loadFrame :: _) :: _ | (.contextSet :: _) :: _ =>
      ¬ InSemaDown s.memory.sched.current.context.stack
    | (.contextSwap temp next :: code) :: tail =>
      InSemaDown (code :: tail) ↔
        InSemaDown ((s.swapped temp code tail).task next).context.stack
    | _ => True
  | _ => True

instance (s : State) (op : Op) : Decidable (LikeWithLike s op) := by
  unfold LikeWithLike
  split
  · split <;> infer_instance
  · infer_instance

section Frame

variable {code : List Stmt} {stmt : Stmt} {malloc : Option ℕ} {masked : Bool} {s : Sched Ctx}

/-- The body of a function, its closing `interrupt_enable` and the rest of it. -/
lemma shape_body (f : Fn) (hcode : expected code ≠ some true) (hshape : Shape code) :
    Shape (f.body ++ .enable f masked :: f.rest ++ code) := by
  cases f <;> simp [Fn.body, Fn.rest, Shape, Fits, expected, Stmt.fixes, hcode, hshape]

lemma expected_body (f : Fn) {b : Bool}
    (hb : expected (f.body ++ .enable f masked :: f.rest ++ code) = some b) : b = true := by
  cases f <;> simp_all [Fn.body, Fn.rest, expected, Stmt.fixes]

lemma shape_next (hplain : stmt.Plain) (h : Fits code stmt) (hshape : Shape code) :
    Shape (stmt.next malloc masked s ++ code) := by
  cases stmt
  case disable f => exact shape_body f h hshape
  case exitCurrent => exact shape_body _ h hshape
  case poolPop =>
    cases hpool : s.taskPoolList <;> simp_all [Stmt.next, Shape, Fits]
  case bitmapScan =>
    simp only [Stmt.next]
    split <;> simp_all [Shape, Fits]
  case readyTest path =>
    by_cases hready : s.taskReadyList = [] <;> cases path <;> simp_all [Stmt.next, Shape, Fits]
  case markRunning path next =>
    cases path <;> simp_all [Stmt.next, Shape, Fits]
  case semaPop psema =>
    cases hwaiters : (s.sema psema).waiters <;>
      simp_all [Stmt.next, Shape, Fits, expected, Stmt.fixes]
  case mallocTask => cases malloc <;> simp_all [Stmt.next, Shape, Fits]
  case createTimer =>
    cases malloc <;>
      simp_all [Stmt.next, Shape, Fits, expected, Stmt.fixes, lockAcquire, lockRelease]
  case hookFlag set add => cases add <;> simp_all [Stmt.next, Shape, Fits, expected, Stmt.fixes]
  case user | saveFrame | loadFrame | contextSwap | contextSet => cases hplain
  all_goals
    simp only [Stmt.next]
    try split_ifs
  all_goals
    simp [Shape, Fits, expected, Stmt.fixes, lockAcquire, lockRelease, Machine.taskBlock, Lands]
      at h ⊢
  all_goals grind

/-- What the next statements expect, the statement has expected, or it sets the mask so. -/
lemma expected_next (hplain : stmt.Plain) (h : Fits code stmt) {b : Bool}
    (hb : expected (stmt.next malloc masked s ++ code) = some b) :
    expected (stmt :: code) = some b ∨ stmt.mask masked = b := by
  cases stmt
  case disable f => exact .inr (expected_body f hb).symm
  case exitCurrent => exact .inr (expected_body _ hb).symm
  case enable f was =>
    cases b with
    | false => exact .inr rfl
    | true => exact absurd hb h
  case poolPop =>
    cases hpool : s.taskPoolList <;> simp_all [Stmt.next, expected, Stmt.fixes]
  case bitmapScan =>
    simp only [Stmt.next] at hb
    split at hb <;> simp_all [expected, Stmt.fixes]
  case readyTest path =>
    by_cases hready : s.taskReadyList = [] <;>
      cases path <;> simp_all [Stmt.next, expected, Stmt.fixes]
  case markRunning path next => cases path <;> simp_all [Stmt.next, expected, Stmt.fixes]
  case semaPop psema =>
    cases hwaiters : (s.sema psema).waiters <;> simp_all [Stmt.next, expected, Stmt.fixes]
  case mallocTask => cases malloc <;> simp_all [Stmt.next, expected, Stmt.fixes]
  case createTimer =>
    cases malloc <;> simp_all [Stmt.next, expected, Stmt.fixes, lockAcquire, lockRelease]
  case hookFlag set add => cases add <;> simp_all [Stmt.next, expected, Stmt.fixes]
  case spin => simp [Stmt.next, expected, Stmt.fixes] at hb
  case user | saveFrame | loadFrame | contextSwap | contextSet => cases hplain
  all_goals
    simp only [Stmt.next] at hb
    try split_ifs at hb
  all_goals
    simp [Fits, expected, Stmt.fixes, lockAcquire, lockRelease, Machine.taskBlock] at h hb ⊢
  all_goals grind

/-- A statement that expects something of the mask leaves it alone. -/
lemma mask_of_expected {b : Bool} (hb : expected (stmt :: code) = some b) :
    stmt.mask masked = masked := by
  cases stmt
  case disable | enable | exitCurrent => cases hb
  all_goals rfl

/-- A call of the library from the code of a user. -/
lemma shape_call (c : Call) (h : Shape (.user :: code)) : Shape (c.code ++ .user :: code) := by
  cases c <;> simp_all [Call.code, lockAcquire, lockRelease, Machine.taskBlock, Shape, Fits,
    expected, Stmt.fixes, Lands]

lemma expected_call (c : Call) {b : Bool} (hb : expected (c.code ++ .user :: code) = some b) :
    b = false := by
  cases c <;> simp_all [Call.code, lockAcquire, lockRelease, Machine.taskBlock, expected,
    Stmt.fixes]

end Frame

/-- A saved context expects SIGALRM to be blocked only in `sema_down`. -/
structure Settled (c : Ctx) : Prop where
  masked : c.masked = true ↔ InSemaDown c.stack
  quiet : ¬ InSemaDown c.stack → ∀ code ∈ c.stack, expected code ≠ some true
  below : ∀ code ∈ c.stack.tail, expected code ≠ some true

structure MaskInv (s : State) : Prop where
  top : ∀ code tail b, s.stack = code :: tail → expected code = some b → s.masked = b
  below : ∀ code ∈ s.stack.tail, expected code ≠ some true
  saved : ∀ t, Settled (s.memory.sched.task t).context
  shape : Frames Shape s

lemma expected_of_inSemaDown {c : Ctx} {code : List Stmt} {tail : List (List Stmt)}
    (hc : InSemaDown c.stack) (hstack : c.stack = code :: tail) : expected code = some true := by
  obtain ⟨psema, rest, tail', h⟩ := hc
  rw [hstack] at h
  obtain ⟨rfl, -⟩ := List.cons.inj h
  rfl

/-- A context whose frames do not expect SIGALRM to be blocked. -/
lemma Settled.of_quiet {stack : List (List Stmt)} {filled : Bool}
    (h : ∀ code ∈ stack, expected code ≠ some true) : Settled ⟨stack, false, filled⟩ := by
  refine ⟨⟨nofun, ?_⟩, fun _ => h, fun code hcode => h code (List.mem_of_mem_tail hcode)⟩
  rintro ⟨psema, code, tail, hstack⟩
  obtain rfl : stack = _ := hstack
  exact absurd rfl (h _ List.mem_cons_self)

/-- The context that `context_swap` saves. -/
lemma Settled.swapped {masked filled : Bool} {code : List Stmt} {tail : List (List Stmt)}
    (hland : Lands code) (hmasked : ∀ b, expected code = some b → masked = b)
    (hbelow : ∀ d ∈ tail, expected d ≠ some true) :
    Settled ⟨code :: tail, masked, filled⟩ := by
  rcases hland with ⟨rest, rfl⟩ | ⟨psema, rest, rfl⟩
  · obtain rfl := hmasked false rfl
    apply Settled.of_quiet
    intro d hd
    rcases List.mem_cons.mp hd with rfl | hd
    · simp [expected, Stmt.fixes]
    · exact hbelow d hd
  · obtain rfl := hmasked true rfl
    have hdown : InSemaDown ((.semaTest psema :: rest) :: tail) := ⟨psema, rest, tail, rfl⟩
    exact ⟨⟨fun _ => hdown, fun _ => rfl⟩, fun h => absurd hdown h, hbelow⟩

/-- The frame of a context that is resumed with its own mask. -/
lemma Settled.top {c : Ctx} (h : Settled c) {code : List Stmt} {tail : List (List Stmt)} {b : Bool}
    (hstack : c.stack = code :: tail) (hb : expected code = some b) : c.masked = b := by
  by_cases hdown : InSemaDown c.stack
  · rw [expected_of_inSemaDown hdown hstack] at hb
    rw [h.masked.mpr hdown]
    exact Option.some.inj hb
  · have hne := h.quiet hdown code (by rw [hstack]; exact List.mem_cons_self)
    have hmasked : c.masked = false := by simpa using mt h.masked.mp hdown
    rw [hmasked]
    cases b with
    | false => rfl
    | true => exact absurd hb hne

section Switch

variable {s : State} {code : List Stmt} {tail : List (List Stmt)}

lemma MaskInv.fits (h : MaskInv s) {stmt : Stmt} (hstack : s.stack = (stmt :: code) :: tail) :
    Fits code stmt ∧ Shape code := by
  have hshape : Shape (stmt :: code) := h.shape.running _ (by simp [hstack])
  exact hshape

lemma MaskInv.settled (h : MaskInv s) {temp next : TaskAddr}
    (hstack : s.stack = (.contextSwap temp next :: code) :: tail) (filled : Bool) :
    Settled ⟨code :: tail, s.masked, filled⟩ := by
  refine Settled.swapped (h.fits hstack).1 (fun b hb => h.top _ tail b hstack hb) ?_
  intro d hd
  exact h.below d (by rw [hstack]; exact hd)

lemma MaskInv.swapped (h : MaskInv s) {temp next : TaskAddr}
    (hstack : s.stack = (.contextSwap temp next :: code) :: tail) (t : TaskAddr) :
    Settled ((s.swapped temp code tail).task t).context := by
  rw [State.swapped, Sched.setTask_task]
  split_ifs with ht
  · exact h.settled hstack _
  · exact h.saved t

/-- Under the invariant a switch keeps the mask exactly when it pairs like with like. -/
theorem MaskInv.transparent_iff (h : MaskInv s) {op : Op} {t : State} (hst : Step s op t) :
    Transparent s op t ↔ LikeWithLike s op := by
  cases hst with
  | tick | sigreturn | call | ret => exact iff_of_true nofun trivial
  | @run malloc stmt code tail t hfresh hstack hexec =>
    have hplain : stmt.Plain → (Transparent s (.run malloc) t ↔ LikeWithLike s (.run malloc)) := by
      intro hplain
      rw [Transparent, LikeWithLike, resumed, hstack]
      cases stmt <;> first | exact iff_of_true nofun trivial | cases hplain
    cases ran_of_exec hexec with
    | plain hstmt heff => exact hplain hstmt
    | stuck hstmt herr => exact hplain hstmt
    | saveFrame =>
      rw [Transparent, LikeWithLike, resumed, hstack]
      exact iff_of_true nofun trivial
    | loadFrame =>
      rw [Transparent, LikeWithLike, resumed, hstack]
      dsimp only
      rw [← (h.saved _).masked]
      simp
    | @contextSwap temp next =>
      rw [Transparent, LikeWithLike, resumed, hstack]
      dsimp only
      rw [← (h.settled hstack false).masked, ← (h.swapped hstack next).masked]
      constructor
      · intro hall
        rw [show s.masked = _ from hall _ _ rfl]
      · intro hiff masked c hc
        obtain ⟨rfl, rfl⟩ := Prod.mk.inj (Option.some.inj hc)
        exact Bool.eq_iff_iff.mpr hiff
    | contextSet =>
      have hmasked : s.masked = false := h.top _ tail false hstack rfl
      rw [Transparent, LikeWithLike, resumed, hstack]
      dsimp only
      rw [← (h.saved _).masked, hmasked]
      simp

end Switch

lemma settled_effect {malloc : Option ℕ} {stmt : Stmt} {m m' : Memory}
    (h : stmt.effect malloc m = .ok m') (hm : ∀ t, Settled (m.sched.task t).context)
    (t : TaskAddr) : Settled (m'.sched.task t).context := by
  rcases effect_context h t with hctx | hctx | hctx <;> rw [hctx]
  · exact hm t
  · exact .of_quiet nofun
  · apply Settled.of_quiet
    intro code hcode
    rw [List.mem_singleton.mp hcode]
    simp [taskEntrance, expected, Stmt.fixes]

lemma MaskInv.frames {s t : State} {op : Op} (h : MaskInv s) (hst : Step s op t) :
    Frames Shape t := by
  refine h.shape.step hst ?_ ?_ ?_
  · simp [taskEntrance, Shape, Fits, expected, Stmt.fixes]
  · intro u
    simp [interruptTimerHandler, runTimer, lockAcquire, lockRelease, Shape, Fits, expected,
      Stmt.fixes]
  · intro code hcode
    cases hcode with
    | next hstack hplain heff => exact shape_next hplain (h.fits hstack).1 (h.fits hstack).2
    | spin hstack => exact ⟨trivial, (h.fits hstack).2⟩
    | saveFrame hstack => exact ⟨trivial, (h.fits hstack).1, (h.fits hstack).2⟩
    | left hstack => exact (h.fits hstack).2
    | call hallowed hstack => exact shape_call _ (h.fits hstack)
    | ret hstack => exact (h.fits hstack).2

/-- A context that is resumed with its own mask. -/
lemma MaskInv.resume {t : State} {c : Ctx} (hc : Settled c) (hstack : t.stack = c.stack)
    (hmasked : t.masked = c.masked) (hsaved : ∀ u, Settled (t.memory.sched.task u).context)
    (hshape : Frames Shape t) : MaskInv t := by
  refine ⟨?_, by rw [hstack]; exact hc.below, hsaved, hshape⟩
  intro code tail b htop hb
  rw [hmasked]
  exact hc.top (hstack ▸ htop) hb

theorem MaskInv.step {s t : State} {op : Op} (h : MaskInv s) (hg : LikeWithLike s op)
    (hst : Step s op t) : MaskInv t := by
  have htrans := (h.transparent_iff hst).mpr hg
  have hframes := h.frames hst
  have hbelow : ∀ {code : List Stmt} {tail : List (List Stmt)}, s.stack = code :: tail →
      ∀ d ∈ tail, expected d ≠ some true := fun hstack d hd => h.below d (by rw [hstack]; exact hd)
  cases hst with
  | @tick uJiffies code tail hmask hstack =>
    refine ⟨?_, ?_, h.saved, hframes⟩
    · intro code' tail' b htop hb
      obtain ⟨rfl, -⟩ := List.cons.inj htop
      simp [interruptTimerHandler, runTimer, lockAcquire, lockRelease, expected, Stmt.fixes] at hb
    · -- the interrupted code does not expect the mask that it has not got
      intro d hd
      rcases List.mem_cons.mp hd with rfl | hd
      · intro hb
        rw [h.top _ tail true hstack hb] at hmask
        cases hmask
      · exact hbelow hstack d hd
  | @sigreturn code tail hstack =>
    refine ⟨?_, fun d hd => hbelow hstack d (List.mem_cons_of_mem _ hd), h.saved, hframes⟩
    intro code' tail' b htop hb
    obtain ⟨rfl, -⟩ := List.cons.inj htop
    cases b with
    | false => rfl
    | true => exact absurd hb (hbelow hstack _ List.mem_cons_self)
  | @call c code tail hallowed hstack =>
    refine ⟨?_, hbelow hstack, h.saved, hframes⟩
    intro code' tail' b htop hb
    obtain ⟨rfl, -⟩ := List.cons.inj htop
    rw [expected_call c hb]
    exact h.top _ tail false hstack rfl
  | @ret code tail hcode hstack =>
    refine ⟨?_, hbelow hstack, h.saved, hframes⟩
    intro code' tail' b htop hb
    obtain ⟨rfl, -⟩ := List.cons.inj htop
    cases b with
    | false => exact h.top _ tail false hstack rfl
    | true => exact absurd hb (h.fits hstack).1
  | @run malloc stmt code tail t hfresh hstack hexec =>
    cases ran_of_exec hexec with
    | @plain stmt memory hplain heff =>
      refine ⟨?_, hbelow hstack, settled_effect heff h.saved, hframes⟩
      intro code' tail' b htop hb
      obtain ⟨rfl, -⟩ := List.cons.inj htop
      rcases expected_next hplain (h.fits hstack).1 hb with hwas | hmask
      · rw [← h.top _ tail b hstack hwas]
        exact mask_of_expected hwas
      · exact hmask
    | stuck hplain herr =>
      refine ⟨?_, hbelow hstack, h.saved, hframes⟩
      intro code' tail' b htop hb
      obtain ⟨rfl, -⟩ := List.cons.inj htop
      cases hb
    | saveFrame =>
      refine ⟨?_, hbelow hstack, ?_, hframes⟩
      · intro code' tail' b htop hb
        obtain ⟨rfl, -⟩ := List.cons.inj htop
        exact h.top _ tail b hstack hb
      · intro u
        simp only [Sched.setTask_task]
        split_ifs
        · exact .of_quiet (hbelow hstack)
        · exact h.saved u
    | loadFrame =>
      have hout : ¬ InSemaDown s.memory.sched.current.context.stack := by
        rw [LikeWithLike, hstack] at hg
        exact hg
      refine ⟨?_, (h.saved _).quiet hout, h.saved, hframes⟩
      intro code' tail' b htop hb
      obtain ⟨rfl, -⟩ := List.cons.inj htop
      exact h.top _ tail b hstack hb
    | @contextSwap temp next =>
      exact .resume (h.swapped hstack next) rfl (htrans _ _ (by rw [resumed, hstack]))
        (h.swapped hstack) hframes
    | contextSet =>
      exact .resume (h.saved _) rfl (htrans _ _ (by rw [resumed, hstack])) h.saved hframes

theorem maskInv_of_reach {s : State} (hs : system.Reach LikeWithLike s) : MaskInv s := by
  refine hs.invariant ?_ (fun _ _ _ h hg hst => h.step hg hst)
  intro s hs
  have hshape : Frames Shape s := frames_init hs (by simp [Shape, Fits, expected])
  have hsaved := context_init hs
  obtain ⟨-, -, -, -, -, -, -, hmasked, hstack, -⟩ := hs
  refine ⟨?_, by rw [hstack]; exact nofun, ?_, hshape⟩
  · intro code tail b htop hb
    rw [hstack] at htop
    obtain ⟨rfl, -⟩ := List.cons.inj htop
    obtain rfl : false = b := Option.some.inj hb
    exact hmasked
  · intro t
    rw [hsaved]
    exact .of_quiet nofun

/-- In a run whose switches pair like with like, a step keeps the mask of the task that
it resumes exactly when it does so too. -/
theorem transparent_iff_likeWithLike {s t : State} {op : Op} (hs : system.Reach LikeWithLike s)
    (hst : Step s op t) : Transparent s op t ↔ LikeWithLike s op :=
  (maskInv_of_reach hs).transparent_iff hst

lemma likeWithLike_of_calm {s : State} {op : Op} (h : calm s op = true) : LikeWithLike s op := by
  cases op with
  | tick | sigreturn | call | ret => trivial
  | run malloc =>
    rw [LikeWithLike]
    split
    next hstack => cases calm_run h hstack
    next hstack => cases calm_run h hstack
    next hstack => cases calm_run h hstack
    next => trivial

/-- Both tasks have been interrupted; the main task is about to go on. -/
def resumeOps : List Op :=
  tickOps 26 ++ tickOps 26 ++ tickOps 26 ++ tickOps 35 ++ .tick 0 :: List.replicate 34 (.run none)

/-- The return from a signal resumes the main task as it was suspended, unmasked. -/
theorem transparent_resumed : ∃ s t c, resumed s t (.run none) = some (false, c) ∧
    s.memory.sched.currentTask = 1 ∧
      (Transparent s (.run none) t ↔ LikeWithLike s (.run none)) := by
  have hs : system.Reach (fun s op => decide (LikeWithLike s op) = true) started :=
    started_calm.mono fun s op h => decide_eq_true (likeWithLike_of_calm h)
  have hrun : (resumeOps.foldlM (State.applyIf fun s op => decide (LikeWithLike s op)) started).any
      (fun s => s.memory.sched.currentTask == 1 && (s.apply (.run none)).any fun t =>
        (resumed s t (.run none)).any fun r => !r.1) = true := by
    decide +kernel
  obtain ⟨s, hs', hP⟩ := (Option.any_eq_true ..).mp hrun
  obtain ⟨hcurrent, ht⟩ := Bool.and_eq_true_iff.mp hP
  obtain ⟨t, ht, hr⟩ := (Option.any_eq_true ..).mp ht
  obtain ⟨⟨masked, c⟩, hr, hmasked⟩ := (Option.any_eq_true ..).mp hr
  obtain rfl : masked = false := by simpa using hmasked
  have hreach : system.Reach LikeWithLike s :=
    (reach_of_applyIf rfl hs hs').mono fun s op h => of_decide_eq_true h
  exact ⟨s, t, c, hr, beq_iff_eq.mp hcurrent,
    transparent_iff_likeWithLike hreach (step_of_apply ht)⟩

/-- The main task starts another one and waits in `sema_down`: the new task starts with
SIGALRM blocked. -/
theorem not_transparent :
    ¬ ∀ s op t, system.Reachable s → Step s op t → Transparent s op t := by
  intro hall
  have hswitch : ((.call (.semaDown (.user 0)) :: List.replicate 12 (.run none)).foldlM
      State.apply started).any (fun s => (s.apply (.run none)).any fun t =>
        (resumed s t (.run none)).any fun r => r.1 != r.2.masked) = true := by
    decide +kernel
  obtain ⟨s, hs, ht⟩ := exists_reachable started_reachable hswitch
  obtain ⟨t, ht, hr⟩ := (Option.any_eq_true ..).mp ht
  obtain ⟨⟨masked, c⟩, hr, hne⟩ := (Option.any_eq_true ..).mp hr
  have heq := hall s _ t hs (step_of_apply ht) masked c hr
  simp [heq] at hne

end Libtask.Machine
