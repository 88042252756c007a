import Libtask.Machine.Footprint

/-!
# Lost wake-ups

`sema_up` takes a waiter off its list, makes it ready and only then gives the unit
back; `sema_down` reads the value and then acts on what it read. `task_unblock` ends
with `interrupt_enable`, so a signal may come in between. What a flow of control has
read of a semaphore, and not yet acted on, is the phase of its topmost frame.
-/
namespace Libtask.Machine
open Timer Transition

/-- The statement acts on a value of a semaphore that was read before it. -/
def Stmt.ActsOnValue : Stmt → Prop
  | .semaQueue _ | .semaTake _ | .semaInc _ => True
  | _ => False

/-- No signal comes between the reading of a semaphore and the statement that acts
on it: `list_append` or `value--` in `sema_down`, and `value++` in `sema_up`. -/
def TicksUntorn (s : State) : Op → Prop
  | .tick _ => ∀ stmt code tail, s.stack = (stmt :: code) :: tail → ¬ stmt.ActsOnValue
  | _ => True

/-- The statement links `general_tag` of this task, or clears it. -/
def Stmt.Links (m : Memory) (t : TaskAddr) : Stmt → Prop
  | .initZero ptask _ _ | .startReady ptask | .unblockPush ptask => t = ptask
  | .schedAppend | .semaQueue _ => t = m.sched.currentTask
  | .timerLoop _ => ∃ p ∈ m.timers.heap,
      (m.timers.node p).timerFn = .collaborativeScheduleHelper ∧ (m.timers.node p).pParam = t
  | _ => False

/-- The statements outside the steps of `sema_down` and `sema_up` that belong together. -/
def Stmt.Idle : Stmt → Prop
  | .semaQueue _ | .semaTake _ | .semaUpAssert _ | .semaWake _ | .semaPop _ | .semaInc _ => False
  | _ => True

def Idle (code : List Stmt) : Prop := ∀ stmt ∈ code, stmt.Idle

/-- The statements of `task_unblock`, and a failed assertion of it. -/
def Stmt.Unblocks : Stmt → Prop
  | .unblockAssert _ | .unblockTest _ | .unblockPush _ | .unblockStatus _ | .spin _ => True
  | _ => False

/-- What is left of the call of `task_unblock`. -/
inductive Unblocking : List Stmt → Prop
  | call (t : TaskAddr) : Unblocking [.disable (.taskUnblock t)]
  | body {p : List Stmt} {f : Fn} {was : Bool} (hp : ∀ stmt ∈ p, stmt.Unblocks) :
      Unblocking (p ++ [.enable f was])

/-- What the topmost frame knows of a semaphore. -/
inductive Phase (s : State) : List Stmt → Prop
  | idle {code : List Stmt} (h : Idle code) : Phase s code
  | queue {i : SemaId} {code : List Stmt} (h : Idle code)
      (hvalue : (s.memory.sched.sema i).value = 0) : Phase s (.semaQueue i :: code)
  | take {i : SemaId} {code : List Stmt} (h : Idle code)
      (hvalue : (s.memory.sched.sema i).value ≠ 0) : Phase s (.semaTake i :: code)
  | upAssert {i : SemaId} {code : List Stmt} (h : Idle code) (hmasked : s.masked = true) :
      Phase s (.semaUpAssert i :: code)
  | wake {i : SemaId} {code : List Stmt} (h : Idle code) (hmasked : s.masked = true)
      (hvalue : (s.memory.sched.sema i).value = 0) : Phase s (.semaWake i :: code)
  | pop {i : SemaId} {code : List Stmt} (h : Idle code) (hmasked : s.masked = true)
      (hvalue : (s.memory.sched.sema i).value = 0) : Phase s (.semaPop i :: code)
  | unblock {i : SemaId} {p code : List Stmt} (h : Idle code) (hmasked : s.masked = true)
      (hvalue : (s.memory.sched.sema i).value = 0) (hp : Unblocking p)
      (hway : (s.record.onWay i).Nonempty) : Phase s (p ++ .semaInc i :: code)
  | inc {i : SemaId} {code : List Stmt} (h : Idle code)
      (hvalue : (s.memory.sched.sema i).value = 0)
      (hway : (s.memory.sched.sema i).waiters ≠ [] → (s.record.onWay i).Nonempty) :
      Phase s (.semaInc i :: code)

/-- A semaphore that was never taken down to 0 has no waiters. -/
structure Served (value : UInt8) (waiters : List TaskAddr) (onWay : Finset TaskAddr) : Prop where
  one : value = 1 → waiters ≠ [] → onWay.Nonempty
  more : 1 < value → waiters = []

/-- Every semaphore is served. -/
def AllServed (s : State) : Prop :=
  ∀ i, Served (s.memory.sched.sema i).value (s.memory.sched.sema i).waiters (s.record.onWay i)

structure WakeInv (s : State) : Prop where
  top : ∀ code tail, s.stack = code :: tail → Phase s code
  below : ∀ code ∈ s.stack.tail, Idle code
  saved : ∀ t, ∀ code ∈ (s.memory.sched.task t).context.stack, Idle code
  served : AllServed s

section Stmt

variable {malloc : Option ℕ} {stmt : Stmt} {masked : Bool} {s : Sched Ctx} {m m' : Memory}
  {code : List Stmt}

lemma Idle.cons (hstmt : stmt.Idle) (h : Idle code) : Idle (stmt :: code) := by
  intro q hq
  rcases List.mem_cons.mp hq with rfl | hq
  · exact hstmt
  · exact h q hq

lemma Idle.append {p : List Stmt} (hp : Idle p) (h : Idle code) : Idle (p ++ code) := by
  intro q hq
  rcases List.mem_append.mp hq with hq | hq
  · exact hp q hq
  · exact h q hq

lemma Idle.tail (h : Idle (stmt :: code)) : Idle code := fun q hq => h q (List.mem_cons_of_mem _ hq)

lemma sema_effect (hidle : stmt.Idle) (h : stmt.effect malloc m = .ok m') :
    m'.sched.sema = m.sched.sema := by
  rcases effect_cases h with ⟨_, _, _, -, hrun, rfl⟩ | ⟨_, _, _, _, -, hs, -⟩ |
    ⟨_, _, _, _, _, -, rfl⟩ | ⟨sched, hact, rfl⟩
  · exact (called_loop hrun).sema
  · rw [hs]
  · rfl
  · funext i
    apply act_sema hact <;> rintro rfl <;> exact hidle

lemma onWay_note (r : Record) (hidle : stmt.Idle) : (r.note s stmt).onWay = r.onWay := by
  cases stmt
  case semaQueue | semaTake | semaPop => cases hidle
  all_goals rfl

/-- Only the call of `sema_up` and the test of `sema_down` leave the idle phase. -/
lemma idle_next (hidle : stmt.Idle) (hup : ∀ i, stmt ≠ .disable (.semaUp i))
    (htest : ∀ i, stmt ≠ .semaTest i) : Idle (stmt.next malloc masked s) := by
  cases stmt
  case disable f =>
    cases f
    case semaUp i => exact absurd rfl (hup i)
    all_goals simp [Stmt.next, Fn.body, Fn.rest, Idle, Stmt.Idle]
  case semaTest i => exact absurd rfl (htest i)
  case semaQueue | semaTake | semaUpAssert | semaWake | semaPop | semaInc => cases hidle
  case poolPop => cases hpool : s.taskPoolList <;> simp [Stmt.next, hpool, Idle, Stmt.Idle]
  case mallocTask => cases malloc <;> simp [Stmt.next, Idle, Stmt.Idle]
  case bitmapScan =>
    simp only [Stmt.next]
    split <;> simp [Idle, Stmt.Idle]
  case markRunning path next => cases path <;> simp [Stmt.next, Idle, Stmt.Idle]
  case createTimer =>
    cases malloc <;> simp [Stmt.next, lockAcquire, lockRelease, Idle, Stmt.Idle]
  case hookFlag set add => cases add <;> simp [Stmt.next, Idle, Stmt.Idle]
  all_goals
    simp only [Stmt.next]
    try split_ifs
  all_goals simp [Idle, Stmt.Idle, Fn.body, Fn.rest, lockAcquire, lockRelease]

lemma idle_call (c : Call) : Idle c.code := by
  cases c <;> simp [Call.code, Machine.taskBlock, lockAcquire, lockRelease, Idle, Stmt.Idle]

lemma Unblocking.ne_nil {p : List Stmt} (hp : Unblocking p) : p ≠ [] := by
  cases hp <;> simp

lemma Stmt.Unblocks.idle (h : stmt.Unblocks) : stmt.Idle := by
  cases stmt <;> trivial

lemma unblocks_next (h : stmt.Unblocks) : ∀ q ∈ stmt.next malloc masked s, q.Unblocks := by
  cases stmt
  case unblockTest t =>
    simp only [Stmt.next]
    split_ifs <;> simp [Stmt.Unblocks]
  case unblockAssert | unblockPush | unblockStatus | spin => simp [Stmt.next, Stmt.Unblocks]
  all_goals cases h

lemma mask_of_unblocks (h : stmt.Unblocks) : stmt.mask masked = masked := by
  cases stmt <;> first | rfl | cases h

end Stmt

/-- A statement has run that does not exchange the flow of control. -/
structure Advanced (malloc : Option ℕ) (stmt : Stmt) (s t : State) : Prop where
  effect : stmt.effect malloc s.memory = .ok t.memory
  masked : t.masked = stmt.mask s.masked
  record : t.record = s.record.note s.memory.sched stmt

section Advanced

variable {malloc : Option ℕ} {stmt : Stmt} {s t : State} {code : List Stmt} {i : SemaId}

/-- Semaphore `i` alone has changed. -/
lemma served_of_ne (h : AllServed s) (hsema : ∀ j, j ≠ i → t.memory.sched.sema j =
      s.memory.sched.sema j) (hway : ∀ j, j ≠ i → t.record.onWay j = s.record.onWay j)
    (hi : Served (t.memory.sched.sema i).value (t.memory.sched.sema i).waiters
      (t.record.onWay i)) : AllServed t := by
  intro j
  by_cases hj : j = i
  · rw [hj]
    exact hi
  · rw [hsema j hj, hway j hj]
    exact h j

lemma Advanced.same (ha : Advanced malloc stmt s t) (hidle : stmt.Idle) :
    t.memory.sched.sema = s.memory.sched.sema ∧ t.record.onWay = s.record.onWay := by
  refine ⟨sema_effect hidle ha.effect, ?_⟩
  rw [ha.record, onWay_note _ hidle]

lemma Advanced.allServed (ha : Advanced malloc stmt s t) (hidle : stmt.Idle) (h : AllServed s) :
    AllServed t := by
  obtain ⟨hsema, hway⟩ := ha.same hidle
  rw [AllServed, hsema, hway]
  exact h

lemma Advanced.idle (ha : Advanced malloc stmt s t) (hidle : stmt.Idle) (hcode : Idle code) :
    Phase t (stmt.next malloc s.masked s.memory.sched ++ code) := by
  obtain ⟨hsema, hway⟩ := ha.same hidle
  by_cases hup : ∃ i, stmt = .disable (.semaUp i)
  · obtain ⟨i, rfl⟩ := hup
    exact .upAssert (hcode.cons trivial) ha.masked
  · by_cases htest : ∃ i, stmt = .semaTest i
    · obtain ⟨i, rfl⟩ := htest
      simp only [Stmt.next]
      split_ifs with hvalue
      · exact .queue hcode (by rw [hsema]; exact hvalue)
      · exact .take hcode (by rw [hsema]; exact hvalue)
    · exact .idle ((idle_next hidle (fun i hi => hup ⟨i, hi⟩) fun i hi => htest ⟨i, hi⟩).append
        hcode)

/-- A statement that writes semaphore `i`, with the tasks on their way to `i` afterwards. -/
lemma Advanced.setSema {f : Semaphore → Semaphore} (h : AllServed s)
    (hsched : t.memory.sched = s.memory.sched.setSema i f)
    (hway : ∀ j, j ≠ i → t.record.onWay j = s.record.onWay j)
    (hi : Served (f (s.memory.sched.sema i)).value (f (s.memory.sched.sema i)).waiters
      (t.record.onWay i)) : AllServed t := by
  apply served_of_ne (i := i) h _ hway
  · rw [hsched, Sched.setSema_sema_self]
    exact hi
  · intro j hj
    rw [hsched, Sched.setSema_sema_of_ne _ _ hj]

lemma served_zero (waiters : List TaskAddr) (onWay : Finset TaskAddr) :
    Served 0 waiters onWay := by
  constructor
  · intro hone
    cases hone
  · intro hmore
    cases hmore

/-- `list_append` and `task_block`: the value is 0. -/
lemma Advanced.queue (ha : Advanced malloc (.semaQueue i) s t) (hcode : Idle code)
    (hvalue : (s.memory.sched.sema i).value = 0) (h : AllServed s) :
    Phase t ((Stmt.semaQueue i).next malloc s.masked s.memory.sched ++ code) ∧ AllServed t := by
  obtain ⟨sched, hact, hmem⟩ := bind_eq_ok.mp ha.effect
  obtain ⟨-, -, hsched⟩ := bind_eq_ok.mp hact
  obtain rfl := Except.ok.inj hsched
  have hsched : t.memory.sched = s.memory.sched.setSema i fun p => { p with
      waiters := p.waiters ++ [s.memory.sched.currentTask] } :=
    (congrArg Memory.sched (Except.ok.inj hmem)).symm
  constructor
  · apply Phase.idle
    apply Idle.append _ hcode
    simp [Stmt.next, Machine.taskBlock, Idle, Stmt.Idle]
  · apply Advanced.setSema h hsched
    · intro j hj
      rw [ha.record]
      exact Function.update_of_ne hj ..
    · rw [hvalue]
      exact served_zero ..

/-- `value--`. -/
lemma Advanced.take (ha : Advanced malloc (.semaTake i) s t) (hcode : Idle code)
    (hvalue : (s.memory.sched.sema i).value ≠ 0) (h : AllServed s) :
    Phase t ((Stmt.semaTake i).next malloc s.masked s.memory.sched ++ code) ∧ AllServed t := by
  obtain ⟨sched, hact, hmem⟩ := bind_eq_ok.mp ha.effect
  obtain rfl := Except.ok.inj hact
  have hsched : t.memory.sched = s.memory.sched.setSema i fun p => { p with
      value := p.value - 1 } :=
    (congrArg Memory.sched (Except.ok.inj hmem)).symm
  constructor
  · exact .idle (hcode.cons trivial)
  · apply Advanced.setSema h hsched
    · intro j hj
      rw [ha.record]
      exact Function.update_of_ne hj ..
    · by_cases hone : (s.memory.sched.sema i).value = 1
      · have hzero : (s.memory.sched.sema i).value - 1 = 0 := by rw [hone]; rfl
        rw [hzero]
        exact served_zero ..
      · -- a semaphore with more units has no waiters
        have hmore : (1 : UInt8) < (s.memory.sched.sema i).value := by
          rw [UInt8.lt_iff_toNat_lt]
          rw [Ne, ← UInt8.toNat_inj] at hvalue
          rw [← UInt8.toNat_inj] at hone
          have h0 : UInt8.toNat 0 = 0 := rfl
          have h1 : UInt8.toNat 1 = 1 := rfl
          omega
        have hnone := (h i).more hmore
        exact ⟨fun _ hne => absurd hnone hne, fun _ => hnone⟩

/-- `value++`. -/
lemma Advanced.inc (ha : Advanced malloc (.semaInc i) s t) (hcode : Idle code)
    (hvalue : (s.memory.sched.sema i).value = 0)
    (hway : (s.memory.sched.sema i).waiters ≠ [] → (s.record.onWay i).Nonempty)
    (h : AllServed s) :
    Phase t ((Stmt.semaInc i).next malloc s.masked s.memory.sched ++ code) ∧ AllServed t := by
  obtain ⟨sched, hact, hmem⟩ := bind_eq_ok.mp ha.effect
  obtain rfl := Except.ok.inj hact
  have hsched : t.memory.sched = s.memory.sched.setSema i fun p => { p with
      value := p.value + 1 } :=
    (congrArg Memory.sched (Except.ok.inj hmem)).symm
  constructor
  · exact .idle (hcode.cons trivial)
  · apply Advanced.setSema h hsched
    · intro j hj
      rw [ha.record]
      rfl
    · constructor
      · intro _ hne
        rw [ha.record]
        exact hway hne
      · intro hmore
        rw [hvalue] at hmore
        change (1 : UInt8) < 0 + 1 at hmore
        exact absurd hmore (by decide)

/-- The head of the list is taken off, and `task_unblock` called. -/
lemma Advanced.pop (ha : Advanced malloc (.semaPop i) s t) (hcode : Idle code)
    (hmasked : s.masked = true) (hvalue : (s.memory.sched.sema i).value = 0)
    (h : AllServed s) :
    Phase t ((Stmt.semaPop i).next malloc s.masked s.memory.sched ++ code) ∧ AllServed t := by
  obtain ⟨sched, hact, hmem⟩ := bind_eq_ok.mp ha.effect
  simp only [Stmt.act] at hact
  cases hwaiters : (s.memory.sched.sema i).waiters with
  | nil =>
    rw [hwaiters] at hact
    cases hact
  | cons u rest =>
    rw [hwaiters] at hact
    obtain rfl := Except.ok.inj hact
    have hsched : t.memory.sched = s.memory.sched.setSema i fun p => { p with waiters := rest } :=
      (congrArg Memory.sched (Except.ok.inj hmem)).symm
    constructor
    · have hnext : (Stmt.semaPop i).next malloc s.masked s.memory.sched ++ code =
          [.disable (.taskUnblock u)] ++ .semaInc i :: code := by
        rw [Stmt.next, hwaiters]
        rfl
      rw [hnext]
      apply Phase.unblock hcode (ha.masked.trans hmasked) _ (.call u)
      · rw [ha.record]
        simp [Record.note, hwaiters]
      · rw [hsched, Sched.setSema_sema_self]
        exact hvalue
    · apply Advanced.setSema h hsched
      · intro j hj
        rw [ha.record]
        exact Function.update_of_ne hj ..
      · rw [hvalue]
        exact served_zero ..

/-- The call of `task_unblock`, up to its own `interrupt_enable`. -/
lemma Advanced.unblock {p : List Stmt} (ha : Advanced malloc stmt s t) (hcode : Idle code)
    (hmasked : s.masked = true) (hvalue : (s.memory.sched.sema i).value = 0)
    (hp : Unblocking (stmt :: p)) (hway : (s.record.onWay i).Nonempty) :
    Phase t (stmt.next malloc s.masked s.memory.sched ++ (p ++ .semaInc i :: code)) ∧
      stmt.Idle := by
  have hstmt : stmt.Idle := by
    generalize hq : stmt :: p = q at hp
    cases hp with
    | call u =>
      obtain ⟨rfl, -⟩ := List.cons.inj hq
      trivial
    | @body r f was hr =>
      cases r with
      | nil =>
        obtain ⟨rfl, -⟩ := List.cons.inj hq
        trivial
      | cons stmt' r =>
        obtain ⟨rfl, -⟩ := List.cons.inj hq
        exact (hr _ List.mem_cons_self).idle
  obtain ⟨hsema, hway'⟩ := ha.same hstmt
  have hvalue' : (t.memory.sched.sema i).value = 0 := by rw [hsema, hvalue]
  rw [← hway'] at hway
  refine ⟨?_, hstmt⟩
  generalize hq : stmt :: p = q at hp
  cases hp with
  | call u =>
    obtain ⟨rfl, rfl⟩ := List.cons.inj hq
    exact .unblock hcode ha.masked hvalue'
      (.body (p := [.unblockAssert u]) (by simp [Stmt.Unblocks])) hway
  | @body r f was hr =>
    cases r with
    | nil =>
      obtain ⟨rfl, rfl⟩ := List.cons.inj hq
      exact .inc hcode hvalue' fun _ => hway
    | cons stmt' r =>
      obtain ⟨rfl, rfl⟩ := List.cons.inj hq
      have hun := hr _ List.mem_cons_self
      have hbody : Unblocking (stmt.next malloc s.masked s.memory.sched ++ r ++
          [.enable f was]) := by
        apply Unblocking.body
        intro q hq
        rcases List.mem_append.mp hq with hq | hq
        · exact unblocks_next hun q hq
        · exact hr q (List.mem_cons_of_mem _ hq)
      have hphase := Phase.unblock hcode ((ha.masked.trans (mask_of_unblocks hun)).trans hmasked)
        hvalue' hbody hway
      rw [List.append_assoc, List.append_assoc] at hphase
      change Phase t (_ ++ (r ++ [.enable f was] ++ .semaInc i :: code))
      rwa [List.append_assoc]

/-- What is left when an assertion fails. -/
lemma Phase.spin (h : Phase s (stmt :: code)) (hplain : stmt.Plain)
    (herr : stmt.effect malloc s.memory = .error .assertion) :
    Phase s (.spin .assertion :: code) := by
  generalize hc : stmt :: code = c at h
  cases h with
  | idle hidle =>
    subst hc
    exact .idle (hidle.tail.cons trivial)
  | queue hidle | take hidle | upAssert hidle | wake hidle | pop hidle | inc hidle =>
    obtain ⟨-, rfl⟩ := List.cons.inj hc
    exact .idle (hidle.cons trivial)
  | @unblock i p r hidle hmasked hvalue hp hway =>
    cases hp with
    | call u =>
      obtain ⟨rfl, -⟩ := List.cons.inj hc
      cases herr
    | @body q f was hq =>
      cases q with
      | nil =>
        obtain ⟨rfl, -⟩ := List.cons.inj hc
        cases herr
      | cons stmt' q =>
        obtain ⟨-, rfl⟩ := List.cons.inj hc
        have hbody : Unblocking (.spin .assertion :: q ++ [.enable f was]) := by
          apply Unblocking.body
          intro r hr
          rcases List.mem_cons.mp hr with rfl | hr
          · trivial
          · exact hq r (List.mem_cons_of_mem _ hr)
        exact .unblock hidle hmasked hvalue hbody hway

/-- A statement that is not of a semaphore finds an idle frame, or one inside `task_unblock`. -/
lemma Phase.cases_head (h : Phase s (stmt :: code)) (hstmt : stmt.Idle)
    (hun : ∀ p, ¬ Unblocking (stmt :: p)) : Idle code := by
  generalize hc : stmt :: code = c at h
  cases h with
  | idle hidle =>
    subst hc
    exact hidle.tail
  | queue | take | upAssert | wake | pop | inc =>
    obtain ⟨rfl, -⟩ := List.cons.inj hc
    cases hstmt
  | @unblock i p r hidle hmasked hvalue hp hway =>
    cases p with
    | nil =>
      obtain ⟨rfl, -⟩ := List.cons.inj hc
      cases hstmt
    | cons stmt' p =>
      obtain ⟨rfl, -⟩ := List.cons.inj hc
      exact absurd hp (hun p)

/-- One statement, from any phase. -/
theorem Advanced.phase (ha : Advanced malloc stmt s t) (hphase : Phase s (stmt :: code))
    (h : AllServed s) :
    Phase t (stmt.next malloc s.masked s.memory.sched ++ code) ∧ AllServed t := by
  generalize hc : stmt :: code = c at hphase
  cases hphase with
  | idle hidle =>
    subst hc
    have hstmt := hidle stmt List.mem_cons_self
    exact ⟨ha.idle hstmt hidle.tail, ha.allServed hstmt h⟩
  | queue hidle hvalue =>
    obtain ⟨rfl, rfl⟩ := List.cons.inj hc
    exact ha.queue hidle hvalue h
  | take hidle hvalue =>
    obtain ⟨rfl, rfl⟩ := List.cons.inj hc
    exact ha.take hidle hvalue h
  | @upAssert i r hidle hmasked =>
    obtain ⟨rfl, rfl⟩ := List.cons.inj hc
    obtain ⟨sched, hact, hmem⟩ := bind_eq_ok.mp ha.effect
    obtain ⟨_, hassert, hsched⟩ := bind_eq_ok.mp hact
    obtain rfl := Except.ok.inj hsched
    have hsame : t.memory.sched = s.memory.sched :=
      (congrArg Memory.sched (Except.ok.inj hmem)).symm
    have hvalue := assert_eq_ok.mp hassert
    refine ⟨.wake hidle (ha.masked.trans hmasked) (by rw [hsame]; exact hvalue), ?_⟩
    rw [AllServed, hsame, ha.record]
    exact h
  | @wake i r hidle hmasked hvalue =>
    obtain ⟨rfl, rfl⟩ := List.cons.inj hc
    have hsame : t.memory.sched = s.memory.sched :=
      (congrArg Memory.sched (Except.ok.inj ha.effect)).symm
    constructor
    · simp only [Stmt.next]
      split_ifs with hnone
      · exact .pop hidle (ha.masked.trans hmasked) (by rw [hsame]; exact hvalue)
      · apply Phase.inc hidle (by rw [hsame]; exact hvalue)
        intro hne
        rw [hsame] at hne
        exact absurd hne hnone
    · rw [AllServed, hsame, ha.record]
      exact h
  | pop hidle hmasked hvalue =>
    obtain ⟨rfl, rfl⟩ := List.cons.inj hc
    exact ha.pop hidle hmasked hvalue h
  | @unblock i p r hidle hmasked hvalue hp hway =>
    cases p with
    | nil => exact absurd rfl hp.ne_nil
    | cons stmt' p =>
      obtain ⟨rfl, rfl⟩ := List.cons.inj hc
      obtain ⟨hphase, hstmt⟩ := ha.unblock hidle hmasked hvalue hp hway
      exact ⟨hphase, ha.allServed hstmt h⟩
  | inc hidle hvalue hway =>
    obtain ⟨rfl, rfl⟩ := List.cons.inj hc
    exact ha.inc hidle hvalue hway h

end Advanced

/-- The phase does not depend on the frames below. -/
lemma Phase.withStack {s : State} {code : List Stmt} (h : Phase s code)
    (stack : List (List Stmt)) : Phase { s with stack := stack } code := by
  cases h with
  | idle h => exact .idle h
  | queue h hvalue => exact .queue h hvalue
  | take h hvalue => exact .take h hvalue
  | upAssert h hmasked => exact .upAssert h hmasked
  | wake h hmasked hvalue => exact .wake h hmasked hvalue
  | pop h hmasked hvalue => exact .pop h hmasked hvalue
  | unblock h hmasked hvalue hp hway => exact .unblock h hmasked hvalue hp hway
  | inc h hvalue hway => exact .inc h hvalue hway

/-- A signal finds nothing that a flow has read and not acted on. -/
lemma Phase.of_unmasked {s : State} {code : List Stmt} (h : Phase s code)
    (hmasked : s.masked = false) (hhead : ∀ stmt ∈ code.head?, ¬ stmt.ActsOnValue) :
    Idle code := by
  cases h with
  | idle h => exact h
  | queue | take | inc => exact absurd trivial (hhead _ rfl)
  | upAssert _ hm | wake _ hm | pop _ hm | unblock _ hm => simp [hmasked] at hm

/-- The statements that exchange the flow of control stand in idle frames. -/
lemma Phase.of_not_plain {s : State} {stmt : Stmt} {code : List Stmt}
    (h : Phase s (stmt :: code)) (hplain : ¬ stmt.Plain) : Idle code := by
  apply h.cases_head
  · cases stmt <;> first | trivial | exact absurd trivial hplain
  · intro p hp
    generalize hc : stmt :: p = c at hp
    cases hp with
    | call u =>
      obtain ⟨rfl, -⟩ := List.cons.inj hc
      exact hplain trivial
    | @body q f was hq =>
      cases q with
      | nil =>
        obtain ⟨rfl, -⟩ := List.cons.inj hc
        exact hplain trivial
      | cons stmt' q =>
        obtain ⟨rfl, -⟩ := List.cons.inj hc
        have hun := hq _ List.mem_cons_self
        cases stmt <;> first | exact hplain trivial | cases hun

/-- A context is resumed. -/
lemma WakeInv.resume {t : State} {c : Ctx} (hc : ∀ code ∈ c.stack, Idle code)
    (hstack : t.stack = c.stack)
    (hsaved : ∀ u, ∀ code ∈ (t.memory.sched.task u).context.stack, Idle code)
    (hserved : AllServed t) : WakeInv t := by
  refine ⟨?_, ?_, hsaved, hserved⟩
  · intro code tail htop
    exact .idle (hc code (by rw [← hstack, htop]; exact List.mem_cons_self))
  · rw [hstack]
    exact fun code hcode => hc code (List.mem_of_mem_tail hcode)

theorem WakeInv.step {s t : State} {op : Op} (h : WakeInv s) (hg : TicksUntorn s op)
    (hst : Step s op t) : WakeInv t := by
  have hbelow : ∀ {code : List Stmt} {tail : List (List Stmt)}, s.stack = code :: tail →
      ∀ d ∈ tail, Idle d := fun hstack d hd => h.below d (by rw [hstack]; exact hd)
  cases hst with
  | @tick uJiffies code tail hmask hstack =>
    have hidle : Idle code := by
      apply (h.top code tail hstack).of_unmasked hmask
      intro stmt hstmt
      cases code with
      | nil => cases hstmt
      | cons stmt' rest =>
        obtain rfl := Option.some.inj hstmt
        exact hg stmt' rest tail hstack
    refine ⟨?_, ?_, h.saved, h.served⟩
    · intro code' tail' htop
      obtain ⟨rfl, -⟩ := List.cons.inj htop
      apply Phase.idle
      simp [interruptTimerHandler, runTimer, lockAcquire, lockRelease, Idle, Stmt.Idle]
    · intro d hd
      rcases List.mem_cons.mp hd with rfl | hd
      · exact hidle
      · exact hbelow hstack d hd
  | @sigreturn code tail hstack =>
    refine ⟨?_, fun d hd => hbelow hstack d (List.mem_cons_of_mem _ hd), h.saved, h.served⟩
    intro code' tail' htop
    obtain ⟨rfl, -⟩ := List.cons.inj htop
    exact .idle (hbelow hstack _ List.mem_cons_self)
  | @call c code tail hallowed hstack =>
    refine ⟨?_, hbelow hstack, h.saved, h.served⟩
    intro code' tail' htop
    obtain ⟨rfl, -⟩ := List.cons.inj htop
    have hidle := (h.top _ tail hstack).of_not_plain id
    exact .idle ((idle_call c).append (hidle.cons trivial))
  | @ret code tail hcode hstack =>
    refine ⟨?_, hbelow hstack, h.saved, h.served⟩
    intro code' tail' htop
    obtain ⟨rfl, -⟩ := List.cons.inj htop
    exact .idle ((h.top _ tail hstack).of_not_plain id)
  | @run malloc stmt code tail t hfresh hstack hexec =>
    have hphase := h.top _ tail hstack
    cases ran_of_exec hexec with
    | @plain stmt memory hplain heff =>
      have ha : Advanced malloc stmt s { s with
          masked := stmt.mask s.masked
          stack := (stmt.next malloc s.masked s.memory.sched ++ code) :: tail
          memory := memory
          record := s.record.note s.memory.sched stmt } := ⟨heff, rfl, rfl⟩
      obtain ⟨htop, hserved⟩ := ha.phase hphase h.served
      refine ⟨?_, hbelow hstack, ?_, hserved⟩
      · intro code' tail' htop'
        obtain ⟨rfl, -⟩ := List.cons.inj htop'
        exact htop
      · intro u c hc
        rcases effect_context heff u with hctx | hctx | hctx <;> rw [hctx] at hc
        · exact h.saved u c hc
        · cases hc
        · rw [List.mem_singleton.mp hc]
          simp [taskEntrance, Idle, Stmt.Idle]
    | stuck hplain herr =>
      refine ⟨?_, hbelow hstack, h.saved, h.served⟩
      intro code' tail' htop'
      obtain ⟨rfl, -⟩ := List.cons.inj htop'
      exact (hphase.spin hplain herr).withStack _
    | @saveFrame next =>
      have hidle := hphase.of_not_plain id
      refine ⟨?_, hbelow hstack, ?_, h.served⟩
      · intro code' tail' htop'
        obtain ⟨rfl, -⟩ := List.cons.inj htop'
        exact .idle (Idle.cons trivial (hidle.cons trivial))
      · intro u c hc
        simp only [Sched.setTask_task] at hc
        split_ifs at hc
        · exact hbelow hstack c hc
        · exact h.saved u c hc
    | loadFrame =>
      refine ⟨?_, h.saved _, h.saved, h.served⟩
      intro code' tail' htop'
      obtain ⟨rfl, -⟩ := List.cons.inj htop'
      exact .idle (hphase.of_not_plain id)
    | @contextSwap temp next =>
      have hidle := hphase.of_not_plain id
      have hsaved : ∀ u, ∀ c ∈ ((s.swapped temp code tail).task u).context.stack, Idle c := by
        intro u c hc
        simp only [State.swapped, Sched.setTask_task] at hc
        split_ifs at hc
        · rcases List.mem_cons.mp hc with rfl | hc
          · exact hidle
          · exact hbelow hstack c hc
        · exact h.saved u c hc
      exact .resume (hsaved next) rfl hsaved h.served
    | contextSet => exact .resume (h.saved _) rfl h.saved h.served

/-- Tasks wait for semaphore `i` alone. -/
def OnlyWaits (i : SemaId) (s : State) : Prop :=
  ∀ j, j ≠ i → (s.memory.sched.sema j).waiters = []

lemma waiters_act {malloc : Option ℕ} {stmt : Stmt} {s s' : Sched Ctx} {i : SemaId}
    (hact : stmt.act malloc s = .ok s') (hne : stmt ≠ .semaQueue i)
    (hnil : (s.sema i).waiters = []) : (s'.sema i).waiters = [] := by
  by_cases htake : stmt = .semaTake i
  · subst htake
    obtain rfl := Except.ok.inj hact
    rw [Sched.setSema_sema_self]
    exact hnil
  by_cases hpop : stmt = .semaPop i
  · subst hpop
    rw [Stmt.act, hnil] at hact
    cases hact
  by_cases hinc : stmt = .semaInc i
  · subst hinc
    obtain rfl := Except.ok.inj hact
    rw [Sched.setSema_sema_self]
    exact hnil
  rw [act_sema hact hne htake hpop hinc]
  exact hnil

/-- A list of waiters grows by `list_append` in `sema_down` alone. -/
lemma waiters_step {s t : State} {op : Op} (hst : Step s op t) {i : SemaId}
    (hno : ∀ code tail, s.stack ≠ (.semaQueue i :: code) :: tail)
    (hnil : (s.memory.sched.sema i).waiters = []) : (t.memory.sched.sema i).waiters = [] := by
  cases hst with
  | tick | sigreturn | call | ret => exact hnil
  | @run malloc stmt code tail t hfresh hstack hexec =>
    cases ran_of_exec hexec with
    | saveFrame | loadFrame | contextSwap | contextSet | stuck => exact hnil
    | @plain stmt memory hplain heff =>
      rcases effect_cases heff with ⟨_, _, _, -, hrun, rfl⟩ | ⟨_, _, _, _, -, hs, -⟩ |
        ⟨_, _, _, _, _, -, rfl⟩ | ⟨sched, hact, rfl⟩
      · rw [(called_loop hrun).sema]
        exact hnil
      · rw [hs]
        exact hnil
      · exact hnil
      · have hne : stmt ≠ .semaQueue i := by
          rintro rfl
          exact hno code tail hstack
        exact waiters_act hact hne hnil

/-- The tests that a computed run can make of `LinksOnce`, where tasks wait for semaphore
`i` alone. -/
def linksOnce (i : SemaId) (s : Sched Ctx) : Stmt → Bool
  | .initZero t _ _ | .startReady t | .unblockPush t =>
    t ∉ s.taskReadyList ∧ t ∉ (s.sema i).waiters
  | .semaQueue j => j = i ∧ s.currentTask ∉ s.taskReadyList ∧ s.currentTask ∉ (s.sema i).waiters
  | .schedAppend | .timerLoop _ => false
  | _ => true

/-- No signal comes, and a task begins to wait for semaphore `i` at most. -/
def quiet (i : SemaId) (s : State) : Op → Bool
  | .tick _ => false
  | .run _ => (s.stack.head?.bind List.head?).all (linksOnce i s.memory.sched)
  | _ => true

lemma quiet_run {i : SemaId} {s : State} {malloc : Option ℕ} (h : quiet i s (.run malloc) = true)
    {stmt : Stmt} {code : List Stmt} {tail : List (List Stmt)}
    (hstack : s.stack = (stmt :: code) :: tail) : linksOnce i s.memory.sched stmt = true := by
  change Option.all _ _ = true at h
  rw [hstack] at h
  exact h

lemma OnlyWaits.step {i : SemaId} {s t : State} {op : Op} (hw : OnlyWaits i s)
    (h : quiet i s op = true) (hst : Step s op t) : OnlyWaits i t := by
  intro j hj
  refine waiters_step hst ?_ (hw j hj)
  intro code tail hstack
  cases hst with
  | tick => cases h
  | sigreturn hstack' | call hallowed hstack' | ret hcode hstack' =>
    cases hstack.symm.trans hstack'
  | run hfresh hstack' hexec => exact hj (of_decide_eq_true (quiet_run h hstack)).1

end Libtask.Machine
