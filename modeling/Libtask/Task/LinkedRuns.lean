import Libtask.Task.Simulation
import Libtask.Timer.Rounds

/-!
# The runs on the links

The runs of the scheduler with all timers, step for step on the links. They are bisimilar
to those on sequences: what is known of the latter is known of the program with its
intrusive lists, and no search or pop of a run goes astray.
-/
namespace Libtask.LinkedSched
open Agreement Timer Conservation Transition

variable {κ : Type} {p : LinkedSched κ} {s : Sched κ}

/-- Live tasks are counted, and all lists that are searched hold live tasks. -/
lemma counted_of_law {cur : Option TaskAddr} {wake : TaskAddr → ℕ}
    (h : Roster.Law cur wake s.roster) : Counted s := by
  have hnums : s.taskAllNums.toNat = s.taskAllList.length := by
    have heq : s.taskAllNums = s.taskAllList.length := h.nums_eq
    rw [heq, Int.toNat_natCast]
  have hle : ∀ l : List TaskAddr, l.Nodup → (∀ t ∈ l, t ∈ s.taskAllList) →
      l.length ≤ s.taskAllNums.toNat := by
    intro l hnodup hmem
    rw [hnums]
    exact (hnodup.subperm hmem).length_le
  constructor
  case ready =>
    refine hle _ (List.nodup_iff_count_le_one.mpr fun t => ?_) fun t ht => h.ready_mem ht
    have htokens := h.tokens_le t
    have hcount : s.roster.ready.count t = s.taskReadyList.count t := rfl
    unfold Roster.tokens at htokens
    omega
  case all => exact hle _ h.all_nodup fun t ht => ht
  case waiters => exact fun i => hle _ (h.waiters_nodup i) fun t ht => (h.waiting i t ht).1

/-- The running task waits for nothing. -/
lemma current_off {cur : TaskAddr} {wake : TaskAddr → ℕ}
    (h : Roster.Law (some cur) wake s.roster) : Off s cur := by
  obtain ⟨hready, hblocked, -⟩ := h.cur_alone
  exact ⟨hready, h.not_waiter hblocked⟩

lemma Linked.current (h : Linked p s) : p.current = s.current := by
  rw [LinkedSched.current, Sched.current, h.data.task, h.data.current]

lemma Linked.requestSleep (h : Linked p s) (millisecond : UInt32) :
    Linked (p.requestSleep millisecond) (s.requestSleep millisecond) := by
  unfold LinkedSched.requestSleep Sched.requestSleep
  rw [h.data.current]
  exact h.setTask s.currentTask _

lemma Linked.coEnableHookSys (h : Linked p s) : Linked p.coEnableHookSys s.coEnableHookSys := by
  unfold LinkedSched.coEnableHookSys Sched.coEnableHookSys
  rw [h.data.current]
  exact h.setTask s.currentTask _

section Tick

variable {timers : TimerState} {now : UInt32}

/-- One call in the walk of `run_timer`. -/
lemma call_agree {q : Addr} {rest : List Addr} (h : Linked p s)
    (hlaw : TimedLaw (q :: rest) timers s) :
    Agree (fun p s => Linked p s ∧ TimedLaw rest (rearmOrFree timers q) s)
      (callLibrary (timers.node q) p) (Conservation.callLibrary (timers.node q) s) := by
  refine (callLibrary_agree h (counted_of_law hlaw.law) ?_).and
    fun s' hs' => (hlaw.callLibrary hs').1
  intro hfn i
  obtain ⟨hheap, -, -⟩ := hlaw.linked.not_mem
  have hpos : 0 < wakes timers (timers.node q).pParam :=
    Finset.card_pos.mpr ⟨q, Finset.mem_filter.mpr ⟨hheap, hfn, rfl⟩⟩
  obtain ⟨-, -, hblocked, -⟩ := hlaw.law.wake_alone hpos
  exact hlaw.law.not_waiter hblocked i

/-- The walks of both schedulers, with the locks that were held at the start. -/
lemma twinInv_linked (s0 : Sched κ) : TwinInv onLinked (Sched.onSched Conservation.callLibrary)
    fun rest timers => Agree fun (p : LinkedSched κ) s =>
      Linked p s ∧ TimedLaw rest timers s ∧ LocksKept s0 s where
  keeps _ _ _ := rfl
  keeps' := keepsTimers_onSched Conservation.callLibrary
  call q rest timers r r' h := by
    refine h.bind fun p s _ _ ⟨hlinked, hlaw, hlocks⟩ => ?_
    have hcall := (call_agree hlinked hlaw).and
      (P := fun s' => LocksKept s0 s') fun s' hs' => hlocks.trans (hlaw.callLibrary hs').2.1.locks
    exact hcall.mono fun _ _ h => ⟨h.1.1, h.1.2, h.2⟩
  cascade _ _ _ h := h.mono fun _ _ h => ⟨h.1, h.2.1.cascade, h.2.2⟩
  tick _ _ _ h := h.mono fun _ _ h => ⟨h.1, ⟨h.2.1.law, h.2.1.linked, h.2.1.oneShot⟩, h.2.2⟩

/-- The timers are the same, and the schedulers are related. -/
def Timed (a : TimerState × LinkedSched κ) (b : TimerState × Sched κ) : Prop :=
  a.1 = b.1 ∧ Linked a.2 b.2

theorem runTimer_agree (h : Linked p s) (hlaw : TimedLaw [] timers s)
    (hfree : s.LockFree .timer) : Agree Timed (runTimer now timers p)
      (Sched.runTimer Conservation.callLibrary now timers s) := by
  unfold LinkedSched.runTimer Sched.runTimer
  refine (lockAcquire_agree h .timer).bind fun p1 s1 _ hs1 h1 => ?_
  rw [Sched.lockAcquire_of_free hfree] at hs1
  obtain rfl := Except.ok.inj hs1
  have hstart : Agree (ε := Stop) (fun p s' => Linked p s' ∧ TimedLaw [] timers s' ∧
      LocksKept (s.held .timer) s') (.ok p1) (.ok (s.held .timer)) :=
    .ok ⟨h1, hlaw.held hfree, rfl, fun _ _ => rfl, rfl⟩
  have hloop := (twinInv_linked (s.held .timer)).loop now (2 ^ 32) timers hstart
  generalize Sched.runTimerLoop onLinked now (2 ^ 32) (timers, .ok p1) = a at hloop ⊢
  generalize Sched.runTimerLoop (Sched.onSched Conservation.callLibrary) now (2 ^ 32)
    (timers, .ok (s.held .timer)) = b at hloop ⊢
  cases hloop with
  | none => exact .error _
  | @some a b hab =>
    obtain ⟨timers1, r⟩ := a
    obtain ⟨timers2, r'⟩ := b
    obtain ⟨rfl, hagree⟩ := hab
    refine hagree.bind fun p2 s2 _ _ ⟨h2, _, hlocks⟩ => ?_
    -- the lock is still held, and nobody waits for it
    have hnone : (s2.sema (.ofLock .timer)).waiters = [] := by
      rw [hlocks.sema .timer (by decide)]
      simp [Sched.held]
    refine (lockRelease_agree h2 hnone).bind fun p3 s3 _ _ h3 => ?_
    exact .ok ⟨rfl, h3⟩

lemma createTimerLocked_agree (h : Linked p s) (hfree : s.LockFree .timer) (q : Addr)
    (fn : TimerFn) (pParam : ℕ) (due period : UInt32) :
    Agree Timed (createTimerLocked timers p q fn pParam due period)
      (Sched.createTimerLocked timers s (some q) fn pParam due period) := by
  unfold LinkedSched.createTimerLocked Sched.createTimerLocked
  refine (lockAcquire_agree h .timer).bind fun p1 s1 _ hs1 h1 => ?_
  rw [Sched.lockAcquire_of_free hfree] at hs1
  obtain rfl := Except.ok.inj hs1
  have hnone : ((s.held .timer).sema (.ofLock .timer)).waiters = [] := by simp [Sched.held]
  refine (lockRelease_agree h1 hnone).bind fun p2 s2 _ _ h2 => ?_
  exact .ok ⟨rfl, h2⟩

/-- The timers and the frame are the same, and the schedulers are related. -/
def TimedBeside (a : TimerState × LinkedSched κ × κ) (b : TimerState × Sched κ × κ) : Prop :=
  a.1 = b.1 ∧ Linked a.2.1 b.2.1 ∧ a.2.2 = b.2.2

theorem interruptTimerHandler_agree (h : Linked p s) (hlaw : TimedLaw [] timers s)
    (hfree : s.LockFree .timer) (q : Addr) (frame : κ) :
    Agree TimedBeside (interruptTimerHandler now q timers p frame)
      (Sched.interruptTimerHandler Conservation.callLibrary now (some q) timers s frame) := by
  unfold LinkedSched.interruptTimerHandler Sched.interruptTimerHandler
  rw [h.current]
  refine (agree_assert Iff.rfl).bind fun _ _ _ _ _ => ?_
  have h1 : Linked _ s.tickBegun := h.setTask s.currentTask fun p => { p with
    elapsedTicks := p.elapsedTicks + 1 }
  have hfree1 : s.tickBegun.LockFree .timer := hfree
  rw [h.data.current]
  refine (runTimer_agree h1 hlaw.tickBegun hfree1).bind ?_
  rintro ⟨timers1, p2⟩ ⟨timers2, s2⟩ - hs2 ⟨htimers, h2⟩
  change timers1 = timers2 at htimers
  subst htimers
  change Linked p2 s2 at h2
  obtain ⟨hlaw2, hticked, -⟩ := hlaw.tickBegun.runLibrary hfree1 hs2
  have hfree2 := hticked.locks.free (by decide) hfree1
  dsimp only
  rw [h2.current, h2.data.current]
  refine .ite Iff.rfl (fun _ _ => ?_) fun _ _ => .ite Iff.rfl (fun _ _ => ?_) fun _ _ => ?_
  · have hsched := schedule_agree h2 (counted_of_law hlaw2.law) (current_off hlaw2.law).2 frame
    refine hsched.bind ?_
    rintro ⟨p3, k⟩ ⟨s3, k'⟩ - - ⟨h3, hk⟩
    exact .ok ⟨rfl, h3, hk⟩
  · have h3 := h2.setTask s2.currentTask fun p => { p with ticks := p.ticks - 1 }
    exact .ok ⟨rfl, h3, rfl⟩
  · refine (createTimerLocked_agree h2 hfree2 q _ _ _ _).bind ?_
    rintro ⟨timers3, p3⟩ ⟨timers4, s3⟩ - - ⟨htimers, h3⟩
    refine (collaborativeSchedule_agree h3 frame).bind ?_
    rintro ⟨p4, k⟩ ⟨s4, k'⟩ - - ⟨h4, hk⟩
    exact .ok ⟨htimers, h4, hk⟩

end Tick

lemma Linked.setTids (h : Linked p s) (start : UInt32) (btmp : Bitmap) :
    Linked { p with tidStart := start, tidBitmap := btmp }
      { s with tidStart := start, tidBitmap := btmp } := by
  apply h.changed
  · obtain ⟨ht⟩ := h
    rfl
  · rfl

lemma Linked.setMain (h : Linked p s) (alloc : Finset ℕ) (mem : TaskAddr) :
    Linked { p with alloc := alloc, mainTask := mem }
      { s with alloc := alloc, mainTask := mem } := by
  apply h.changed
  · obtain ⟨ht⟩ := h
    rfl
  · rfl

/-- A semaphore and a list for it, whatever they were. -/
lemma Linked.semaInit (h : Linked p s) (i : SemaId) (v : UInt8) :
    Linked (p.semaInit i v) (s.setSema i fun _ => Libtask.semaInit v) := by
  have hset : s.setSema i (fun _ => Libtask.semaInit v) =
      (s.setSema i fun p => { p with value := v }).setSema i fun p => { p with waiters := [] } := by
    simp [Sched.setSema, Libtask.semaInit]
  rw [hset]
  apply (h.setValue i fun _ => v).listInit
  · exact contents_setSema ..
  · exact ofSched_setSema _ i rfl

theorem Linked.tidPoolInit (h : Linked p s) : Linked p.tidPoolInit s.tidPoolInit :=
  ((h.setTids 1 _).setLock .tid _).semaInit (.ofLock .tid) 1

section Start

variable [Inhabited κ] (value : SemaId → UInt8)

/-- Before `task_init`, the waiters lists are the only ones. -/
def bootContents : Intrusive.Contents TaskList TagAddr
  | .waiters _ => some []
  | _ => none

lemma bootContents_eq_nil {j : TaskList} {l : List TagAddr} (hl : bootContents j = some l) :
    l = [] := by
  cases j with
  | waiters i => exact (Option.some.inj hl).symm
  | _ => cases hl

lemma terminated_boot : Intrusive.Terminated (boot (κ := κ) value).links bootContents := by
  constructor
  case represents =>
    constructor
    case seg =>
      intro j l hl
      obtain rfl := bootContents_eq_nil hl
      cases j with
      | waiters i => exact ⟨rfl, rfl⟩
      | _ => cases hl
    case nodup =>
      intro j l hl
      rw [bootContents_eq_nil hl]
      exact List.nodup_nil
    case disjoint =>
      rintro i j e ⟨l, hl, hmem⟩ -
      rw [bootContents_eq_nil hl] at hmem
      cases hmem
  case last =>
    intro j l hl
    cases j with
    | waiters i => rfl
    | _ => cases hl

lemma contents_boot : contents (κ := κ) (Sched.boot value) =
    Function.update (Function.update (Function.update bootContents .ready (some [])) .all
      (some [])) .pool (some []) := by
  ext1 j
  cases j with
  | waiters i => cases i <;> rfl
  | _ => rfl

lemma linked_boot : Linked { (((boot (κ := κ) value).listInit .ready).listInit .all).listInit .pool
    with taskAllNums := 0 } (Sched.boot value) := by
  have hinit := (((terminated_boot (κ := κ) value).init .ready).init .all).init .pool
  have hvalue : (boot (κ := κ) value).value =
      fun i => ((Sched.boot (κ := κ) value).sema i).value := by
    ext1 i
    cases i <;> rfl
  rw [← contents_boot (κ := κ) value] at hinit
  have h := Linked.intro hinit
  rw [ofSched, ← hvalue] at h
  exact h

theorem taskInit_agree (mem stack : ℕ) :
    Agree Linked ((boot (κ := κ) value).taskInit mem stack)
      ((Sched.boot value).taskInit mem stack) := by
  have h1 := (linked_boot (κ := κ) value).tidPoolInit
  have h2 := h1.setMain (insert mem ∅) mem
  have hwaiters : ∀ i, ((Sched.boot (κ := κ) value).tidPoolInit.sema i).waiters = [] := by
    intro i
    by_cases hi : i = .ofLock .tid
    · subst hi
      rw [Sched.tidPoolInit, Sched.setSema_sema_self]
      rfl
    · rw [Sched.tidPoolInit, Sched.setSema_sema_of_ne _ _ hi]
      cases i <;> rfl
  have hinit := @initTask_agree _ _ _ _ mem stack [109, 97, 105, 110] 3 h2 ⟨rfl, rfl⟩
    ⟨List.not_mem_nil, fun i => by simp [hwaiters i]⟩ List.not_mem_nil List.not_mem_nil
  unfold LinkedSched.taskInit Sched.taskInit
  refine hinit.bind fun p3 s3 _ hs3 h3 => ?_
  have hsame := sameLists_initTask (by exact ⟨rfl, rfl⟩) hs3
  have hall : s3.taskAllList = [] := hsame.all
  have hfind := h3.elemFind (i := .all) rfl (by simp [hall]) ⟨p3.mainTask, .allList⟩
  simp only [mem_tags, h3.data.main] at hfind
  rw [← bind_assoc, h3.data.main]
  refine (agree_notFound hfind).bind fun _ _ _ _ hnew => ?_
  obtain ⟨p4, happ, h4⟩ := h3.appendAll hnew
  rw [happ, ok_bind, h4.data.nums]
  exact .ok (h4.setNums _)

end Start

/-- As `Conservation.perform`, on the links. -/
def perform [Inhabited κ] (s : LinkedSched κ) (here entry : κ) :
    TaskCall → Except Stop (LinkedSched κ × Option κ)
  | .taskStart mem stack name prio => do
    let (s, _) ← s.taskStart mem stack name prio entry
    return (s, none)
  | .taskExit => do
    let (s, k) ← s.taskExit s.currentTask
    return (s, some k)
  | .taskBlock status => do
    let (s, k) ← s.taskBlock status here
    return (s, some k)
  | .taskUnblock ptask => do
    let s ← s.taskUnblock ptask
    return (s, none)
  | .semaDown psema => s.semaDown psema here
  | .semaUp psema => do
    let s ← s.semaUp psema
    return (s, none)
  | .sleep millisecond => return (s.requestSleep millisecond, none)
  | .coEnableHookSys => return (s.coEnableHookSys, none)

/-- What a caller promises about a block or a task, said with the searches of the program. -/
def Promised (s : LinkedSched κ) : TaskCall → Prop
  | .taskStart mem _ _ _ => s.elemFind .all ⟨mem, .allList⟩ = .ok false ∧ mem ≠ s.mainTask
  | .taskUnblock ptask => s.elemFind .all ⟨ptask, .allList⟩ = .ok true ∧
      ∀ i, s.elemFind (.waiters i) ⟨ptask, .general⟩ = .ok false
  | .semaDown psema | .semaUp psema => Sched.Callers psema
  | .sleep _ => s.current.isHook = true
  | .taskExit | .taskBlock _ | .coEnableHookSys => True

section Perform

variable {wake : TaskAddr → ℕ} {call : TaskCall}

lemma promised_iff (h : Linked p s) (hcount : Counted s) :
    p.Promised call ↔ Conservation.Promised s call := by
  cases call with
  | taskStart mem stack name prio =>
    simp only [LinkedSched.Promised, Conservation.Promised, h.findAll hcount, Except.ok.injEq,
      decide_eq_false_iff_not, h.data.main]
  | taskUnblock ptask =>
    simp only [LinkedSched.Promised, Conservation.Promised, h.findAll hcount,
      h.findWaiters hcount, Except.ok.injEq, decide_eq_true_iff, decide_eq_false_iff_not]
  | sleep millisecond => rw [LinkedSched.Promised, Conservation.Promised, h.current]
  | _ => exact Iff.rfl

/-- A result beside a constant. -/
lemma agree_pair {x : Except Stop (LinkedSched κ)} {y : Except Stop (Sched κ)}
    (h : Agree Linked x y) : Agree (Beside (γ := Option κ) Linked)
      (x >>= fun s => .ok (s, none)) (y >>= fun s => .ok (s, none)) :=
  h.bind fun _ _ _ _ h => .ok ⟨h, rfl⟩

lemma agree_dispatch {x : Except Stop (LinkedSched κ × κ)} {y : Except Stop (Sched κ × κ)}
    (h : Agree (Beside Linked) x y) : Agree (Beside Linked)
      (x >>= fun a => .ok (a.1, some a.2)) (y >>= fun a => .ok (a.1, some a.2)) :=
  h.bind fun _ _ _ _ h => .ok ⟨h.1, congrArg some h.2⟩

/-- Every call agrees. -/
theorem perform_agree [Inhabited κ] (h : Linked p s)
    (hlaw : Roster.Law (some s.currentTask) wake s.roster) (hfree : s.LockFree .tid)
    (hpromise : Conservation.Promised s call) (here entry : κ) :
    Agree (Beside Linked) (p.perform here entry call) (Conservation.perform s here entry call) := by
  have hcount := counted_of_law hlaw
  obtain ⟨hoff, hwait⟩ := current_off hlaw
  cases call with
  | taskStart mem stack name prio =>
    obtain ⟨hall, -⟩ := hpromise
    refine (taskStart_agree h hcount hfree (fun u hu => (hlaw.pool_died u hu).1)
      ⟨fun hm => hall (hlaw.ready_mem hm), fun i hm => hall (hlaw.waiting i mem hm).1⟩ hall
      entry).bind ?_
    exact fun _ _ _ _ h => .ok ⟨h.1, rfl⟩
  | taskExit =>
    have hexit : Agree (Beside Linked) (p.taskExit p.currentTask) (s.taskExit s.currentTask) := by
      rw [h.data.current]
      exact taskExit_agree h hcount hfree hlaw.cur_mem
        fun hm => (hlaw.pool_died _ hm).2 hlaw.cur_mem
    exact agree_dispatch hexit
  | taskBlock status => exact agree_dispatch (taskBlock_agree h status here)
  | taskUnblock ptask => exact agree_pair (taskUnblock_agree h hcount hpromise.2)
  | semaDown psema => exact semaDown_agree h hcount hoff (fun j _ => hwait j) here
  | semaUp psema =>
    refine agree_pair (semaUp_agree h (fun _ => hcount) (hlaw.waiters_nodup psema) ?_)
    exact fun j hj t ht ht' => hj (hlaw.waiters_once j psema t ht' ht)
  | sleep millisecond => exact .ok ⟨h.requestSleep millisecond, rfl⟩
  | coEnableHookSys => exact .ok ⟨h.coEnableHookSys, rfl⟩

end Perform

/-- As `TaskRun`, on the links. -/
structure LinkedRun where
  timers : TimerState
  sched : LinkedSched Resume
  pc : Resume

def LinkedRun.InTask (s : LinkedRun) : Prop :=
  s.pc = .user ∧ s.sched.current.isCollaborativeSchedule = false

def LinkedRun.MayCall (s : LinkedRun) (call : TaskCall) : Prop :=
  s.InTask ∨ ∃ psema, call = .semaDown psema ∧ s.pc = .semaDown psema

/-- A tick has begun. -/
def tickBegun (s : LinkedSched κ) : LinkedSched κ :=
  s.setTask s.currentTask fun p => { p with elapsedTicks := p.elapsedTicks + 1 }

/-- The operations of `TaskStep`, with the callbacks of the library. -/
inductive LinkedStep (s : LinkedRun) : TaskOp → LinkedRun → Prop
  | call {call : TaskCall} {sched : LinkedSched Resume} {k : Option Resume} (hmay : s.MayCall call)
      (hpromise : s.sched.Promised call)
      (h : s.sched.perform call.back .user call = .ok (sched, k)) :
      LinkedStep s (.call call) { s with sched := sched, pc := k.getD .user }
  | tick {now : UInt32} {p : Addr} {timers : TimerState} {sched : LinkedSched Resume} {pc : Resume}
      (hmalloc : ∀ timers1 m, runTimer now s.timers s.sched.tickBegun = .ok (timers1, m) →
        p ∉ timers1.heap)
      (h : interruptTimerHandler now p s.timers s.sched s.pc = .ok (timers, sched, pc)) :
      LinkedStep s (.tick now p) ⟨timers, sched, pc⟩
  | createTimer {p : Addr} {f pParam : ℕ} {due period : UInt32} (hin : s.InTask)
      (hmalloc : p ∉ s.timers.heap) :
      LinkedStep s (.createTimer p f pParam due period) { s with
        timers := (Timer.createTimer s.timers (some p) (some (.user f)) pParam due period).1 }
  | deleteTimer {p : Addr} {f : ℕ} (hin : s.InTask) (hp : p ∈ s.timers.heap)
      (hf : (s.timers.node p).timerFn = .user f) :
      LinkedStep s (.deleteTimer p) { s with timers := Timer.deleteTimer s.timers p }

def linkedSystem : System LinkedRun TaskOp where
  init s := ∃ value mem stack b, (boot value).taskInit mem stack = .ok s.sched ∧
    s.timers = timerInit b ∧ s.pc = .user
  step := LinkedStep

/-- The same run, and the law for its sequences. -/
structure Related (a : LinkedRun) (b : TaskRun) : Prop where
  linked : Linked a.sched b.sched
  timers : a.timers = b.timers
  pc : a.pc = b.pc
  inv : TaskInv b

section Related

variable {a : LinkedRun} {b : TaskRun} (h : Related a b)
include h

lemma Related.counted : Counted b.sched := counted_of_law h.inv.timed.law

lemma Related.inTask : a.InTask ↔ b.InTask := by
  rw [LinkedRun.InTask, TaskRun.InTask, h.pc, h.linked.current]

lemma Related.mayCall (call : TaskCall) : a.MayCall call ↔ b.MayCall call := by
  rw [LinkedRun.MayCall, TaskRun.MayCall, h.inTask, h.pc]

lemma Related.performs {call : TaskCall} (hpromise : Conservation.Promised b.sched call) :
    Agree (Beside Linked) (a.sched.perform call.back .user call)
      (Conservation.perform b.sched call.back .user call) :=
  perform_agree h.linked h.inv.timed.law (h.inv.free .tid (by decide)) hpromise _ _

lemma Related.runs (now : UInt32) : Agree Timed (runTimer now a.timers a.sched.tickBegun)
    (Sched.runTimer Conservation.callLibrary now b.timers b.sched.tickBegun) := by
  have hfree : b.sched.tickBegun.LockFree .timer := h.inv.free .timer (by decide)
  rw [h.timers, tickBegun, h.linked.data.current]
  exact runTimer_agree (h.linked.setTask b.sched.currentTask _) h.inv.timed.tickBegun hfree

lemma Related.handles (now : UInt32) (q : Addr) :
    Agree TimedBeside (interruptTimerHandler now q a.timers a.sched a.pc)
      (Sched.interruptTimerHandler Conservation.callLibrary now (some q) b.timers b.sched
        b.pc) := by
  rw [h.timers, h.pc]
  exact interruptTimerHandler_agree h.linked h.inv.timed (h.inv.free .timer (by decide)) q b.pc

theorem Related.left {a' : LinkedRun} {op : TaskOp} (hst : LinkedStep a op a') :
    ∃ b', TaskStep Conservation.callLibrary b op b' ∧ Related a' b' := by
  suffices hsuff : ∃ b', TaskStep Conservation.callLibrary b op b' ∧ Linked a'.sched b'.sched ∧
      a'.timers = b'.timers ∧ a'.pc = b'.pc by
    obtain ⟨b', hst', hlinked, htimers, hpc⟩ := hsuff
    exact ⟨b', hst', hlinked, htimers, hpc, h.inv.step hst'⟩
  cases hst with
  | @call call _ _ hmay hpromise hrun =>
    have hpromise' := (promised_iff h.linked h.counted).mp hpromise
    obtain ⟨⟨sched, k⟩, hrun', hlinked, hk⟩ := (h.performs hpromise').ok_of hrun
    exact ⟨_, .call ((h.mayCall call).mp hmay) hpromise' hrun', hlinked, h.timers,
      congrArg (Option.getD · _) hk⟩
  | @tick now p _ _ _ hmalloc hrun =>
    obtain ⟨⟨timers, sched, pc⟩, hrun', htimers, hlinked, hpc⟩ := (h.handles now p).ok_of hrun
    refine ⟨_, .tick ?_ hrun', hlinked, htimers, hpc⟩
    intro timers1 m hrt
    obtain ⟨⟨timers2, m'⟩, hrt', rfl, -⟩ := (h.runs now).of_ok hrt
    exact hmalloc timers2 m' hrt'
  | createTimer hin hp =>
    refine ⟨_, .createTimer (h.inTask.mp hin) (h.timers ▸ hp), h.linked, ?_, h.pc⟩
    dsimp only
    rw [h.timers]
  | deleteTimer hin hp hf =>
    refine ⟨_, .deleteTimer (h.inTask.mp hin) (h.timers ▸ hp) (h.timers ▸ hf), h.linked, ?_, h.pc⟩
    dsimp only
    rw [h.timers]

theorem Related.right {b' : TaskRun} {op : TaskOp}
    (hst : TaskStep Conservation.callLibrary b op b') :
    ∃ a', LinkedStep a op a' ∧ Related a' b' := by
  suffices hsuff : ∃ a', LinkedStep a op a' ∧ Linked a'.sched b'.sched ∧ a'.timers = b'.timers ∧
      a'.pc = b'.pc by
    obtain ⟨a', hst', hlinked, htimers, hpc⟩ := hsuff
    exact ⟨a', hst', hlinked, htimers, hpc, h.inv.step hst⟩
  cases hst with
  | @call call _ _ hmay hpromise hrun =>
    obtain ⟨⟨sched, k⟩, hrun', hlinked, hk⟩ := (h.performs hpromise).of_ok hrun
    exact ⟨_, .call ((h.mayCall call).mpr hmay) ((promised_iff h.linked h.counted).mpr hpromise)
      hrun', hlinked, h.timers, congrArg (Option.getD · _) hk⟩
  | @tick now p _ _ _ hmalloc hrun =>
    obtain ⟨⟨timers, sched, pc⟩, hrun', htimers, hlinked, hpc⟩ := (h.handles now p).of_ok hrun
    refine ⟨_, .tick ?_ hrun', hlinked, htimers, hpc⟩
    intro timers1 m hrt
    obtain ⟨⟨timers2, m'⟩, hrt', rfl, -⟩ := (h.runs now).ok_of hrt
    exact hmalloc _ m' hrt'
  | createTimer hin hp =>
    refine ⟨_, .createTimer (h.inTask.mpr hin) (h.timers.symm ▸ hp), h.linked, ?_, h.pc⟩
    dsimp only
    rw [h.timers]
  | deleteTimer hin hp hf =>
    refine ⟨_, .deleteTimer (h.inTask.mpr hin) (h.timers.symm ▸ hp) (h.timers.symm ▸ hf), h.linked,
      ?_, h.pc⟩
    dsimp only
    rw [h.timers]

end Related

/-- Whatever the scheduler does on its links it does on sequences too, and the other way
round. -/
theorem bisimulation : Bisimulation linkedSystem taskSystem Related where
  initLeft := by
    rintro ⟨timers, sched, pc⟩ ⟨value, mem, stack, b, hinit, rfl, rfl⟩
    obtain ⟨sched', hinit', hlinked⟩ := (taskInit_agree value mem stack).ok_of hinit
    have hinit'' : taskSystem.init ⟨timerInit b, sched', .user⟩ :=
      ⟨value, mem, stack, b, hinit', rfl, rfl⟩
    exact ⟨_, hinit'', hlinked, rfl, rfl, taskInv_of_reachable (.init hinit'')⟩
  initRight := by
    rintro ⟨timers, sched, pc⟩ ⟨value, mem, stack, b, hinit, rfl, rfl⟩
    obtain ⟨sched', hinit', hlinked⟩ := (taskInit_agree value mem stack).of_ok hinit
    refine ⟨⟨timerInit b, sched', .user⟩, ⟨value, mem, stack, b, hinit', rfl, rfl⟩, hlinked, rfl,
      rfl, ?_⟩
    exact taskInv_of_reachable (.init ⟨value, mem, stack, b, hinit, rfl, rfl⟩)
  left _ _ _ _ h hst := h.left hst
  right _ _ _ _ h hst := h.right hst

/-- The same operation, to related states. -/
def Alongside (x : TaskOp × LinkedRun) (y : TaskOp × TaskRun) : Prop :=
  x.1 = y.1 ∧ Related x.2 y.2

/-- From the start on, the runs on the links and those on sequences go alongside. -/
theorem same_runs :
    (∀ a, linkedSystem.init a → ∃ b, taskSystem.init b ∧ Related a b ∧
      ∀ run, linkedSystem.Run unguarded a run →
        ∃ run', taskSystem.Run unguarded b run' ∧ List.Forall₂ Alongside run run') ∧
    ∀ b, taskSystem.init b → ∃ a, linkedSystem.init a ∧ Related a b ∧
      ∀ run', taskSystem.Run unguarded b run' →
        ∃ run, linkedSystem.Run unguarded a run ∧ List.Forall₂ Alongside run run' := by
  constructor
  · intro a ha
    obtain ⟨b, hb, hab⟩ := bisimulation.initLeft a ha
    exact ⟨b, hb, hab, fun run hrun => bisimulation.run hrun hab⟩
  · intro b hb
    obtain ⟨a, ha, hab⟩ := bisimulation.initRight b hb
    refine ⟨a, ha, hab, fun run' hrun => ?_⟩
    obtain ⟨run, hrun', hall⟩ := bisimulation.symm.run hrun hab
    exact ⟨run, hrun', hall.flip.imp fun _ _ h => ⟨h.1.symm, h.2⟩⟩

/-- A list of the program reads as the tags of a sequence of tasks. -/
def ReadsTasks (s : LinkedSched κ) (plist : TaskList) (tag : TaskTag) (l : List TaskAddr) : Prop :=
  Intrusive.ReadsAs s.links plist (l.map fun t => ⟨t, tag⟩) (l.length % 2 ^ 32)

/-- The lists read as a roster that obeys the law, in which a task is looked up by its id. -/
structure WellLinked (s : LinkedRun) (r : Roster) : Prop where
  status : r.status = fun t => (s.sched.task t).status
  nums : r.nums = s.sched.taskAllNums
  ready : ReadsTasks s.sched .ready .general r.ready
  all : ReadsTasks s.sched .all .allList r.all
  pool : ReadsTasks s.sched .pool .pool r.pool
  waiters : ∀ i, ReadsTasks s.sched (.waiters i) .general (r.waiters i)
  law : Roster.Law (some s.sched.currentTask) (wakes s.timers) r
  lookup : ∀ tid, s.sched.tid2task tid =
    .ok (r.all.find? fun t => (s.sched.task t).tid.toInt32 = tid.toInt32)

lemma Linked.readsTasks (h : Linked p s) {plist : TaskList} {tag : TaskTag} {l : List TaskAddr}
    (hl : contents s plist = some (l.map fun t => ⟨t, tag⟩)) : ReadsTasks p plist tag l := by
  obtain ⟨ht⟩ := h
  have hreads := ht.represents.readsAs hl
  rwa [List.length_map] at hreads

lemma Related.wellLinked {a : LinkedRun} {b : TaskRun} (h : Related a b) :
    WellLinked a b.sched.roster where
  status := by
    rw [h.linked.data.task]
    rfl
  nums := h.linked.data.nums.symm
  ready := h.linked.readsTasks rfl
  all := h.linked.readsTasks rfl
  pool := h.linked.readsTasks rfl
  waiters _ := h.linked.readsTasks rfl
  law := by
    rw [h.linked.data.current, h.timers]
    exact h.inv.timed.law
  lookup tid := by
    rw [tid2task_eq h.linked h.counted, h.linked.data.task]
    rfl

theorem wellLinked_of_reachable {a : LinkedRun} (ha : linkedSystem.Reachable a) :
    ∃ r, WellLinked a r := by
  obtain ⟨b, -, hab⟩ := bisimulation.reachable ha
  exact ⟨b.sched.roster, hab.wellLinked⟩

/-- The main task runs, and a task that it has started is ready. -/
theorem wellLinked_pair : ∃ a, linkedSystem.Reachable a ∧ a.sched.currentTask = 1 ∧
    a.sched.listEmpty .ready = false ∧ ∃ r, WellLinked a r := by
  obtain ⟨b, hb⟩ := exists_pair
  obtain ⟨a, ha, hab⟩ := bisimulation.symm.reachable hb
  refine ⟨a, ha, hab.linked.data.current, ?_, wellLinked_of_reachable ha⟩
  rw [← Bool.not_eq_true, hab.linked.emptyReady]
  exact List.cons_ne_nil _ _

end Libtask.LinkedSched
