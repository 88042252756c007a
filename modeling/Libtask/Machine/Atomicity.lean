import Libtask.Machine.Rest

/-!
# Calls are atomic

In runs in which no signal comes in the middle of a call, the machine of statements does
what the scheduler of atomic operations does: from rest to rest it makes one operation at
most, on the same timers, tasks and semaphores, and each saved context is where the
scheduler says that the task goes on.
-/
namespace Libtask.Machine
open Transition Timer Settling Sched Conservation

/-- The scheduler with the places where its tasks go on. -/
def abstracted (s : Sched Ctx) : Sched Resume := s.mapContext Ctx.resume

/-- The state of atomic operations that a state at rest stands for. A task whose call of
`sema_down` has masked the signal, and has not tested the value yet, is before the
operation. -/
structure Tracks (s : State) (r : TaskRun) : Prop where
  timers : r.timers = s.memory.timers
  sched : r.sched = abstracted s.memory.sched
  parked : Parked (saved s.memory.sched s.memory.sched.currentTask).2 s.stack
  off : OffCpu s.memory.sched
  here : r.pc = resumeAt s.stack ∨ r.pc = .user ∧ s.masked = true

/-- At most one operation further. -/
def Soon (r : TaskRun) (s : State) : Prop :=
  ∃ r', Tracks s r' ∧ (r' = r ∨ ∃ op, heapSystem.step r op r')

variable {s s' : Sched Ctx} {b : Bool} {stack : List (List Stmt)} {timers : TimerState}
  {pc : Resume}

/-- A state at rest that stands for a state reached by atomic operations, part by part. -/
structure Stands (b : Bool) (stack : List (List Stmt)) (timers : TimerState) (s : Sched Ctx)
    (pc : Resume) : Prop where
  parked : Parked (saved s s.currentTask).2 stack
  off : OffCpu s
  here : pc = resumeAt stack ∨ pc = .user ∧ b = true
  run : heapSystem.Reachable ⟨timers, abstracted s, pc⟩

lemma Stands.goes (h : Stands b stack timers s pc) {r : TaskRun}
    (hr : ⟨timers, abstracted s, pc⟩ = r ∨ ∃ op, heapSystem.step r op ⟨timers, abstracted s, pc⟩) :
    Goes (Soon r) b stack timers s :=
  ⟨fun _ _ => safe_of_good h.parked.rests ⟨_, ⟨rfl, rfl, h.parked, h.off, h.here⟩, hr⟩⟩

/-- From here, rest comes after one operation at most. -/
abbrev Arrives (b : Bool) (code : List Stmt) (timers : TimerState) (s : Sched Ctx) (pc : Resume) :
    Prop := Goes (Soon ⟨timers, abstracted s, pc⟩) b [code] timers s

/-- What the run of atomic operations is known to keep. -/
lemma Stands.inv (h : Stands b stack timers s pc) : TaskInv ⟨timers, abstracted s, pc⟩ :=
  taskInv_of_reachable (heap_reachable h.run)

/-- Outside of `sema_down`, what is saved is that the flow is in its own code. -/
lemma Stands.pc_eq (h : Stands b stack timers s pc) (hstack : resumeAt stack = .user) :
    pc = .user := by
  rcases h.here with hpc | ⟨hpc, -⟩
  · exact hpc.trans hstack
  · exact hpc

lemma Stands.free (h : Stands b stack timers s pc) {l : LockId} (hl : l ∈ libraryLocks) :
    s.LockFree l := h.inv.free l hl

/-- After an operation that leaves the running task where it is. -/
lemma Stands.stay (h : Stands b stack timers s pc) {code : List Stmt} {timers' : TimerState}
    (hcode : InUser code) (hflag : (saved s' s'.currentTask).2 = false) (hoff : OffCpu s')
    (op : TaskOp)
    (hst : heapSystem.step ⟨timers, abstracted s, pc⟩ op ⟨timers', abstracted s', .user⟩)
    (b' : Bool) : Goes (Soon ⟨timers, abstracted s, pc⟩) b' [code] timers' s' := by
  have hparked : Parked (saved s' s'.currentTask).2 [code] := by
    rw [hflag]
    exact ⟨code, rfl, .user hcode⟩
  have h' : Stands b' [code] timers' s' .user :=
    ⟨hparked, hoff, .inl hcode.resumeAt.symm, h.run.step trivial hst⟩
  exact h'.goes (.inr ⟨op, hst⟩)

/-- After an operation that dispatches a task. -/
lemma Stands.switch (h : Stands b stack timers s pc) {timers' : TimerState} {k : Ctx}
    (op : TaskOp)
    (hst : heapSystem.step ⟨timers, abstracted s, pc⟩ op ⟨timers', abstracted s', k.resume⟩)
    (hparked : s'.currentTask ∈ s'.taskAllList →
      Parked (saved s' s'.currentTask).2 k.stack ∧ OffCpu s')
    (b' : Bool) : Goes (Soon ⟨timers, abstracted s, pc⟩) b' k.stack timers' s' := by
  have hrun := h.run.step trivial hst
  have hcur : s'.currentTask ∈ s'.taskAllList := 
    (taskInv_of_reachable (heap_reachable hrun)).timed.law.cur_mem
  obtain ⟨hstack, hoff⟩ := hparked hcur
  have h' : Stands b' k.stack timers' s' k.resume := ⟨hstack, hoff, .inl rfl, hrun⟩
  exact h'.goes (.inr ⟨op, hst⟩)

section Calls

variable {code : List Stmt}

/-- A user that is about to call. -/
structure Calling (b : Bool) (code : List Stmt) (timers : TimerState) (s : Sched Ctx) : Prop where
  tracks : Stands b [.user :: code] timers s .user
  code : InUser (.user :: code)

lemma Calling.awake (h : Calling b code timers s) : s.current.isCollaborativeSchedule = false :=
  h.tracks.parked.atRest.awake

lemma Calling.inTask (h : Calling b code timers s) :
    TaskRun.InTask ⟨timers, abstracted s, .user⟩ := ⟨rfl, h.awake⟩

/-- The call as an operation of the atomic scheduler. -/
lemma Calling.performs (h : Calling b code timers s) (call : TaskCall)
    (hfresh : Fresh ⟨timers, abstracted s, .user⟩ (.call call))
    (hpromise : Promised (abstracted s) call) {k : Option Resume}
    (hp : Performed (abstracted s) call.back .user call (abstracted s') k) :
    heapSystem.step ⟨timers, abstracted s, .user⟩ (.call call)
      ⟨timers, abstracted s', k.getD .user⟩ :=
  ⟨hfresh, .of_performed call (.inl h.inTask) hpromise hp⟩

theorem Calling.taskBlock (h : Calling b code timers s) (status : TaskStatus) :
    Arrives b (Machine.taskBlock status ++ .user :: code) timers s .user := by
  apply goes_taskBlock
  intro filled s' k hblock
  have hmap := taskBlock_mapContext Ctx.resume s status ⟨[.user :: code], b, filled⟩
  rw [hblock] at hmap
  refine h.tracks.switch (.call (.taskBlock status))
    (h.performs (.taskBlock status) trivial trivial (.taskBlock hmap)) ?_ b
  exact (dispatches_taskBlock hblock).parked h.tracks.off h.tracks.parked

theorem Calling.taskExit (h : Calling b code timers s) {rest : List Stmt} :
    Arrives b (.exitCurrent :: rest) timers s .user := by
  apply goes_taskExit (h.tracks.free (by decide))
  intro s' k hexit
  have hmap := taskExit_mapContext Ctx.resume s s.currentTask
  rw [hexit] at hmap
  refine h.tracks.switch (.call .taskExit)
    (h.performs .taskExit trivial trivial (.taskExit hmap)) ?_ false
  exact parked_taskExit h.tracks.off h.tracks.inv.timed.law.all_nodup
    (h.tracks.free (by decide)) hexit

/-- A call after which the caller goes on. -/
lemma Calling.returns (h : Calling b code timers s) {timers' : TimerState} (op : TaskOp)
    (hst : heapSystem.step ⟨timers, abstracted s, .user⟩ op ⟨timers', abstracted s', .user⟩)
    (hsaved : saved s' = saved s) (hcur : s'.currentTask = s.currentTask)
    (hall : s'.taskAllList = s.taskAllList) (b' : Bool) :
    Goes (Soon ⟨timers, abstracted s, .user⟩) b' [.user :: code] timers' s' := by
  refine h.tracks.stay h.code ?_ (h.tracks.off.keep hall hcur hsaved) op hst b'
  rw [hsaved, hcur]
  exact h.awake

lemma saved_taskUnblock {t : TaskAddr} (h : s.taskUnblock t = .ok s') :
    saved s' = saved s ∧ s'.currentTask = s.currentTask ∧ s'.taskAllList = s.taskAllList := by
  obtain ⟨-, rfl⟩ := taskUnblock_ok h
  exact ⟨saved_setTask (s := { s with taskReadyList := t :: s.taskReadyList })
    (f := fun p => { p with status := .ready }) rfl, rfl, rfl⟩

lemma saved_semaUp {i : SemaId} (h : s.semaUp i = .ok s') :
    saved s' = saved s ∧ s'.currentTask = s.currentTask ∧ s'.taskAllList = s.taskAllList := by
  obtain ⟨m, rfl, ⟨-, rfl⟩ | ⟨t, rest, -, hunblock⟩⟩ := semaUp_ok h
  · exact ⟨rfl, rfl, rfl⟩
  · have hwoken := saved_taskUnblock hunblock
    exact hwoken

theorem Calling.taskUnblock (h : Calling b code timers s) {t : TaskAddr} (hall : t ∈ s.taskAllList)
    (hwait : ∀ i, t ∉ (s.sema i).waiters) :
    Arrives b (.disable (.taskUnblock t) :: .user :: code) timers s .user := by
  apply goes_taskUnblock
  intro s' hunblock
  have hmap := taskUnblock_mapContext Ctx.resume s t
  rw [hunblock] at hmap
  obtain ⟨hsaved, hcur, hall'⟩ := saved_taskUnblock hunblock
  exact h.returns (.call (.taskUnblock t)) (h.performs (.taskUnblock t) trivial ⟨hall, hwait⟩
    (.taskUnblock hmap)) hsaved hcur hall' false

theorem Calling.semaUp (h : Calling b code timers s) {psema : SemaId} (hcallers : Callers psema) :
    Arrives b (.disable (.semaUp psema) :: .user :: code) timers s .user := by
  apply goes_semaUp
  intro s' hup
  have hmap := semaUp_mapContext Ctx.resume s psema
  rw [hup] at hmap
  obtain ⟨hsaved, hcur, hall⟩ := saved_semaUp hup
  exact h.returns (.call (.semaUp psema)) (h.performs (.semaUp psema) trivial hcallers
    (.semaUp hmap)) hsaved hcur hall false

/-- The call rests before its first test of the value. -/
theorem Calling.semaDown (h : Calling b code timers s) {psema : SemaId}
    (hcallers : Callers psema) :
    Arrives b (.disable (.semaDown psema) :: .user :: code) timers s .user := by
  refine goes_set trivial (fun _ => rfl) (fun _ => rfl) ?_
  have hparked : Parked (saved s s.currentTask).2
      [.semaTest psema :: .enable (.semaDown psema) b :: .user :: code] := by
    rw [show (saved s s.currentTask).2 = false from h.awake]
    exact ⟨_, rfl, .wait hcallers h.code⟩
  have h' : Stands true [.semaTest psema :: .enable (.semaDown psema) b :: .user :: code] timers s
      .user := ⟨hparked, h.tracks.off, .inr ⟨rfl, rfl⟩, h.tracks.run⟩
  exact h'.goes (.inl rfl)

theorem Calling.coEnableHookSys (h : Calling b code timers s) :
    Arrives b (.enableHook :: .user :: code) timers s .user := by
  refine goes_set trivial (fun _ => rfl) (fun _ => rfl) ?_
  have hmap := coEnableHookSys_mapContext Ctx.resume s
  have hp : Performed (abstracted s) .user .user .coEnableHookSys (abstracted s.coEnableHookSys)
      none := by
    rw [abstracted, abstracted, ← hmap]
    exact .coEnableHookSys
  exact h.returns (.call .coEnableHookSys) (h.performs .coEnableHookSys trivial trivial hp)
    (saved_setTask rfl) rfl rfl b

/-- A hooked sleep rests in its loop. -/
theorem Calling.sleep (h : Calling b code timers s) (set : UInt32) (add : Option UInt32) :
    Arrives b (.hookTest set add :: .user :: code) timers s .user := by
  apply goes_hook
  · intro _
    exact h.tracks.goes (.inl rfl)
  · intro hhook
    have hmap := requestSleep_mapContext Ctx.resume s (set + add.getD 0)
    have hst : heapSystem.step ⟨timers, abstracted s, .user⟩ (.call (.sleep (set + add.getD 0)))
        ⟨timers, abstracted (s.requestSleep (set + add.getD 0)), .user⟩ := by
      have hp : Performed (abstracted s) .user .user (.sleep (set + add.getD 0))
          (abstracted (s.requestSleep (set + add.getD 0))) none := by
        rw [abstracted, abstracted, ← hmap]
        exact .sleep
      exact h.performs (.sleep (set + add.getD 0)) trivial hhook hp
    have hoff : OffCpu (s.requestSleep (set + add.getD 0)) := by
      intro t ht hne
      have htask : (s.requestSleep (set + add.getD 0)).task t = s.task t :=
        setTask_task_of_ne s _ hne
      rw [saved, htask]
      exact h.tracks.off t ht hne
    have h' : Stands b [.hookSpin :: .user :: code] timers (s.requestSleep (set + add.getD 0))
        .user := ⟨⟨_, rfl, .sleep h.code⟩, hoff, .inl rfl, h.tracks.run.step trivial hst⟩
    exact h'.goes (.inr ⟨_, hst⟩)

theorem Calling.createTimer (h : Calling b code timers s) (f pParam : ℕ) (due period : UInt32) :
    Arrives b (.createTimer (.user f) pParam due period :: .user :: code) timers s .user := by
  apply goes_createTimer (h.tracks.free (by decide))
  intro p timers' s' halloc hheap hcreate
  rw [createTimerLocked_of_free (h.tracks.free (by decide))] at hcreate
  obtain ⟨rfl, rfl⟩ := Prod.mk.inj (Except.ok.inj hcreate)
  exact h.returns (.createTimer p f pParam due period) ⟨halloc, .createTimer h.inTask hheap⟩
    rfl rfl rfl false

theorem Calling.taskStart (h : Calling b code timers s) (name : List UInt8) (prio : Int32) :
    Arrives b (.disable (.taskStart name prio) :: .user :: code) timers s .user := by
  have hlaw : Roster.Law (some s.currentTask) (wakes timers) s.roster := h.tracks.inv.timed.law
  have howned := (allocated_of_reachable h.tracks.run).owned
  have hmain : s.mainTask ∈ s.alloc := howned.held.mem (.inr (.inr rfl))
  apply goes_taskStart (h.tracks.free (by decide)) (fun t ht => (hlaw.pool_died t ht).1) hmain
  intro mem stack s' task hne hnew hstart
  have hmap := taskStart_mapContext s (f := Ctx.resume) rfl mem stack name prio
    ⟨[taskEntrance], false, true⟩
  rw [hstart] at hmap
  have hmem : mem ∉ s.alloc := (hnew mem (by simp)).1
  have hall : mem ∉ s.taskAllList := fun hm => hmem (howned.held.mem (.inl hm))
  have hmain' : mem ≠ s.mainTask := by
    rintro rfl
    exact hmem hmain
  have hst : heapSystem.step ⟨timers, abstracted s, .user⟩ (.call (.taskStart mem stack name prio))
      ⟨timers, abstracted s', .user⟩ := h.performs (.taskStart mem stack name prio) ⟨hne, hnew⟩
    ⟨hall, hmain'⟩ (.taskStart hmap)
  obtain ⟨rfl, ⟨b', tid, rfl⟩, -⟩ :=
    law_taskStart hlaw (h.tracks.free (by decide)) hall hmain' hstart
  have hold : ∀ t, t ≠ task → saved (s.bornState task stack
      (bornTask stack name prio ⟨[taskEntrance], false, true⟩ tid) b') t = saved s t := by
    intro t ht
    simp [saved, bornState, ht]
  have hcur : s.currentTask ≠ task := by
    rintro rfl
    exact hall hlaw.cur_mem
  refine h.tracks.stay h.code ?_ ?_ _ hst false
  · show (saved (s.bornState _ _ _ _) s.currentTask).2 = false
    rw [hold _ hcur]
    exact h.awake
  · intro t ht hne
    by_cases htask : t = task
    · subst htask
      refine ⟨taskEntrance, ?_, ?_⟩
      · simp [saved, bornState, bornTask]
      · simp only [saved, bornState, bornTask, Function.update_self]
        exact .user (.inr rfl)
    · rw [hold t htask]
      rcases List.mem_append.mp ht with ht | ht
      · exact h.tracks.off t ht hne
      · exact absurd (List.mem_singleton.mp ht) htask

end Calls

section Rest

variable {code : List Stmt}

/-- The round of the loop of `sema_down` from its test on. -/
theorem Stands.semaDown {psema : SemaId} {was : Bool}
    (h : Stands b [.semaTest psema :: .enable (.semaDown psema) was :: code] timers s pc)
    (hcallers : Callers psema) (hcode : InUser code) :
    Arrives b ((if (s.sema psema).value = 0 then [.semaQueue psema] else [.semaTake psema]) ++
      .enable (.semaDown psema) was :: code) timers s pc := by
  have hawake : (saved s s.currentTask).2 = false := h.parked.atRest.waiting
  have hmay : TaskRun.MayCall ⟨timers, abstracted s, pc⟩ (.semaDown psema) := by
    rcases h.here with hpc | ⟨hpc, -⟩
    · exact .inr ⟨psema, rfl, hpc⟩
    · exact .inl ⟨hpc, hawake⟩
  have hmap := fun filled => semaDown_mapContext Ctx.resume s psema
    ⟨[.semaTest psema :: .enable (.semaDown psema) was :: code], b, filled⟩
  apply goes_semaDown
  · intro filled s' k hdown
    replace hmap := hmap filled
    rw [hdown] at hmap
    refine h.switch (.call (.semaDown psema))
      ⟨trivial, .of_performed (.semaDown psema) hmay hcallers (.semaDown hmap)⟩ ?_ b
    exact (dispatches_semaDown hdown).parked h.off h.parked
  · intro filled s' hdown
    replace hmap := hmap filled
    rw [hdown] at hmap
    refine goes_set trivial (fun _ => rfl) (fun _ => rfl) ?_
    have hkept : saved s' = saved s ∧ s'.currentTask = s.currentTask ∧
        s'.taskAllList = s.taskAllList := by
      rcases semaDown_ok hdown with ⟨-, rfl⟩ | ⟨⟨c, hc⟩, -⟩
      · exact ⟨rfl, rfl, rfl⟩
      · cases hc
    obtain ⟨hsaved, hcur, hall⟩ := hkept
    refine h.stay hcode ?_ (h.off.keep hall hcur hsaved) (.call (.semaDown psema))
      ⟨trivial, .of_performed (.semaDown psema) hmay hcallers (.semaDown hmap)⟩ false
    rw [hsaved, hcur]
    exact hawake

/-- A tick at a task that is not in the middle of a call. -/
theorem Stands.tick (h : Stands b [code] timers s pc) (hmask : b = false) (uJiffies : UInt32) :
    Goes (Soon ⟨timers, abstracted s, pc⟩) true [interruptTimerHandler uJiffies, code] timers
      s := by
  apply goes_interruptTimerHandler (h.free (by decide))
  intro p timers1 m timers' s' k hrun hheap halloc hhandler
  rw [callTimer_eq] at hrun hhandler
  have hpc : pc = resumeAt [code] := by
    rcases h.here with hpc | ⟨-, hb⟩
    · exact hpc
    · rw [hmask] at hb
      cases hb
  have hcall : ∀ n (s : Sched Ctx), callLibrary n (s.mapContext Ctx.resume) =
      (callLibrary n s).map (mapContext Ctx.resume) := fun n s =>
    callLibrary_mapContext Ctx.resume s n
  have hmapRun := runTimer_mapContext Ctx.resume s.tickBegun hcall uJiffies timers
  rw [hrun, ← tickBegun_mapContext] at hmapRun
  have hmap := interruptTimerHandler_mapContext Ctx.resume s hcall uJiffies (some p) timers
    ⟨[code], false, true⟩
  rw [hhandler, show Ctx.resume ⟨[code], false, true⟩ = pc from hpc.symm] at hmap
  have hst : heapSystem.step ⟨timers, abstracted s, pc⟩ (.tick uJiffies p)
      ⟨timers', abstracted s', k.resume⟩ := by
    constructor
    · intro timers2 m2 hrun2
      obtain ⟨-, rfl⟩ := Prod.mk.inj (Except.ok.inj (hmapRun.symm.trans hrun2))
      exact halloc
    · refine .tick ?_ hmap
      intro timers2 m2 hrun2
      obtain ⟨rfl, -⟩ := Prod.mk.inj (Except.ok.inj (hmapRun.symm.trans hrun2))
      exact hheap
  refine h.switch (.tick uJiffies p) hst ?_ false
  exact parked_interruptTimerHandler h.off h.parked (h.free (by decide)) hhandler

end Rest

/-- A call, from its begin. -/
lemma Calling.call {s : State} {code : List Stmt}
    (h : Calling s.masked code s.memory.timers s.memory.sched) {c : Call} (hallowed : c.Allowed)
    (hwhole : Whole s (.call c)) :
    Arrives s.masked (c.code ++ .user :: code) s.memory.timers s.memory.sched .user := by
  cases c with
  | taskStart name prio => exact h.taskStart name prio
  | taskExit => exact h.taskExit
  | taskBlock status => exact h.taskBlock status
  | taskUnblock t => exact h.taskUnblock hwhole.1 hwhole.2
  | semaDown psema => exact h.semaDown hallowed
  | semaUp psema => exact h.semaUp hallowed
  | lockAcquire plock => exact hwhole.elim
  | lockRelease plock => exact hwhole.elim
  | createTimer f pParam due period => exact h.createTimer f pParam due period
  | coEnableHookSys => exact h.coEnableHookSys
  | sleep seconds => exact h.sleep _ none
  | usleep usec => exact h.sleep _ none
  | nanosleep tvSec tvNsec => exact h.sleep _ _

/-- A step of a task that rests. -/
lemma Stands.exec {code : List Stmt} {stmt : Stmt} (h : Stands b [stmt :: code] timers s pc)
    {malloc : Option ℕ} {unlinked : Finset Addr} {record : Record} {t : State}
    (hexec : State.exec ⟨b, [stmt :: code], ⟨timers, s, unlinked⟩, record⟩ malloc stmt code [] =
      some t) : Safe wholeSystem Rests (Soon ⟨timers, abstracted s, pc⟩) t := by
  have hrest := h.parked.atRest
  generalize hflag : (saved s s.currentTask).2 = flag at hrest
  cases hrest with
  | user huser =>
    rcases huser with huser | huser <;> cases huser <;> cases hexec
  | @sleep _ code huser =>
    have hspin : Arrives b ((if s.current.isCollaborativeSchedule = true then [.hookSpin]
        else []) ++ code) timers s pc := by
      by_cases hcur : s.current.isCollaborativeSchedule = true
      · rw [if_pos hcur]
        exact h.goes (.inl rfl)
      · rw [if_neg hcur]
        obtain rfl := h.pc_eq rfl
        have hawake : (saved s s.currentTask).2 = false := Bool.eq_false_of_not_eq_true hcur
        have hparked : Parked (saved s s.currentTask).2 [code] := by
          rw [hawake]
          exact ⟨code, rfl, .user huser⟩
        have h' : Stands b [code] timers s .user :=
          ⟨hparked, h.off, .inl huser.resumeAt.symm, h.run⟩
        exact h'.goes (.inl rfl)
    cases ran_of_exec hexec with
    | plain _ heff =>
      obtain rfl := Except.ok.inj heff
      exact hspin.safe _ _
    | stuck _ heff => cases heff
  | wait hcallers huser =>
    cases ran_of_exec hexec with
    | plain _ heff =>
      obtain rfl := Except.ok.inj heff
      exact (h.semaDown hcallers huser).safe _ _
    | stuck _ heff => cases heff

/-- From rest to rest. -/
lemma Tracks.step {s t : State} {op : Op} {r : TaskRun} (h : Tracks s r)
    (hr : heapSystem.Reachable r) (hst : wholeSystem.step s op t) :
    Safe wholeSystem Rests (Soon r) t := by
  obtain ⟨hwhole, hst⟩ := hst
  obtain ⟨b, stack, ⟨timers, sched, unlinked⟩, record⟩ := s
  obtain ⟨timers', sched', pc⟩ := r
  obtain ⟨htimers, hsched, hparked, hoff, hhere⟩ := h
  dsimp only at htimers hsched hparked hoff hhere
  subst htimers hsched
  obtain ⟨code, rfl, hrest⟩ := id hparked
  have h : Stands b [code] timers' sched pc := ⟨hparked, hoff, hhere, hr⟩
  cases hst with
  | tick hmask hs =>
    obtain ⟨rfl, rfl⟩ := List.cons.inj hs
    exact (h.tick hmask _).safe _ _
  | sigreturn hs => cases hs
  | call hallowed hs =>
    obtain ⟨rfl, rfl⟩ := List.cons.inj hs
    obtain rfl := h.pc_eq rfl
    have hcalling : Calling b _ timers' sched := ⟨h, hrest.inUser⟩
    exact (Calling.call (s := ⟨b, _, ⟨timers', sched, unlinked⟩, record⟩) hcalling hallowed
      hwhole).safe _ _
  | ret hcode hs =>
    obtain ⟨rfl, rfl⟩ := List.cons.inj hs
    obtain rfl := h.pc_eq rfl
    have hcalling : Calling b _ timers' sched := ⟨h, hrest.inUser⟩
    rcases hrest.inUser with hcode' | hcode'
    · obtain ⟨-, rfl⟩ := List.cons.inj hcode'
      exact absurd rfl hcode
    · obtain ⟨-, rfl⟩ := List.cons.inj hcode'
      exact hcalling.taskExit.safe _ _
  | run hfresh hs hexec =>
    obtain ⟨rfl, rfl⟩ := List.cons.inj hs
    exact h.exec hexec

lemma tracks_init {s : State} (hs : wholeSystem.init s) :
    ∃ r, heapSystem.init r ∧ Tracks s r := by
  obtain ⟨value, mem, stack, b, hne, hheap, hinit, htimers, -, -, hstack, -⟩ := hs
  have hmap := taskInit_mapContext (boot value : Sched Ctx) (f := Ctx.resume) rfl mem stack
  rw [hinit] at hmap
  obtain ⟨b', -, -, heq⟩ := taskInit_spec (κ := Ctx) value mem stack
  have hsched := Except.ok.inj (heq.symm.trans hinit)
  have hflag : (saved s.memory.sched s.memory.sched.currentTask).2 = false := by
    rw [← hsched]
    simp [saved, mainTaskStruct, bornTask]
  refine ⟨⟨s.memory.timers, abstracted s.memory.sched, .user⟩,
    ⟨value, mem, stack, b, hne, hheap, hmap, htimers, rfl⟩, rfl, rfl, ⟨[.user], hstack, ?_⟩, ?_, ?_⟩
  · rw [hflag]
    exact .user (.inl rfl)
  · intro t ht hne
    rw [← hsched] at ht hne
    exact absurd (List.mem_singleton.mp ht) hne
  · rw [hstack]
    exact .inl rfl

lemma rests_init {s : State} (hs : wholeSystem.init s) : Rests s := by
  obtain ⟨-, -, -, -, -, -, -, -, -, -, hstack, -⟩ := hs
  exact ⟨.user, [], [], hstack, trivial⟩

/-- In runs in which no signal comes in the middle of a call, the statements from one rest to
the next do what one operation of the scheduler does, or nothing. -/
theorem whole_simulates : Simulates wholeSystem Rests heapSystem Tracks where
  init _ hs := ⟨rests_init hs, tracks_init hs⟩
  step _ _ _ _ _ htracks hr hst := htracks.step hr hst

/-- Every task is in one place, the library holds no lock, and each block in use belongs to one
task or is one timer. -/
structure Orderly (s : State) : Prop where
  law : Roster.Law (some s.memory.sched.currentTask) (wakes s.memory.timers) s.memory.sched.roster
  free : ∀ l ∈ libraryLocks, s.memory.sched.LockFree l
  owned : Owned s.memory.sched
  timers : ∀ p ∈ s.memory.timers.heap, p ∉ s.memory.sched.alloc

/-- None of this depends on contexts. -/
lemma Tracks.orderly {s : State} {r : TaskRun} (h : Tracks s r) (hr : heapSystem.Reachable r) :
    Orderly s := by
  obtain ⟨htimed, hfree⟩ := taskInv_of_reachable (heap_reachable hr)
  obtain ⟨howned, htimers⟩ := allocated_of_reachable hr
  have hlaw := htimed.law
  rw [h.sched, h.timers] at hlaw
  rw [h.sched] at hfree howned
  rw [h.sched, h.timers] at htimers
  exact ⟨hlaw, hfree, ⟨howned.held, howned.main⟩, htimers⟩

/-- What the statements of a call do in between is not seen at rest. -/
theorem orderly_of_reachable {s : State} (hs : wholeSystem.Reachable s) (hrest : Rests s) :
    Orderly s := by
  have hsim : Simulates wholeSystem Rests heapSystem Tracks :=
    ⟨fun _ hs => ⟨rests_init hs, tracks_init hs⟩, fun _ _ _ _ _ htracks hr hst =>
      htracks.step hr hst⟩
  obtain ⟨r, hr, htracks⟩ := hsim.reachable hs hrest
  exact htracks.orderly hr

/-- `Whole`, computed; no signal comes and no timer is made. -/
def whole (s : State) : Op → Bool
  | .tick _ | .call (.taskUnblock _) | .call (.lockAcquire _) | .call (.lockRelease _) => false
  | .run _ => (s.stack.head?.bind List.head?).all fun
    | .createTimer _ _ _ _ => false
    | _ => true
  | _ => true

lemma whole_of_computed {s : State} {op : Op} (h : whole s op = true) : Whole s op := by
  cases op with
  | tick => cases h
  | sigreturn | ret => trivial
  | call c =>
    cases c
    case taskUnblock | lockAcquire | lockRelease => cases h
    all_goals trivial
  | run malloc =>
    intro fn pParam due period code tail hstack
    change Option.all _ _ = true at h
    rw [hstack] at h
    cases h

lemma whole_of_calm {s : State} {op : Op} (h : calm s op = true) : whole s op = true := by
  cases op with
  | tick => cases h
  | sigreturn | ret => rfl
  | call c => cases c <;> first | rfl | cases h
  | run malloc =>
    change Option.all _ _ = true at h ⊢
    cases hhead : s.stack.head?.bind List.head? with
    | none => rfl
    | some stmt =>
      rw [hhead] at h
      cases stmt
      case createTimer => cases h
      all_goals rfl

/-- A run from `mainState` is one from `init()`. -/
lemma reachable_of_whole {s : State} (hs : mainSystem.Reach (fun s op => whole s op = true) s) :
    wholeSystem.Reachable s := by
  refine hs.map (S := mainSystem) (T := wholeSystem) ?_
    fun _ _ _ hg hst => ⟨trivial, whole_of_computed hg, hst⟩
  rintro s rfl
  exact ⟨fun _ => 0, 1, 2, 1, by decide, by decide, mainBitmap_spec.2.2, rfl, rfl, rfl, rfl, rfl⟩

/-- The main task waits for a semaphore, and the second task calls `sema_down` for another. -/
def queueOps : List Op :=
  .call (.semaDown (.user 0)) :: List.replicate 13 (.run none) ++
    [.call (.semaDown (.user 1)), .run none]

/-- A test of the value of a semaphore of the users comes next. -/
def beforeTest : List (List Stmt) → Bool
  | (.semaTest (.user _) :: _) :: _ => true
  | _ => false

/-- A call of `sema_down` rests before its first test. -/
lemma rests_of_beforeTest {s : State} (h : beforeTest s.stack = true) : Rests s := by
  unfold beforeTest at h
  split at h
  next psema code tail hstack =>
    refine ⟨_, code, tail, hstack, ?_⟩
    intro l _ heq
    cases heq
  next => cases h

theorem orderly_inSemaDown : ∃ s, wholeSystem.Reachable s ∧ beforeTest s.stack = true ∧
    s.memory.sched.currentTask = 3 ∧ (s.memory.sched.sema (.user 0)).waiters = [1] ∧
    Orderly s := by
  have hs : mainSystem.Reach (fun s op => whole s op = true) started :=
    started_main.mono fun _ _ => whole_of_calm
  have hrun : (queueOps.foldlM (State.applyIf whole) started).any (fun s =>
      beforeTest s.stack && s.memory.sched.currentTask == 3 &&
        (s.memory.sched.sema (.user 0)).waiters == [1]) = true := by
    decide +kernel
  obtain ⟨s, hs', hP⟩ := (Option.any_eq_true ..).mp hrun
  simp only [Bool.and_eq_true, beq_iff_eq] at hP
  obtain ⟨⟨htest, hcurrent⟩, hwaiters⟩ := hP
  have hreach := reachable_of_whole (reach_of_applyIf rfl hs hs')
  exact ⟨s, hreach, htest, hcurrent, hwaiters,
    orderly_of_reachable hreach (rests_of_beforeTest htest)⟩

end Libtask.Machine
