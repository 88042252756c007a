import Libtask.Task.Waiters

/-!
# Undisturbed calls of `task_block`

In the runs in which no tick dispatches another task while one is registered or
marked and not yet switched away, a blocked task stays blocked until it is
unblocked.
-/
namespace Libtask.Blocking
open Transition Timer Sched Conservation

section Step

variable {s s' : BlockRun}

/-- A write to a semaphore that nobody is registered or woken by. -/
lemma Inv.setValue (h : Inv s) {psema : CallerSema} (f : UInt8 → UInt8) :
    Inv { s with sched := s.sched.setSema psema fun p => { p with value := f p.value } } := by
  have hroster : (s.sched.setSema psema fun p => { p with value := f p.value }).roster =
      s.sched.roster := roster_setSema_of_waiters _ _ rfl
  have hframe := frame_setSema s.sched psema.2 fun p => { p with value := f p.value }
  refine h.steady ⟨rfl, rfl, congrArg Roster.waiters hroster, fun _ _ => rfl, fun _ => rfl⟩
    ⟨?_, h.pending.linked, h.pending.oneShot⟩ (free_of_frame h.free hframe) fun _ => rfl
  rw [hroster]
  exact h.pending.holds

theorem Inv.run (h : Inv s) (hg : Undisturbed s .run) (hrun : s.run = .ok s') : Inv s' := by
  have hnext : ∀ pc, ¬ s.pc.Exposed → ¬ pc.Exposed → pc.waking = s.pc.waking →
      Inv (s.goto s.sched pc) := fun pc hcalm hcalm' hpc => h.next hcalm hcalm' hpc
  unfold BlockRun.run at hrun
  split at hrun
  case h_1 hpc =>
    obtain rfl := Except.ok.inj hrun
    exact h
  case h_2 psema hpc =>
    split_ifs at hrun with hvalue
    · obtain rfl := Except.ok.inj hrun
      exact hnext _ (by rw [hpc]; exact id) id (by rw [hpc]; rfl)
    · rw [bind_eq_ok] at hrun
      obtain ⟨sched, htake, hrun⟩ := hrun
      rw [semaTake, bind_eq_ok] at htake
      obtain ⟨-, -, htaken⟩ := htake
      obtain rfl := Except.ok.inj htaken
      obtain rfl := Except.ok.inj hrun
      have h1 : Inv { s with sched := s.sched.setSema psema fun p => { p with
        value := p.value - 1 } } := h.setValue fun v => v - 1
      have h2 : Inv (s.goto (s.sched.setSema psema fun p => { p with
        value := p.value - 1 }) .user) :=
        h1.next (by rw [hpc]; exact id) id (by rw [hpc]; rfl)
      exact h2.mask false
  case h_3 psema hpc =>
    rw [bind_eq_ok] at hrun
    obtain ⟨-, -, hrun⟩ := hrun
    obtain rfl := Except.ok.inj hrun
    exact h.semaQueue hpc
  case h_4 waiter hpc =>
    rw [bind_eq_ok] at hrun
    obtain ⟨-, -, hrun⟩ := hrun
    obtain rfl := Except.ok.inj hrun
    exact hnext _ (by rw [hpc]; exact id) id (by rw [hpc]; rfl)
  case h_5 waiter hpc =>
    obtain rfl := Except.ok.inj hrun
    exact h.waitSet hpc
  case h_6 call stmt hpc => exact h.runBlock hpc hrun
  case h_7 waiter hpc =>
    rw [bind_eq_ok] at hrun
    obtain ⟨-, -, hrun⟩ := hrun
    obtain rfl := Except.ok.inj hrun
    exact hnext _ (by rw [hpc]; exact id) id (by rw [hpc]; rfl)
  case h_8 waiter hpc =>
    cases hslot : s.slot waiter with
    | none =>
      rw [hslot] at hrun
      cases hrun
    | some ptask =>
      rw [hslot] at hrun
      obtain rfl := Except.ok.inj hrun
      have howner : s.owner = s.sched.currentTask := by rw [BlockRun.owner, hpc]
      refine h.wakeRead hpc hslot ?_
      intro u hne x hu
      rw [BlockRun.waking, BlockRun.point, if_neg hne] at hu
      split_ifs at hu with hmem
      exact hg waiter hpc u hmem (howner ▸ hne) x hu
  case h_9 waiter ptask hpc =>
    rw [bind_eq_ok] at hrun
    obtain ⟨sched, hunblock, hrun⟩ := hrun
    obtain rfl := Except.ok.inj hrun
    exact (h.wakeUnblock hpc hunblock).mask false
  case h_10 waiter hpc =>
    obtain rfl := Except.ok.inj hrun
    exact h.wakeClear hpc

lemma calm_of_user (hpc : s.pc = .user) : ¬ s.pc.Exposed := by
  rw [hpc]
  exact id

lemma Inv.taskStart (h : Inv s) (hpc : s.pc = .user) {mem stack : ℕ} {name : List UInt8}
    {prio : Int32} {sched : Sched Point} {task : TaskAddr} (hall : mem ∉ s.sched.taskAllList)
    (hmain : mem ≠ s.sched.mainTask)
    (hstart : s.sched.taskStart mem stack name prio .user = .ok (sched, task)) :
    Inv { s with sched := sched } := by
  have hcalm := calm_of_user hpc
  have howner := owner_of_calm hcalm
  obtain ⟨rfl, ⟨b', tid, rfl⟩, hlaw⟩ :=
    law_taskStart (h.timed hcalm).law (h.free .tid (by decide)) hall hmain hstart
  set sched : Sched Point :=
    s.sched.bornState task stack (bornTask stack name prio Point.user tid) b' with hsched
  set s' : BlockRun := { s with sched := sched } with hs'
  have hother : ∀ u, u ≠ task → s'.sched.task u = s.sched.task u :=
    fun u hu => Function.update_of_ne hu ..
  have hold : ∀ u ∈ s.sched.taskAllList, u ≠ task := by
    rintro u hu rfl
    exact hall hu
  have hmoves : Moves s s' := by
    constructor
    case owner => exact (owner_of_calm (s := s') hcalm).trans howner.symm
    case all => exact fun u hu => List.mem_append_left _ hu
    case others =>
      intro u hu _
      rcases List.mem_append.mp hu with hmem | hnew
      · exact .inl ⟨hmem, by rw [hother u (hold u hmem)]⟩
      · obtain rfl := List.mem_singleton.mp hnew
        refine .inr ⟨hall, ?_⟩
        show (Function.update s.sched.task u _ u).context = _
        rw [Function.update_self]
        rfl
  refine h.moves hmoves (pending_of_timed (s := s') hcalm ⟨hlaw, h.pending.linked,
    h.pending.oneShot⟩) h.free (inCall_of_calm hcalm) ?_ ?_
  · intro t call ht
    have ht' : s.parked t = some call := ht
    exact ⟨ht', by rw [hother t (hold t (h.parked t call ht').1)]⟩
  · refine h.waits.keep rfl (fun _ _ => id) (hmoves.same_waking h rfl) ?_
    exact fun t via hvia hw => .inl (waiting_of_calm hcalm hvia hw)

/-- The dead task had nothing to do with a slot. -/
lemma Inv.taskExit (h : Inv s) (hpc : s.pc = .user) {sched : Sched Point} {pc : Point}
    (hexit : s.sched.taskExit s.sched.currentTask = .ok (sched, pc)) : Inv (s.goto sched pc) := by
  have hcalm := calm_of_user hpc
  have howner := owner_of_calm hcalm
  have htimed := h.timed hcalm
  obtain ⟨b', hd⟩ := taskExit_ok (h.free .tid (by decide)) hexit
  set dead : Sched Point := { s.sched.exitState s.sched.currentTask with tidBitmap := b' }
    with hdead
  have hdisp := diedTaskSchedule_dispatched hd
  obtain ⟨hgoes, hcontext⟩ := diedTaskSchedule_context hd
  have hall : ∀ u, u ∈ sched.taskAllList ↔ u ≠ s.sched.currentTask ∧ u ∈ s.sched.taskAllList := by
    intro u
    rw [hdisp.frame.all]
    exact htimed.law.all_nodup.mem_erase_iff
  have hother : ∀ u, u ≠ s.sched.currentTask → dead.task u = s.sched.task u :=
    fun u hu => Function.update_of_ne hu ..
  have hsame : ∀ u ∈ sched.taskAllList,
      (sched.task u).context = (s.sched.task u).context ∧ u ≠ s.owner := by
    intro u hu
    obtain ⟨hne, -⟩ := (hall u).mp hu
    rw [hcontext u, hother u hne, howner]
    exact ⟨rfl, hne⟩
  refine h.dispatched rfl ⟨law_taskExit htimed.law hd, h.pending.linked, h.pending.oneShot⟩
    (free_of_frame (s := dead) h.free hdisp.frame) hgoes ?_ ?_ ?_ ?_ ?_ ?_
  · intro u hu
    obtain ⟨hctx, hne⟩ := hsame u hu
    show (sched.task u).context.waking = _
    rw [hctx, BlockRun.waking, if_pos ((hall u).mp hu).2, BlockRun.point, if_neg hne]
  · intro u hu
    by_cases hne : u = s.sched.currentTask
    · rw [hne, ← howner, h.waking_owner, hpc]
      rfl
    · exact if_neg fun hm => hu ((hall u).mpr ⟨hne, hm⟩)
  · intro u hu
    obtain ⟨hctx, hne⟩ := hsame u hu
    show ¬ (sched.task u).context.Exposed
    rw [hctx]
    exact h.calm u ((hall u).mp hu).2 hne
  · intro t call ht
    obtain ⟨hmem, hne, hst, hstatus⟩ := h.parked t call ht
    rw [howner] at hne
    refine ⟨(hall t).mpr ⟨hne, hmem⟩, hst, ?_⟩
    have hready : t ∉ dead.taskReadyList :=
      fun hm => (h.parked_alone ht).2.2.1 (List.mem_of_mem_erase hm)
    rw [show (s.goto sched pc).sched = sched from rfl, Dispatched.status hdisp hready,
      hother t hne]
    exact hstatus
  · exact fun t via hvia hw => waiting_of_calm hcalm hvia hw
  · intro i t ht
    have heq : (sched.sema i).waiters = (s.sched.sema i).waiters :=
      congrFun (Dispatched.waiters hdisp) i
    exact heq ▸ ht

/-- A direct call, for a task that waits in no slot and for no semaphore. -/
lemma Inv.taskUnblock (h : Inv s) (hpc : s.pc = .user) {t : TaskAddr} {sched : Sched Point}
    (hall : t ∈ s.sched.taskAllList) (hvia : ∀ call, s.parked t = some call → call.via = .user)
    (hunblock : s.sched.taskUnblock t = .ok sched) : Inv ((s.goto sched s.pc).unpark t) := by
  have hcalm := calm_of_user hpc
  have hnot : ∀ via, via ≠ .user → ¬ s.Waiting t via :=
    fun via hne hw => hne (hvia _ (waiting_of_calm hcalm hne hw))
  have hwait : ∀ i, t ∉ (s.sched.sema i).waiters := by
    intro i ht
    obtain ⟨psema, hw⟩ := h.waiting_sema ht
    exact hnot _ (by simp) hw
  obtain ⟨hlaw, -⟩ := law_taskUnblock (h.timed hcalm).law hall hwait hunblock
  obtain ⟨hun, hsema⟩ := taskUnblock_unblocks hunblock
  refine h.unpark_same hcalm hun hlaw ?_ fun w => hnot _ (by simp)
  intro i u hu
  rw [hsema] at hu
  refine ⟨hu, ?_⟩
  rintro rfl
  exact hwait i hu

/-- The first waiter of a semaphore is unblocked. -/
lemma Inv.semaUp (h : Inv s) (hpc : s.pc = .user) {psema : CallerSema} {sched : Sched Point}
    (hup : s.sched.semaUp psema = .ok sched) : Inv { s.goto sched s.pc with
      parked := match (s.sched.sema psema).waiters with
        | [] => s.parked
        | threadBlocked :: _ => Function.update s.parked threadBlocked none } := by
  have hcalm := calm_of_user hpc
  obtain ⟨hlaw, hframe⟩ := law_semaUp (h.timed hcalm).law psema.2 hup
  obtain ⟨m, rfl, ⟨hnil, rfl⟩ | ⟨t, rest, hw, hunblock⟩⟩ := semaUp_ok hup
  · rw [hnil]
    exact h.setValue fun v => v + 1
  · rw [hw]
    have ht : t ∈ (s.sched.sema psema).waiters := by simp [hw]
    have hparked := waiting_of_calm hcalm (by simp) (h.waits.queued psema t ht)
    obtain ⟨-, -, hleft⟩ := (h.timed hcalm).law.popWaiter (i := psema.1) hw
    obtain ⟨hun, hsema⟩ := taskUnblock_unblocks hunblock
    have hwaiters : ∀ i, ((m.setSema psema fun p => { p with value := p.value + 1 }).sema
        i).waiters = Function.update s.sched.roster.waiters psema.1 rest i := by
      intro i
      by_cases hi : i = psema.1
      · subst hi
        rw [setSema_sema_self, hsema, setSema_sema_self, Function.update_self]
      · rw [setSema_sema_of_ne _ _ hi, hsema, setSema_sema_of_ne _ _ hi, Function.update_of_ne hi]
        rfl
    refine h.unpark_same hcalm ⟨hframe, hun.current, hun.status, hun.context⟩ hlaw ?_ ?_
    · intro i u hu
      rw [hwaiters] at hu
      refine ⟨?_, ?_⟩
      · by_cases hi : i = psema.1
        · subst hi
          rw [Function.update_self] at hu
          rw [hw]
          exact List.mem_cons_of_mem t hu
        · rw [Function.update_of_ne hi] at hu
          exact hu
      · rintro rfl
        exact hleft i hu
    · intro w hslot
      have heq := hparked.symm.trans (waiting_of_calm hcalm (by simp) hslot)
      cases congrArg BlockCall.via (Option.some.inj heq)

lemma Inv.setTimers (h : Inv s) (hpc : s.pc = .user) {timers : TimerState}
    (htimed : TimedLaw [] timers s.sched) : Inv { s with timers := timers } := by
  have hsteady : Steady (wakes s.timers) s.sched s.sched :=
    ⟨rfl, rfl, rfl, fun _ _ => rfl, fun _ => rfl⟩
  exact h.steady hsteady (pending_of_timed (s := { s with timers := timers }) (calm_of_user hpc)
    htimed) h.free fun _ => rfl

theorem Inv.step {op : BlockOp} (h : Inv s) (hg : Undisturbed s op) (hst : Step s op s') :
    Inv s' := by
  have calls : ∀ pc, s.InTask → ¬ pc.Exposed → pc.waking = none → Inv (s.goto s.sched pc) := by
    intro pc hin hcalm hpc
    exact h.next (calm_of_user hin.1) hcalm (by rw [hpc, hin.1]; rfl)
  cases hst with
  | taskStart hin hall hmain hstart => exact (h.taskStart hin.1 hall hmain hstart).mask false
  | taskExit hin hexit => exact (h.taskExit hin.1 hexit).mask false
  | taskBlock hin => exact calls _ hin (fun hne => hne rfl) rfl
  | taskUnblock hin hall hunblock => exact (h.taskUnblock hin.1 hall hg hunblock).mask false
  | semaDown hin => exact (calls _ hin id rfl).mask true
  | semaUp hin hup => exact (h.semaUp hin.1 hup).mask false
  | ioqWait hin => exact calls _ hin id rfl
  | wakeup hin => exact calls _ hin id rfl
  | sleep hin hhook => exact h.setCurrent rfl rfl
  | coEnableHookSys hin => exact h.setCurrent rfl rfl
  | createTimer hin hp =>
    exact (h.setTimers hin.1 ((h.timed (calm_of_user hin.1)).createTimer hp ..)).mask false
  | deleteTimer hin hp hf =>
    exact (h.setTimers hin.1 ((h.timed (calm_of_user hin.1)).deleteTimer hf)).mask false
  | run hrun => exact h.run hg hrun
  | tick hmask hp hrun => exact h.tick hg hp hrun

end Step

lemma Inv.init {s : BlockRun} (hs : blockSystem.init s) : Inv s := by
  obtain ⟨value, mem, stack, b, hinit, htimers, hpc, -, hslot, hparked⟩ := hs
  obtain ⟨htimed, hfree, hall, hcur, hwaiters⟩ := timedLaw_init b hinit
  have hcalm := calm_of_user hpc
  have howner := owner_of_calm hcalm
  have hmain : ∀ u, u ∈ s.sched.taskAllList → u = s.owner := by
    intro u hu
    rw [hall] at hu
    rw [howner, hcur]
    exact List.mem_singleton.mp hu
  have hwaking : ∀ u, s.waking u = none := by
    intro u
    rw [BlockRun.waking]
    split_ifs with hu
    · rw [BlockRun.point, if_pos (hmain u hu), hpc]
      rfl
    · rfl
  constructor
  case pending => exact pending_of_timed hcalm (htimers ▸ htimed)
  case free => exact hfree
  case owner =>
    rw [howner, hcur, hall]
    exact List.mem_singleton_self mem
  case call => exact inCall_of_calm hcalm
  case parked =>
    intro t call ht
    rw [hparked] at ht
    cases ht
  case waits =>
    constructor
    · intro psema t ht
      rw [hwaiters] at ht
      cases ht
    · intro waiter t ht
      rw [hslot] at ht
      cases ht
    · intro u waiter t hu
      rw [hwaking] at hu
      cases hu
    · intro u v waiter x y hu
      rw [hwaking] at hu
      cases hu
  case calm => exact fun u hu hne => absurd (hmain u hu) hne

lemma inv_of_undisturbed {s : BlockRun} (hs : blockSystem.Reach Undisturbed s) : Inv s :=
  hs.invariant (fun _ => Inv.init) fun _ _ _ h hg hst => h.step hg hst

/-- `current_task` is not parked: it is the task in the call, or it was dispatched. -/
lemma Inv.parked_away {s : BlockRun} (h : Inv s) {t : TaskAddr} {call : BlockCall}
    (ht : s.parked t = some call) : t ≠ s.sched.currentTask := by
  obtain ⟨-, hne, -, -⟩ := h.parked t call ht
  cases hpc : s.pc with
  | block other stmt =>
    cases stmt with
    | contextSwap temp next =>
      have hcur : s.view.cur = some s.sched.currentTask := by rw [BlockRun.view, hpc]
      rintro rfl
      exact (h.parked_alone ht).1 hcur
    | _ =>
      rw [BlockRun.owner, hpc] at hne
      exact hne
  | _ =>
    rw [BlockRun.owner, hpc] at hne
    exact hne

/-- The main task runs, with three ticks left, and has started a task. -/
def pairRun (btmp : Bitmap) : BlockRun where
  timers := timerInit 1
  sched := (mainSched btmp).bornState 3 4 (bornTask 4 [] 3 .user 2) btmp
  pc := .user
  masked := false
  slot _ := none
  parked _ := none

lemma exists_pairRun : ∃ btmp, blockSystem.Reach Undisturbed (pairRun btmp) := by
  obtain ⟨b0, b, hinit, hstart, -, -⟩ := exists_mainStarts Point.user
  let s0 : BlockRun := ⟨timerInit 1, mainSched b0, .user, false, fun _ => none, fun _ => none⟩
  have h0 : blockSystem.Reach Undisturbed s0 :=
    .init ⟨fun _ => 0, 1, 2, 1, hinit, rfl, rfl, rfl, rfl, rfl⟩
  refine ⟨b, h0.step (a := .taskStart 3 4 [] 3) trivial ?_⟩
  exact .taskStart ⟨rfl, rfl⟩ (by simp [s0, mainSched]) (by simp [s0, mainSched]) hstart

section Runs

variable {guard : BlockRun → BlockOp → Prop} {s : BlockRun}

lemma reach_run (hs : blockSystem.Reach guard s) (hg : guard s .run) {s' : BlockRun}
    (h : s.run = .ok s') : blockSystem.Reach guard s' := hs.step hg (.run h)

/-- A tick before any timer is due, in a slice that is not used up. -/
lemma reach_count (hs : blockSystem.Reach guard s) (hg : guard s (.tick 0 1))
    (htimers : s.timers = timerInit 1) (hmask : s.masked = false)
    (hmagic : s.sched.current.stackMagic = TaskStruct.magic) (hfree : s.sched.LockFree .timer)
    (hflag : s.sched.current.isCollaborativeSchedule = false) (hticks : s.sched.current.ticks ≠ 0) :
    blockSystem.Reach guard (s.goto (s.sched.tickBegun.setTask s.sched.currentTask fun p =>
      { p with ticks := p.ticks - 1 }) s.pc) := by
  have hnow : ¬ timeAfterEq 0 s.timers.uJiffies := by
    rw [htimers]
    decide
  have hrun : interruptTimerHandler callLibrary 0 (some 1) s.timers s.sched s.pc = _ :=
    interruptTimerHandler_awake hmagic hfree hnow hflag
  rw [if_neg hticks] at hrun
  have hfresh : (1 : Addr) ∉ s.timers.heap := by
    rw [htimers]
    decide
  have hbegun : s.sched.tickBegun.LockFree .timer := hfree
  exact hs.step hg (.tick hmask (fun _ _ => fresh_of_idle hbegun hnow hfresh) hrun)

end Runs

/-- The main task in the call of `task_block` that `ioq_wait` makes for slot 0. -/
def waitingRun (sched : Sched Point) (stmt : BlockStmt) : BlockRun where
  timers := timerInit 1
  sched := sched
  pc := .block ⟨.slot 0, .blocked⟩ stmt
  masked := false
  slot := Function.update (fun _ => none) 0 (some 1)
  parked _ := none

lemma reach_registered {guard : BlockRun → BlockOp → Prop} {s : BlockRun}
    (hs : blockSystem.Reach guard s) (hwait : guard s (.ioqWait 0))
    (hassert : guard (s.goto s.sched (.waitAssert 0)) .run)
    (hset : guard (s.goto s.sched (.waitSet 0)) .run) (hin : s.InTask)
    (htimers : s.timers = timerInit 1) (hmask : s.masked = false) (hslot : s.slot = fun _ => none)
    (hparked : s.parked = fun _ => none) (hcur : s.sched.currentTask = 1) :
    blockSystem.Reach guard (waitingRun s.sched .setStatus) := by
  obtain ⟨timers, sched, pc, masked, slot, parked⟩ := s
  dsimp only at htimers hmask hslot hparked hcur
  subst htimers hmask hslot hparked
  have h1 := hs.step hwait (.ioqWait hin)
  have h2 := reach_run h1 hassert rfl
  have h3 := reach_run h2 hset rfl
  have heq : waitingRun sched .setStatus = ⟨timerInit 1, sched,
      .block ⟨.slot 0, .blocked⟩ .setStatus, false,
      Function.update (fun _ => none) 0 (some sched.currentTask), fun _ => none⟩ := by
    rw [hcur]
    rfl
  rw [heq]
  exact h3

/-- The main task waits in `ioq_wait`, with a tick after the write of its status. -/
lemma exists_parked : ∃ s, blockSystem.Reach Undisturbed s ∧
    s.parked 1 = some ⟨.slot 0, .blocked⟩ := by
  obtain ⟨b, h0⟩ := exists_pairRun
  have h1 := reach_registered h0 trivial nofun nofun ⟨rfl, rfl⟩ rfl rfl rfl rfl rfl
  let blocked := (pairRun b).sched.setStatus 1 .blocked
  have h2 : blockSystem.Reach Undisturbed (waitingRun blocked .testReady) :=
    reach_run h1 nofun rfl
  have hticks : (waitingRun blocked .testReady).sched.current.ticks ≠ 0 :=
    show (3 : UInt8) ≠ 0 by decide
  let counted := blocked.tickBegun.setTask 1 fun p => { p with ticks := p.ticks - 1 }
  have h3 : blockSystem.Reach Undisturbed (waitingRun counted .testReady) :=
    reach_count h2 (fun _ => ⟨⟨rfl, hticks⟩, nofun⟩) rfl rfl rfl ⟨rfl, rfl⟩ rfl hticks
  have h4 : blockSystem.Reach Undisturbed (waitingRun counted .readyPop) :=
    reach_run h3 nofun rfl
  let popped := { counted with taskReadyList := [], taskTag := 3 }
  have h5 : blockSystem.Reach Undisturbed (waitingRun popped .takeTag) := reach_run h4 nofun rfl
  have h6 : blockSystem.Reach Undisturbed (waitingRun popped (.markRunning 3)) :=
    reach_run h5 nofun rfl
  let marked := popped.setStatus 3 .running
  have h7 : blockSystem.Reach Undisturbed (waitingRun marked (.setCurrent 3)) :=
    reach_run h6 nofun rfl
  let switched := { marked with currentTask := 3 }
  have h8 : blockSystem.Reach Undisturbed (waitingRun switched (.contextSwap 1 3)) :=
    reach_run h7 nofun rfl
  exact ⟨_, reach_run h8 nofun rfl, rfl⟩

/-- The main task after `elapsed` ticks, with a slice of `ticks`. -/
def spentSched (btmp : Bitmap) (elapsed : UInt32) (ticks : UInt8) : Sched Point :=
  (pairRun btmp).sched.setTask 1 fun p => { p with elapsedTicks := elapsed, ticks := ticks }

lemma spentSched_start (btmp : Bitmap) : spentSched btmp 0 3 = (pairRun btmp).sched := by
  show { (pairRun btmp).sched with
    task := Function.update (pairRun btmp).sched.task 1 ((pairRun btmp).sched.task 1) } = _
  rw [Function.update_eq_self]

lemma spentSched_count (btmp : Bitmap) (elapsed : UInt32) (ticks : UInt8) :
    ((spentSched btmp elapsed ticks).tickBegun.setTask 1 fun p => { p with ticks := p.ticks - 1 }) =
      spentSched btmp (elapsed + 1) (ticks - 1) := by
  have hcur : (spentSched btmp elapsed ticks).currentTask = 1 := rfl
  simp only [Sched.tickBegun, hcur]
  simp only [spentSched, Sched.setTask, Function.update_self, Function.update_idem]

lemma reach_spent {btmp : Bitmap} {elapsed : UInt32} {ticks : UInt8} (hticks : ticks ≠ 0)
    (hs : blockSystem.Reachable ((pairRun btmp).goto (spentSched btmp elapsed ticks) .user)) :
    blockSystem.Reachable
      ((pairRun btmp).goto (spentSched btmp (elapsed + 1) (ticks - 1)) .user) := by
  rw [← spentSched_count]
  exact reach_count hs trivial rfl rfl rfl ⟨rfl, rfl⟩ rfl hticks

/-- The slice of the main task ends when it is registered and not yet blocked; the
other task finds it in the slot. -/
lemma exists_preempted : ∃ s, blockSystem.Reachable s ∧ s.pc = .wakeUnblock 0 1 ∧
    (s.sched.task 1).status = .ready := by
  obtain ⟨b, h0⟩ := exists_pairRun
  have hstart : blockSystem.Reachable ((pairRun b).goto (spentSched b 0 3) .user) := by
    rw [spentSched_start]
    exact h0.reachable
  have h3 := reach_spent (by decide) (reach_spent (by decide) (reach_spent (by decide) hstart))
  have h4 := reach_registered h3 trivial trivial trivial ⟨rfl, rfl⟩ rfl rfl rfl rfl rfl
  let spent := spentSched b (0 + 1 + 1 + 1) (3 - 1 - 1 - 1)
  let sched := (({ spent.tickBegun.requeued with
    taskReadyList := [1], taskTag := 3 }.setStatus 3 .running).switchTo 3
      (.block ⟨.slot 0, .blocked⟩ .setStatus)).1
  have hticks : spent.current.ticks = 0 := show (3 - 1 - 1 - 1 : UInt8) = 0 by decide
  have hsched : spent.tickBegun.schedule (.block ⟨.slot 0, .blocked⟩ .setStatus) =
      .ok (sched, .user) := rfl
  have htick : interruptTimerHandler callLibrary 0 (some 1) (timerInit 1) spent
      (.block ⟨.slot 0, .blocked⟩ .setStatus) = .ok (timerInit 1, sched, .user) := by
    rw [interruptTimerHandler_awake rfl ⟨rfl, rfl⟩ (by decide) rfl, if_pos hticks, hsched]
    rfl
  let woken : BlockRun := ⟨timerInit 1, sched, .user, false,
    Function.update (fun _ => none) 0 (some 1), fun _ => none⟩
  have h5 : blockSystem.Reachable woken :=
    h4.step (a := .tick 0 1) trivial (.tick rfl (fun _ _ => fresh_of_idle ⟨rfl, rfl⟩
      (show ¬ timeAfterEq 0 (timerInit 1).uJiffies by decide)
      (show 1 ∉ (timerInit 1).heap by decide)) htick)
  have h6 : blockSystem.Reachable (woken.goto sched (.wakeAssert 0)) :=
    h5.step (a := .wakeup 0) trivial (.wakeup ⟨rfl, rfl⟩)
  have h7 : blockSystem.Reachable (woken.goto sched (.wakeRead 0)) := reach_run h6 trivial rfl
  have h8 : blockSystem.Reachable (woken.goto sched (.wakeUnblock 0 1)) := reach_run h7 trivial rfl
  exact ⟨_, h8, rfl, rfl⟩

/-- In every run whose ticks dispatch nobody between the registration of the
running task, or the write of its status, and the end of `context_swap`. -/
theorem blockingHolds_of_undisturbed {s : BlockRun} (hs : blockSystem.Reach Undisturbed s) :
    BlockingHolds s := by
  have h := inv_of_undisturbed hs
  constructor
  case stays =>
    intro t call ht
    exact ⟨(h.parked t call ht).2.2.2, (h.parked_alone ht).2.2.1⟩
  case away => exact fun t call ht => h.parked_away ht
  case wakes =>
    intro waiter ptask hpc
    have hparked := h.parked_of_wakeUnblock hpc
    obtain ⟨-, -, hst, hstatus⟩ := h.parked ptask _ hparked
    exact ⟨hstatus.symm ▸ hst, (h.parked_alone hparked).2.2.1⟩

theorem blockingHolds_parked : ∃ s : BlockRun, s.parked 1 = some ⟨.slot 0, .blocked⟩ ∧
    (s.sched.task 1).status = .blocked ∧ 1 ∉ s.sched.taskReadyList ∧ 1 ≠ s.sched.currentTask := by
  obtain ⟨s, hs, hparked⟩ := exists_parked
  have h := blockingHolds_of_undisturbed hs
  obtain ⟨hstatus, hready⟩ := h.stays 1 _ hparked
  exact ⟨s, hparked, hstatus, hready, h.away 1 _ hparked⟩

/-- A waiter that a tick has made ready again fails the assertion of its waker. -/
theorem not_blockingHolds : ¬ ∀ s, blockSystem.Reachable s → BlockingHolds s := by
  intro hall
  obtain ⟨s, hs, hpc, hready⟩ := exists_preempted
  have hst := ((hall s hs).wakes 0 1 hpc).1
  rw [hready] at hst
  exact absurd hst (by decide)

end Libtask.Blocking
