import Libtask.Task.Parked

/-!
# Blocking is not undone

One statement of `task_block` at a time, the registration of a waiter and the
`wakeup` that reads it: each keeps the invariant, so a task that was parked stays
parked until a `task_unblock` on it.
-/
namespace Libtask.Blocking
open Transition Timer Sched Conservation

section Local

variable {s s' : BlockRun}

lemma Inv.waking_owner (h : Inv s) : s.waking s.owner = s.pc.waking := by
  rw [BlockRun.waking, if_pos h.owner, BlockRun.point, if_pos rfl]

/-- Only the task whose code is executed has moved on; tasks may have been born. -/
structure Moves (s s' : BlockRun) : Prop where
  owner : s'.owner = s.owner
  all : ∀ u ∈ s.sched.taskAllList, u ∈ s'.sched.taskAllList
  others : ∀ u ∈ s'.sched.taskAllList, u ≠ s.owner →
    u ∈ s.sched.taskAllList ∧ (s'.sched.task u).context = (s.sched.task u).context ∨
      u ∉ s.sched.taskAllList ∧ (s'.sched.task u).context = .user

lemma Moves.waking (h : Moves s s') (hinv : Inv s) :
    s'.waking = Function.update s.waking s.owner s'.pc.waking := by
  funext u
  by_cases hu : u = s.owner
  · subst hu
    rw [Function.update_self, BlockRun.waking, if_pos (h.all _ hinv.owner), BlockRun.point,
      if_pos h.owner.symm]
  · rw [Function.update_of_ne hu, BlockRun.waking, BlockRun.waking, BlockRun.point,
      BlockRun.point, h.owner, if_neg hu, if_neg hu]
    by_cases hmem : u ∈ s'.sched.taskAllList
    · rw [if_pos hmem]
      rcases h.others u hmem hu with ⟨hold, hcontext⟩ | ⟨hnew, hcontext⟩
      · rw [if_pos hold, hcontext]
      · rw [if_neg hnew, hcontext]
        rfl
    · rw [if_neg hmem, if_neg fun hold => hmem (h.all u hold)]

/-- No `wakeup` has read or written a slot. -/
lemma Moves.same_waking (h : Moves s s') (hinv : Inv s) (hpc : s'.pc.waking = s.pc.waking) :
    s'.waking = s.waking := by
  rw [h.waking hinv, hpc, ← hinv.waking_owner, Function.update_eq_self]

theorem Inv.moves (h : Inv s) (hmoves : Moves s s')
    (hpending : Pending s'.view.Sees [] s'.timers s'.sched)
    (hfree : ∀ l ∈ libraryLocks, s'.sched.LockFree l)
    (hcall : ∀ call stmt, s'.pc = .block call stmt → InCall s' call stmt)
    (hparked : ∀ t call, s'.parked t = some call → s.parked t = some call ∧
      (s'.sched.task t).status = (s.sched.task t).status) (hwaits : Waits s') : Inv s' := by
  constructor
  case pending => exact hpending
  case free => exact hfree
  case owner =>
    rw [hmoves.owner]
    exact hmoves.all _ h.owner
  case call => exact hcall
  case parked =>
    intro t call ht
    obtain ⟨hold, hsame⟩ := hparked t call ht
    obtain ⟨hall, hne, hst, hstatus⟩ := h.parked t call hold
    rw [hmoves.owner]
    exact ⟨hmoves.all t hall, hne, hst, hsame.trans hstatus⟩
  case waits => exact hwaits
  case calm =>
    intro u hu hne
    rw [hmoves.owner] at hne
    rcases hmoves.others u hu hne with ⟨hold, hcontext⟩ | ⟨-, hcontext⟩
    · rw [hcontext]
      exact h.calm u hold hne
    · rw [hcontext]
      exact id

/-- The waiters are as before, and none of them has been woken. -/
lemma Waits.keep (h : Waits s) (hslot : s'.slot = s.slot)
    (hwaiters : ∀ i t, t ∈ (s'.sched.sema i).waiters → t ∈ (s.sched.sema i).waiters)
    (hwaking : s'.waking = s.waking)
    (hwaiting : ∀ t via, via ≠ .user → s.Waiting t via → s'.Waiting t via) : Waits s' where
  queued psema t ht := hwaiting t _ (by simp) (h.queued psema t (hwaiters _ t ht))
  slots waiter t ht := by
    rw [hwaking]
    rw [hslot] at ht
    exact (h.slots waiter t ht).imp_right (hwaiting t _ (by simp))
  unblocks u waiter t hu := by
    rw [hwaking] at hu
    exact hwaiting t _ (by simp) (h.unblocks u waiter t hu)
  one := by
    rw [hwaking]
    exact h.one

/-- Nobody is registered and about to be parked. -/
lemma waiting_of_calm (hcalm : ¬ s.pc.Exposed) {t : TaskAddr} {via : Via} (hvia : via ≠ .user)
    (h : s.Waiting t via) : s.parked t = some ⟨via, .blocked⟩ := by
  rcases h with hparked | ⟨-, stmt, hpc⟩
  · exact hparked
  · rw [hpc] at hcalm
    exact absurd (Point.calm_cases hcalm).2 hvia

lemma moves_of_sched {sched : Sched Point} {pc : Point} (howner : (s.goto sched pc).owner = s.owner)
    (hall : sched.taskAllList = s.sched.taskAllList)
    (hcontext : ∀ u, (sched.task u).context = (s.sched.task u).context) :
    Moves s (s.goto sched pc) where
  owner := howner
  all _ hu := hall.symm ▸ hu
  others u hu _ := .inl ⟨hall ▸ hu, hcontext u⟩

/-- From one statement to the next, outside a call and without a write. -/
lemma Inv.next (h : Inv s) (hcalm : ¬ s.pc.Exposed) {pc : Point} (hcalm' : ¬ pc.Exposed)
    (hpc : pc.waking = s.pc.waking) : Inv (s.goto s.sched pc) := by
  have howner : (s.goto s.sched pc).owner = s.owner := by
    rw [owner_of_calm hcalm, owner_of_calm (s := s.goto s.sched pc) hcalm']
    rfl
  have hmoves : Moves s (s.goto s.sched pc) := moves_of_sched howner rfl fun _ => rfl
  refine h.moves hmoves (pending_of_timed (s := s.goto s.sched pc) hcalm' (h.timed hcalm)) h.free
    (inCall_of_calm hcalm') (fun t call ht => ⟨ht, rfl⟩) ?_
  refine h.waits.keep rfl (fun _ _ => id) (hmoves.same_waking h hpc) ?_
  exact fun t via hvia hw => .inl (waiting_of_calm hcalm hvia hw)

/-- From one statement of a call to the next one. -/
lemma Inv.advance (h : Inv s) {call : BlockCall} {stmt stmt' : BlockStmt}
    (hpc : s.pc = .block call stmt) (hstmt' : stmt' ≠ .setStatus) {sched : Sched Point}
    (hpending : Pending (s.goto sched (.block call stmt')).view.Sees [] s.timers sched)
    (hframe : Frame s.sched sched) (howner : (s.goto sched (.block call stmt')).owner = s.owner)
    (hcontext : ∀ u, (sched.task u).context = (s.sched.task u).context)
    (hwaiters : sched.roster.waiters = s.sched.roster.waiters)
    (hstatus : ∀ t, s.parked t ≠ none → (sched.task t).status = (s.sched.task t).status)
    (hwritten : call.status.Suspended ∧ (sched.task s.owner).status = call.status)
    (hswap : ∀ temp next, stmt' = .contextSwap temp next → next = sched.currentTask) :
    Inv (s.goto sched (.block call stmt')) := by
  have hmoves : Moves s (s.goto sched (.block call stmt')) :=
    moves_of_sched howner hframe.all hcontext
  refine h.moves hmoves hpending (free_of_frame h.free hframe) ?_ ?_ ?_
  · rintro _ _ ⟨⟩
    constructor
    case blocked => exact (h.call call stmt hpc).blocked
    case queued => exact fun _ _ heq => absurd heq hstmt'
    case written =>
      rw [howner]
      exact fun _ => hwritten
    case swap => exact hswap
  · exact fun t other ht => ⟨ht, hstatus t (by rw [show s.parked t = _ from ht]; simp)⟩
  · refine h.waits.keep rfl ?_ (hmoves.same_waking h (by rw [hpc]; rfl)) ?_
    · intro i t ht
      have heq : (sched.sema i).waiters = (s.sched.sema i).waiters := congrFun hwaiters i
      exact heq ▸ ht
    · rintro t via - (hparked | ⟨ht, other, hother⟩)
      · exact .inl hparked
      · rw [hpc] at hother
        obtain ⟨rfl, -⟩ := Point.block.inj hother
        exact .inr ⟨ht.trans howner.symm, stmt', rfl⟩

/-- The status is written after the task was appended to the waiters. -/
lemma law_registered {r : Roster} {wake : TaskAddr → ℕ} {c : TaskAddr} {via : Via}
    {status : TaskStatus} (h : Roster.Law (some c) wake { r with waiters := via.dequeue r.waiters })
    (hst : status.Suspended)
    (hqueued : ∀ psema, via = .sema psema → ∃ old, r.waiters psema.1 = old ++ [c]) :
    Roster.Law none wake (r.withStatus c status) := by
  have hblocked := h.block hst
  cases via with
  | sema psema =>
    obtain ⟨old, hold⟩ := hqueued psema rfl
    have hmem : c ∈ r.all := h.cur_mem
    let queue := Via.dequeue r.waiters (.sema psema)
    have hback : Function.update queue psema.1 (queue psema.1 ++ [c]) = r.waiters := by
      have hdrop : (r.waiters psema.1).dropLast ++ [c] = r.waiters psema.1 := by simp [hold]
      show Function.update (Via.dequeue r.waiters (.sema psema)) psema.1
        (Via.dequeue r.waiters (.sema psema) psema.1 ++ [c]) = r.waiters
      rw [Via.dequeue, Function.update_self, Function.update_idem, hdrop, Function.update_eq_self]
    have hlast : Roster.Law none wake ({ r with
        waiters := Function.update queue psema.1 (queue psema.1 ++ [c]) }.withStatus c status) :=
      hblocked.wait (Roster.blocked_withStatus_self.mpr ⟨hmem, hst⟩)
        (h.not_waiter h.cur_alone.2.1) psema.1
    rw [hback] at hlast
    exact hlast
  | user => exact hblocked
  | slot waiter => exact hblocked

lemma Inv.setStatus (h : Inv s) {call : BlockCall} (hpc : s.pc = .block call .setStatus)
    (hst : call.status.Suspended) :
    Inv (s.goto (s.sched.setStatus s.sched.currentTask call.status) (.block call .testReady)) := by
  have howner : s.owner = s.sched.currentTask := by rw [BlockRun.owner, hpc]
  have hlaw : Roster.Law (some s.sched.currentTask) (wakes s.timers) { s.sched.roster with
      waiters := call.via.dequeue s.sched.roster.waiters } := by
    have hlaw := h.pending.holds
    rw [BlockRun.view, hpc] at hlaw
    exact hlaw
  refine h.advance hpc (by simp) ⟨?_, h.pending.linked, h.pending.oneShot⟩
    (frame_setTask s.sched _ _) howner.symm (fun u => setStatus_context ..) rfl ?_ ?_ (by simp)
  · rw [roster_setStatus]
    exact law_registered hlaw hst fun psema hvia => (h.call call _ hpc).queued psema hvia rfl
  · intro t ht
    obtain ⟨other, hother⟩ := Option.ne_none_iff_exists'.mp ht
    have hne := (h.parked t other hother).2.1
    rw [setStatus_task_of_ne _ _ (howner ▸ hne)]
  · rw [howner]
    exact ⟨hst, setStatus_status_self ..⟩

/-- The roster that the law sees in a call that has written the status. -/
lemma Inv.sees (h : Inv s) {v : View} (hview : s.view = v) :
    v.Sees (wakes s.timers) s.sched.roster := hview ▸ h.pending.holds

/-- The next task is taken off the ready list. -/
lemma Inv.readyPop (h : Inv s) {call : BlockCall} (hpc : s.pc = .block call .readyPop)
    {next : TaskAddr} {rest : List TaskAddr} (hready : s.sched.taskReadyList = next :: rest) :
    Inv (s.goto { s.sched with taskReadyList := rest, taskTag := next }
      (.block call .takeTag)) := by
  have howner : s.owner = s.sched.currentTask := by rw [BlockRun.owner, hpc]
  have hview : s.view = ⟨none, [], s.sched.roster.waiters⟩ := by rw [BlockRun.view, hpc]
  have hlaw := h.sees hview
  refine h.advance hpc (by simp) ⟨?_, h.pending.linked, h.pending.oneShot⟩
    ⟨rfl, fun _ _ => rfl, rfl, rfl, rfl, rfl⟩ howner.symm (fun _ => rfl) rfl (fun _ _ => rfl)
    ((h.call call _ hpc).written (by simp)) (by simp)
  have hfront : s.sched.roster.ready = next :: rest := hready
  rw [View.Sees, hfront] at hlaw
  exact hlaw

/-- The next task is marked as running. -/
lemma Inv.markRunning (h : Inv s) {call : BlockCall} {next : TaskAddr}
    (hpc : s.pc = .block call (.markRunning next)) :
    Inv (s.goto (s.sched.setStatus next .running) (.block call (.setCurrent next))) := by
  have howner : s.owner = s.sched.currentTask := by rw [BlockRun.owner, hpc]
  have hview : s.view = ⟨none, [next], s.sched.roster.waiters⟩ := by rw [BlockRun.view, hpc]
  have hlaw := h.sees hview
  have hne : ∀ t, t ∉ s.view.front → t ≠ next := by
    rintro t ht rfl
    rw [hview] at ht
    exact ht (List.mem_singleton_self t)
  refine h.advance hpc (by simp) ⟨?_, h.pending.linked, h.pending.oneShot⟩
    (frame_setTask s.sched _ _) howner.symm (fun u => setStatus_context ..) rfl ?_ ?_ (by simp)
  · rw [roster_setStatus]
    exact Roster.Law.dispatch hlaw rfl
  · intro t ht
    obtain ⟨other, hother⟩ := Option.ne_none_iff_exists'.mp ht
    rw [setStatus_task_of_ne _ _ (hne t (h.parked_alone hother).2.1)]
  · rw [setStatus_task_of_ne _ _ (hne _ (h.owner_alone hpc (by simp)).2.1)]
    exact (h.call call _ hpc).written (by simp)

/-- The blocked task is parked, and the next one goes on. -/
lemma Inv.contextSwap (h : Inv s) {call : BlockCall} {temp next : TaskAddr}
    (hpc : s.pc = .block call (.contextSwap temp next)) {sched : Sched Point}
    (hsched : sched = s.sched.setTask temp fun p => { p with context := call.back }) :
    Inv { s.goto sched (sched.task next).context with
      parked := Function.update s.parked temp (some call) } := by
  have howner : s.owner = temp := by rw [BlockRun.owner, hpc]
  obtain rfl : next = s.sched.currentTask := (h.call call _ hpc).swap temp next rfl
  obtain ⟨hst, hstatus⟩ := (h.call call _ hpc).written (by simp)
  have hview : s.view = ⟨some s.sched.currentTask, [], s.sched.roster.waiters⟩ := by
    rw [BlockRun.view, hpc]
  have hlaw := h.sees hview
  have hback : ¬ call.back.Exposed ∧ call.back.waking = none := by
    unfold BlockCall.back
    cases call.via <;> exact ⟨id, rfl⟩
  have hcontext : ∀ u, (sched.task u).context =
      if u = s.owner then call.back else (s.sched.task u).context := by
    intro u
    rw [hsched, setTask_task, howner]
    split_ifs <;> rfl
  have hsame : ∀ u, (sched.task u).status = (s.sched.task u).status := by
    intro u
    rw [hsched, setTask_task]
    split_ifs with hu
    · rw [hu]
    · rfl
  have hframe : Frame s.sched sched := hsched ▸ frame_setTask s.sched _ _
  have hall := hframe.all
  obtain ⟨hcur, hroster⟩ : sched.currentTask = s.sched.currentTask ∧
      sched.roster = s.sched.roster := by
    rw [hsched]
    exact ⟨rfl, roster_setTask_of_status _ _ rfl⟩
  refine h.dispatched rfl ⟨?_, h.pending.linked, h.pending.oneShot⟩ ?_ ?_ ?_ ?_ ?_ ?_ ?_ ?_
  · show Roster.Law (some sched.currentTask) (wakes s.timers) sched.roster
    rw [hroster, hcur]
    exact hlaw
  · exact free_of_frame h.free hframe
  · show _ = (sched.task sched.currentTask).context
    rw [hcur]
    rfl
  · intro u hu
    have hmem : u ∈ s.sched.taskAllList := hall ▸ hu
    have hpoint : s.waking u = (s.point u).waking := if_pos hmem
    show (sched.task u).context.waking = _
    rw [hpoint, hcontext, BlockRun.point]
    split_ifs
    · rw [hback.2, hpc]
      rfl
    · rfl
  · exact fun u hu => if_neg fun hm => hu (hall.symm ▸ hm)
  · intro u hu
    show ¬ (sched.task u).context.Exposed
    rw [hcontext]
    split_ifs with heq
    · exact hback.1
    · exact h.calm u (hall ▸ hu) heq
  · intro t other ht
    show t ∈ sched.taskAllList ∧ other.status.Suspended ∧ (sched.task t).status = other.status
    change Function.update s.parked temp (some call) t = _ at ht
    rw [hall, hsame]
    by_cases heq : t = temp
    · subst heq
      rw [Function.update_self] at ht
      obtain rfl := Option.some.inj ht
      rw [← howner]
      exact ⟨h.owner, hst, hstatus⟩
    · rw [Function.update_of_ne heq] at ht
      obtain ⟨hmem, -, hst', hstatus'⟩ := h.parked t other ht
      exact ⟨hmem, hst', hstatus'⟩
  · rintro t via - (hparked | ⟨rfl, stmt, hother⟩)
    · have hne : t ≠ temp := howner ▸ (h.parked t _ hparked).2.1
      exact (Function.update_of_ne hne ..).trans hparked
    · rw [hpc] at hother
      obtain ⟨rfl, -⟩ := Point.block.inj hother
      show Function.update s.parked temp _ s.owner = _
      rw [howner, Function.update_self]
  · intro i t ht
    have heq : sched.roster.waiters i = s.sched.roster.waiters i := by rw [hroster]
    exact (show (sched.sema i).waiters = (s.sched.sema i).waiters from heq) ▸ ht

theorem Inv.runBlock (h : Inv s) {call : BlockCall} {stmt : BlockStmt}
    (hpc : s.pc = .block call stmt) (hrun : s.runBlock call stmt = .ok s') : Inv s' := by
  have htest : ∀ stmt', stmt ≠ .setStatus → stmt' ≠ .setStatus →
      (s.goto s.sched (.block call stmt')).owner = s.owner →
      (s.goto s.sched (.block call stmt')).view = s.view →
      (∀ temp next, stmt' = .contextSwap temp next → next = s.sched.currentTask) →
      Inv (s.goto s.sched (.block call stmt')) := by
    intro stmt' hne hne' howner hview hswap
    refine h.advance hpc hne' ⟨?_, h.pending.linked, h.pending.oneShot⟩ (Frame.refl _) howner
      (fun _ => rfl) rfl (fun _ _ => rfl) ((h.call call stmt hpc).written hne) hswap
    rw [hview]
    exact h.pending.holds
  cases stmt with
  | setStatus =>
    rw [BlockRun.runBlock, bind_eq_ok] at hrun
    obtain ⟨_, hst, hrun⟩ := hrun
    obtain rfl := Except.ok.inj hrun
    exact h.setStatus hpc (assert_eq_ok.mp hst)
  | testReady =>
    rw [BlockRun.runBlock] at hrun
    split_ifs at hrun with hnil
    · cases hrun
    · rw [assert_of_true hnil] at hrun
      obtain rfl := Except.ok.inj hrun
      exact htest .readyPop (by simp) (by simp) (by simp only [BlockRun.owner, hpc]; rfl)
        (by simp only [BlockRun.view, hpc]; rfl) (by simp)
  | readyPop =>
    rw [BlockRun.runBlock, popReady] at hrun
    cases hready : s.sched.taskReadyList with
    | nil =>
      rw [hready] at hrun
      cases hrun
    | cons next rest =>
      rw [hready] at hrun
      obtain rfl := Except.ok.inj hrun
      exact h.readyPop hpc hready
  | takeTag =>
    obtain rfl := Except.ok.inj hrun
    exact htest _ (by simp) (by simp) (by simp only [BlockRun.owner, hpc]; rfl)
      (by simp only [BlockRun.view, hpc]; rfl) (by simp)
  | markRunning next =>
    obtain rfl := Except.ok.inj hrun
    exact h.markRunning hpc
  | setCurrent next =>
    obtain rfl := Except.ok.inj hrun
    have howner : s.owner = s.sched.currentTask := by rw [BlockRun.owner, hpc]
    have hview : s.view = ⟨some next, [], s.sched.roster.waiters⟩ := by rw [BlockRun.view, hpc]
    have hlaw := h.sees hview
    refine h.advance hpc (by simp) ⟨hlaw, h.pending.linked, h.pending.oneShot⟩
      ⟨rfl, fun _ _ => rfl, rfl, rfl, rfl, rfl⟩ howner.symm (fun _ => rfl) rfl (fun _ _ => rfl)
      ((h.call call _ hpc).written (by simp)) ?_
    intro temp next' heq
    exact (BlockStmt.contextSwap.inj heq).2.symm
  | contextSwap temp next =>
    obtain rfl := Except.ok.inj hrun
    exact h.contextSwap hpc rfl

/-- A call in which the running task is registered and nothing is written yet. -/
lemma inCall_registered {via : Via} (hpc : s'.pc = .block ⟨via, .blocked⟩ .setStatus)
    (hqueued : ∀ psema, via = .sema psema →
      ∃ old, (s'.sched.sema psema).waiters = old ++ [s'.sched.currentTask])
    (call : BlockCall) (stmt : BlockStmt) (hcall : s'.pc = .block call stmt) :
    InCall s' call stmt := by
  rw [hpc] at hcall
  obtain ⟨rfl, rfl⟩ := Point.block.inj hcall
  exact ⟨fun _ => rfl, fun psema hvia _ => hqueued psema hvia, fun hne => absurd rfl hne, by simp⟩

/-- `sema_down` appends the task to the waiters and calls `task_block`. -/
lemma Inv.semaQueue (h : Inv s) {psema : CallerSema} (hpc : s.pc = .semaQueue psema) :
    Inv (s.goto (s.sched.setSema psema fun p => { p with
      waiters := p.waiters ++ [s.sched.currentTask] })
      (.block ⟨.sema psema, .blocked⟩ .setStatus)) := by
  have hcalm : ¬ s.pc.Exposed := by
    rw [hpc]
    exact id
  have howner := owner_of_calm hcalm
  let sched := s.sched.setSema psema fun p => { p with
    waiters := p.waiters ++ [s.sched.currentTask] }
  have hmoves : Moves s (s.goto sched (.block ⟨.sema psema, .blocked⟩ .setStatus)) :=
    moves_of_sched howner.symm rfl fun _ => rfl
  have hself : (sched.sema psema).waiters =
      (s.sched.sema psema).waiters ++ [s.sched.currentTask] := by
    simp [sched]
  have hother : ∀ i, i ≠ psema.1 → sched.sema i = s.sched.sema i :=
    fun i hi => setSema_sema_of_ne _ _ hi
  have hframe : Frame s.sched sched := frame_setSema s.sched psema.2 _
  refine h.moves hmoves ⟨?_, h.pending.linked, h.pending.oneShot⟩ (free_of_frame h.free hframe) ?_
    (fun t call ht => ⟨ht, rfl⟩) ?_
  · -- without its last waiter the semaphore is as before
    have hqueue : Via.dequeue sched.roster.waiters (.sema psema) = s.sched.roster.waiters := by
      show Function.update sched.roster.waiters psema.1 (sched.sema psema).waiters.dropLast = _
      rw [hself, List.dropLast_concat]
      funext i
      by_cases hi : i = psema.1
      · subst hi
        rw [Function.update_self]
        rfl
      · rw [Function.update_of_ne hi]
        exact congrArg Semaphore.waiters (hother i hi)
    have hlaw := (h.timed hcalm).law
    show Roster.Law (some s.sched.currentTask) (wakes s.timers) { s.sched.roster with
      waiters := Via.dequeue sched.roster.waiters (.sema psema) }
    rw [hqueue]
    exact hlaw
  · apply inCall_registered rfl
    rintro _ ⟨⟩
    exact ⟨_, hself⟩
  · have hwaking := hmoves.same_waking h (by rw [hpc]; rfl)
    have hold : ∀ t via, via ≠ .user → s.Waiting t via →
        (s.goto sched (.block ⟨.sema psema, .blocked⟩ .setStatus)).Waiting t via :=
      fun t via hvia hw => .inl (waiting_of_calm hcalm hvia hw)
    constructor
    case queued =>
      intro other t ht
      by_cases hi : other = psema
      · subst hi
        change t ∈ (sched.sema other).waiters at ht
        rw [hself, List.mem_append, List.mem_singleton] at ht
        rcases ht with ht | ht
        · exact hold t _ (by simp) (h.waits.queued other t ht)
        · exact .inr ⟨by rw [hmoves.owner, howner, ht], .setStatus, rfl⟩
      · change t ∈ (sched.sema other).waiters at ht
        rw [hother other fun he => hi (Subtype.ext he)] at ht
        exact hold t _ (by simp) (h.waits.queued other t ht)
    case slots =>
      rw [hwaking]
      exact fun waiter t ht => (h.waits.slots waiter t ht).imp_right (hold t _ (by simp))
    case unblocks =>
      rw [hwaking]
      exact fun u waiter t hu => hold t _ (by simp) (h.waits.unblocks u waiter t hu)
    case one =>
      rw [hwaking]
      exact h.waits.one

/-- `ioq_wait` writes the task to the slot and calls `task_block`. -/
lemma Inv.waitSet (h : Inv s) {waiter : ℕ} (hpc : s.pc = .waitSet waiter) :
    Inv { s.goto s.sched (.block ⟨.slot waiter, .blocked⟩ .setStatus) with
      slot := Function.update s.slot waiter (some s.sched.currentTask) } := by
  have hcalm : ¬ s.pc.Exposed := by
    rw [hpc]
    exact id
  have howner := owner_of_calm hcalm
  set s' : BlockRun := { s.goto s.sched (.block ⟨.slot waiter, .blocked⟩ .setStatus) with
    slot := Function.update s.slot waiter (some s.sched.currentTask) } with hs'
  have hmoves : Moves s s' := ⟨howner.symm, fun _ => id, fun u hu _ => .inl ⟨hu, rfl⟩⟩
  have hlaw := (h.timed hcalm).law
  refine h.moves hmoves ⟨hlaw, h.pending.linked, h.pending.oneShot⟩ h.free
    (inCall_registered rfl nofun) (fun t call ht => ⟨ht, rfl⟩) ?_
  have hwaking : s'.waking = s.waking := hmoves.same_waking h (by rw [hpc]; rfl)
  have hold : ∀ t via, via ≠ .user → s.Waiting t via → s'.Waiting t via :=
    fun t via hvia hw => .inl (waiting_of_calm hcalm hvia hw)
  constructor
  case queued => exact fun psema t ht => hold t _ (by simp) (h.waits.queued psema t ht)
  case slots =>
    intro w t ht
    change Function.update s.slot waiter (some s.sched.currentTask) w = some t at ht
    rw [hwaking]
    by_cases hw : w = waiter
    · subst hw
      rw [Function.update_self] at ht
      obtain rfl := Option.some.inj ht
      exact .inr (.inr ⟨by rw [hmoves.owner, howner], .setStatus, rfl⟩)
    · rw [Function.update_of_ne hw] at ht
      exact (h.waits.slots w t ht).imp_right (hold t _ (by simp))
  case unblocks =>
    rw [hwaking]
    exact fun u w t hu => hold t _ (by simp) (h.waits.unblocks u w t hu)
  case one =>
    rw [hwaking]
    exact h.waits.one

/-- What `task_unblock` of `t` leaves alone. -/
structure Unblocks (t : TaskAddr) (s s' : Sched Point) : Prop where
  frame : Frame s s'
  current : s'.currentTask = s.currentTask
  status : ∀ u, u ≠ t → (s'.task u).status = (s.task u).status
  context : ∀ u, (s'.task u).context = (s.task u).context

lemma taskUnblock_unblocks {s s' : Sched Point} {t : TaskAddr} (h : s.taskUnblock t = .ok s') :
    Unblocks t s s' ∧ s'.sema = s.sema := by
  obtain ⟨-, rfl⟩ := taskUnblock_ok h
  refine ⟨⟨⟨rfl, fun _ _ => rfl, rfl, rfl, rfl, rfl⟩, rfl, ?_, ?_⟩, rfl⟩
  · intro u hu
    rw [setStatus_task_of_ne _ _ hu]
  · exact fun u => setStatus_context ..

/-- A task leaves the place where it was parked. -/
lemma Inv.unpark (h : Inv s) (hcalm : ¬ s.pc.Exposed) {t : TaskAddr} {sched : Sched Point}
    {pc : Point} (hcalm' : ¬ pc.Exposed) (hun : Unblocks t s.sched sched)
    (hlaw : Roster.Law (some sched.currentTask) (wakes s.timers) sched.roster)
    (hwaiters : ∀ i u, u ∈ (sched.sema i).waiters → u ∈ (s.sched.sema i).waiters ∧ u ≠ t)
    (hslots : ∀ w, s.slot w = some t →
      ∃ u, Function.update s.waking s.owner pc.waking u = some (w, none))
    (hclears : ∀ w, s.pc.waking = some (w, none) → pc.waking = some (w, none))
    (hreads : ∀ w v, pc.waking = some (w, some v) → s.pc.waking = some (w, some v))
    (hunblocks : ∀ u w, Function.update s.waking s.owner pc.waking u ≠ some (w, some t))
    (hone : ∀ w x, pc.waking = some (w, x) → ∃ y, s.pc.waking = some (w, y)) :
    Inv ((s.goto sched pc).unpark t) := by
  have howner : (s.goto sched pc).owner = s.owner := by
    rw [owner_of_calm hcalm, owner_of_calm (s := s.goto sched pc) hcalm']
    exact hun.current
  have hgoes : Moves s (s.goto sched pc) := moves_of_sched howner hun.frame.all hun.context
  have hmoves : Moves s ((s.goto sched pc).unpark t) := ⟨hgoes.owner, hgoes.all, hgoes.others⟩
  have hwaking : ((s.goto sched pc).unpark t).waking = Function.update s.waking s.owner pc.waking :=
    hmoves.waking h
  have hparked : ∀ v call, Function.update s.parked t none v = some call →
      v ≠ t ∧ s.parked v = some call := by
    intro v call hv
    by_cases heq : v = t
    · subst heq
      rw [Function.update_self] at hv
      cases hv
    · rw [Function.update_of_ne heq] at hv
      exact ⟨heq, hv⟩
  have hkeep : ∀ v via, via ≠ .user → v ≠ t → s.Waiting v via →
      ((s.goto sched pc).unpark t).Waiting v via := by
    intro v via hvia hne hw
    exact .inl ((Function.update_of_ne hne ..).trans (waiting_of_calm hcalm hvia hw))
  refine h.moves hmoves (pending_of_timed (s := (s.goto sched pc).unpark t) hcalm'
    ⟨hlaw, h.pending.linked, h.pending.oneShot⟩) (free_of_frame h.free hun.frame)
    (inCall_of_calm hcalm') ?_ ?_
  · intro v call hv
    obtain ⟨hne, hold⟩ := hparked v call hv
    exact ⟨hold, hun.status v hne⟩
  · constructor
    case queued =>
      intro psema v hv
      obtain ⟨hold, hne⟩ := hwaiters _ v hv
      exact hkeep v _ (by simp) hne (h.waits.queued psema v hold)
    case slots =>
      intro w v hv
      rw [hwaking]
      by_cases hne : v = t
      · exact .inl (hslots w (hne ▸ hv))
      · refine (h.waits.slots w v hv).imp ?_ (hkeep v _ (by simp) hne)
        rintro ⟨u, hu⟩
        refine ⟨u, ?_⟩
        by_cases heq : u = s.owner
        · subst heq
          rw [Function.update_self]
          exact hclears w (h.waking_owner ▸ hu)
        · rwa [Function.update_of_ne heq]
    case unblocks =>
      intro u w v hu
      rw [hwaking] at hu
      have hne : v ≠ t := by
        rintro rfl
        exact hunblocks u w hu
      refine hkeep v _ (by simp) hne (h.waits.unblocks u w v ?_)
      by_cases heq : u = s.owner
      · subst heq
        rw [Function.update_self] at hu
        rw [h.waking_owner]
        exact hreads w v hu
      · rwa [Function.update_of_ne heq] at hu
    case one =>
      have hback : ∀ u w x, Function.update s.waking s.owner pc.waking u = some (w, x) →
          ∃ y, s.waking u = some (w, y) := by
        intro u w x hu
        by_cases heq : u = s.owner
        · subst heq
          rw [Function.update_self] at hu
          rw [h.waking_owner]
          exact hone w x hu
        · rw [Function.update_of_ne heq] at hu
          exact ⟨x, hu⟩
      intro u v w x y hu hv
      rw [hwaking] at hu hv
      obtain ⟨x', hu'⟩ := hback u w x hu
      obtain ⟨y', hv'⟩ := hback v w y hv
      exact h.waits.one u v w x' y' hu' hv'

/-- A task that waits in no slot leaves. -/
lemma Inv.unpark_same (h : Inv s) (hcalm : ¬ s.pc.Exposed) {t : TaskAddr} {sched : Sched Point}
    (hun : Unblocks t s.sched sched)
    (hlaw : Roster.Law (some sched.currentTask) (wakes s.timers) sched.roster)
    (hwaiters : ∀ i u, u ∈ (sched.sema i).waiters → u ∈ (s.sched.sema i).waiters ∧ u ≠ t)
    (hslot : ∀ w, ¬ s.Waiting t (.slot w)) : Inv ((s.goto sched s.pc).unpark t) := by
  have hsame : Function.update s.waking s.owner s.pc.waking = s.waking := by
    rw [← h.waking_owner, Function.update_eq_self]
  refine h.unpark hcalm hcalm hun hlaw hwaiters ?_ (fun _ => id) (fun _ _ => id) ?_
    (fun w x hx => ⟨x, hx⟩)
  · rw [hsame]
    exact fun w ht => (h.waits.slots w t ht).resolve_right (hslot w)
  · rw [hsame]
    exact fun u w hu => hslot w (h.waits.unblocks u w t hu)

/-- The semaphores of the library have no waiters. -/
lemma Inv.callers (h : Inv s) {i : SemaId} {t : TaskAddr} (ht : t ∈ (s.sched.sema i).waiters) :
    Callers i := by
  rintro l hl rfl
  rw [(h.free l hl).2] at ht
  cases ht

lemma Inv.waiting_sema (h : Inv s) {i : SemaId} {t : TaskAddr}
    (ht : t ∈ (s.sched.sema i).waiters) : ∃ psema, s.Waiting t (.sema psema) :=
  ⟨⟨i, h.callers ht⟩, h.waits.queued ⟨i, h.callers ht⟩ t ht⟩

/-- The slot is read, and no other `wakeup` has read it. -/
lemma Inv.wakeRead (h : Inv s) {w : ℕ} {t : TaskAddr} (hpc : s.pc = .wakeRead w)
    (hslot : s.slot w = some t) (honly : ∀ u, u ≠ s.owner → ∀ x, s.waking u ≠ some (w, x)) :
    Inv (s.goto s.sched (.wakeUnblock w t)) := by
  have hcalm : ¬ s.pc.Exposed := by
    rw [hpc]
    exact id
  have hmine : s.waking s.owner = none := by
    rw [h.waking_owner, hpc]
    rfl
  have hmoves : Moves s (s.goto s.sched (.wakeUnblock w t)) :=
    moves_of_sched (owner_of_calm hcalm).symm rfl fun _ => rfl
  have hwaking : (s.goto s.sched (.wakeUnblock w t)).waking =
      Function.update s.waking s.owner (some (w, some t)) := hmoves.waking h
  have hold : ∀ v via, via ≠ .user → s.Waiting v via →
      (s.goto s.sched (.wakeUnblock w t)).Waiting v via :=
    fun v via hvia hw => .inl (waiting_of_calm hcalm hvia hw)
  refine h.moves hmoves (pending_of_timed (s := s.goto s.sched _) id (h.timed hcalm)) h.free
    (inCall_of_calm id) (fun v call hv => ⟨hv, rfl⟩) ?_
  constructor
  case queued => exact fun psema v hv => hold v _ (by simp) (h.waits.queued psema v hv)
  case slots =>
    intro w' v hv
    rw [hwaking]
    refine (h.waits.slots w' v hv).imp ?_ (hold v _ (by simp))
    rintro ⟨u, hu⟩
    have hne : u ≠ s.owner := by
      rintro rfl
      rw [hmine] at hu
      cases hu
    exact ⟨u, by rwa [Function.update_of_ne hne]⟩
  case unblocks =>
    intro u w' v hu
    rw [hwaking] at hu
    by_cases heq : u = s.owner
    · subst heq
      rw [Function.update_self] at hu
      obtain ⟨rfl, hv⟩ := Prod.mk.inj (Option.some.inj hu)
      obtain rfl := Option.some.inj hv
      rcases h.waits.slots w t hslot with ⟨u, hclear⟩ | hw
      · by_cases heq : u = s.owner
        · rw [heq, hmine] at hclear
          cases hclear
        · exact absurd hclear (honly u heq _)
      · exact hold t _ (by simp) hw
    · rw [Function.update_of_ne heq] at hu
      exact hold v _ (by simp) (h.waits.unblocks u w' v hu)
  case one =>
    have hother : ∀ u v w' x y, u = s.owner → v ≠ s.owner →
        Function.update s.waking s.owner (some (w, some t)) u = some (w', x) →
        Function.update s.waking s.owner (some (w, some t)) v = some (w', y) → False := by
      rintro u v w' x y rfl hne hu hv
      rw [Function.update_self] at hu
      rw [Function.update_of_ne hne] at hv
      obtain ⟨rfl, -⟩ := Prod.mk.inj (Option.some.inj hu)
      exact honly v hne y hv
    intro u v w' x y hu hv
    rw [hwaking] at hu hv
    by_cases hu' : u = s.owner <;> by_cases hv' : v = s.owner
    · rw [hu', hv']
    · exact (hother u v w' x y hu' hv' hu hv).elim
    · exact (hother v u w' y x hv' hu' hv hu).elim
    · rw [Function.update_of_ne hu'] at hu
      rw [Function.update_of_ne hv'] at hv
      exact h.waits.one u v w' x y hu hv

/-- The slot is cleared. -/
lemma Inv.wakeClear (h : Inv s) {w : ℕ} (hpc : s.pc = .wakeClear w) :
    Inv { s.goto s.sched .user with slot := Function.update s.slot w none } := by
  have hcalm : ¬ s.pc.Exposed := by
    rw [hpc]
    exact id
  have hmine : s.waking s.owner = some (w, none) := by
    rw [h.waking_owner, hpc]
    rfl
  set s' : BlockRun := { s.goto s.sched .user with slot := Function.update s.slot w none } with hs'
  have hmoves : Moves s s' :=
    ⟨(owner_of_calm hcalm).symm, fun _ => id, fun u hu _ => .inl ⟨hu, rfl⟩⟩
  have hwaking : s'.waking = Function.update s.waking s.owner none := hmoves.waking h
  have hleft : ∀ u x, s'.waking u = some x → u ≠ s.owner ∧ s.waking u = some x := by
    intro u x hu
    rw [hwaking] at hu
    have hne : u ≠ s.owner := by
      rintro rfl
      rw [Function.update_self] at hu
      cases hu
    rw [Function.update_of_ne hne] at hu
    exact ⟨hne, hu⟩
  have hold : ∀ v via, via ≠ .user → s.Waiting v via → s'.Waiting v via :=
    fun v via hvia hw => .inl (waiting_of_calm hcalm hvia hw)
  refine h.moves hmoves (pending_of_timed (s := s') id (h.timed hcalm)) h.free (inCall_of_calm id)
    (fun v call hv => ⟨hv, rfl⟩) ?_
  constructor
  case queued => exact fun psema v hv => hold v _ (by simp) (h.waits.queued psema v hv)
  case slots =>
    intro w' v hv
    change Function.update s.slot w none w' = some v at hv
    have hne : w' ≠ w := by
      rintro rfl
      rw [Function.update_self] at hv
      cases hv
    rw [Function.update_of_ne hne] at hv
    refine (h.waits.slots w' v hv).imp ?_ (hold v _ (by simp))
    rintro ⟨u, hu⟩
    have hu' : u ≠ s.owner := by
      rintro rfl
      rw [hmine] at hu
      exact hne (Prod.mk.inj (Option.some.inj hu)).1.symm
    exact ⟨u, by rw [hwaking, Function.update_of_ne hu', hu]⟩
  case unblocks =>
    exact fun u w' v hu => hold v _ (by simp) (h.waits.unblocks u w' v (hleft u _ hu).2)
  case one =>
    exact fun u v w' x y hu hv => h.waits.one u v w' x y (hleft u _ hu).2 (hleft v _ hv).2

/-- The task that was read is parked, so it can be unblocked. -/
lemma Inv.parked_of_wakeUnblock (h : Inv s) {w : ℕ} {t : TaskAddr}
    (hpc : s.pc = .wakeUnblock w t) : s.parked t = some ⟨.slot w, .blocked⟩ := by
  have hcalm : ¬ s.pc.Exposed := by
    rw [hpc]
    exact id
  have hmine : s.waking s.owner = some (w, some t) := by
    rw [h.waking_owner, hpc]
    rfl
  exact waiting_of_calm hcalm (by simp) (h.waits.unblocks _ w t hmine)

lemma Inv.wakeUnblock (h : Inv s) {w : ℕ} {t : TaskAddr} (hpc : s.pc = .wakeUnblock w t)
    {sched : Sched Point} (hunblock : s.sched.taskUnblock t = .ok sched) :
    Inv ((s.goto sched (.wakeClear w)).unpark t) := by
  have hcalm : ¬ s.pc.Exposed := by
    rw [hpc]
    exact id
  have hmine : s.waking s.owner = some (w, some t) := by
    rw [h.waking_owner, hpc]
    rfl
  have hparked := h.parked_of_wakeUnblock hpc
  have hplace : ∀ via, via ≠ .user → s.Waiting t via → via = .slot w := by
    intro via hvia hw
    have heq := hparked.symm.trans (waiting_of_calm hcalm hvia hw)
    exact (congrArg BlockCall.via (Option.some.inj heq)).symm
  have hwait : ∀ i, t ∉ (s.sched.sema i).waiters := by
    intro i ht
    obtain ⟨psema, hw⟩ := h.waiting_sema ht
    cases hplace _ (by simp) hw
  obtain ⟨hlaw, -⟩ := law_taskUnblock (h.timed hcalm).law (h.parked t _ hparked).1 hwait hunblock
  obtain ⟨hun, hsema⟩ := taskUnblock_unblocks hunblock
  refine h.unpark hcalm id hun hlaw ?_ ?_ ?_ ?_ ?_ ?_
  · intro i u hu
    rw [hsema] at hu
    refine ⟨hu, ?_⟩
    rintro rfl
    exact hwait i hu
  · intro w' ht
    rcases h.waits.slots w' t ht with ⟨u, hu⟩ | hw
    · have hne : u ≠ s.owner := by
        rintro rfl
        rw [hmine] at hu
        cases hu
      exact ⟨u, by rwa [Function.update_of_ne hne]⟩
    · cases hplace _ (by simp) hw
      exact ⟨s.owner, Function.update_self ..⟩
  · rw [hpc]
    rintro w' ⟨⟩
  · rintro w' v ⟨⟩
  · intro u w' hu
    by_cases heq : u = s.owner
    · subst heq
      rw [Function.update_self] at hu
      cases hu
    · rw [Function.update_of_ne heq] at hu
      cases hplace _ (by simp) (h.waits.unblocks u w' t hu)
      exact heq (h.waits.one u s.owner w _ _ hu hmine)
  · rintro w' x ⟨⟩
    exact ⟨some t, by rw [hpc]; rfl⟩

end Local

end Libtask.Blocking
