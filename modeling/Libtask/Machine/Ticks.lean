import Libtask.Machine.Calls

/-!
# The handler, statement by statement

What is safe after `interrupt_timer_handler` and `create_timer` of `Libtask.Sched` is safe
before their statements.
-/
namespace Libtask.Machine
open Timer Sched

variable {good : State → Prop} {b : Bool} {code : List Stmt} {tail : List (List Stmt)}
  {timers : TimerState} {s : Sched Ctx}

theorem goes_createTimer {fn : TimerFn} {pParam : ℕ} {due period : UInt32}
    (hfree : s.LockFree .timer)
    (h : ∀ p timers' s', p ∉ s.alloc → p ∉ timers.heap →
      createTimerLocked timers s (some p) fn pParam due period = .ok (timers', s') →
      Goes good false (code :: tail) timers' s') :
    Goes good b ((.createTimer fn pParam due period :: code) :: tail) timers s := by
  refine goes_plain id trivial ?_
  intro malloc unlinked memory hfresh hmalloc hrun
  cases malloc with
  | none => exact absurd rfl (hmalloc _ _ _ _ rfl)
  | some p =>
    obtain rfl := Except.ok.inj hrun
    obtain ⟨halloc, hheap⟩ := hfresh p rfl
    have hgoal := h p _ _ halloc hheap (createTimerLocked_of_free hfree fn pParam due period)
    show Goes good b ((lockAcquire .timer ++
      (.timerAdd p fn pParam due period :: (lockRelease .timer ++ code))) :: tail) timers s
    refine goes_lockAcquire (by decide) hfree ?_
    refine goes_plain id trivial ?_
    intro malloc unlinked memory _ _ hrun
    obtain rfl := Except.ok.inj hrun
    refine goes_lockRelease (by simp [held]) (by simp [held]) ?_
    rw [freed_held hfree]
    exact hgoal

theorem goes_runTimer {uJiffies : UInt32} (hfree : s.LockFree .timer)
    (h : ∀ timers' s', Sched.runTimer callTimer uJiffies timers s = .ok (timers', s') →
      s'.LockFree .timer → Goes good false (code :: tail) timers' s') :
    Goes good b ((runTimer uJiffies ++ code) :: tail) timers s := by
  show Goes good b ((lockAcquire .timer ++
    (.timerLoop uJiffies :: (lockRelease .timer ++ code))) :: tail) timers s
  refine goes_lockAcquire (by decide) hfree ?_
  refine goes_plain id trivial ?_
  intro malloc unlinked memory _ _ hrun
  simp only [Stmt.effect] at hrun
  cases hloop : runTimerLoop (onSched callTimer) uJiffies (2 ^ 32)
    (timers, .ok (s.held .timer)) with
  | none =>
    rw [hloop] at hrun
    cases hrun
  | some r =>
    obtain ⟨timers', r⟩ := r
    rw [hloop] at hrun
    cases r with
    | error e => cases hrun
    | ok m =>
      obtain rfl := Except.ok.inj hrun
      have hcalled := called_loop hloop
      have hlock : m.lock .timer = ⟨some m.currentTask, 1⟩ := by
        rw [hcalled.lock, hcalled.current]
        simp [held]
      have hsema : m.sema (.ofLock .timer) = ⟨0, []⟩ := by
        rw [hcalled.sema]
        simp [held]
      refine goes_lockRelease hlock hsema ?_
      refine h timers' _ ?_ (by simp [LockFree, freed])
      rw [Sched.runTimer, lockAcquire_of_free hfree]
      simp only [bind, Except.bind, hloop, lockRelease_of_held hlock hsema]
      rfl

lemma interruptTimerHandler_of {κ : Type} {call : TimerNode → Sched κ → Except Stop (Sched κ)}
    {now : UInt32} {malloc : Option Addr} {timers timers1 timers' : TimerState} {s m s' : Sched κ}
    {frame k : κ} (hmagic : s.current.stackMagic = TaskStruct.magic)
    (hrun : Sched.runTimer call now timers s.tickBegun = .ok (timers1, m))
    (h : Handled malloc timers1 m frame timers' s' k) :
    Sched.interruptTimerHandler call now malloc timers s frame = .ok (timers', s', k) := by
  rw [tickBegun] at hrun
  rw [Sched.interruptTimerHandler, assert_of_true hmagic]
  cases h with
  | schedule hflag hticks h =>
    simp only [bind, Except.bind, hrun, hflag, hticks, and_self, if_true, h]
    rfl
  | count hflag hticks =>
    simp only [bind, Except.bind, hrun, hflag, hticks, and_false, if_true, if_false]
    rfl
  | sleep hflag hcreate h =>
    simp only [bind, Except.bind, hrun, hflag, hcreate, h, Bool.true_eq_false, false_and, if_false]
    rfl

/-- A signal at a flow of control. -/
theorem goes_interruptTimerHandler {uJiffies : UInt32} (hfree : s.LockFree .timer)
    (h : ∀ p timers1 m timers' s' k,
      Sched.runTimer callTimer uJiffies timers s.tickBegun = .ok (timers1, m) →
      p ∉ timers1.heap → p ∉ m.alloc →
      Sched.interruptTimerHandler callTimer uJiffies (some p) timers s ⟨tail, false, true⟩ =
        .ok (timers', s', k) → Goes good false k.stack timers' s') :
    Goes good b (interruptTimerHandler uJiffies :: tail) timers s := by
  refine goes_assert trivial (fun _ => rfl) (fun _ => rfl) fun hmagic => ?_
  refine goes_set trivial (fun _ => rfl) (fun _ => rfl) ?_
  show Goes good b ((runTimer uJiffies ++ [.tickTest]) :: tail) timers s.tickBegun
  refine goes_runTimer hfree ?_
  intro timers1 m hrun hfree1
  -- a block for the ticks that ask for none
  obtain ⟨q, hq⟩ := Infinite.exists_notMem_finset (timers1.heap ∪ m.alloc)
  rw [Finset.mem_union, not_or] at hq
  by_cases hflag : m.current.isCollaborativeSchedule = false
  · by_cases hticks : m.current.ticks = 0
    · refine goes_set trivial (fun _ => rfl) (fun _ => if_pos ⟨hflag, hticks⟩) ?_
      apply goes_schedule
      intro s' k hsched
      exact h q timers1 m timers1 s' k hrun hq.1 hq.2
        (interruptTimerHandler_of hmagic hrun (.schedule hflag hticks hsched))
    · have hgo : ¬ (m.current.isCollaborativeSchedule = false ∧ m.current.ticks = 0) :=
        fun hslice => hticks hslice.2
      refine goes_set trivial (fun _ => rfl) (fun _ => if_neg hgo) ?_
      refine goes_set trivial (fun _ => rfl) (fun _ => if_pos hflag) ?_
      refine goes_set trivial (fun _ => rfl) (fun _ => rfl) ?_
      apply goes_sigreturn
      exact h q timers1 m timers1 _ ⟨tail, false, true⟩ hrun hq.1 hq.2
        (interruptTimerHandler_of hmagic hrun (.count hflag hticks))
  · have hgo : ¬ (m.current.isCollaborativeSchedule = false ∧ m.current.ticks = 0) :=
      fun hslice => hflag hslice.1
    refine goes_set trivial (fun _ => rfl) (fun _ => if_neg hgo) ?_
    refine goes_set trivial (fun _ => rfl) (fun _ => if_neg hflag) ?_
    refine goes_set trivial (fun _ => rfl) (fun _ => rfl) ?_
    refine goes_createTimer hfree1 ?_
    intro p timers' m' halloc hheap hcreate
    apply goes_collaborativeSchedule
    intro s' k hsched
    exact h p timers1 m timers' s' k hrun hheap halloc
      (interruptTimerHandler_of hmagic hrun (.sleep (by simpa using hflag) hcreate hsched))

end Libtask.Machine
