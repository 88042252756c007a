import Libtask.Machine.Whole

/-!
# Each function, statement by statement

What is safe after the function of `Libtask.Sched` is safe before the statements of its
counterpart in C. The contexts that are saved hold the statements still to come.
-/
namespace Libtask.Machine
open Timer Sched

variable {good : State → Prop} {b : Bool} {code : List Stmt} {tail : List (List Stmt)}
  {timers : TimerState} {s : Sched Ctx}

theorem goes_lockAcquire {l : LockId} (hl : l ∈ libraryLocks) (hfree : s.LockFree l)
    (h : Goes good false (code :: tail) timers (s.held l)) :
    Goes good b ((lockAcquire l ++ code) :: tail) timers s := by
  obtain ⟨hlock, hsema⟩ := hfree
  have hholder : (s.lock l).holder ≠ some s.currentTask := by simp [hlock]
  have hvalue : (s.sema (.ofLock l)).value ≠ 0 := by simp [hsema]
  refine goes_set trivial (fun _ => rfl) (fun _ => if_pos hholder) ?_
  refine goes_set trivial (fun _ => rfl) (fun _ => rfl) ?_
  refine goes_semaTest (fun hcallers => hcallers l hl rfl) ?_
  rw [if_neg hvalue]
  refine goes_set trivial (fun _ => rfl) (fun _ => rfl) ?_
  refine goes_assert trivial (fun _ => rfl) (fun _ => rfl) fun _ => ?_
  refine goes_set trivial (fun _ => rfl) (fun _ => rfl) ?_
  refine goes_set trivial (fun _ => rfl) (fun _ => rfl) ?_
  refine goes_assert trivial (fun _ => rfl) (fun _ => rfl) fun _ => ?_
  refine goes_set trivial (fun _ => rfl) (fun _ => rfl) ?_
  have heq : ((s.setSema (.ofLock l) fun p => { p with value := p.value - 1 }).setLock l
      fun p => { p with holder := some s.currentTask }).setLock l
      (fun p => { p with holderRepeatNr := 1 }) = s.held l := by
    simp [held, setLock, setSema, hlock, hsema]
  exact h.congr heq

theorem goes_lockRelease {l : LockId} (hlock : s.lock l = ⟨some s.currentTask, 1⟩)
    (hsema : s.sema (.ofLock l) = ⟨0, []⟩) (h : Goes good false (code :: tail) timers (s.freed l)) :
    Goes good b ((lockRelease l ++ code) :: tail) timers s := by
  have hnr : ¬ (s.lock l).holderRepeatNr > 1 := by simp [hlock]
  have hnone : ¬ (s.sema (.ofLock l)).waiters ≠ [] := by simp [hsema]
  refine goes_assert trivial (fun _ => rfl) (fun _ => rfl) fun _ => ?_
  refine goes_set trivial (fun _ => rfl) (fun _ => if_neg hnr) ?_
  refine goes_assert trivial (fun _ => rfl) (fun _ => rfl) fun _ => ?_
  refine goes_set trivial (fun _ => rfl) (fun _ => rfl) ?_
  refine goes_set trivial (fun _ => rfl) (fun _ => rfl) ?_
  refine goes_set trivial (fun _ => rfl) (fun _ => rfl) ?_
  refine goes_assert trivial (fun _ => rfl) (fun _ => rfl) fun _ => ?_
  refine goes_set trivial (fun _ => rfl) (fun _ => if_neg hnone) ?_
  refine goes_set trivial (fun _ => rfl) (fun _ => rfl) ?_
  refine goes_assert trivial (fun _ => rfl) (fun _ => rfl) fun _ => ?_
  refine goes_set trivial (fun _ => rfl) (fun _ => rfl) ?_
  have heq : ((s.setLock l fun p => { p with holder := none }).setLock l
      fun p => { p with holderRepeatNr := 0 }).setSema (.ofLock l)
      (fun p => { p with value := p.value + 1 }) = s.freed l := by
    simp [freed, setLock, setSema, hlock, hsema]
  exact h.congr heq

/-- The head of the ready list is taken and marked. -/
lemma goes_readyPop {path : Path} {next : TaskAddr} {rest : List TaskAddr}
    (hready : s.taskReadyList = next :: rest)
    (h : Goes good b (((Stmt.markRunning path next).next none b s ++ code) :: tail) timers
      ({ s with taskReadyList := rest, taskTag := next }.setStatus next .running)) :
    Goes good b ((.readyPop path :: code) :: tail) timers s := by
  have hact : ∀ malloc, (Stmt.readyPop path).act malloc s =
      .ok { s with taskReadyList := rest, taskTag := next } := by
    intro malloc
    simp only [Stmt.act, hready]
  refine goes_set trivial hact (fun _ => rfl) ?_
  refine goes_set trivial (fun _ => rfl) (fun _ => rfl) ?_
  exact goes_set trivial (fun _ => rfl) (fun _ => rfl) h

/-- An empty ready list is waited on forever. -/
lemma goes_readyTest {path : Path}
    (h : ∀ next rest, s.taskReadyList = next :: rest →
      Goes good b (((if path = .block then [.readyAssert, .readyPop path] else [.readyPop path]) ++
        code) :: tail) timers s) :
    Goes good b ((.readyTest path :: code) :: tail) timers s := by
  cases hready : s.taskReadyList with
  | nil =>
    exact goes_set trivial (fun _ => rfl) (fun _ => if_pos hready) ⟨fun _ _ => safe_spin⟩
  | cons next rest =>
    have hne : s.taskReadyList ≠ [] := by simp [hready]
    exact goes_set trivial (fun _ => rfl) (fun _ => if_neg hne) (h next rest hready)

lemma blockTaskSchedule_of_ready {next : TaskAddr} {rest : List TaskAddr}
    (hready : s.taskReadyList = next :: rest) (here : Ctx) :
    s.blockTaskSchedule here = .ok (({ s with taskReadyList := rest, taskTag := next }.setStatus
      next .running).switchTo next here) := by
  simp [blockTaskSchedule, popReady, hready, bind, Except.bind, pure, Except.pure]

/-- `context_swap` saves the flow that calls it. -/
theorem goes_blockTaskSchedule
    (h : ∀ filled s' k, s.blockTaskSchedule ⟨code :: tail, b, filled⟩ = .ok (s', k) →
      Goes good b k.stack timers s') :
    Goes good b ((.readyTest .block :: code) :: tail) timers s := by
  apply goes_readyTest
  intro next rest hready
  refine goes_assert trivial (fun _ => rfl) (fun _ => rfl) fun _ => ?_
  apply goes_readyPop hready
  refine goes_set trivial (fun _ => rfl) (fun _ => rfl) ?_
  refine goes_set trivial (fun _ => rfl) (fun _ => rfl) ?_
  exact goes_contextSwap (h _ _ _ (blockTaskSchedule_of_ready hready _))

/-- Nothing is saved of a dead task. -/
theorem goes_diedTaskSchedule
    (h : ∀ s' k, s.diedTaskSchedule = .ok (s', k) → Goes good b k.stack timers s') :
    Goes good b ((.readyTest .died :: code) :: tail) timers s := by
  apply goes_readyTest
  intro next rest hready
  have hdied : s.diedTaskSchedule = .ok (
      { { s with taskReadyList := rest, taskTag := next }.setStatus next .running with
        currentTask := next },
      (({ s with taskReadyList := rest, taskTag := next }.setStatus next
        .running).task next).context) := by
    simp [diedTaskSchedule, popReady, hready, bind, Except.bind, pure, Except.pure]
  apply goes_readyPop hready
  refine goes_set trivial (fun _ => rfl) (fun _ => rfl) ?_
  exact goes_contextSet (h _ _ hdied)

/-- The handler exchanges the context of the signal frame, which is loaded at its return. -/
theorem goes_collaborativeSchedule
    (h : ∀ s' k, s.collaborativeSchedule ⟨tail, false, true⟩ = .ok (s', k) →
      Goes good false k.stack timers s') :
    Goes good b ([.readyTest .collaborative] :: tail) timers s := by
  apply goes_readyTest
  intro next rest hready
  apply goes_readyPop hready
  apply goes_saveFrame
  refine goes_set trivial (fun _ => rfl) (fun _ => rfl) ?_
  apply goes_loadFrame
  exact goes_sigreturn (h _ _ (collaborativeSchedule_of_ready hready _))

lemma schedule_of_ready {next : TaskAddr} {rest : List TaskAddr}
    (hnew : s.currentTask ∉ s.taskReadyList) (hready : s.requeued.taskReadyList = next :: rest)
    (frame : Ctx) :
    s.schedule frame = .ok (({ s.requeued with taskReadyList := rest, taskTag := next }.setStatus
      next .running).switchTo next frame) := by
  have hne : s.requeued.taskReadyList ≠ [] := by simp [hready]
  rw [schedule, assert_of_true hnew]
  show (if s.requeued.taskReadyList = [] then throw .emptyReadyList else
    s.requeued.getNextTask >>= fun r => pure (r.1.switchTo r.2 frame)) = _
  simp [getNextTask, popReady, hready, bind, Except.bind, pure, Except.pure]

theorem goes_schedule
    (h : ∀ s' k, s.schedule ⟨tail, false, true⟩ = .ok (s', k) → Goes good false k.stack timers s') :
    Goes good b ([.schedAssert] :: tail) timers s := by
  refine goes_assert trivial (fun _ => rfl) (fun _ => rfl) fun hnew => ?_
  refine goes_set trivial (fun _ => rfl) (fun _ => rfl) ?_
  refine goes_set trivial (fun _ => rfl) (fun _ => rfl) ?_
  refine goes_set trivial (fun _ => rfl) (fun _ => rfl) ?_
  have hqueue : ({ s with taskReadyList := s.taskReadyList ++ [s.currentTask] }.setTask
      s.currentTask fun p => { p with ticks := p.priority }).setStatus s.currentTask .ready =
      s.requeued := by
    simp [requeued, setStatus, setTask]
  have hgoal : Goes good b ([.readyTest .schedule] :: tail) timers s.requeued := by
    apply goes_readyTest
    intro next rest hready
    apply goes_readyPop hready
    apply goes_saveFrame
    refine goes_set trivial (fun _ => rfl) (fun _ => rfl) ?_
    apply goes_loadFrame
    exact goes_sigreturn (h _ _ (schedule_of_ready hnew hready _))
  exact hgoal.congr hqueue

theorem goes_taskBlock {status : TaskStatus}
    (h : ∀ filled s' k, s.taskBlock status ⟨code :: tail, b, filled⟩ = .ok (s', k) →
      Goes good b k.stack timers s') :
    Goes good b ((taskBlock status ++ code) :: tail) timers s := by
  refine goes_assert trivial (fun _ => rfl) (fun _ => rfl) fun hstatus => ?_
  refine goes_set trivial (fun _ => rfl) (fun _ => rfl) ?_
  apply goes_blockTaskSchedule
  intro filled s' k hblock
  refine h filled s' k ?_
  rw [Sched.taskBlock, assert_of_true hstatus]
  exact hblock

theorem goes_taskUnblock {ptask : TaskAddr}
    (h : ∀ s', s.taskUnblock ptask = .ok s' → Goes good false (code :: tail) timers s') :
    Goes good b ((.disable (.taskUnblock ptask) :: code) :: tail) timers s := by
  refine goes_set trivial (fun _ => rfl) (fun _ => rfl) ?_
  refine goes_assert trivial (fun _ => rfl) (fun _ => rfl) fun hstatus => ?_
  have hne : (s.task ptask).status ≠ .ready := by
    intro heq
    rw [heq] at hstatus
    exact absurd hstatus (by decide)
  refine goes_set trivial (fun _ => rfl) (fun _ => if_pos hne) ?_
  refine goes_assert trivial (fun _ => rfl) (fun _ => rfl) fun hnew => ?_
  refine goes_set trivial (fun _ => rfl) (fun _ => rfl) ?_
  refine goes_set trivial (fun _ => rfl) (fun _ => rfl) ?_
  refine h _ ?_
  rw [Sched.taskUnblock, assert_of_true hstatus]
  show (if (s.task ptask).status ≠ .ready then assert (ptask ∉ s.taskReadyList) >>= _ else _) = _
  rw [if_pos hne, assert_of_true hnew]
  rfl

/-- One round of the loop of `sema_down`, after the test. -/
theorem goes_semaDown {psema : SemaId}
    (hblock : ∀ filled s' k, s.semaDown psema ⟨(.semaTest psema :: code) :: tail, b, filled⟩ =
      .ok (s', some k) → Goes good b k.stack timers s')
    (htake : ∀ filled s', s.semaDown psema ⟨(.semaTest psema :: code) :: tail, b, filled⟩ =
      .ok (s', none) → Goes good b (code :: tail) timers s') :
    Goes good b (((if (s.sema psema).value = 0 then [.semaQueue psema] else [.semaTake psema]) ++
      code) :: tail) timers s := by
  by_cases hvalue : (s.sema psema).value = 0
  · rw [if_pos hvalue]
    refine goes_assert trivial (fun _ => rfl) (fun _ => rfl) fun hnew => ?_
    show Goes good b ((taskBlock .blocked ++ (.semaTest psema :: code)) :: tail) timers _
    apply goes_taskBlock
    intro filled s' k hrun
    refine hblock filled s' k ?_
    rw [Sched.semaDown, if_pos hvalue, assert_of_true hnew]
    exact congrArg (· >>= fun r => pure (r.1, some r.2)) hrun
  · rw [if_neg hvalue]
    refine goes_set trivial (fun _ => rfl) (fun _ => rfl) ?_
    refine goes_assert trivial (fun _ => rfl) (fun _ => rfl) fun htaken => ?_
    refine htake false _ ?_
    rw [Sched.semaDown, if_neg hvalue, semaTake, assert_of_true htaken]
    rfl

lemma goes_semaGive {psema : SemaId} {was : Bool}
    (h : ∀ s', semaGive s psema = .ok s' → Goes good false (code :: tail) timers s') :
    Goes good b ((.semaInc psema :: .enable (.semaUp psema) was :: code) :: tail) timers s := by
  refine goes_set trivial (fun _ => rfl) (fun _ => rfl) ?_
  refine goes_assert trivial (fun _ => rfl) (fun _ => rfl) fun hgiven => ?_
  refine goes_set trivial (fun _ => rfl) (fun _ => rfl) ?_
  refine h _ ?_
  rw [semaGive, assert_of_true hgiven]
  rfl

theorem goes_semaUp {psema : SemaId}
    (h : ∀ s', s.semaUp psema = .ok s' → Goes good false (code :: tail) timers s') :
    Goes good b ((.disable (.semaUp psema) :: code) :: tail) timers s := by
  refine goes_set trivial (fun _ => rfl) (fun _ => rfl) ?_
  refine goes_assert trivial (fun _ => rfl) (fun _ => rfl) fun hzero => ?_
  cases hwaiters : (s.sema psema).waiters with
  | nil =>
    have hnone : ¬ (s.sema psema).waiters ≠ [] := by simp [hwaiters]
    refine goes_set trivial (fun _ => rfl) (fun _ => if_neg hnone) ?_
    apply goes_semaGive
    intro s' hgive
    refine h s' ?_
    rw [Sched.semaUp, assert_of_true hzero, hwaiters]
    exact hgive
  | cons t rest =>
    have hsome : (s.sema psema).waiters ≠ [] := by simp [hwaiters]
    refine goes_set trivial (fun _ => rfl) (fun _ => if_pos hsome) ?_
    have hpop : ∀ malloc, (Stmt.semaPop psema).act malloc s =
        .ok (s.setSema psema fun p => { p with waiters := rest }) := by
      intro malloc
      simp only [Stmt.act, hwaiters]
    have hnext : ∀ malloc, (Stmt.semaPop psema).next malloc true s =
        [.disable (.taskUnblock t), .semaInc psema] := by
      intro malloc
      simp only [Stmt.next, hwaiters]
      rfl
    refine goes_set trivial hpop hnext ?_
    apply goes_taskUnblock
    intro m hunblock
    apply goes_semaGive
    intro s' hgive
    refine h s' ?_
    rw [Sched.semaUp, assert_of_true hzero, hwaiters]
    show (_ >>= fun m => semaGive m psema) = _
    rw [hunblock]
    exact hgive

/-- A hook asks for the sleep and waits in a loop, or passes the call on. -/
theorem goes_hook {set : UInt32} {add : Option UInt32}
    (hpass : s.current.isHook ≠ true → Goes good b (code :: tail) timers s)
    (hsleep : s.current.isHook = true →
      Goes good b ((.hookSpin :: code) :: tail) timers (s.requestSleep (set + add.getD 0))) :
    Goes good b ((.hookTest set add :: code) :: tail) timers s := by
  by_cases hhook : s.current.isHook = true
  · refine goes_set trivial (fun _ => rfl) (fun _ => if_pos hhook) ?_
    refine goes_set trivial (fun _ => rfl) (fun _ => rfl) ?_
    refine goes_set trivial (fun _ => rfl) (fun _ => rfl) ?_
    cases add with
    | none =>
      have heq : (s.setTask s.currentTask fun p => { p with
          isCollaborativeSchedule := true }).setTask s.currentTask
          (fun p => { p with sleepMillisecond := set }) =
          s.requestSleep (set + (none : Option UInt32).getD 0) := by simp [requestSleep, setTask]
      exact (hsleep hhook).congr heq
    | some add =>
      refine goes_set trivial (fun _ => rfl) (fun _ => rfl) ?_
      have heq : ((s.setTask s.currentTask fun p => { p with
          isCollaborativeSchedule := true }).setTask s.currentTask
          fun p => { p with sleepMillisecond := set }).setTask s.currentTask
          (fun p => { p with sleepMillisecond := p.sleepMillisecond + add }) =
          s.requestSleep (set + (some add).getD 0) := by simp [requestSleep, setTask]
      exact (hsleep hhook).congr heq
  · refine goes_set trivial (fun _ => rfl) (fun _ => if_neg hhook) ?_
    exact hpass hhook

lemma allocateTid_of (hfree : s.LockFree .tid) {bitIdx : Int32} {btmp : Bitmap}
    (hscan : s.tidBitmap.bitmapScan 1 = .ok bitIdx)
    (hset : s.tidBitmap.bitmapSet bitIdx.toUInt32 1 = .ok btmp) :
    s.allocateTid = .ok ({ s with tidBitmap := btmp },
      (bitIdx.toUInt32 + s.tidStart).toUInt16.toInt16) := by
  unfold allocateTid
  rw [lockAcquire_of_free hfree]
  change (s.tidBitmap.bitmapScan 1 >>= fun bitIdx => s.tidBitmap.bitmapSet bitIdx.toUInt32 1 >>=
    fun btmp => { s.held .tid with tidBitmap := btmp }.lockRelease .tid >>=
      fun s' => .ok (s', (bitIdx.toUInt32 + s'.tidStart).toUInt16.toInt16)) = _
  rw [hscan]
  change (s.tidBitmap.bitmapSet bitIdx.toUInt32 1 >>=
    fun btmp => { s.held .tid with tidBitmap := btmp }.lockRelease .tid >>=
      fun s' => .ok (s', (bitIdx.toUInt32 + s'.tidStart).toUInt16.toInt16)) = _
  rw [hset]
  change ({ s.held .tid with tidBitmap := btmp }.lockRelease .tid >>=
      fun s' => .ok (s', (bitIdx.toUInt32 + s'.tidStart).toUInt16.toInt16)) = _
  rw [lockRelease_bitmap hfree]
  rfl

lemma releaseTid_of (hfree : s.LockFree .tid) {tid : Int16} {btmp : Bitmap}
    (hset : s.tidBitmap.bitmapSet (s.bitIdxOf tid) 0 = .ok btmp) :
    s.releaseTid tid = .ok { s with tidBitmap := btmp } := by
  unfold releaseTid
  rw [lockAcquire_of_free hfree]
  change (s.tidBitmap.bitmapSet (s.bitIdxOf tid) 0 >>= fun btmp =>
    { s.held .tid with tidBitmap := btmp }.lockRelease .tid) = _
  rw [hset]
  exact lockRelease_bitmap hfree btmp

/-- What is done to the bitmap under the lock is all that remains. -/
lemma goes_releaseBitmap {btmp : Bitmap} (hfree : s.LockFree .tid)
    (h : Goes good false (code :: tail) timers { s with tidBitmap := btmp }) :
    Goes good b ((lockRelease .tid ++ code) :: tail) timers
      { s.held .tid with tidBitmap := btmp } := by
  refine goes_lockRelease (by simp [held]) (by simp [held]) ?_
  have heq : { s.held .tid with tidBitmap := btmp }.freed .tid = { s with tidBitmap := btmp } :=
    congrArg (fun s : Sched Ctx => { s with tidBitmap := btmp }) (freed_held hfree)
  exact h.congr heq

theorem goes_taskExit (hfree : s.LockFree .tid)
    (h : ∀ s' k, s.taskExit s.currentTask = .ok (s', k) → Goes good false k.stack timers s') :
    Goes good b ((.exitCurrent :: code) :: tail) timers s := by
  have hexit : ∀ {p : List TaskAddr} {b : Bool} {f : Fn} {was : Bool},
      p = s.taskPoolList ++ (if s.currentTask = s.mainTask then [] else [s.currentTask]) →
      Goes good b ((.releaseTid s.currentTask :: .enable f was :: .readyTest .died :: code) :: tail)
        timers { s.exitState s.currentTask with taskPoolList := p } := by
    rintro p b f was rfl
    refine goes_set trivial (fun _ => rfl) (fun _ => rfl) ?_
    show Goes good b ((lockAcquire .tid ++ (.bitmapClear _ :: (lockRelease .tid ++ _))) :: tail)
      timers _
    refine goes_lockAcquire (by decide) hfree ?_
    refine goes_act trivial fun malloc t _ hact => ?_
    obtain ⟨btmp, hset, ht⟩ := bind_eq_ok.mp hact
    obtain rfl := Except.ok.inj ht
    refine goes_releaseBitmap (s := s.exitState s.currentTask) hfree ?_
    refine goes_set trivial (fun _ => rfl) (fun _ => rfl) ?_
    apply goes_diedTaskSchedule
    intro s' k hdied
    refine h s' k ?_
    have htid : ((s.exitState s.currentTask).task s.currentTask).tid =
        (s.task s.currentTask).tid := by simp [exitState]
    have hrelease : (s.exitState s.currentTask).releaseTid
        ((s.exitState s.currentTask).task s.currentTask).tid = _ :=
      releaseTid_of (s := s.exitState s.currentTask) hfree hset
    rw [taskExit_eq, ← htid, hrelease]
    exact hdied
  refine goes_set trivial (fun _ => rfl) (fun _ => rfl) ?_
  refine goes_set trivial (fun _ => rfl) (fun _ => rfl) ?_
  refine goes_set trivial (fun _ => rfl) (fun _ => rfl) ?_
  refine goes_set trivial (fun _ => rfl) (fun _ => rfl) ?_
  refine goes_set trivial (fun _ => rfl) (fun _ => rfl) ?_
  by_cases hmain : s.currentTask = s.mainTask
  · refine goes_set trivial (fun _ => if_neg (not_not.mpr hmain)) (fun _ => rfl) ?_
    exact hexit (p := s.taskPoolList) (by simp [hmain])
  · refine goes_set trivial (fun _ => if_pos hmain) (fun _ => rfl) ?_
    exact hexit (by rw [if_neg hmain]; rfl)

lemma next_bitmapScan {ptask : TaskAddr} {prio bitIdx : Int32} {malloc : Option ℕ}
    (hscan : s.tidBitmap.bitmapScan 1 = .ok bitIdx) :
    (Stmt.bitmapScan ptask prio).next malloc b s = [.bitmapSet ptask prio bitIdx] := by
  simp only [Stmt.next, hscan]

/-- What `task_start` does once it has the block. -/
lemma goes_initTask {name : List UInt8} {prio : Int32} {mem : ℕ} {was : Bool}
    (hfree : s.LockFree .tid) (hpool : s.taskPoolList = []) (hmain : mem ≠ s.mainTask)
    (h : ∀ stack s' task, stack ∉ insert mem s.alloc → stack ∉ timers.heap →
      s.taskStart mem stack name prio ⟨[taskEntrance], false, true⟩ = .ok (s', task) →
      Goes good false (code :: tail) timers s') :
    Goes good b ((.initZero mem name prio :: .enable (.taskStart name prio) was :: code) :: tail)
      timers { s with alloc := insert mem s.alloc } := by
  refine goes_act trivial fun malloc t _ hact => ?_
  simp only [Stmt.act] at hact
  split_ifs at hact with hname
  obtain rfl := Except.ok.inj hact
  refine goes_set trivial (fun _ => if_neg hmain) (fun _ => rfl) ?_
  have hblock : ((({ s with alloc := insert mem s.alloc } : Sched Ctx).setTask mem fun _ =>
      { (TaskStruct.zero : TaskStruct Ctx) with name := name }).setTask mem fun p =>
      { p with status := .ready, first := true }) = s.initBlock mem name := by
    simp [initBlock, setTask]
  have hgoal : Goes good b ((lockAcquire .tid ++ (.bitmapScan mem prio ::
      .enable (.taskStart name prio) was :: code)) :: tail) timers (s.initBlock mem name) := by
    refine goes_lockAcquire (by decide) hfree ?_
    refine goes_act trivial fun malloc t _ hact => ?_
    obtain ⟨bitIdx, hscan, ht⟩ := bind_eq_ok.mp hact
    obtain rfl := Except.ok.inj ht
    rw [next_bitmapScan hscan]
    refine goes_act trivial fun malloc t _ hact => ?_
    obtain ⟨btmp, hset, ht⟩ := bind_eq_ok.mp hact
    obtain rfl := Except.ok.inj ht
    refine goes_releaseBitmap (s := s.initBlock mem name) hfree ?_
    refine goes_set trivial (fun _ => rfl) (fun _ => rfl) ?_
    refine goes_act trivial fun malloc t hfresh hact => ?_
    cases malloc with
    | none => cases hact
    | some stack =>
      obtain rfl := Except.ok.inj hact
      refine goes_set trivial (fun _ => rfl) (fun _ => rfl) ?_
      refine goes_assert trivial (fun _ => rfl) (fun _ => rfl) fun hready => ?_
      refine goes_assert trivial (fun _ => rfl) (fun _ => rfl) fun hall => ?_
      refine goes_set trivial (fun _ => rfl) (fun _ => rfl) ?_
      refine goes_set trivial (fun _ => rfl) (fun _ => rfl) ?_
      have hstart := (taskStart_eq stack name prio ⟨[taskEntrance], false, true⟩ hpool
        (not_le.mp hname) hmain hready hall).1 btmp _
        (allocateTid_of (s := s.initBlock mem name) hfree hscan hset)
      refine (h stack _ mem (hfresh stack rfl).1 (hfresh stack rfl).2 hstart).congr ?_
      simp [bornState, bornTask, initBlock, setTask, TaskStruct.zero]
  exact hgoal.congr hblock

/-- `task_start` of a library whose pool holds dead tasks at most. -/
theorem goes_taskStart {name : List UInt8} {prio : Int32} (hfree : s.LockFree .tid)
    (hpool : ∀ t ∈ s.taskPoolList, (s.task t).status = .died) (hmain : s.mainTask ∈ s.alloc)
    (h : ∀ mem stack s' task, stack ≠ mem →
      (∀ p ∈ [mem, stack], p ∉ s.alloc ∧ p ∉ timers.heap) →
      s.taskStart mem stack name prio ⟨[taskEntrance], false, true⟩ = .ok (s', task) →
      Goes good false (code :: tail) timers s') :
    Goes good b ((.disable (.taskStart name prio) :: code) :: tail) timers s := by
  refine goes_set trivial (fun _ => rfl) (fun _ => rfl) ?_
  cases hlist : s.taskPoolList with
  | nil =>
    refine goes_set trivial (fun _ => rfl) (fun _ => if_neg (not_not.mpr hlist)) ?_
    refine goes_act trivial fun malloc t hfresh hact => ?_
    cases malloc with
    | none => cases hact
    | some mem =>
      obtain rfl := Except.ok.inj hact
      obtain ⟨hmem, hheap⟩ := hfresh mem rfl
      refine goes_initTask hfree hlist (by rintro rfl; exact hmem hmain) ?_
      intro stack s' task hstack hstackHeap hstart
      rw [Finset.mem_insert, not_or] at hstack
      refine h mem stack s' task hstack.1 ?_ hstart
      simp [hmem, hheap, hstack.2, hstackHeap]
  | cons t rest =>
    have hne : s.taskPoolList ≠ [] := by simp [hlist]
    have hpop : ∀ malloc, (Stmt.poolPop name prio).act malloc s =
        .ok { s with taskPoolList := rest, taskTag := t } := by
      intro malloc
      simp only [Stmt.act, hlist]
    have hnext : ∀ malloc, (Stmt.poolPop name prio).next malloc true s =
        [.poolAssert t name prio] := by
      intro malloc
      simp only [Stmt.next, hlist]
      rfl
    refine goes_set trivial (fun _ => rfl) (fun _ => if_pos hne) ?_
    refine goes_set trivial hpop hnext ?_
    refine goes_assert trivial (fun _ => rfl) (fun _ => rfl) fun halive => ?_
    exact absurd (hpool t (hlist ▸ List.mem_cons_self)).symm halive

end Libtask.Machine
