import Libtask.Task.Linking

/-!
# Each function agrees with its counterpart

One lemma for each function of `task/task.c` and `task/sync.c`. What a lemma asks of the
sequences is that a tag which is put on a list is on none, and that no list is longer
than there are tasks.
-/
namespace Libtask.LinkedSched
open Agreement

variable {κ : Type} {p : LinkedSched κ} {s : Sched κ}

/-- Conditions that say the same are asserted alike. -/
lemma agree_assert {c c' : Prop} [Decidable c] [Decidable c'] (h : c ↔ c') :
    Agree (fun _ _ => c') (assert c) (assert c') := by
  by_cases hc : c
  · rw [assert_of_true hc, assert_of_true (h.mp hc)]
    exact .ok (h.mp hc)
  · rw [assert_of_false hc, assert_of_false (mt h.mpr hc)]
    exact .error _

/-- A search and the assertion that it finds nothing. -/
lemma agree_notFound {x : Except Stop Bool} {c : Prop} [Decidable c]
    (hx : x = .ok (decide c)) :
    Agree (fun _ _ => ¬ c) (x >>= fun found => assert (found = false)) (assert (¬ c)) := by
  rw [hx, ok_bind]
  exact agree_assert (by simp)

/-- The same data. -/
structure SameData (p : LinkedSched κ) (s : Sched κ) : Prop where
  task : p.task = s.task
  alloc : p.alloc = s.alloc
  current : p.currentTask = s.currentTask
  main : p.mainTask = s.mainTask
  nums : p.taskAllNums = s.taskAllNums
  bitmap : p.tidBitmap = s.tidBitmap
  start : p.tidStart = s.tidStart
  lock : p.lock = s.lock
  value : ∀ i, p.value i = (s.sema i).value

lemma Linked.data (h : Linked p s) : SameData p s := by
  obtain ⟨ht⟩ := h
  exact ⟨rfl, rfl, rfl, rfl, rfl, rfl, rfl, rfl, fun _ => rfl⟩

/-- Data has changed, and no list. -/
lemma Linked.changed {p' : LinkedSched κ} {s' : Sched κ} (h : Linked p s)
    (hp : p' = ofSched s' p.links) (hs : contents s' = contents s) : Linked p' s' := by
  obtain ⟨ht⟩ := h
  subst hp
  exact .intro (hs ▸ ht)

lemma Linked.setTask (h : Linked p s) (t : TaskAddr) (f : TaskStruct κ → TaskStruct κ) :
    Linked (p.setTask t f) (s.setTask t f) := by
  apply h.changed
  · obtain ⟨ht⟩ := h
    rfl
  · rfl

lemma Linked.setStatus (h : Linked p s) (t : TaskAddr) (status : TaskStatus) :
    Linked (p.setStatus t status) (s.setStatus t status) := h.setTask t _

lemma Linked.setLock (h : Linked p s) (l : LockId) (f : Lock → Lock) :
    Linked (p.setLock l f) (s.setLock l f) := by
  apply h.changed
  · obtain ⟨ht⟩ := h
    rfl
  · rfl

lemma Linked.setCurrent (h : Linked p s) (t : TaskAddr) :
    Linked { p with currentTask := t } { s with currentTask := t } := by
  apply h.changed
  · obtain ⟨ht⟩ := h
    rfl
  · rfl

lemma elem2entry_elem (t : TaskAddr) (tag : TaskTag) :
    elem2entry tag (.elem ⟨t, tag⟩) = .ok t := if_pos rfl

/-- Only the value of the semaphore changes. -/
lemma Linked.setValue (h : Linked p s) (i : SemaId) (f : UInt8 → UInt8) :
    Linked (p.setValue i f) (s.setSema i fun p => { p with value := f p.value }) := by
  apply h.changed
  · obtain ⟨ht⟩ := h
    simp only [LinkedSched.setValue, ofSched]
    congr 1
    ext1 j
    by_cases hj : j = i
    · subst hj
      simp
    · simp [hj, s.setSema_sema_of_ne _ hj]
  · rw [contents_setSema]
    exact Function.update_eq_self ..

lemma popReady_agree (h : Linked p s) : Agree (Beside Linked) p.popReady s.popReady := by
  unfold LinkedSched.popReady Sched.popReady
  cases hready : s.taskReadyList with
  | nil =>
    rw [h.listPop_nil (i := .ready) (by rw [contents, hready]; rfl)]
    exact .error _
  | cons t rest =>
    obtain ⟨p', hpop, h'⟩ := h.popReady hready
    rw [hpop]
    exact .ok ⟨h', rfl⟩

lemma getNextTask_agree (h : Linked p s) :
    Agree (Beside Linked) p.getNextTask s.getNextTask := by
  unfold LinkedSched.getNextTask Sched.getNextTask
  refine (popReady_agree h).bind ?_
  rintro ⟨p', t⟩ ⟨s', t'⟩ - - ⟨h', rfl⟩
  exact .ok ⟨h'.setStatus t .running, rfl⟩

lemma switchTo_agree (h : Linked p s) (next : TaskAddr) (frame : κ) :
    Beside Linked (p.switchTo next frame) (s.switchTo next frame) := by
  have hcur := h.data.current
  unfold LinkedSched.switchTo Sched.switchTo
  rw [hcur]
  have h' := h.setTask s.currentTask fun p => { p with context := frame }
  refine ⟨h'.setCurrent next, ?_⟩
  dsimp only
  rw [h'.data.task]

/-- What all dispatches do once a task is ready. -/
lemma dispatch_agree (h : Linked p s) (frame : κ) :
    Agree (Beside Linked) (p.getNextTask >>= fun r => pure (r.1.switchTo r.2 frame))
      (s.getNextTask >>= fun r => pure (r.1.switchTo r.2 frame)) := by
  refine (getNextTask_agree h).bind ?_
  rintro ⟨p', t⟩ ⟨s', t'⟩ - - ⟨h', rfl⟩
  exact .ok (switchTo_agree h' t frame)

theorem collaborativeSchedule_agree (h : Linked p s) (frame : κ) :
    Agree (Beside Linked) (p.collaborativeSchedule frame) (s.collaborativeSchedule frame) := by
  unfold LinkedSched.collaborativeSchedule Sched.collaborativeSchedule
  refine .ite h.emptyReady (fun _ _ => .error _) fun _ _ => ?_
  exact dispatch_agree h frame

theorem blockTaskSchedule_agree (h : Linked p s) (here : κ) :
    Agree (Beside Linked) (p.blockTaskSchedule here) (s.blockTaskSchedule here) := by
  unfold LinkedSched.blockTaskSchedule Sched.blockTaskSchedule
  refine .ite h.emptyReady (fun _ _ => .error _) fun _ _ => ?_
  refine (agree_assert ?_).bind fun _ _ _ _ _ => ?_
  · rw [← Bool.not_eq_true, h.emptyReady]
  · refine (popReady_agree h).bind ?_
    rintro ⟨p', t⟩ ⟨s', t'⟩ - - ⟨h', rfl⟩
    exact .ok (switchTo_agree (h'.setStatus t .running) t here)

theorem diedTaskSchedule_agree (h : Linked p s) :
    Agree (Beside Linked) p.diedTaskSchedule s.diedTaskSchedule := by
  unfold LinkedSched.diedTaskSchedule Sched.diedTaskSchedule
  refine .ite h.emptyReady (fun _ _ => .error _) fun _ _ => ?_
  refine (popReady_agree h).bind ?_
  rintro ⟨p', t⟩ ⟨s', t'⟩ - - ⟨h', rfl⟩
  have hrun := h'.setStatus t .running
  refine .ok ⟨hrun.setCurrent t, ?_⟩
  dsimp only
  rw [hrun.data.task]

theorem schedule_agree (h : Linked p s) (hcount : Counted s)
    (hwait : ∀ i, s.currentTask ∉ (s.sema i).waiters) (frame : κ) :
    Agree (Beside Linked) (p.schedule frame) (s.schedule frame) := by
  unfold LinkedSched.schedule Sched.schedule
  rw [h.data.current, ← bind_assoc]
  refine (agree_notFound (h.findReady hcount s.currentTask)).bind fun _ _ _ _ hready => ?_
  obtain ⟨p1, happ, h1⟩ := h.appendReady ⟨hready, hwait⟩
  rw [happ, ok_bind, h1.data.current]
  have h2 := h1.setTask s.currentTask fun p => { p with ticks := p.priority, status := .ready }
  refine .ite h2.emptyReady (fun _ _ => .error _) fun _ _ => ?_
  exact dispatch_agree h2 frame

theorem taskBlock_agree (h : Linked p s) (status : TaskStatus) (here : κ) :
    Agree (Beside Linked) (p.taskBlock status here) (s.taskBlock status here) := by
  unfold LinkedSched.taskBlock Sched.taskBlock
  refine (agree_assert Iff.rfl).bind fun _ _ _ _ _ => ?_
  rw [h.data.current]
  exact blockTaskSchedule_agree (h.setStatus s.currentTask status) here

theorem taskUnblock_agree (h : Linked p s) (hcount : Counted s) {t : TaskAddr}
    (hwait : ∀ i, t ∉ (s.sema i).waiters) :
    Agree Linked (p.taskUnblock t) (s.taskUnblock t) := by
  unfold LinkedSched.taskUnblock Sched.taskUnblock
  rw [h.data.task]
  refine (agree_assert Iff.rfl).bind fun _ _ _ _ _ => ?_
  refine .ite Iff.rfl (fun _ _ => ?_) fun _ _ => .ok h
  rw [← bind_assoc]
  refine (agree_notFound (h.findReady hcount t)).bind fun _ _ _ _ hready => ?_
  obtain ⟨p1, hpush, h1⟩ := h.pushReady ⟨hready, hwait⟩
  rw [hpush, ok_bind]
  exact .ok (h1.setStatus t .ready)

lemma semaTake_agree (h : Linked p s) (i : SemaId) :
    Agree Linked (p.semaTake i) (s.semaTake i) := by
  unfold LinkedSched.semaTake Sched.semaTake
  have h1 := h.setValue i fun value => value - 1
  refine (agree_assert ?_).bind fun _ _ _ _ _ => .ok h1
  rw [h1.data.value]

theorem semaDown_agree (h : Linked p s) (hcount : Counted s) {i : SemaId}
    (hready : s.currentTask ∉ s.taskReadyList)
    (hwait : ∀ j, j ≠ i → s.currentTask ∉ (s.sema j).waiters) (here : κ) :
    Agree (Beside Linked) (p.semaDown i here) (s.semaDown i here) := by
  unfold LinkedSched.semaDown Sched.semaDown
  rw [h.data.current, h.data.value]
  refine .ite Iff.rfl (fun _ _ => ?_) fun _ _ => ?_
  · rw [h.findWaiters hcount s.currentTask, ok_bind, ok_bind]
    by_cases hmem : s.currentTask ∈ (s.sema i).waiters
    · rw [assert_of_false (by simp [hmem]), assert_of_false (not_not.mpr hmem)]
      exact .error _
    · have hoff : Off s s.currentTask := by
        refine ⟨hready, fun j => ?_⟩
        by_cases hj : j = i
        · rwa [hj]
        · exact hwait j hj
      obtain ⟨p1, happ, h1⟩ := h.appendWaiters (i := i) hoff
      rw [assert_of_true (by simp [hmem]), assert_of_true hmem, ok_bind, ok_bind, ok_bind, happ,
        ok_bind]
      refine (taskBlock_agree h1 .blocked here).bind ?_
      rintro ⟨p2, k⟩ ⟨s2, k'⟩ - - ⟨h2, rfl⟩
      exact .ok ⟨h2, rfl⟩
  · refine (semaTake_agree h i).bind fun p1 s1 _ _ h1 => ?_
    exact .ok ⟨h1, rfl⟩

/-- The end of `sema_up`: the unit is given back. -/
lemma semaGive_agree (h : Linked p s) (i : SemaId) : Agree Linked
    (do
      let p := p.setValue i fun value => value + 1
      assert (p.value i = 1)
      return p)
    (do
      let s := s.setSema i fun p => { p with value := p.value + 1 }
      assert ((s.sema i).value = 1)
      return s) := by
  have h1 := h.setValue i fun value => value + 1
  refine (agree_assert ?_).bind fun _ _ _ _ _ => .ok h1
  rw [h1.data.value]

theorem semaUp_agree (h : Linked p s) {i : SemaId}
    (hcount : (s.sema i).waiters ≠ [] → Counted s) (hnodup : (s.sema i).waiters.Nodup)
    (honce : ∀ j, j ≠ i → ∀ t ∈ (s.sema i).waiters, t ∉ (s.sema j).waiters) :
    Agree Linked (p.semaUp i) (s.semaUp i) := by
  unfold LinkedSched.semaUp Sched.semaUp
  rw [h.data.value]
  refine (agree_assert Iff.rfl).bind fun _ _ _ _ _ => ?_
  cases hwaiters : (s.sema i).waiters with
  | nil =>
    have hempty : p.listEmpty (.waiters i) = true := h.emptyWaiters.mpr hwaiters
    rw [hempty, if_neg (by decide)]
    exact semaGive_agree h i
  | cons t rest =>
    have hempty : p.listEmpty (.waiters i) = false := by
      rw [← Bool.not_eq_true, h.emptyWaiters, hwaiters]
      exact List.cons_ne_nil t rest
    obtain ⟨p1, hpop, h1⟩ := h.popWaiters hwaiters
    rw [hempty, if_pos rfl, hpop, ok_bind]
    dsimp only
    rw [elem2entry_elem, ok_bind]
    have hcount' := hcount (by rw [hwaiters]; exact List.cons_ne_nil t rest)
    refine Agree.bind (taskUnblock_agree h1 ?_ ?_) fun p2 s2 _ _ h2 => semaGive_agree h2 i
    · refine ⟨hcount'.ready, hcount'.all, fun j => ?_⟩
      by_cases hj : j = i
      · subst hj
        have hle := hcount'.waiters j
        rw [hwaiters, List.length_cons] at hle
        rw [Sched.setSema_sema_self]
        exact Nat.le_of_succ_le hle
      · rw [s.setSema_sema_of_ne _ hj]
        exact hcount'.waiters j
    · intro j
      by_cases hj : j = i
      · subst hj
        rw [hwaiters] at hnodup
        rw [Sched.setSema_sema_self]
        exact (List.nodup_cons.mp hnodup).1
      · rw [s.setSema_sema_of_ne _ hj]
        exact honce j hj t (by rw [hwaiters]; exact List.mem_cons_self)

theorem lockAcquire_agree (h : Linked p s) (l : LockId) :
    Agree Linked (p.lockAcquire l) (s.lockAcquire l) := by
  unfold LinkedSched.lockAcquire Sched.lockAcquire
  rw [h.data.current, h.data.lock, h.data.value]
  refine .ite Iff.rfl (fun _ _ => ?_) fun _ _ => ?_
  · refine .ite Iff.rfl (fun _ _ => .error _) fun _ _ => ?_
    refine (semaTake_agree h (.ofLock l)).bind fun p1 s1 _ _ h1 => ?_
    rw [h1.data.current]
    have h2 := h1.setLock l fun p => { p with holder := some s1.currentTask }
    refine (agree_assert ?_).bind fun _ _ _ _ _ => ?_
    · rw [h2.data.lock]
    · exact .ok (h2.setLock l fun p => { p with holderRepeatNr := 1 })
  · exact .ok (h.setLock l fun p => { p with holderRepeatNr := p.holderRepeatNr + 1 })

/-- A lock for which nobody waits. -/
theorem lockRelease_agree (h : Linked p s) {l : LockId}
    (hnone : (s.sema (.ofLock l)).waiters = []) :
    Agree Linked (p.lockRelease l) (s.lockRelease l) := by
  unfold LinkedSched.lockRelease Sched.lockRelease
  rw [h.data.current, h.data.lock]
  refine (agree_assert Iff.rfl).bind fun _ _ _ _ _ => ?_
  refine .ite Iff.rfl (fun _ _ => ?_) fun _ _ => ?_
  · exact .ok (h.setLock l fun p => { p with holderRepeatNr := p.holderRepeatNr - 1 })
  · refine (agree_assert Iff.rfl).bind fun _ _ _ _ _ => ?_
    have h1 := h.setLock l fun _ => ⟨none, 0⟩
    refine semaUp_agree h1 (fun hne => absurd hnone hne) ?_ ?_
    · show (s.sema (.ofLock l)).waiters.Nodup
      rw [hnone]
      exact List.nodup_nil
    · intro j _ t ht
      change t ∈ (s.sema (.ofLock l)).waiters at ht
      rw [hnone] at ht
      cases ht

/-- The same lists, searched and counted. -/
structure SameLists (s s' : Sched κ) : Prop where
  ready : s'.taskReadyList = s.taskReadyList
  all : s'.taskAllList = s.taskAllList
  nums : s'.taskAllNums = s.taskAllNums
  waiters : ∀ i, (s'.sema i).waiters = (s.sema i).waiters

lemma SameLists.counted {s' : Sched κ} (h : SameLists s s') (hcount : Counted s) :
    Counted s' := by
  constructor
  case ready =>
    rw [h.ready, h.nums]
    exact hcount.ready
  case all =>
    rw [h.all, h.nums]
    exact hcount.all
  case waiters =>
    intro i
    rw [h.waiters, h.nums]
    exact hcount.waiters i

lemma Linked.setBitmap (h : Linked p s) (btmp : Bitmap) :
    Linked { p with tidBitmap := btmp } { s with tidBitmap := btmp } := by
  apply h.changed
  · obtain ⟨ht⟩ := h
    rfl
  · rfl

lemma Linked.setNums (h : Linked p s) (nums : ℤ) :
    Linked { p with taskAllNums := nums } { s with taskAllNums := nums } := by
  apply h.changed
  · obtain ⟨ht⟩ := h
    rfl
  · rfl

lemma Linked.setAlloc (h : Linked p s) (alloc : Finset ℕ) :
    Linked { p with alloc := alloc } { s with alloc := alloc } := by
  apply h.changed
  · obtain ⟨ht⟩ := h
    rfl
  · rfl

lemma agree_refl {α : Type} (x : Except Stop α) : Agree Eq x x := by
  cases x with
  | error e => exact .error e
  | ok a => exact .ok rfl

/-- The end of both functions of task ids: the bitmap is written back under the lock. -/
lemma releaseBitmap_agree {p1 : LinkedSched κ} (h1 : Linked p1 (s.held .tid)) (btmp : Bitmap) :
    Agree Linked ({ p1 with tidBitmap := btmp }.lockRelease .tid)
      ({ s.held .tid with tidBitmap := btmp }.lockRelease .tid) := by
  refine lockRelease_agree (h1.setBitmap btmp) ?_
  show ((s.held .tid).sema (.ofLock .tid)).waiters = []
  simp [Sched.held]

theorem allocateTid_agree (h : Linked p s) (hfree : s.LockFree .tid) :
    Agree (Beside Linked) p.allocateTid s.allocateTid := by
  unfold LinkedSched.allocateTid Sched.allocateTid
  refine (lockAcquire_agree h .tid).bind fun p1 s1 _ hs1 h1 => ?_
  rw [Sched.lockAcquire_of_free hfree] at hs1
  obtain rfl := Except.ok.inj hs1
  rw [h1.data.bitmap]
  refine (agree_refl _).bind ?_
  rintro bitIdx _ - - rfl
  refine (agree_refl _).bind ?_
  rintro btmp _ - - rfl
  refine (releaseBitmap_agree h1 btmp).bind fun p2 s2 _ _ h2 => ?_
  rw [h2.data.start]
  exact .ok ⟨h2, rfl⟩

theorem releaseTid_agree (h : Linked p s) (hfree : s.LockFree .tid) (tid : Int16) :
    Agree Linked (p.releaseTid tid) (s.releaseTid tid) := by
  unfold LinkedSched.releaseTid Sched.releaseTid
  refine (lockAcquire_agree h .tid).bind fun p1 s1 _ hs1 h1 => ?_
  rw [Sched.lockAcquire_of_free hfree] at hs1
  obtain rfl := Except.ok.inj hs1
  have hidx : tid.toInt32.toUInt32 - p1.tidStart =
      tid.toInt32.toUInt32 - (s.held .tid).tidStart := by rw [h1.data.start]
  dsimp only
  rw [h1.data.bitmap, hidx]
  refine (agree_refl _).bind ?_
  rintro btmp _ - - rfl
  exact releaseBitmap_agree h1 btmp

section Birth

variable [Inhabited κ] {t mem stack : ℕ} {name : List UInt8} {prio : Int32}

/-- The tags of a block that is on no list may be overwritten. -/
lemma Linked.clear (h : Linked p s) (hoff : Off s t) (hall : t ∉ s.taskAllList)
    (hpool : t ∉ s.taskPoolList) :
    Linked (p.clear t) (s.setTask t fun _ => TaskStruct.zero) := by
  obtain ⟨ht⟩ := h
  have hgeneral := ht.overwrite (not_on_general hoff) ⟨none, none⟩
  have hallList := hgeneral.overwrite (not_on_all hall) ⟨none, none⟩
  exact .intro (s := s.setTask t fun _ => TaskStruct.zero)
    (hallList.overwrite (not_on_pool hpool) ⟨none, none⟩)

theorem initTask_agree (h : Linked p s) (hfree : s.LockFree .tid)
    (hoff : Off s t) (hall : t ∉ s.taskAllList) (hpool : t ∉ s.taskPoolList) :
    Agree Linked (p.initTask t stack name prio) (s.initTask t stack name prio) := by
  unfold LinkedSched.initTask Sched.initTask
  refine .ite Iff.rfl (fun _ _ => .error _) fun _ _ => ?_
  have h1 := (h.clear hoff hall hpool).setTask t fun p => { p with name := name }
  have hmain := h1.data.main
  refine (allocateTid_agree ?_ ?_).bind ?_
  · rw [hmain]
    split_ifs
    · exact (h1.setTask t _).setCurrent t
    · exact h1.setTask t _
  · split_ifs
    · exact hfree
    · exact hfree
  · rintro ⟨p2, tid⟩ ⟨s2, tid'⟩ - - ⟨h2, rfl⟩
    dsimp only
    rw [h2.data.alloc]
    exact .ok ((h2.setAlloc _).setTask t _)

lemma sameLists_initTask {s1 : Sched κ} (hfree : s.LockFree .tid)
    (h : s.initTask t stack name prio = .ok s1) : SameLists s s1 := by
  unfold Sched.initTask at h
  dsimp only at h
  by_cases hname : 32 ≤ name.length
  · rw [if_pos hname] at h
    cases h
  rw [if_neg hname] at h
  split_ifs at h with hmain
  all_goals
    rw [bind_eq_ok] at h
    obtain ⟨r, halloc, h⟩ := h
    obtain ⟨b', tid, rfl⟩ := Sched.allocateTid_ok (by exact hfree) halloc
    obtain rfl := Except.ok.inj h
    exact ⟨rfl, rfl, rfl, fun _ => rfl⟩

/-- A new task comes from a block that is on no list; one of the pool has died. -/
theorem taskStart_agree (h : Linked p s) (hcount : Counted s) (hfree : s.LockFree .tid)
    (hdied : ∀ u ∈ s.taskPoolList, (s.task u).status = .died) (hoff : Off s mem)
    (hall : mem ∉ s.taskAllList) (entry : κ) :
    Agree (Beside Linked) (p.taskStart mem stack name prio entry)
      (s.taskStart mem stack name prio entry) := by
  unfold LinkedSched.taskStart Sched.taskStart
  cases hpool : s.taskPoolList with
  | cons u rest =>
    have hempty : p.listEmpty .pool = false := by
      rw [← Bool.not_eq_true, h.emptyPool, hpool]
      exact List.cons_ne_nil u rest
    obtain ⟨p1, hpop, h1⟩ := h.popPool hpool
    have hstatus : (s.task u).status = .died := hdied u (by rw [hpool]; exact List.mem_cons_self)
    have hstatus1 : (p1.task u).status = .died := by
      rw [h1.data.task]
      exact hstatus
    dsimp only
    rw [hempty, if_pos rfl, hpop, ok_bind]
    dsimp only
    rw [elem2entry_elem, ok_bind, assert_of_false (not_not.mpr hstatus1.symm),
      assert_of_false (not_not.mpr hstatus.symm)]
    exact .error _
  | nil =>
    have hempty : p.listEmpty .pool = true := h.emptyPool.mpr hpool
    have h1 : Linked { p with alloc := insert mem s.alloc }
        { s with alloc := insert mem s.alloc, taskPoolList := [] } := by
      rw [← hpool]
      exact h.setAlloc _
    have halloc := h.data.alloc
    dsimp only
    rw [hempty, if_neg (by decide), halloc, pure_bind, pure_bind]
    refine (initTask_agree h1 hfree hoff hall List.not_mem_nil).bind fun p2 s2 _ hs2 h2 => ?_
    have hsame := sameLists_initTask (by exact hfree) hs2
    have hcount2 := hsame.counted ⟨hcount.ready, hcount.all, hcount.waiters⟩
    have h3 : Linked (p2.taskCreate mem entry) (s2.taskCreate mem entry) := h2.setTask mem _
    have hcount3 : Counted (s2.taskCreate mem entry) :=
      ⟨hcount2.ready, hcount2.all, hcount2.waiters⟩
    dsimp only
    rw [← bind_assoc]
    refine (agree_notFound (h3.findReady hcount3 mem)).bind fun _ _ _ _ hready => ?_
    have hwait : ∀ i, mem ∉ (s2.sema i).waiters := by
      intro i
      rw [hsame.waiters i]
      exact hoff.2 i
    obtain ⟨p4, happ4, h4⟩ := h3.appendReady ⟨hready, hwait⟩
    have hfind := h4.elemFind (i := .all) rfl (by simpa using hcount3.all) ⟨mem, .allList⟩
    simp only [mem_tags] at hfind
    rw [happ4, ok_bind, ← bind_assoc]
    refine (agree_notFound hfind).bind fun _ _ _ _ hnew => ?_
    obtain ⟨p5, happ5, h5⟩ := h4.appendAll hnew
    have hnums := h5.data.nums
    rw [happ5, ok_bind, hnums]
    refine .ok ⟨h5.changed ?_ rfl, rfl⟩
    obtain ⟨ht⟩ := h5
    rfl

end Birth

/-- One branch does nothing. -/
lemma bind_ite {α β : Type} {c : Prop} [Decidable c] (x y : Except Stop α)
    (f : α → Except Stop β) :
    (if c then x >>= f else y >>= f) = (if c then x else y) >>= f := by
  split_ifs <;> rfl

/-- A task that is on `task_all_list` and not in the pool. -/
theorem taskExit_agree (h : Linked p s) (hcount : Counted s) (hfree : s.LockFree .tid)
    {t : TaskAddr} (hall : t ∈ s.taskAllList) (hpool : t ∉ s.taskPoolList) :
    Agree (Beside Linked) (p.taskExit t) (s.taskExit t) := by
  have h1 := h.setStatus t .died
  have hcount1 : Counted (s.setStatus t .died) := ⟨hcount.ready, hcount.all, hcount.waiters⟩
  have hfree1 : (s.setStatus t .died).LockFree .tid := hfree
  unfold LinkedSched.taskExit Sched.taskExit
  dsimp only
  rw [h1.findReady hcount1, ok_bind, bind_ite]
  generalize p.setStatus t .died = p1 at h1
  change t ∈ (s.setStatus t .died).taskAllList at hall
  change t ∉ (s.setStatus t .died).taskPoolList at hpool
  generalize s.setStatus t .died = s1 at h1 hall hpool hfree1
  obtain ⟨p2, hready, h2⟩ : ∃ p2, (if decide (t ∈ s1.taskReadyList) = true
      then p1.listRemove ⟨t, .general⟩ else pure p1) = .ok p2 ∧
      Linked p2 { s1 with taskReadyList :=
        if t ∈ s1.taskReadyList then s1.taskReadyList.erase t else s1.taskReadyList } := by
    by_cases hmem : t ∈ s1.taskReadyList
    · rw [if_pos (decide_eq_true hmem), if_pos hmem]
      exact h1.removeReady hmem
    · rw [if_neg (by simpa using hmem), if_neg hmem]
      exact ⟨p1, rfl, h1⟩
  obtain ⟨p3, hremove, h3⟩ := h2.removeAll (t := t) hall
  have hmain : p3.mainTask = s1.mainTask := h3.data.main
  have hnums : p3.taskAllNums = s1.taskAllNums := h3.data.nums
  have h4 := h3.setNums (p3.taskAllNums - 1)
  obtain ⟨p5, happ, h5⟩ : ∃ p5, (if t ≠ p3.mainTask
      then { p3 with taskAllNums := p3.taskAllNums - 1 }.listAppend .pool ⟨t, .pool⟩
      else pure { p3 with taskAllNums := p3.taskAllNums - 1 }) = .ok p5 ∧
      Linked p5 { s1 with
        taskReadyList :=
          if t ∈ s1.taskReadyList then s1.taskReadyList.erase t else s1.taskReadyList
        taskAllList := s1.taskAllList.erase t
        taskAllNums := p3.taskAllNums - 1
        taskPoolList := if t ≠ s1.mainTask then s1.taskPoolList ++ [t] else s1.taskPoolList } := by
    by_cases ht : t = p3.mainTask
    · rw [if_neg (not_not.mpr ht), if_neg (not_not.mpr (ht.trans hmain))]
      exact ⟨_, rfl, h4⟩
    · have ht1 : t ≠ s1.mainTask := fun he => ht (he.trans hmain.symm)
      rw [if_pos ht, if_pos ht1]
      exact h4.appendPool hpool
  rw [hready, ok_bind, hremove, ok_bind, bind_ite, happ, ok_bind, h5.data.task]
  rw [hnums] at h5
  exact (releaseTid_agree h5 hfree1 _).bind fun p6 s6 _ _ h6 => diedTaskSchedule_agree h6

theorem collaborativeScheduleHelper_agree (h : Linked p s) (hcount : Counted s) {t : TaskAddr}
    (hwait : ∀ i, t ∉ (s.sema i).waiters) :
    Agree Linked (p.collaborativeScheduleHelper t) (s.collaborativeScheduleHelper t) := by
  unfold LinkedSched.collaborativeScheduleHelper Sched.collaborativeScheduleHelper
  rw [← bind_assoc]
  refine (agree_notFound (h.findReady hcount t)).bind fun _ _ _ _ hready => ?_
  obtain ⟨p1, happ, h1⟩ := h.appendReady ⟨hready, hwait⟩
  rw [happ, ok_bind]
  exact .ok (h1.setTask t _)

lemma Linked.freeTask (h : Linked p s) (t : TaskAddr) :
    Linked (p.freeTask t) (s.freeTask t) := by
  apply h.changed
  · obtain ⟨ht⟩ := h
    rfl
  · rfl

/-- A round of the loop that pops. -/
lemma cleanLoop_cons (h : Linked p s) {t : TaskAddr} {rest : List TaskAddr}
    (hpool : s.taskPoolList = t :: rest) {fuel fuel' : ℕ}
    (hrest : ∀ (p' : LinkedSched κ) (s' : Sched κ), Linked p' s' → s'.taskPoolList = rest →
      Agree Linked (cleanLoop fuel (-1) p') (Sched.cleanLoop fuel' (-1) s')) :
    Agree Linked (cleanLoop (fuel + 1) 0 p) (Sched.cleanLoop (fuel' + 1) 0 s) := by
  obtain ⟨p1, hpop, h1⟩ := h.popPool hpool
  have h2 := h1.freeTask t
  rw [cleanLoop, if_pos (.inr rfl), Sched.cleanLoop, if_pos (.inr rfl), hpop, ok_bind]
  dsimp only
  rw [elem2entry_elem, ok_bind]
  simp only [hpool]
  exact hrest _ _ h2 rfl

theorem cleanDeadTask_agree (h : Linked p s) : Agree Linked p.cleanDeadTask s.cleanDeadTask := by
  unfold LinkedSched.cleanDeadTask Sched.cleanDeadTask
  refine .ite h.emptyPool (fun _ _ => .ok h) fun hempty hnil => ?_
  rw [h.data.nums]
  dsimp only
  generalize (if s.taskAllNums.tdiv 8 > 16 then 16 else s.taskAllNums.tdiv 8) = cnt
  by_cases hcnt : cnt = 0
  · subst hcnt
    obtain ⟨t, rest, hpool⟩ := List.exists_cons_of_ne_nil hnil
    rw [hpool, List.length_cons]
    refine cleanLoop_cons h hpool fun p1 s1 h1 hrest => ?_
    -- the count is negative now, so that only an empty pool makes another round
    rw [cleanLoop, Sched.cleanLoop]
    refine .ite (or_congr h1.emptyPool Iff.rfl) (fun _ hor => ?_) fun _ _ => .ok h1
    have hnil1 : s1.taskPoolList = [] := hor.resolve_right (by decide)
    rw [h1.listPop_nil (i := .pool) (by rw [contents, hnil1]; rfl)]
    simp only [hnil1]
    exact .error _
  · rw [cleanLoop, if_neg (not_or.mpr ⟨hempty, hcnt⟩), Sched.cleanLoop,
      if_neg (not_or.mpr ⟨hnil, hcnt⟩)]
    exact .ok h

theorem callLibrary_agree (h : Linked p s) (hcount : Counted s) {n : Timer.TimerNode}
    (hwait : n.timerFn = .collaborativeScheduleHelper → ∀ i, n.pParam ∉ (s.sema i).waiters) :
    Agree Linked (callLibrary n p) (Conservation.callLibrary n s) := by
  unfold LinkedSched.callLibrary Conservation.callLibrary
  cases hfn : n.timerFn with
  | cleanDeadTask =>
    simp only [Sched.callTimer, hfn]
    exact cleanDeadTask_agree h
  | collaborativeScheduleHelper =>
    simp only [Sched.callTimer, hfn]
    exact collaborativeScheduleHelper_agree h hcount (hwait hfn)
  | user f => exact .ok h

/-- `tid2task` finds the same task on the links. -/
theorem tid2task_eq (h : Linked p s) (hcount : Counted s) (tid : Int16) :
    p.tid2task tid = .ok (s.tid2task tid) := by
  cases h with
  | @intro _ links ht =>
    let q : LinkedSched κ := ofSched s links
    have hwalk := (ht.represents.readsAs (i := .all) rfl).traversal (s.taskAllNums.toNat + 1)
      (by simpa using Nat.lt_succ_of_le hcount.all) q.tidCheck tid.toInt32
    have hfind : ((s.taskAllList.map fun t => (⟨t, .allList⟩ : TagAddr)).map
        (Intrusive.Cell.elem (ι := TaskList))).find? (fun elem => q.tidCheck elem tid.toInt32) =
        (s.tid2task tid).map fun t => .elem ⟨t, .allList⟩ := by
      rw [List.map_map, List.find?_map]
      rfl
    rw [hfind] at hwalk
    unfold LinkedSched.tid2task
    cases hfound : s.tid2task tid with
    | none =>
      rw [hfound] at hwalk
      simp only [ofSched, q] at hwalk ⊢
      rw [hwalk]
      rfl
    | some t =>
      rw [hfound] at hwalk
      simp only [ofSched, q] at hwalk ⊢
      rw [hwalk]
      rfl

end Libtask.LinkedSched
