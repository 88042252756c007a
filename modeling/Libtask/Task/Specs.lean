import Libtask.Task.Scheduler

/-!
# What the sequential functions return

One equation for each function, for the states in which it does not stop; the
runs below never unfold the functions themselves.
-/
namespace Libtask.Sched

variable {κ : Type}

lemma nodup_snoc {α : Type} {l : List α} {a : α} (h : l.Nodup) (ha : a ∉ l) :
    (l ++ [a]).Nodup := by simpa using h.concat ha

/-- As `lock_init` leaves it. -/
def LockFree (s : Sched κ) (l : LockId) : Prop :=
  s.lock l = ⟨none, 0⟩ ∧ s.sema (.ofLock l) = ⟨1, []⟩

/-- The state after the current task has taken a free lock. -/
def held (s : Sched κ) (l : LockId) : Sched κ :=
  { s with
    lock := Function.update s.lock l ⟨some s.currentTask, 1⟩
    sema := Function.update s.sema (.ofLock l) ⟨0, []⟩ }

/-- The state with the lock as `lock_init` leaves it. -/
def freed (s : Sched κ) (l : LockId) : Sched κ :=
  { s with
    lock := Function.update s.lock l ⟨none, 0⟩
    sema := Function.update s.sema (.ofLock l) ⟨1, []⟩ }

lemma lockAcquire_of_free {s : Sched κ} {l : LockId} (h : s.LockFree l) :
    s.lockAcquire l = .ok (s.held l) := by
  obtain ⟨hl, hs⟩ := h
  simp [lockAcquire, hl, hs, semaTake, setSema, setLock, held, bind, Except.bind, pure,
    Except.pure]

lemma lockRelease_of_held {s : Sched κ} {l : LockId} (hl : s.lock l = ⟨some s.currentTask, 1⟩)
    (hs : s.sema (.ofLock l) = ⟨0, []⟩) : s.lockRelease l = .ok (s.freed l) := by
  simp [lockRelease, hl, hs, semaUp, setSema, setLock, freed, bind, Except.bind, pure,
    Except.pure]

lemma freed_held {s : Sched κ} {l : LockId} (h : s.LockFree l) : (s.held l).freed l = s := by
  obtain ⟨hl, hs⟩ := h
  simp only [freed, held, Function.update_idem]
  rw [← hl, ← hs, Function.update_eq_self, Function.update_eq_self]

/-- What is done to the bitmap under the lock is all that remains. -/
lemma lockRelease_bitmap {s : Sched κ} {l : LockId} (h : s.LockFree l) (btmp : Bitmap) :
    { s.held l with tidBitmap := btmp }.lockRelease l = .ok { s with tidBitmap := btmp } := by
  rw [lockRelease_of_held (by simp [held]) (by simp [held])]
  have hfree := congrArg (fun s : Sched κ => { s with tidBitmap := btmp }) (freed_held h)
  exact congrArg Except.ok hfree

lemma semaDown_of_one {s : Sched κ} {i : SemaId} (h : (s.sema i).value = 1) (here : κ) :
    s.semaDown i here = .ok (s.setSema i fun p => { p with value := p.value - 1 }, none) := by
  simp [semaDown, semaTake, h, bind, Except.bind, pure, Except.pure]

/-- The `tid_t` of bit `i`. -/
def tidOf (s : Sched κ) (i : ℕ) : Int16 :=
  (UInt32.ofNat i + s.tidStart).toUInt16.toInt16

/-- The bit index that `release_tid` computes. -/
def bitIdxOf (s : Sched κ) (tid : Int16) : UInt32 := tid.toInt32.toUInt32 - s.tidStart

/-- `b` and `b'` differ at bit `i` only, which is `v` in `b'`. -/
structure BitSet (b b' : Bitmap) (i : ℕ) (v : Bool) : Prop where
  size : b'.size = b.size
  bit : ∀ j, b'.bit j = if j = i then v else b.bit j

theorem allocateTid_spec {s : Sched κ} (hfree : s.LockFree .tid)
    (hsize : s.tidBitmap.size < 2 ^ 32)
    (hclear : ∃ i < s.tidBitmap.size, s.tidBitmap.bit i = false) :
    ∃ i < s.tidBitmap.size, s.tidBitmap.bit i = false ∧ (∀ j < i, s.tidBitmap.bit j = true) ∧
      s.tidBitmap.bitmapScan 1 = .ok (UInt32.ofNat i).toInt32 ∧
      ∃ b', BitSet s.tidBitmap b' i true ∧
        s.allocateTid = .ok ({ s with tidBitmap := b' }, s.tidOf i) := by
  obtain ⟨i, hi, hbit, hleast, hscan⟩ := Bitmap.bitmapScan_one hclear
  have hi32 : (UInt32.ofNat i).toNat = i := UInt32.toNat_ofNat_of_lt' (by
    change i < 2 ^ 32
    omega)
  obtain ⟨b', hset, hsize', hbit'⟩ := Bitmap.bitmapSet_spec (i := UInt32.ofNat i)
    (by rwa [hi32]) true
  rw [hi32] at hbit'
  simp only [if_true] at hset
  refine ⟨i, hi, hbit, hleast, hscan, b', ⟨hsize', hbit'⟩, ?_⟩
  unfold allocateTid
  rw [lockAcquire_of_free hfree]
  change (do
    let bitIdx ← s.tidBitmap.bitmapScan 1
    let btmp ← s.tidBitmap.bitmapSet bitIdx.toUInt32 1
    let s' ← { s.held .tid with tidBitmap := btmp }.lockRelease .tid
    return (s', (bitIdx.toUInt32 + s'.tidStart).toUInt16.toInt16)) = _
  rw [hscan]
  change (do
    let btmp ← s.tidBitmap.bitmapSet (UInt32.ofNat i) 1
    let s' ← { s.held .tid with tidBitmap := btmp }.lockRelease .tid
    return (s', s'.tidOf i)) = _
  rw [hset]
  change (do
    let s' ← { s.held .tid with tidBitmap := b' }.lockRelease .tid
    return (s', s'.tidOf i)) = _
  rw [lockRelease_bitmap hfree b']
  rfl

theorem releaseTid_spec {s : Sched κ} (hfree : s.LockFree .tid) (tid : Int16)
    (hin : (s.bitIdxOf tid).toNat < s.tidBitmap.size) :
    ∃ b', BitSet s.tidBitmap b' (s.bitIdxOf tid).toNat false ∧
      s.releaseTid tid = .ok { s with tidBitmap := b' } := by
  obtain ⟨b', hset, hsize, hbit⟩ := Bitmap.bitmapSet_spec hin false
  refine ⟨b', ⟨hsize, hbit⟩, ?_⟩
  simp only [Bool.false_eq_true, if_false] at hset
  unfold releaseTid
  rw [lockAcquire_of_free hfree]
  change (do
    let btmp ← s.tidBitmap.bitmapSet (s.bitIdxOf tid) 0
    { s.held .tid with tidBitmap := btmp }.lockRelease .tid) = _
  rw [hset]
  exact lockRelease_bitmap hfree b'

lemma allocateTid_ok {s : Sched κ} (hfree : s.LockFree .tid) {r : Sched κ × Int16}
    (h : s.allocateTid = .ok r) : ∃ b' tid, r = ({ s with tidBitmap := b' }, tid) := by
  simp only [allocateTid, lockAcquire_of_free hfree, bind_eq_ok] at h
  obtain ⟨m, hm, bitIdx, -, b', -, m', hrel, hr⟩ := h
  obtain rfl := Except.ok.inj hm
  rw [lockRelease_bitmap hfree b'] at hrel
  obtain rfl := Except.ok.inj hrel
  exact ⟨b', _, (Except.ok.inj hr).symm⟩

lemma releaseTid_ok {s s' : Sched κ} (hfree : s.LockFree .tid) {tid : Int16}
    (h : s.releaseTid tid = .ok s') : ∃ b', s' = { s with tidBitmap := b' } := by
  simp only [releaseTid, lockAcquire_of_free hfree, bind_eq_ok] at h
  obtain ⟨m, hm, b', -, hrel⟩ := h
  obtain rfl := Except.ok.inj hm
  rw [lockRelease_bitmap hfree b'] at hrel
  exact ⟨b', (Except.ok.inj hrel).symm⟩

/-- The `task_struct` that `task_start` fills in. -/
def bornTask (stack : ℕ) (name : List UInt8) (prio : Int32) (entry : κ) (tid : Int16) :
    TaskStruct κ where
  stackMinAddr := stack
  context := entry
  tid := tid
  status := .ready
  name := name
  priority := prio.toUInt32.toUInt8
  ticks := prio.toUInt32.toUInt8
  elapsedTicks := 0
  stackMagic := TaskStruct.magic
  sleepMillisecond := 0
  first := true
  isHook := false
  isCollaborativeSchedule := false

/-- A task that died and was not cleaned up cannot be recycled. -/
lemma taskStart_of_pool [Inhabited κ] {s : Sched κ} {t : TaskAddr} {rest : List TaskAddr}
    (hpool : s.taskPoolList = t :: rest) (hdied : (s.task t).status = .died) (mem stack : ℕ)
    (name : List UInt8) (prio : Int32) (entry : κ) :
    s.taskStart mem stack name prio entry = .error .assertion := by
  simp [taskStart, hpool, hdied, bind, Except.bind]

lemma taskStart_of_name [Inhabited κ] {s : Sched κ} {name : List UInt8} (hname : 32 ≤ name.length)
    (hpool : s.taskPoolList = []) (mem stack : ℕ) (prio : Int32) (entry : κ) :
    s.taskStart mem stack name prio entry = .error .outOfBounds := by
  simp [taskStart, hpool, initTask, hname, bind, Except.bind, pure, Except.pure, throw,
    throwThe, MonadExceptOf.throw]

/-- The state in which `init_task` of a new block calls `allocate_tid`. -/
def initBlock [Inhabited κ] (s : Sched κ) (mem : ℕ) (name : List UInt8) : Sched κ :=
  { s with
    alloc := insert mem s.alloc
    task := Function.update s.task mem
      { (TaskStruct.zero : TaskStruct κ) with name := name, status := .ready, first := true } }

/-- The new task is the last one of the ready list and of all tasks. -/
def bornState (s : Sched κ) (mem stack : ℕ) (task : TaskStruct κ) (btmp : Bitmap) : Sched κ :=
  { s with
    task := Function.update s.task mem task
    alloc := insert stack (insert mem s.alloc)
    taskReadyList := s.taskReadyList ++ [mem]
    taskAllList := s.taskAllList ++ [mem]
    taskAllNums := s.taskAllNums + 1
    tidBitmap := btmp }

section Start

variable [Inhabited κ] {s : Sched κ} {mem stack : ℕ} {name : List UInt8} {prio : Int32} {entry : κ}

variable (stack name prio entry) in
/-- `task_start` with an empty pool does what `allocate_tid` lets it do. -/
lemma taskStart_eq (hpool : s.taskPoolList = []) (hname : name.length < 32)
    (hmain : mem ≠ s.mainTask) (hready : mem ∉ s.taskReadyList) (hall : mem ∉ s.taskAllList) :
    (∀ b' tid, (s.initBlock mem name).allocateTid =
        .ok ({ s.initBlock mem name with tidBitmap := b' }, tid) →
      s.taskStart mem stack name prio entry =
        .ok (s.bornState mem stack (bornTask stack name prio entry tid) b', mem)) ∧
    ∀ e, (s.initBlock mem name).allocateTid = .error e →
      s.taskStart mem stack name prio entry = .error e := by
  constructor
  · intro b' tid halloc
    have hinit : ({ s with alloc := insert mem s.alloc }).initTask mem stack name prio = .ok
        { s with
          task := Function.update s.task mem (bornTask stack name prio (default : κ) tid)
          alloc := insert stack (insert mem s.alloc)
          tidBitmap := b' } := by
      simp only [initBlock] at halloc
      simp only [initTask, setTask, hmain, not_le.mpr hname, if_false, Function.update_self,
        Function.update_idem, bind, Except.bind, pure, Except.pure, halloc]
      rfl
    simp only [hpool] at hinit
    simp only [taskStart, hpool, bind, Except.bind, pure, Except.pure, hinit, taskCreate, setTask,
      Function.update_self, Function.update_idem, assert_of_true hready, assert_of_true hall,
      bornState]
    rfl
  · intro e halloc
    have hinit : ({ s with alloc := insert mem s.alloc }).initTask mem stack name prio =
        .error e := by
      simp only [initBlock] at halloc
      simp only [initTask, setTask, hmain, not_le.mpr hname, if_false, Function.update_self,
        Function.update_idem, bind, Except.bind, halloc]
    simp only [hpool] at hinit
    simp only [taskStart, hpool, bind, Except.bind, pure, Except.pure, hinit]

variable (stack name prio entry) in
/-- `task_start` with an empty pool, on a block that is nowhere in use. -/
theorem taskStart_spec (hpool : s.taskPoolList = []) (hname : name.length < 32)
    (hmain : mem ≠ s.mainTask) (hready : mem ∉ s.taskReadyList) (hall : mem ∉ s.taskAllList)
    (hfree : s.LockFree .tid) (hsize : s.tidBitmap.size < 2 ^ 32)
    (hclear : ∃ i < s.tidBitmap.size, s.tidBitmap.bit i = false) :
    ∃ i < s.tidBitmap.size, s.tidBitmap.bit i = false ∧ (∀ j < i, s.tidBitmap.bit j = true) ∧
      s.tidBitmap.bitmapScan 1 = .ok (UInt32.ofNat i).toInt32 ∧
      ∃ b', BitSet s.tidBitmap b' i true ∧
        s.taskStart mem stack name prio entry =
          .ok (s.bornState mem stack (bornTask stack name prio entry (s.tidOf i)) b', mem) := by
  obtain ⟨i, hi, hbit, hleast, hscan, b', hset, halloc⟩ :=
    allocateTid_spec (s := s.initBlock mem name) hfree hsize hclear
  exact ⟨i, hi, hbit, hleast, hscan, b', hset,
    (taskStart_eq stack name prio entry hpool hname hmain hready hall).1 b' _ halloc⟩

/-- Whatever the bitmap, a `task_start` that returns has made the new task. -/
theorem taskStart_ok {s' : Sched κ} {task : TaskAddr} (hpool : s.taskPoolList = [])
    (hmain : mem ≠ s.mainTask) (hready : mem ∉ s.taskReadyList) (hall : mem ∉ s.taskAllList)
    (hfree : s.LockFree .tid) (h : s.taskStart mem stack name prio entry = .ok (s', task)) :
    task = mem ∧ ∃ b' tid,
      s' = s.bornState mem stack (bornTask stack name prio entry tid) b' := by
  have hname : name.length < 32 := by
    by_contra hlong
    rw [taskStart_of_name (not_lt.mp hlong) hpool] at h
    cases h
  have heq := taskStart_eq stack name prio entry hpool hname hmain hready hall
  cases halloc : (s.initBlock mem name).allocateTid with
  | error e =>
    rw [heq.2 e halloc] at h
    cases h
  | ok r =>
    obtain ⟨b', tid, rfl⟩ := allocateTid_ok (s := s.initBlock mem name) hfree halloc
    rw [heq.1 b' tid halloc] at h
    obtain ⟨rfl, rfl⟩ := Prod.mk.inj (Except.ok.inj h)
    exact ⟨rfl, b', tid, rfl⟩

end Start

/-- The state in which `task_exit` calls `release_tid`. -/
def exitState (s : Sched κ) (task : TaskAddr) : Sched κ :=
  { s with
    task := Function.update s.task task { s.task task with status := .died }
    taskReadyList := s.taskReadyList.erase task
    taskAllList := s.taskAllList.erase task
    taskAllNums := s.taskAllNums - 1
    taskPoolList := s.taskPoolList ++ if task = s.mainTask then [] else [task] }

lemma exitState_task_of_ne (s : Sched κ) {task u : TaskAddr} (h : u ≠ task) :
    (s.exitState task).task u = s.task u := Function.update_of_ne h ..

lemma exitState_task_self (s : Sched κ) (task : TaskAddr) :
    (s.exitState task).task task = { s.task task with status := .died } :=
  Function.update_self ..

lemma taskExit_eq (s : Sched κ) (task : TaskAddr) :
    s.taskExit task = (s.exitState task).releaseTid (s.task task).tid >>= diedTaskSchedule := by
  have htid : ((s.exitState task).task task).tid = (s.task task).tid := by simp [exitState]
  rw [← htid]
  by_cases hr : task ∈ s.taskReadyList
  · simp only [taskExit, setStatus, setTask, exitState, hr, if_true]
    by_cases hm : task = s.mainTask <;> simp only [ne_eq, hm, not_true_eq_false,
      not_false_eq_true, if_true, if_false, List.append_nil]
  · simp only [taskExit, setStatus, setTask, exitState, hr, if_false, List.erase_of_not_mem hr]
    by_cases hm : task = s.mainTask <;> simp only [ne_eq, hm, not_true_eq_false,
      not_false_eq_true, if_true, if_false, List.append_nil]

/-- `task_exit` of a task whose tid bit lies inside the bitmap. -/
theorem taskExit_spec {s : Sched κ} (task : TaskAddr) (hfree : s.LockFree .tid)
    (hin : (s.bitIdxOf (s.task task).tid).toNat < s.tidBitmap.size) :
    ∃ b', BitSet s.tidBitmap b' (s.bitIdxOf (s.task task).tid).toNat false ∧
      s.taskExit task = { s.exitState task with tidBitmap := b' }.diedTaskSchedule := by
  obtain ⟨b', hset, hrel⟩ := releaseTid_spec (s := s.exitState task) hfree
    (s.task task).tid hin
  refine ⟨b', hset, ?_⟩
  rw [taskExit_eq, hrel]
  rfl

/-- Whatever the tid, a `task_exit` that does not stop ends in a dispatch. -/
theorem taskExit_ok {s s' : Sched κ} {task : TaskAddr} {k : κ} (hfree : s.LockFree .tid)
    (h : s.taskExit task = .ok (s', k)) :
    ∃ b', { s.exitState task with tidBitmap := b' }.diedTaskSchedule = .ok (s', k) := by
  rw [taskExit_eq, bind_eq_ok] at h
  obtain ⟨m, hrel, hd⟩ := h
  obtain ⟨b', rfl⟩ := releaseTid_ok (s := s.exitState task) hfree hrel
  exact ⟨b', hd⟩

/-- The dispatch at the end of `task_exit`. -/
lemma diedTaskSchedule_eq (s : Sched κ) : s.diedTaskSchedule =
    match s.taskReadyList with
    | [] => .error .emptyReadyList
    | next :: rest => .ok ({ s with
        task := Function.update s.task next { s.task next with status := .running }
        taskReadyList := rest
        taskTag := next
        currentTask := next }, (s.task next).context) := by
  cases h : s.taskReadyList with
  | nil => simp [diedTaskSchedule, h, bind, Except.bind, throw, throwThe, MonadExceptOf.throw]
  | cons next rest =>
    simp [diedTaskSchedule, popReady, h, bind, Except.bind, pure, Except.pure, setStatus, setTask]

lemma bit_replicate_zero (n : UInt32) (i : ℕ) :
    Bitmap.bit ⟨n, Vector.replicate n.toNat 0⟩ i = false := by
  unfold Bitmap.bit
  by_cases h : i / 8 < n.toNat
  · rw [Vector.getElem?_eq_getElem h, Vector.getElem_replicate]
    exact BitVec.getLsbD_zero
  · rw [Vector.getElem?_eq_none (not_lt.mp h)]

/-- The `task_struct` of the main task. -/
def mainTaskStruct [Inhabited κ] (stack : ℕ) : TaskStruct κ :=
  { bornTask stack [109, 97, 105, 110] 3 default 1 with status := .running, first := false }

theorem taskInit_spec [Inhabited κ] (value : SemaId → UInt8) (mem stack : ℕ) :
    ∃ b' : Bitmap, b'.size = 1000800 ∧ (∀ i, b'.bit i = decide (i = 0)) ∧
      (boot value : Sched κ).taskInit mem stack = .ok { (boot value : Sched κ) with
        task := Function.update (boot value).task mem (mainTaskStruct stack)
        alloc := {stack, mem}
        currentTask := mem
        mainTask := mem
        taskAllList := [mem]
        taskAllNums := 1
        tidStart := 1
        tidBitmap := b' } := by
  let s1 : Sched κ := { (boot value : Sched κ) with
    taskReadyList := []
    taskAllList := []
    taskPoolList := []
    taskAllNums := 0
    tidStart := 1
    tidBitmap := ⟨125100, Vector.replicate 125100 0⟩
    alloc := insert mem (boot value : Sched κ).alloc
    mainTask := mem
    currentTask := mem
    task := Function.update (boot value : Sched κ).task mem
      { (TaskStruct.zero : TaskStruct κ) with
        name := [109, 97, 105, 110]
        status := .running
        first := false } }
  have hzero : ∀ i, s1.tidBitmap.bit i = false := bit_replicate_zero 125100
  have hsize : s1.tidBitmap.size = 1000800 := rfl
  have htid : s1.tidOf 0 = 1 := rfl
  obtain ⟨i, -, -, hleast, -, b', hset, halloc⟩ := allocateTid_spec (s := s1) ⟨rfl, rfl⟩
    (by omega) ⟨0, by omega, hzero 0⟩
  obtain rfl : i = 0 := by
    by_contra hi
    have := hleast 0 (by omega)
    rw [hzero] at this
    exact absurd this (by simp)
  refine ⟨b', hset.size, ?_, ?_⟩
  · intro i
    rw [hset.bit, hzero]
    by_cases hi : i = 0 <;> simp [hi]
  · have hlock : Function.update (boot value : Sched κ).lock .tid lockInit.1 =
        (boot value : Sched κ).lock := Function.update_eq_self ..
    have hsema : Function.update (boot value : Sched κ).sema (.ofLock .tid) lockInit.2 =
        (boot value : Sched κ).sema := Function.update_eq_self ..
    have hname : ¬ 32 ≤ ([109, 97, 105, 110] : List UInt8).length := by decide
    rw [htid] at halloc
    simp only [s1] at halloc
    simp only [taskInit, tidPoolInit, setLock, setSema, hlock, hsema, initTask, setTask, hname,
      if_true, if_false, Function.update_self, Function.update_idem, bind, Except.bind, pure,
      Except.pure, halloc]
    rfl

section FirstTasks

variable [Inhabited κ] {s : Sched κ} {n : ℕ}

/-- The first `n` tids are taken, and `task_start` takes the next one. -/
lemma taskStart_next (hsize : s.tidBitmap.size = 1000800)
    (hbit : ∀ i, s.tidBitmap.bit i = decide (i < n)) (hn : n < 1000800)
    (hpool : s.taskPoolList = []) {mem : ℕ} (hmain : mem ≠ s.mainTask)
    (hready : mem ∉ s.taskReadyList) (hall : mem ∉ s.taskAllList)
    (hfree : s.LockFree .tid) (stack : ℕ) (entry : κ) :
    ∃ b : Bitmap, b.size = 1000800 ∧ (∀ i, b.bit i = decide (i < n + 1)) ∧
      s.taskStart mem stack [] 3 entry =
        .ok (s.bornState mem stack (bornTask stack [] 3 entry (s.tidOf n)) b, mem) := by
  obtain ⟨i, -, hclear, hleast, -, b, hset, hstart⟩ := taskStart_spec stack [] 3 entry hpool
    (by decide) hmain hready hall hfree (by omega) ⟨n, by omega, by rw [hbit]; simp⟩
  obtain rfl : i = n := by
    rw [hbit, decide_eq_false_iff_not] at hclear
    by_contra hne
    have hlast := hleast n (by omega)
    rw [hbit] at hlast
    simp at hlast
  refine ⟨b, hset.size.trans hsize, fun j => ?_, hstart⟩
  rw [hset.bit, hbit]
  by_cases hj : j = i
  · simp [hj]
  · rw [if_neg hj]
    exact decide_eq_decide.mpr (by omega)

/-- The main task, at block 1, alone. -/
def mainSched (btmp : Bitmap) : Sched κ :=
  { (boot fun _ => 0 : Sched κ) with
    task := Function.update (boot fun _ => 0).task 1 (mainTaskStruct 2)
    alloc := {2, 1}
    currentTask := 1
    mainTask := 1
    taskAllList := [1]
    taskAllNums := 1
    tidStart := 1
    tidBitmap := btmp }

/-- The main task runs and a task at block 3 is ready. -/
def pairSched (entry : κ) (btmp : Bitmap) : Sched κ :=
  (mainSched btmp).bornState 3 4 (bornTask 4 [] 3 entry 2) btmp

/-- From `task_init` on, the main task takes the first tid and the task that it
starts the second one. -/
lemma exists_mainStarts (entry : κ) : ∃ b0 b : Bitmap,
    (boot fun _ => 0 : Sched κ).taskInit 1 2 = .ok (mainSched b0) ∧
    (mainSched b0).taskStart 3 4 [] 3 entry = .ok (pairSched entry b, 3) ∧
    b.size = 1000800 ∧ ∀ i, b.bit i = decide (i < 2) := by
  obtain ⟨b0, hsize, hbit, heq⟩ := taskInit_spec (κ := κ) (fun _ => 0) 1 2
  have hbit' : ∀ i, (mainSched b0 : Sched κ).tidBitmap.bit i = decide (i < 1) := by
    intro i
    rw [show (mainSched b0 : Sched κ).tidBitmap = b0 from rfl, hbit]
    exact decide_eq_decide.mpr (by omega)
  obtain ⟨b, hsize', hbit'', hstart⟩ := taskStart_next (s := (mainSched b0 : Sched κ))
    hsize hbit' (by decide) rfl (show (3 : ℕ) ≠ 1 by decide) List.not_mem_nil
    (show (3 : ℕ) ∉ [1] by decide) ⟨rfl, rfl⟩ 4 entry
  exact ⟨b0, b, heq, hstart, hsize', hbit''⟩

end FirstTasks

end Libtask.Sched
