import Mathlib
import Libtask.Task.Specs
import Libtask.Transition

/-!
# Task ids

Runs of `task_start` and `task_exit` from `task_init`. A `tid_t` has 16 bits and
a sign, the bit index it stands for has 32; the ids are unique and returnable in
every run that never has more than 32767 live tasks.
-/
namespace Libtask.Tids
open Transition Sched

/-- The scheduler, and the bit that `allocate_tid` set for each task. -/
structure TidRun where
  sched : Sched Unit
  bitIdx : TaskAddr → ℕ

inductive TidOp
  | taskStart (mem stack : ℕ) (name : List UInt8) (prio : Int32)
  | taskExit (task : TaskAddr)

/-- The index that `bitmap_scan` hands to `allocate_tid`. -/
def scanned (btmp : Bitmap) : ℕ :=
  match btmp.bitmapScan 1 with
  | .ok i => i.toUInt32.toNat
  | .error _ => 0

/-- The blocks of `malloc` are new; a live task exits. The live tasks are those
of `task_all_list`. -/
inductive Step (s : TidRun) : TidOp → TidRun → Prop
  | taskStart {mem stack : ℕ} {name : List UInt8} {prio : Int32} {sched : Sched Unit}
      {task : TaskAddr} (hmem : mem ∉ s.sched.alloc) (hstack : stack ∉ s.sched.alloc)
      (hne : stack ≠ mem)
      (hstart : s.sched.taskStart mem stack name prio () = .ok (sched, task)) :
      Step s (.taskStart mem stack name prio)
        ⟨sched, Function.update s.bitIdx task (scanned s.sched.tidBitmap)⟩
  | taskExit {task : TaskAddr} {sched : Sched Unit} {c : Unit}
      (hlive : task ∈ s.sched.taskAllList) (hexit : s.sched.taskExit task = .ok (sched, c)) :
      Step s (.taskExit task) ⟨sched, s.bitIdx⟩

/-- `task_init`; its `bitmap_scan` sees the empty bitmap. -/
def tidSystem : System TidRun TidOp where
  init s := ∃ mem stack, (boot fun _ => 0).taskInit mem stack = .ok s.sched ∧ s.bitIdx = fun _ => 0
  step := Step

/-- Fewer live tasks than bits, also after the step. -/
def BelowBits (s : TidRun) : TidOp → Prop
  | .taskStart .. => s.sched.taskAllList.length + 1 < 125100 * 8
  | .taskExit _ => True

/-- Fewer live tasks than there are positive `tid_t`. -/
def BelowTidMax (s : TidRun) : TidOp → Prop
  | .taskStart .. => s.sched.taskAllList.length < 32767
  | .taskExit _ => True

/-- Unique and returnable. -/
structure TidsOk (s : TidRun) : Prop where
  distinct : ∀ t ∈ s.sched.taskAllList, ∀ u ∈ s.sched.taskAllList,
    (s.sched.task t).tid = (s.sched.task u).tid → t = u
  found : ∀ t ∈ s.sched.taskAllList, s.sched.tid2task (s.sched.task t).tid = some t
  bits : ∀ i : ℕ, s.sched.tidBitmap.bit i = true ↔ ∃ t ∈ s.sched.taskAllList,
    (i : ℤ) = (s.sched.task t).tid.toInt - s.sched.tidStart.toNat
  released : ∀ t ∈ s.sched.taskAllList, s.sched.tidBitmap.bit (s.bitIdx t) = true ∧
    ∃ b', BitSet s.sched.tidBitmap b' (s.bitIdx t) false ∧
      s.sched.releaseTid (s.sched.task t).tid = .ok { s.sched with tidBitmap := b' }

lemma tidOf_toInt {s : Sched Unit} (hstart : s.tidStart = 1) {i : ℕ} (hi : i < 32767) :
    (s.tidOf i).toInt = i + 1 := by
  have hnat : (UInt32.ofNat i + 1).toUInt16.toNat = i + 1 := by
    simp
    omega
  have hbits : (s.tidOf i).toInt = (UInt32.ofNat i + 1).toUInt16.toBitVec.toInt := by
    rw [← hstart]
    rfl
  rw [hbits, BitVec.toInt_eq_toNat_of_lt, UInt16.toNat_toBitVec, hnat]
  · simp
  · rw [UInt16.toNat_toBitVec, hnat]
    omega

/-- The way back of a positive `tid_t`. -/
lemma bitIdxOf_toNat {s : Sched Unit} (hstart : s.tidStart = 1) {tid : Int16}
    (hpos : 0 < tid.toInt) : (s.bitIdxOf tid).toNat = tid.toInt.toNat - 1 := by
  have hint : tid.toInt32.toInt = tid.toInt := Int16.toInt_toInt32 tid
  have hle : 0 ≤ tid.toInt32 := by
    rw [Int32.le_iff_toInt_le, hint]
    exact le_of_lt hpos
  have hnat : tid.toInt32.toUInt32.toNat = tid.toInt.toNat := by
    rw [Int32.toNat_toUInt32_of_le hle, ← hint]
    rfl
  rw [bitIdxOf, hstart, UInt32.toNat_sub_of_le, hnat]
  · rfl
  · rw [UInt32.le_iff_toNat_le, hnat]
    change 1 ≤ _
    omega

lemma bitIdxOf_tidOf {s : Sched Unit} (hstart : s.tidStart = 1) {i : ℕ} (hi : i < 32767) :
    (s.bitIdxOf (s.tidOf i)).toNat = i := by
  have hint := tidOf_toInt hstart hi
  rw [bitIdxOf_toNat hstart (by omega)]
  omega

/-- The tasks of `all` have a bit each, and no other bits are set. -/
structure OneBitEach (all : List TaskAddr) (bitIdx : TaskAddr → ℕ) (bit : ℕ → Bool) : Prop where
  inj : ∀ t ∈ all, ∀ u ∈ all, bitIdx t = bitIdx u → t = u
  bits : ∀ i, bit i = true ↔ ∃ t ∈ all, bitIdx t = i

section OneBitEach

variable {all : List TaskAddr} {bitIdx : TaskAddr → ℕ} {bit bit' : ℕ → Bool} {task : TaskAddr}

lemma OneBitEach.snoc (h : OneBitEach all bitIdx bit) (htask : task ∉ all) {i : ℕ}
    (hclear : bit i = false) (hset : ∀ j, bit' j = if j = i then true else bit j) :
    OneBitEach (all ++ [task]) (Function.update bitIdx task i) bit' := by
  have hold : ∀ u ∈ all, Function.update bitIdx task i u = bitIdx u := by
    intro u hu
    refine Function.update_of_ne ?_ ..
    rintro rfl
    exact htask hu
  have hnew : Function.update bitIdx task i task = i := Function.update_self ..
  have hfresh : ∀ u ∈ all, bitIdx u ≠ i := by
    intro u hu hbit
    rw [(h.bits i).mpr ⟨u, hu, hbit⟩] at hclear
    cases hclear
  constructor
  · intro u hu v hv hbit
    rcases List.mem_append.mp hu with hu | hu <;> rcases List.mem_append.mp hv with hv | hv
    · rw [hold u hu, hold v hv] at hbit
      exact h.inj u hu v hv hbit
    · rw [List.mem_singleton.mp hv, hold u hu, hnew] at hbit
      exact absurd hbit (hfresh u hu)
    · rw [List.mem_singleton.mp hu, hold v hv, hnew] at hbit
      exact absurd hbit.symm (hfresh v hv)
    · rw [List.mem_singleton.mp hu, List.mem_singleton.mp hv]
  · intro j
    rw [hset j]
    by_cases hj : j = i
    · rw [if_pos hj, hj]
      exact iff_of_true rfl ⟨task, by simp, hnew⟩
    · rw [if_neg hj, h.bits j]
      constructor
      · rintro ⟨u, hu, hbit⟩
        exact ⟨u, List.mem_append_left _ hu, (hold u hu).trans hbit⟩
      · rintro ⟨u, hu, hbit⟩
        rcases List.mem_append.mp hu with hu | hu
        · exact ⟨u, hu, (hold u hu).symm.trans hbit⟩
        · rw [List.mem_singleton.mp hu, hnew] at hbit
          exact absurd hbit.symm hj

lemma OneBitEach.erase (h : OneBitEach all bitIdx bit) (hnodup : all.Nodup) (htask : task ∈ all)
    (hset : ∀ j, bit' j = if j = bitIdx task then false else bit j) :
    OneBitEach (all.erase task) bitIdx bit' := by
  constructor
  · intro u hu v hv
    exact h.inj u (List.mem_of_mem_erase hu) v (List.mem_of_mem_erase hv)
  · intro j
    rw [hset j]
    by_cases hj : j = bitIdx task
    · rw [if_pos hj, hj]
      refine iff_of_false Bool.false_ne_true ?_
      rintro ⟨u, hu, hbit⟩
      obtain ⟨hne, hu⟩ := hnodup.mem_erase_iff.mp hu
      exact hne (h.inj u hu task htask hbit)
    · rw [if_neg hj, h.bits j]
      constructor
      · rintro ⟨u, hu, hbit⟩
        refine ⟨u, hnodup.mem_erase_iff.mpr ⟨?_, hu⟩, hbit⟩
        rintro rfl
        exact hj hbit.symm
      · rintro ⟨u, hu, hbit⟩
        exact ⟨u, List.mem_of_mem_erase hu, hbit⟩

end OneBitEach

/-- What every run keeps as long as bits are left. The last field is what the
width of `tid_t` asks for. -/
structure TidInv (bound : ℕ) (s : TidRun) : Prop where
  free : s.sched.LockFree .tid
  start : s.sched.tidStart = 1
  size : s.sched.tidBitmap.size = 1000800
  nodup : s.sched.taskAllList.Nodup
  ready : s.sched.taskReadyList.Nodup ∧ ∀ t ∈ s.sched.taskReadyList, t ∈ s.sched.taskAllList
  all_alloc : ∀ t ∈ s.sched.taskAllList, t ∈ s.sched.alloc
  pool_alloc : ∀ t ∈ s.sched.taskPoolList, t ∈ s.sched.alloc
  main_alloc : s.sched.mainTask ∈ s.sched.alloc
  dead : ∀ t ∈ s.sched.taskPoolList, (s.sched.task t).status = .died ∧ t ∉ s.sched.taskAllList
  tid : ∀ t ∈ s.sched.taskAllList, (s.sched.task t).tid = s.sched.tidOf (s.bitIdx t)
  each : OneBitEach s.sched.taskAllList s.bitIdx s.sched.tidBitmap.bit
  below : ∀ t ∈ s.sched.taskAllList, s.bitIdx t < bound

/-- A run of set bits is no longer than the list of live tasks. -/
lemma TidInv.le_length {bound : ℕ} {s : TidRun} (h : TidInv bound s) {n : ℕ}
    (hset : ∀ i < n, s.sched.tidBitmap.bit i = true) : n ≤ s.sched.taskAllList.length := by
  have hsub : Finset.range n ⊆ (s.sched.taskAllList.map s.bitIdx).toFinset := by
    intro i hi
    obtain ⟨t, ht, hbit⟩ := (h.each.bits i).mp (hset i (Finset.mem_range.mp hi))
    exact List.mem_toFinset.mpr (List.mem_map.mpr ⟨t, ht, hbit⟩)
  calc n = (Finset.range n).card := (Finset.card_range n).symm
    _ ≤ (s.sched.taskAllList.map s.bitIdx).toFinset.card := Finset.card_le_card hsub
    _ ≤ (s.sched.taskAllList.map s.bitIdx).length := List.toFinset_card_le _
    _ = s.sched.taskAllList.length := List.length_map _

lemma TidInv.exists_clear {bound : ℕ} {s : TidRun} (h : TidInv bound s) :
    ∃ i ≤ s.sched.taskAllList.length, s.sched.tidBitmap.bit i = false := by
  by_contra hall
  have hset : ∀ i < s.sched.taskAllList.length + 1, s.sched.tidBitmap.bit i = true := by
    intro i hi
    by_contra hi'
    exact hall ⟨i, by omega, by simpa using hi'⟩
  have := h.le_length hset
  omega

theorem TidInv.init {s : TidRun} (hs : tidSystem.init s) : TidInv 1 s := by
  obtain ⟨mem, stack, hinit, hbit⟩ := hs
  obtain ⟨b', hsize, hzero, heq⟩ := taskInit_spec (κ := Unit) (fun _ => 0) mem stack
  obtain ⟨sched, bitIdx⟩ := s
  obtain rfl : bitIdx = fun _ => 0 := hbit
  obtain rfl := Except.ok.inj (heq.symm.trans hinit)
  constructor
  case free => exact ⟨rfl, rfl⟩
  case start => rfl
  case size => exact hsize
  case nodup => exact List.nodup_singleton mem
  case ready => exact ⟨List.nodup_nil, fun t ht => absurd ht List.not_mem_nil⟩
  case all_alloc => simp
  case pool_alloc => simp [boot]
  case main_alloc => simp
  case dead => simp [boot]
  case tid =>
    intro t ht
    obtain rfl : t = mem := by simpa using ht
    simp [mainTaskStruct, bornTask, tidOf]
  case each =>
    constructor
    · intro t ht u hu _
      simp only [List.mem_singleton] at ht hu
      rw [ht, hu]
    · intro i
      simp only [hzero, decide_eq_true_eq, List.mem_singleton, exists_eq_left]
      exact eq_comm
  case below => simp

/-- Distinct tasks have distinct bits. -/
lemma TidInv.card {bound : ℕ} {s : TidRun} (h : TidInv bound s) :
    (s.sched.taskAllList.map s.bitIdx).toFinset.card = s.sched.taskAllList.length := by
  rw [List.toFinset_card_of_nodup, List.length_map]
  exact h.nodup.map_on fun t ht u hu => h.each.inj t ht u hu

lemma TidInv.subset {bound : ℕ} {s : TidRun} (h : TidInv bound s) :
    (s.sched.taskAllList.map s.bitIdx).toFinset ⊆ Finset.range bound := by
  intro j hj
  obtain ⟨t, ht, rfl⟩ := List.mem_map.mp (List.mem_toFinset.mp hj)
  exact Finset.mem_range.mpr (h.below t ht)

lemma TidInv.length_le {bound : ℕ} {s : TidRun} (h : TidInv bound s) :
    s.sched.taskAllList.length ≤ bound := by
  have hle := Finset.card_le_card h.subset
  rwa [h.card, Finset.card_range] at hle

/-- A start takes the least index not in use, which is at most the number of
live tasks. -/
lemma TidInv.started {bound : ℕ} {s t : TidRun} {mem stack : ℕ} {name : List UInt8}
    {prio : Int32} (h : TidInv bound s) (hlen : s.sched.taskAllList.length < 1000800)
    (hstep : Step s (.taskStart mem stack name prio) t) :
    s.sched.taskPoolList = [] ∧ mem ∉ s.sched.taskAllList ∧
      ∃ i ≤ s.sched.taskAllList.length, s.sched.tidBitmap.bit i = false ∧
        ∃ b', BitSet s.sched.tidBitmap b' i true ∧
          t = ⟨s.sched.bornState mem stack (bornTask stack name prio () (s.sched.tidOf i)) b',
            Function.update s.bitIdx mem i⟩ := by
  obtain ⟨hmem, hstack, hne, hstart⟩ := hstep
  have hpool : s.sched.taskPoolList = [] := by
    cases hp : s.sched.taskPoolList with
    | nil => rfl
    | cons u rest =>
      have hdied := (h.dead u (by simp [hp])).1
      rw [taskStart_of_pool hp hdied] at hstart
      cases hstart
  have hname : name.length < 32 := by
    by_contra hlong
    rw [taskStart_of_name (not_lt.mp hlong) hpool] at hstart
    cases hstart
  have hall : mem ∉ s.sched.taskAllList := fun hm => hmem (h.all_alloc mem hm)
  have hready : mem ∉ s.sched.taskReadyList := fun hm => hall (h.ready.2 mem hm)
  have hmain : mem ≠ s.sched.mainTask := by
    rintro rfl
    exact hmem h.main_alloc
  obtain ⟨c, hc, hcclear⟩ := h.exists_clear
  have hsize := h.size
  obtain ⟨i, hi, hclear, hleast, hscan, b', hset, heq⟩ := taskStart_spec stack name
    prio () hpool hname hmain hready hall h.free (by omega)
    ⟨c, by omega, hcclear⟩
  obtain ⟨rfl, rfl⟩ := Prod.mk.inj (Except.ok.inj (heq.symm.trans hstart))
  have hscanned : scanned s.sched.tidBitmap = i := by
    simp only [scanned, hscan, UInt32.toUInt32_toInt32]
    exact UInt32.toNat_ofNat_of_lt' (show i < 2 ^ 32 by omega)
  rw [hscanned]
  exact ⟨hpool, hall, i, h.le_length hleast, hclear, b', hset, rfl⟩

theorem TidInv.taskStart {bound : ℕ} {s t : TidRun} {mem stack : ℕ} {name : List UInt8}
    {prio : Int32} (h : TidInv bound s) (hlen : s.sched.taskAllList.length < 1000800)
    (hstep : Step s (.taskStart mem stack name prio) t) :
    TidInv (max bound (s.sched.taskAllList.length + 1)) t ∧
      t.sched.taskAllList.length = s.sched.taskAllList.length + 1 := by
  obtain ⟨hpool, hall, i, hile, hclear, b', hset, rfl⟩ := h.started hlen hstep
  have hready : mem ∉ s.sched.taskReadyList := fun hm => hall (h.ready.2 mem hm)
  have hnew : ∀ u ∈ s.sched.taskAllList, u ≠ mem := by
    rintro u hu rfl
    exact hall hu
  refine ⟨?_, List.length_append⟩
  dsimp only [bornState]
  constructor
  case free => exact h.free
  case start => exact h.start
  case size => exact hset.size.trans h.size
  case nodup => exact nodup_snoc h.nodup hall
  case ready =>
    refine ⟨nodup_snoc h.ready.1 hready, ?_⟩
    intro u hu
    rcases List.mem_append.mp hu with hu | hu
    · exact List.mem_append_left _ (h.ready.2 u hu)
    · exact List.mem_append_right _ hu
  case all_alloc =>
    intro u hu
    rcases List.mem_append.mp hu with hu | hu
    · exact Finset.mem_insert_of_mem (Finset.mem_insert_of_mem (h.all_alloc u hu))
    · rw [List.mem_singleton.mp hu]
      exact Finset.mem_insert_of_mem (Finset.mem_insert_self _ _)
  case pool_alloc => simp [hpool]
  case main_alloc => exact Finset.mem_insert_of_mem (Finset.mem_insert_of_mem h.main_alloc)
  case dead => simp [hpool]
  case tid =>
    intro u hu
    rcases List.mem_append.mp hu with hu | hu
    · simp only [Function.update_of_ne (hnew u hu)]
      exact h.tid u hu
    · obtain rfl := List.mem_singleton.mp hu
      simp only [Function.update_self]
      rfl
  case each => exact h.each.snoc hall hclear hset.bit
  case below =>
    intro u hu
    show Function.update s.bitIdx mem i u < _
    rcases List.mem_append.mp hu with hu | hu
    · rw [Function.update_of_ne (hnew u hu)]
      exact lt_max_of_lt_left (h.below u hu)
    · rw [List.mem_singleton.mp hu, Function.update_self]
      exact lt_max_of_lt_right (by omega)

/-- An exit clears the bit of the task and dispatches the first of the other ready ones. -/
lemma TidInv.exited {bound : ℕ} {s t : TidRun} {task : TaskAddr} (h : TidInv bound s)
    (hbound : bound ≤ 32767) (hstep : Step s (.taskExit task) t) :
    task ∈ s.sched.taskAllList ∧ ∃ next rest b', s.sched.taskReadyList.erase task = next :: rest ∧
      BitSet s.sched.tidBitmap b' (s.bitIdx task) false ∧
      t = ⟨{ (s.sched.exitState task).setStatus next .running with
        tidBitmap := b'
        taskReadyList := rest
        taskTag := next
        currentTask := next }, s.bitIdx⟩ := by
  cases hstep with
  | taskExit hlive hexit =>
    have hlt := h.below task hlive
    have hidx : (s.sched.bitIdxOf (s.sched.task task).tid).toNat = s.bitIdx task := by
      rw [h.tid task hlive]
      exact bitIdxOf_tidOf h.start (by omega)
    have hsize := h.size
    obtain ⟨b', hset, heq⟩ := taskExit_spec task h.free (by omega)
    rw [hidx] at hset
    rw [heq, diedTaskSchedule_eq] at hexit
    dsimp only [exitState] at hexit
    cases hr : s.sched.taskReadyList.erase task with
    | nil =>
      simp only [hr] at hexit
      cases hexit
    | cons next rest =>
      simp only [hr] at hexit
      obtain ⟨rfl, -⟩ := Prod.mk.inj (Except.ok.inj hexit)
      exact ⟨hlive, next, rest, b', rfl, hset, rfl⟩

theorem TidInv.taskExit {bound : ℕ} {s t : TidRun} {task : TaskAddr} (h : TidInv bound s)
    (hbound : bound ≤ 32767) (hstep : Step s (.taskExit task) t) : TidInv bound t := by
  obtain ⟨hlive, next, rest, b', hr, hset, rfl⟩ := h.exited hbound hstep
  have hold : ∀ u, u ∈ s.sched.taskAllList.erase task → u ∈ s.sched.taskAllList :=
    fun u hu => List.mem_of_mem_erase hu
  have hready : ∀ u ∈ next :: rest, u ≠ task ∧ u ∈ s.sched.taskAllList := by
    intro u hu
    rw [← hr] at hu
    obtain ⟨hne, hu⟩ := h.ready.1.mem_erase_iff.mp hu
    exact ⟨hne, h.ready.2 u hu⟩
  obtain ⟨hnext_ne, hnext⟩ := hready next List.mem_cons_self
  have htask : ∀ u, u ≠ next → u ≠ task →
      ((s.sched.exitState task).setStatus next .running).task u = s.sched.task u := by
    intro u hun hut
    rw [setStatus_task_of_ne _ _ hun, exitState_task_of_ne _ hut]
  constructor
  case free => exact h.free
  case start => exact h.start
  case size => exact hset.size.trans h.size
  case nodup => exact h.nodup.erase task
  case ready =>
    refine ⟨(hr ▸ h.ready.1.erase task : (next :: rest).Nodup).of_cons, ?_⟩
    intro u hu
    exact h.nodup.mem_erase_iff.mpr (hready u (List.mem_cons_of_mem _ hu))
  case all_alloc => exact fun u hu => h.all_alloc u (hold u hu)
  case pool_alloc =>
    intro u hu
    rcases List.mem_append.mp hu with hu | hu
    · exact h.pool_alloc u hu
    · split_ifs at hu with hm
      · cases hu
      · rw [List.mem_singleton.mp hu]
        exact h.all_alloc task hlive
  case main_alloc => exact h.main_alloc
  case dead =>
    intro u hu
    rcases List.mem_append.mp hu with hu | hu
    · obtain ⟨hdied, hnot⟩ := h.dead u hu
      have hun : u ≠ next := by
        rintro rfl
        exact hnot hnext
      have hut : u ≠ task := by
        rintro rfl
        exact hnot hlive
      refine ⟨?_, fun hm => hnot (hold u hm)⟩
      exact (congrArg TaskStruct.status (htask u hun hut)).trans hdied
    · split_ifs at hu with hm
      · cases hu
      · obtain rfl := List.mem_singleton.mp hu
        refine ⟨?_, fun hm => (h.nodup.mem_erase_iff.mp hm).1 rfl⟩
        show (((s.sched.exitState u).setStatus next .running).task u).status = .died
        rw [setStatus_task_of_ne _ _ hnext_ne.symm, exitState_task_self]
  case tid =>
    intro u hu
    refine Eq.trans ?_ (h.tid u (hold u hu))
    have hut : u ≠ task := (h.nodup.mem_erase_iff.mp hu).1
    show (((s.sched.exitState task).setStatus next .running).task u).tid = _
    by_cases hun : u = next
    · subst hun
      rw [setStatus, setTask_task_self, exitState_task_of_ne _ hut]
    · rw [htask u hun hut]
  case each => exact h.each.erase h.nodup hlive hset.bit
  case below => exact fun u hu => h.below u (hold u hu)

theorem tidInv_of_reach {s : TidRun} (hs : tidSystem.Reach BelowTidMax s) : TidInv 32767 s := by
  refine hs.invariant ?_ ?_
  · intro s hs
    have h := TidInv.init hs
    exact { h with below := fun t ht => lt_of_lt_of_le (h.below t ht) (by omega) }
  · intro s op t h hg hst
    cases op with
    | taskStart mem stack name prio =>
      have hlen : s.sched.taskAllList.length < 32767 := hg
      have h' := (h.taskStart (by omega) hst).1
      rwa [max_eq_left (by omega)] at h'
    | taskExit task => exact h.taskExit le_rfl hst

/-- With at most 32767 live tasks, ids are unique and returnable. -/
lemma TidInv.tidsOk {s : TidRun} (h : TidInv 32767 s) : TidsOk s := by
  have hint : ∀ t ∈ s.sched.taskAllList, (s.sched.task t).tid.toInt = s.bitIdx t + 1 :=
    fun t ht => by rw [h.tid t ht, tidOf_toInt h.start (h.below t ht)]
  have hdistinct : ∀ t ∈ s.sched.taskAllList, ∀ u ∈ s.sched.taskAllList,
      (s.sched.task t).tid = (s.sched.task u).tid → t = u := by
    intro t ht u hu heq
    have hsame := congrArg Int16.toInt heq
    rw [hint t ht, hint u hu] at hsame
    exact h.each.inj t ht u hu (by omega)
  constructor
  case distinct => exact hdistinct
  case found =>
    intro t ht
    cases hf : s.sched.tid2task (s.sched.task t).tid with
    | none =>
      have := List.find?_eq_none.mp hf t ht
      simp at this
    | some u =>
      have hu := List.mem_of_find?_eq_some hf
      have htid := List.find?_some hf
      simp only [decide_eq_true_eq] at htid
      have hsame := congrArg Int32.toInt htid
      rw [Int16.toInt_toInt32, Int16.toInt_toInt32] at hsame
      rw [hdistinct u hu t ht (Int16.toInt_inj.mp hsame)]
  case bits =>
    intro i
    rw [h.each.bits i, h.start]
    apply exists_congr
    intro t
    apply and_congr_right
    intro ht
    rw [hint t ht]
    change _ ↔ (i : ℤ) = s.bitIdx t + 1 - (1 : ℕ)
    omega
  case released =>
    intro t ht
    have hidx : (s.sched.bitIdxOf (s.sched.task t).tid).toNat = s.bitIdx t := by
      rw [h.tid t ht]
      exact bitIdxOf_tidOf h.start (h.below t ht)
    have hlt := h.below t ht
    have hsize := h.size
    obtain ⟨b', hset, hrel⟩ := releaseTid_spec h.free (s.sched.task t).tid (by omega)
    rw [hidx] at hset
    exact ⟨(h.each.bits _).mpr ⟨t, ht, rfl⟩, b', hset, hrel⟩

/-- As long as bits are left and nobody has died, one more task can start. -/
lemma TidInv.exists_start {bound : ℕ} {s : TidRun} (h : TidInv bound s)
    (hpool : s.sched.taskPoolList = []) (hlen : s.sched.taskAllList.length < 1000800) :
    ∃ op t, Step s op t ∧ TidInv (max bound (s.sched.taskAllList.length + 1)) t ∧
      (BelowBits s op ↔ s.sched.taskAllList.length + 1 < 1000800) ∧
      t.sched.taskPoolList = [] ∧
      t.sched.taskAllList.length = s.sched.taskAllList.length + 1 := by
  obtain ⟨mem, hmem⟩ := Infinite.exists_notMem_finset s.sched.alloc
  obtain ⟨stack, hstack⟩ := Infinite.exists_notMem_finset (insert mem s.sched.alloc)
  rw [Finset.mem_insert, not_or] at hstack
  have hall : mem ∉ s.sched.taskAllList := fun hm => hmem (h.all_alloc mem hm)
  have hready : mem ∉ s.sched.taskReadyList := fun hm => hall (h.ready.2 mem hm)
  have hmain : mem ≠ s.sched.mainTask := by
    rintro rfl
    exact hmem h.main_alloc
  obtain ⟨c, hc, hcclear⟩ := h.exists_clear
  have hsize := h.size
  obtain ⟨i, -, -, -, -, b', -, heq⟩ := taskStart_spec stack [] 31 ()
    hpool (by decide) hmain hready hall h.free (by omega) ⟨c, by omega, hcclear⟩
  have hstep := Step.taskStart (s := s) hmem hstack.2 hstack.1 heq
  obtain ⟨h', hlen'⟩ := h.taskStart hlen hstep
  exact ⟨_, _, hstep, h', Iff.rfl, hpool, hlen'⟩

/-- Without an exit, `n` further tasks use the bits up to `n`. -/
lemma exists_run (n : ℕ) (hn : n < 1000799) : ∃ s, tidSystem.Reach BelowBits s ∧
    TidInv (n + 1) s ∧ s.sched.taskPoolList = [] ∧ s.sched.taskAllList.length = n + 1 := by
  induction n with
  | zero =>
    obtain ⟨b', -, -, heq⟩ := taskInit_spec (κ := Unit) (fun _ => 0) 1 2
    have hinit : tidSystem.init ⟨_, fun _ => 0⟩ := ⟨1, 2, heq, rfl⟩
    exact ⟨_, .init hinit, TidInv.init hinit, rfl, rfl⟩
  | succ n ih =>
    obtain ⟨s, hs, h, hpool, hlen⟩ := ih (by omega)
    obtain ⟨op, t, hst, h', hg, hpool', hlen'⟩ := h.exists_start hpool (by omega)
    refine ⟨t, .step hs (hg.mpr (by omega)) hst, ?_, hpool', by omega⟩
    rwa [hlen, max_eq_right (by omega)] at h'

/-- `n` tasks with ids from `n` bits use all of them. -/
lemma TidInv.full {n : ℕ} {s : TidRun} (h : TidInv n s) (hlen : s.sched.taskAllList.length = n)
    {i : ℕ} (hi : i < n) : s.sched.tidBitmap.bit i = true := by
  have heq := Finset.eq_of_subset_of_card_le h.subset (by rw [h.card, Finset.card_range, hlen])
  have hmem : i ∈ (s.sched.taskAllList.map s.bitIdx).toFinset := by
    rw [heq]
    exact Finset.mem_range.mpr hi
  obtain ⟨t, ht, hbit⟩ := List.mem_map.mp (List.mem_toFinset.mp hmem)
  exact (h.each.bits i).mpr ⟨t, ht, hbit⟩

/-- Bit 32767 has no `tid_t`: the id that is made of it is negative. -/
lemma TidInv.not_tidsOk {bound : ℕ} {s : TidRun} (h : TidInv bound s)
    (hbit : s.sched.tidBitmap.bit 32767 = true) : ¬ TidsOk s := by
  intro hok
  obtain ⟨t, -, ht⟩ := (hok.bits 32767).mp hbit
  have hlt := (s.sched.task t).tid.toInt_lt
  rw [h.start] at ht
  change ((32767 : ℕ) : ℤ) = _ - ((1 : ℕ) : ℤ) at ht
  omega

/-- Ids are unique and returnable in every run that starts a task only while
fewer than 32767 are live, and not after the first start that does not. -/
theorem tidsOk_iff_below {s : TidRun} (hs : tidSystem.Reach BelowTidMax s) :
    TidsOk s ∧ ∀ op t, tidSystem.step s op t → (TidsOk t ↔ BelowTidMax s op) := by
  refine ⟨(tidInv_of_reach hs).tidsOk, ?_⟩
  intro op t hst
  constructor
  · intro hok
    by_contra hg
    have h := tidInv_of_reach hs
    cases op with
    | taskExit task => exact hg trivial
    | taskStart mem stack name prio =>
      have hge : 32767 ≤ s.sched.taskAllList.length := not_lt.mp hg
      have hlen : s.sched.taskAllList.length = 32767 := le_antisymm h.length_le hge
      obtain ⟨h', hlen'⟩ := h.taskStart (by omega) hst
      rw [hlen, max_eq_right (by omega)] at h'
      exact h'.not_tidsOk (h'.full (by rw [hlen', hlen]) (by omega)) hok
  · intro hg
    exact (tidInv_of_reach (.step hs hg hst)).tidsOk

/-- The main task starts a task and exits, and that task starts another one. -/
lemma exists_reuse : ∃ s, tidSystem.Reach BelowTidMax s ∧ s.sched.taskAllList = [3, 5] ∧
    (s.sched.task 1).status = .died ∧ (s.sched.task 5).tid = (s.sched.task 1).tid := by
  obtain ⟨b0, b1, hinit, hstart, hsize1, hbit1⟩ := exists_mainStarts ()
  have h0 : tidSystem.Reach BelowTidMax ⟨mainSched b0, fun _ => 0⟩ := .init ⟨1, 2, hinit, rfl⟩
  have h1 := h0.step (a := TidOp.taskStart 3 4 [] 3) (show 1 < 32767 by decide)
    (.taskStart (by simp [mainSched]) (by simp [mainSched]) (by decide) hstart)
  have htid : ((pairSched () b1).task 1).tid = (pairSched () b1).tidOf 0 := rfl
  have hidx : ((pairSched () b1).bitIdxOf ((pairSched () b1).task 1).tid).toNat = 0 := by
    rw [htid, bitIdxOf_tidOf rfl (by decide)]
  obtain ⟨b2, hset2, hexit⟩ := taskExit_spec (s := pairSched () b1) 1 ⟨rfl, rfl⟩
    (by rw [hidx, show (pairSched () b1).tidBitmap = b1 from rfl]; omega)
  rw [diedTaskSchedule_eq] at hexit
  have h2 := h1.step (a := TidOp.taskExit 1) trivial
    (.taskExit (show 1 ∈ [1, 3] by decide) hexit)
  have hbit2 : ∀ j, b2.bit j = decide (j = 1) := by
    intro j
    rw [hset2.bit, show (pairSched () b1).tidBitmap = b1 from rfl, hbit1, hidx]
    split_ifs with hj
    · rw [hj]
      rfl
    · exact decide_eq_decide.mpr (by omega)
  set s2 : Sched Unit := { ({ (pairSched () b1).exitState 1 with
    tidBitmap := b2 } : Sched Unit).setStatus 3 .running with
      taskReadyList := []
      taskTag := 3
      currentTask := 3 } with hs2
  have hsize2 : s2.tidBitmap.size = 1000800 := hset2.size.trans hsize1
  obtain ⟨i, -, -, hleast, -, b3, -, hstart3⟩ := taskStart_spec (s := s2) 6 [] 3 () rfl
    (by decide) (show (5 : ℕ) ≠ 1 by decide) List.not_mem_nil (show (5 : ℕ) ∉ [3] by decide)
    ⟨rfl, rfl⟩ (by omega) ⟨0, by omega, hbit2 0⟩
  -- bit 0, which was the main task's, is clear again
  obtain rfl : i = 0 := by
    by_contra hi
    have hzero := hleast 0 (by omega)
    rw [show s2.tidBitmap = b2 from rfl, hbit2] at hzero
    cases hzero
  have h3 := h2.step (a := TidOp.taskStart 5 6 [] 3) (show 1 < 32767 by decide)
    (.taskStart (show 5 ∉ ({4, 3, 2, 1} : Finset ℕ) by decide)
      (show 6 ∉ ({4, 3, 2, 1} : Finset ℕ) by decide) (by decide) hstart3)
  exact ⟨_, h3, rfl, rfl, rfl⟩

/-- The id of the main task is used again. -/
theorem tidsOk_reuse : ∃ s, s.sched.taskAllList = [3, 5] ∧ (s.sched.task 1).status = .died ∧
    (s.sched.task 5).tid = (s.sched.task 1).tid ∧ TidsOk s := by
  obtain ⟨s, hs, hall, hdied, htid⟩ := exists_reuse
  exact ⟨s, hall, hdied, htid, (tidsOk_iff_below hs).1⟩

/-- With 32767 tasks besides the main task, the last `tid_t` is negative. -/
theorem not_tidsOk : ¬ ∀ s, tidSystem.Reach BelowBits s → TidsOk s := by
  intro hall
  obtain ⟨s, hs, h, -, hlen⟩ := exists_run 32767 (by omega)
  exact h.not_tidsOk (h.full hlen (by omega)) (hall s hs)

end Libtask.Tids
