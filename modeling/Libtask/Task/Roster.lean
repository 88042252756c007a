import Libtask.Task.Struct

/-!
# Where every task is

The roster is what the scheduler's lists and status fields say about the tasks.
Its law is that each live task holds exactly one token: it is running, or queued
in the ready list, or suspended, or waits for a wake-up. `cur` is the running
task, `none` in the middle of a dispatch; `wake` counts the pending wake-ups of
each task. The lemmas are the moves that keep the law.
-/
namespace Libtask

structure Roster where
  status : TaskAddr → TaskStatus
  ready : List TaskAddr
  all : List TaskAddr
  nums : ℤ
  pool : List TaskAddr
  waiters : SemaId → List TaskAddr

namespace Roster

variable {cur : Option TaskAddr} {wake : TaskAddr → ℕ} {r : Roster}

/-- Suspended by `task_block` and not unblocked since. -/
def Blocked (r : Roster) (t : TaskAddr) : Prop := t ∈ r.all ∧ (r.status t).Suspended

instance (r : Roster) (t : TaskAddr) : Decidable (r.Blocked t) := by
  unfold Blocked
  infer_instance

/-- How often `t` is somewhere. -/
def tokens (r : Roster) (cur : Option TaskAddr) (wake : TaskAddr → ℕ) (t : TaskAddr) : ℕ :=
  (if cur = some t then 1 else 0) + r.ready.count t + (if r.Blocked t then 1 else 0) + wake t

structure Law (cur : Option TaskAddr) (wake : TaskAddr → ℕ) (r : Roster) : Prop where
  place : ∀ t, r.tokens cur wake t = if t ∈ r.all then 1 else 0
  waiting : ∀ i, ∀ t ∈ r.waiters i, r.Blocked t
  waiters_nodup : ∀ i, (r.waiters i).Nodup
  waiters_once : ∀ i j t, t ∈ r.waiters i → t ∈ r.waiters j → i = j
  all_nodup : r.all.Nodup
  nums_eq : r.nums = r.all.length
  pool_nodup : r.pool.Nodup
  pool_died : ∀ t ∈ r.pool, r.status t = .died ∧ t ∉ r.all

/-- Change the status of one task. -/
def withStatus (r : Roster) (t : TaskAddr) (status : TaskStatus) : Roster :=
  { r with status := Function.update r.status t status }

lemma blocked_withStatus_of_ne {t u : TaskAddr} {st : TaskStatus} (h : u ≠ t) :
    (r.withStatus t st).Blocked u ↔ r.Blocked u := by
  simp [Blocked, withStatus, h]

lemma blocked_withStatus_self {t : TaskAddr} {st : TaskStatus} :
    (r.withStatus t st).Blocked t ↔ t ∈ r.all ∧ st.Suspended := by
  simp [Blocked, withStatus]

lemma not_suspended_running : ¬ TaskStatus.running.Suspended := by decide

lemma not_suspended_ready : ¬ TaskStatus.ready.Suspended := by decide

lemma Law.mem_all_of_tokens (h : Law cur wake r) {t : TaskAddr} (ht : 0 < r.tokens cur wake t) :
    t ∈ r.all := by
  by_contra hn
  rw [h.place t, if_neg hn] at ht
  exact absurd ht (lt_irrefl 0)

lemma Law.tokens_le (h : Law cur wake r) (t : TaskAddr) : r.tokens cur wake t ≤ 1 := by
  rw [h.place t]
  split_ifs <;> omega

lemma Law.cur_mem {c : TaskAddr} (h : Law (some c) wake r) : c ∈ r.all := by
  apply h.mem_all_of_tokens
  simp only [tokens, if_true]
  omega

lemma Law.cur_alone {c : TaskAddr} (h : Law (some c) wake r) :
    c ∉ r.ready ∧ ¬ r.Blocked c ∧ wake c = 0 := by
  have hle := h.tokens_le c
  simp only [tokens, if_true] at hle
  refine ⟨List.count_eq_zero.mp (by omega), ?_, by omega⟩
  intro hb
  rw [if_pos hb] at hle
  omega

lemma Law.ready_mem (h : Law cur wake r) {t : TaskAddr} (ht : t ∈ r.ready) : t ∈ r.all := by
  apply h.mem_all_of_tokens
  have := List.count_pos_iff.mpr ht
  simp only [tokens]
  omega

lemma Law.ready_alone (h : Law cur wake r) {t : TaskAddr} (ht : t ∈ r.ready) :
    cur ≠ some t ∧ ¬ r.Blocked t ∧ wake t = 0 ∧ r.ready.count t = 1 := by
  have hle := h.tokens_le t
  have hpos := List.count_pos_iff.mpr ht
  simp only [tokens] at hle
  refine ⟨?_, ?_, by omega, by omega⟩
  · intro hc
    rw [if_pos hc] at hle
    omega
  · intro hb
    rw [if_pos hb] at hle
    omega

lemma Law.blocked_alone (h : Law cur wake r) {t : TaskAddr} (ht : r.Blocked t) :
    cur ≠ some t ∧ t ∉ r.ready ∧ wake t = 0 := by
  have hle := h.tokens_le t
  simp only [tokens, if_pos ht] at hle
  refine ⟨?_, List.count_eq_zero.mp (by omega), by omega⟩
  intro hc
  rw [if_pos hc] at hle
  omega

lemma Law.wake_mem (h : Law cur wake r) {t : TaskAddr} (ht : 0 < wake t) : t ∈ r.all := by
  apply h.mem_all_of_tokens
  simp only [tokens]
  omega

lemma Law.wake_alone (h : Law cur wake r) {t : TaskAddr} (ht : 0 < wake t) :
    cur ≠ some t ∧ t ∉ r.ready ∧ ¬ r.Blocked t ∧ wake t = 1 := by
  have hle := h.tokens_le t
  simp only [tokens] at hle
  refine ⟨?_, List.count_eq_zero.mp (by omega), ?_, by omega⟩
  · intro hc
    rw [if_pos hc] at hle
    omega
  · intro hb
    rw [if_pos hb] at hle
    omega

/-- The status of a live task that is no waiter may change, if the tokens agree. -/
lemma Law.move (h : Law cur wake r) {t : TaskAddr} (ht : t ∈ r.all)
    (hwait : ∀ i, t ∉ r.waiters i) (st : TaskStatus) (ready : List TaskAddr)
    {cur' : Option TaskAddr} {wake' : TaskAddr → ℕ}
    (hself : (if cur' = some t then 1 else 0) + ready.count t +
      (if st.Suspended then 1 else 0) + wake' t = 1)
    (hother : ∀ u, u ≠ t → (if cur' = some u then 1 else 0) + ready.count u + wake' u =
      (if cur = some u then 1 else 0) + r.ready.count u + wake u) :
    Law cur' wake' ({ r with ready := ready }.withStatus t st) := by
  constructor
  case place =>
    intro u
    by_cases hu : u = t
    · subst hu
      simp only [tokens, blocked_withStatus_self]
      simp only [withStatus, ht, true_and, if_true]
      exact hself
    · have hsame := hother u hu
      have hiff : ({ r with ready := ready }.withStatus t st).Blocked u ↔ r.Blocked u :=
        blocked_withStatus_of_ne hu
      refine Eq.trans ?_ (h.place u)
      simp only [tokens, hiff]
      simp only [withStatus]
      omega
  case waiting =>
    intro i u hu
    have hne : u ≠ t := by
      rintro rfl
      exact hwait i hu
    exact (blocked_withStatus_of_ne hne).mpr (h.waiting i u hu)
  case waiters_nodup => exact h.waiters_nodup
  case waiters_once => exact h.waiters_once
  case all_nodup => exact h.all_nodup
  case nums_eq => exact h.nums_eq
  case pool_nodup => exact h.pool_nodup
  case pool_died =>
    intro u hu
    have hne : u ≠ t := by
      rintro rfl
      exact (h.pool_died u hu).2 ht
    refine ⟨?_, (h.pool_died u hu).2⟩
    simp only [withStatus, Function.update_of_ne hne]
    exact (h.pool_died u hu).1

lemma Law.not_waiter (h : Law cur wake r) {t : TaskAddr} (ht : ¬ r.Blocked t) (i : SemaId) :
    t ∉ r.waiters i := fun hi => ht (h.waiting i t hi)

/-- `task_block`: the running task gives up the CPU. -/
theorem Law.block {c : TaskAddr} (h : Law (some c) wake r) {st : TaskStatus}
    (hst : st.Suspended) : Law none wake (r.withStatus c st) := by
  obtain ⟨hready, hblocked, hwake⟩ := h.cur_alone
  refine h.move h.cur_mem (h.not_waiter hblocked) st r.ready ?_ ?_
  · rw [List.count_eq_zero.mpr hready, hwake, if_pos hst]
    simp
  · intro u hu
    simp [Ne.symm hu]

/-- `schedule`: the running task goes to the end of the ready list. -/
theorem Law.requeue {c : TaskAddr} (h : Law (some c) wake r) :
    Law none wake ({ r with ready := r.ready ++ [c] }.withStatus c .ready) := by
  obtain ⟨hready, hblocked, hwake⟩ := h.cur_alone
  refine h.move h.cur_mem (h.not_waiter hblocked) .ready (r.ready ++ [c]) ?_ ?_
  · rw [List.count_append, List.count_eq_zero.mpr hready, hwake, if_neg not_suspended_ready]
    simp
  · intro u hu
    have hzero : [c].count u = 0 := List.count_eq_zero.mpr (by simpa using hu)
    rw [List.count_append, hzero]
    simp [Ne.symm hu]

/-- A dispatch: the head of the ready list becomes the running task. -/
theorem Law.dispatch {n : TaskAddr} {rest : List TaskAddr} (h : Law none wake r)
    (hr : r.ready = n :: rest) :
    Law (some n) wake ({ r with ready := rest }.withStatus n .running) := by
  have hmem : n ∈ r.ready := by simp [hr]
  obtain ⟨-, hblocked, hwake, hcount⟩ := h.ready_alone hmem
  rw [hr, List.count_cons_self] at hcount
  refine h.move (h.ready_mem hmem) (h.not_waiter hblocked) .running rest ?_ ?_
  · rw [hwake, if_neg not_suspended_running]
    simp only [if_true]
    omega
  · intro u hu
    rw [hr, List.count_cons_of_ne (Ne.symm hu)]
    simp [Ne.symm hu]

/-- A wake-up timer: the task goes from its timer to the ready list. -/
theorem Law.wakeUp {t : TaskAddr} (h : Law cur wake r) (ht : 0 < wake t) :
    Law cur (Function.update wake t 0)
      ({ r with ready := r.ready ++ [t] }.withStatus t .ready) := by
  obtain ⟨hcur, hready, hblocked, hone⟩ := h.wake_alone ht
  refine h.move (h.wake_mem ht) (h.not_waiter hblocked) .ready (r.ready ++ [t]) ?_ ?_
  · rw [List.count_append, List.count_eq_zero.mpr hready, if_neg not_suspended_ready, if_neg hcur]
    simp
  · intro u hu
    have hzero : [t].count u = 0 := List.count_eq_zero.mpr (by simpa using hu)
    rw [List.count_append, hzero, Function.update_of_ne hu, Nat.add_zero]

/-- `task_unblock` of a suspended task that is on no waiters list. -/
theorem Law.unblock {t : TaskAddr} (h : Law cur wake r) (ht : r.Blocked t)
    (hwait : ∀ i, t ∉ r.waiters i) :
    Law cur wake ({ r with ready := t :: r.ready }.withStatus t .ready) := by
  obtain ⟨hcur, hready, hwake⟩ := h.blocked_alone ht
  refine h.move ht.1 hwait .ready (t :: r.ready) ?_ ?_
  · rw [List.count_cons_self, List.count_eq_zero.mpr hready, hwake, if_neg hcur,
      if_neg not_suspended_ready]
  · intro u hu
    rw [List.count_cons_of_ne (Ne.symm hu)]

/-- The running task exchanges the CPU for a wake-up timer. -/
theorem Law.sleep {c : TaskAddr} (h : Law (some c) wake r) :
    Law none (Function.update wake c 1) r := by
  obtain ⟨hready, hblocked, hwake⟩ := h.cur_alone
  refine { h with place := ?_ }
  intro u
  have hold := h.place u
  by_cases hu : u = c
  · subst hu
    rw [← hold]
    simp [tokens, hwake]
    omega
  · rw [← hold]
    simp [tokens, hu, Ne.symm hu]

/-- A suspended task is appended to the waiters of a semaphore. -/
theorem Law.wait {t : TaskAddr} (h : Law cur wake r) (ht : r.Blocked t)
    (hwait : ∀ i, t ∉ r.waiters i) (i : SemaId) :
    Law cur wake { r with waiters := Function.update r.waiters i (r.waiters i ++ [t]) } := by
  have hmem : ∀ j u, u ∈ Function.update r.waiters i (r.waiters i ++ [t]) j →
      u ∈ r.waiters j ∨ u = t ∧ j = i := by
    intro j u hu
    by_cases hj : j = i
    · subst hj
      simpa [Function.update_self] using hu
    · rw [Function.update_of_ne hj] at hu
      exact .inl hu
  refine { h with place := h.place, waiting := ?_, waiters_nodup := ?_, waiters_once := ?_ }
  · intro j u hu
    rcases hmem j u hu with hu | ⟨rfl, -⟩
    · exact h.waiting j u hu
    · exact ht
  · intro j
    by_cases hj : j = i
    · subst hj
      simp only [Function.update_self]
      simpa using (h.waiters_nodup j).concat (hwait j)
    · simp only [Function.update_of_ne hj]
      exact h.waiters_nodup j
  · intro j k u hj hk
    rcases hmem j u hj with hj' | ⟨hut, hji⟩ <;> rcases hmem k u hk with hk' | ⟨hut', hki⟩
    · exact h.waiters_once j k u hj' hk'
    · exact absurd (hut' ▸ hj') (hwait j)
    · exact absurd (hut ▸ hk') (hwait k)
    · rw [hji, hki]

/-- The first waiter of a semaphore is taken off, and is then on no list. -/
theorem Law.popWaiter {t : TaskAddr} {rest : List TaskAddr} {i : SemaId} (h : Law cur wake r)
    (hw : r.waiters i = t :: rest) :
    Law cur wake { r with waiters := Function.update r.waiters i rest } ∧ r.Blocked t ∧
      ∀ j, t ∉ Function.update r.waiters i rest j := by
  have hmem : ∀ j u, u ∈ Function.update r.waiters i rest j → u ∈ r.waiters j := by
    intro j u hu
    by_cases hj : j = i
    · subst hj
      rw [Function.update_self] at hu
      rw [hw]
      exact List.mem_cons_of_mem t hu
    · rwa [Function.update_of_ne hj] at hu
  have hnodup := h.waiters_nodup i
  rw [hw, List.nodup_cons] at hnodup
  have htop : t ∈ r.waiters i := by simp [hw]
  refine ⟨?_, h.waiting i t htop, ?_⟩
  · refine { h with place := h.place, waiting := ?_, waiters_nodup := ?_, waiters_once := ?_ }
    · exact fun j u hu => h.waiting j u (hmem j u hu)
    · intro j
      by_cases hj : j = i
      · subst hj
        simp only [Function.update_self]
        exact hnodup.2
      · simp only [Function.update_of_ne hj]
        exact h.waiters_nodup j
    · exact fun j k u hj hk => h.waiters_once j k u (hmem j u hj) (hmem k u hk)
  · intro j hj
    by_cases hji : j = i
    · subst hji
      rw [Function.update_self] at hj
      exact hnodup.1 hj
    · rw [Function.update_of_ne hji] at hj
      exact hji (h.waiters_once j i t hj htop)

/-- `task_start`: a task that was nowhere is live and ready. -/
theorem Law.born {t : TaskAddr} (h : Law cur wake r) (hall : t ∉ r.all) (hpool : t ∉ r.pool) :
    Law cur wake ({ r with
      ready := r.ready ++ [t]
      all := r.all ++ [t]
      nums := r.nums + 1 }.withStatus t .ready) := by
  have hzero := h.place t
  rw [if_neg hall] at hzero
  simp only [tokens] at hzero
  have hne : ∀ i, ∀ u ∈ r.waiters i, u ≠ t := by
    rintro i u hu rfl
    exact hall (h.waiting i u hu).1
  have hiff : ∀ u, u ≠ t → (({ r with
      ready := r.ready ++ [t]
      all := r.all ++ [t]
      nums := r.nums + 1 }.withStatus t .ready).Blocked u ↔ r.Blocked u) := by
    intro u hu
    simp [Blocked, withStatus, hu]
  constructor
  case place =>
    intro u
    by_cases hu : u = t
    · subst hu
      simp only [tokens, blocked_withStatus_self, not_suspended_ready, and_false, if_false]
      simp only [withStatus, List.count_append, List.count_singleton_self, List.mem_append,
        List.mem_singleton, or_true, if_true]
      omega
    · have hcount : [t].count u = 0 := List.count_eq_zero.mpr (by simpa using hu)
      have hmem : u ∈ r.all ++ [t] ↔ u ∈ r.all := by simp [hu]
      have hold := h.place u
      simp only [tokens, hiff u hu] at hold ⊢
      simp only [withStatus, List.count_append, hcount, Nat.add_zero, hmem]
      exact hold
  case waiting =>
    intro i u hu
    exact (hiff u (hne i u hu)).mpr (h.waiting i u hu)
  case waiters_nodup => exact h.waiters_nodup
  case waiters_once => exact h.waiters_once
  case all_nodup => simpa [withStatus] using h.all_nodup.concat hall
  case nums_eq =>
    simp only [withStatus, List.length_append, List.length_singleton, h.nums_eq]
    push_cast
    rfl
  case pool_nodup => exact h.pool_nodup
  case pool_died =>
    intro u hu
    have hu' : u ≠ t := by
      rintro rfl
      exact hpool hu
    obtain ⟨hdied, hnot⟩ := h.pool_died u hu
    simp only [withStatus, Function.update_of_ne hu', hdied, true_and]
    simp [hu', hnot]

/-- `task_exit` of the running task. -/
theorem Law.exit {c : TaskAddr} (h : Law (some c) wake r) (main : TaskAddr) :
    Law none wake ({ r with
      ready := r.ready.erase c
      all := r.all.erase c
      nums := r.nums - 1
      pool := r.pool ++ if c = main then [] else [c] }.withStatus c .died) := by
  obtain ⟨hready, hblocked, hwake⟩ := h.cur_alone
  rw [List.erase_of_not_mem hready]
  have hmem : ∀ u, u ∈ r.all.erase c ↔ u ≠ c ∧ u ∈ r.all := fun u => h.all_nodup.mem_erase_iff
  have hne : ∀ i, ∀ u ∈ r.waiters i, u ≠ c := by
    rintro i u hu rfl
    exact h.not_waiter hblocked i hu
  have hiff : ∀ u, u ≠ c → (({ r with
      ready := r.ready
      all := r.all.erase c
      nums := r.nums - 1
      pool := r.pool ++ if c = main then [] else [c] }.withStatus c .died).Blocked u ↔
        r.Blocked u) := by
    intro u hu
    simp [Blocked, withStatus, hu, hmem]
  constructor
  case place =>
    intro u
    by_cases hu : u = c
    · subst hu
      simp only [tokens, blocked_withStatus_self]
      simp only [withStatus, hmem, ne_eq, not_true_eq_false, false_and, if_false, hwake,
        List.count_eq_zero.mpr hready]
      simp
    · have hold := h.place u
      simp only [tokens, hiff u hu] at hold ⊢
      simp only [withStatus, hmem, ne_eq, hu, not_false_eq_true, true_and]
      rw [← hold]
      simp [Ne.symm hu]
  case waiting =>
    intro i u hu
    exact (hiff u (hne i u hu)).mpr (h.waiting i u hu)
  case waiters_nodup => exact h.waiters_nodup
  case waiters_once => exact h.waiters_once
  case all_nodup => exact h.all_nodup.erase c
  case nums_eq =>
    have hlen := List.length_erase_of_mem h.cur_mem
    have hpos := List.length_pos_of_mem h.cur_mem
    simp only [withStatus, h.nums_eq, hlen]
    omega
  case pool_nodup =>
    simp only [withStatus]
    split_ifs
    · simpa using h.pool_nodup
    · simpa using h.pool_nodup.concat fun hc => (h.pool_died c hc).2 h.cur_mem
  case pool_died =>
    intro u hu
    simp only [withStatus] at hu ⊢
    by_cases huc : u = c
    · subst huc
      simp [hmem]
    · have hu' : u ∈ r.pool := by
        rcases List.mem_append.mp hu with hu' | hu'
        · exact hu'
        · split_ifs at hu'
          · cases hu'
          · exact absurd (List.mem_singleton.mp hu') huc
      obtain ⟨hdied, hnot⟩ := h.pool_died u hu'
      rw [Function.update_of_ne huc]
      exact ⟨hdied, fun hm => hnot ((hmem u).mp hm).2⟩

end Roster
end Libtask
