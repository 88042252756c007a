import Libtask.Task.Places

/-!
# The pool of dead tasks

`task_exit` hands its task to the pool, `task_start` is meant to take it from
there again and `clean_dead_task` to free what has been there for long. The
assertion of the one and the loop condition of the other say the opposite of
what they are for.
-/
namespace Libtask.Conservation
open Transition Timer Sched

/-- How many tasks `clean_dead_task` is meant to free. -/
def quota {κ : Type} (s : Sched κ) : ℕ :=
  min s.taskPoolList.length (min 16 (s.taskAllNums / 8).toNat)

/-- `clean_dead_task` returns, the oldest tasks of the pool are freed with their
stacks, and the rest is as before. -/
def CleansQuota {κ : Type} (s : Sched κ) : Prop :=
  ∃ s', s.cleanDeadTask = .ok s' ∧ s' = { (s.taskPoolList.take (quota s)).foldl freeTask s with
    taskPoolList := s.taskPoolList.drop (quota s)
    taskTag := s'.taskTag }

/-- With a quota the loop is not entered, and without one it takes a task. -/
lemma cleanDeadTask_pool {κ : Type} {s s' : Sched κ} {t : TaskAddr} {rest : List TaskAddr}
    (hpool : s.taskPoolList = t :: rest) (hnums : 0 ≤ s.taskAllNums)
    (h : s.cleanDeadTask = .ok s') :
    (s.taskAllNums / 8 ≠ 0 ∧ s'.taskPoolList = t :: rest) ∨
      (s.taskAllNums / 8 = 0 ∧ s'.taskPoolList = rest) := by
  have hdiv : s.taskAllNums.tdiv 8 = s.taskAllNums / 8 := Int.tdiv_eq_ediv_of_nonneg hnums
  rw [cleanDeadTask, if_neg (by simp [hpool]), hdiv] at h
  by_cases hzero : s.taskAllNums / 8 = 0
  · right
    refine ⟨hzero, ?_⟩
    cases rest with
    | nil => simp [hzero, hpool, cleanLoop, freeTask] at h
    | cons u rest =>
      simp [hzero, hpool, cleanLoop, freeTask] at h
      rw [← h]
  · left
    refine ⟨hzero, ?_⟩
    have hcnt : (if s.taskAllNums / 8 > 16 then 16 else s.taskAllNums / 8) ≠ 0 := by
      split_ifs <;> omega
    rw [cleanLoop, if_neg (by simp [hpool, hcnt])] at h
    obtain rfl := Except.ok.inj h
    exact hpool

/-- The quota is met exactly when there is nothing to free. -/
theorem cleansQuota_iff {κ : Type} {s : Sched κ} (hnums : 0 ≤ s.taskAllNums) :
    CleansQuota s ↔ s.taskPoolList = [] := by
  constructor
  · rintro ⟨s', hclean, hs'⟩
    cases hpool : s.taskPoolList with
    | nil => rfl
    | cons t rest =>
      have hlist : s'.taskPoolList = s.taskPoolList.drop (quota s) := by rw [hs']
      have hlen := congrArg List.length hlist
      rw [List.length_drop] at hlen
      have hq : quota s = min s.taskPoolList.length (min 16 (s.taskAllNums / 8).toNat) := rfl
      simp only [hpool, List.length_cons] at hlen hq
      rcases cleanDeadTask_pool hpool hnums hclean with ⟨hne, hsame⟩ | ⟨hzero, hrest⟩
      · rw [hsame, List.length_cons] at hlen
        omega
      · rw [hrest] at hlen
        omega
  · intro hpool
    refine ⟨s, by rw [cleanDeadTask, if_pos hpool], ?_⟩
    simp only [hpool, List.take_nil, List.foldl_nil, List.drop_nil]
    rw [← hpool]

/-- Two dead tasks and a quota of two: nothing is freed. An empty pool stays empty. -/
theorem cleansQuota_dead : let s : Sched Unit := { (boot fun _ => 0 : Sched Unit) with
      taskAllList := [1, 4]
      taskAllNums := 16 }
    ¬ CleansQuota { s with taskPoolList := [3, 5] } ∧ CleansQuota s := by
  intro s
  have hdead := cleansQuota_iff (s := { s with taskPoolList := [3, 5] }) (by decide)
  have hempty := cleansQuota_iff (s := s) (by decide)
  exact ⟨mt hdead.mp (List.cons_ne_nil 3 [5]), hempty.mpr rfl⟩

/-- Eight tasks are alive and one is dead: nothing is freed. -/
theorem not_cleansQuota : ¬ ∀ s : Sched Unit, 0 ≤ s.taskAllNums → CleansQuota s := by
  intro hall
  let s : Sched Unit := { (boot fun _ => 0 : Sched Unit) with
    taskPoolList := [3]
    taskAllNums := 8 }
  obtain ⟨s', hclean, hs'⟩ := hall s (by decide)
  obtain rfl : s = s' := Except.ok.inj hclean
  have hlist : s.taskPoolList = s.taskPoolList.drop (quota s) := congrArg Sched.taskPoolList hs'
  exact absurd hlist (by decide)

end Libtask.Conservation
