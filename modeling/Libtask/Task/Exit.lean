import Libtask.Task.Pool

/-!
# The end of a task

`task_exit` takes any task, unlinks it from the ready list and from the list of
all tasks, and leaves through a dispatch that saves nothing for its caller.
-/
namespace Libtask.Conservation
open Transition Timer Sched

/-- The state in which the next task goes on. -/
lemma taskExit_next {s sched : Sched Resume} {t : TaskAddr} {pc : Resume}
    (hfree : s.LockFree .tid) (h : s.taskExit t = .ok (sched, pc)) :
    ∃ next rest b', s.taskReadyList.erase t = next :: rest ∧
      sched = { s.exitState t with
        tidBitmap := b'
        task := Function.update (s.exitState t).task next
          { (s.exitState t).task next with status := .running }
        taskReadyList := rest
        taskTag := next
        currentTask := next } := by
  obtain ⟨b', hd⟩ := taskExit_ok hfree h
  rw [diedTaskSchedule_eq] at hd
  have hready : (s.exitState t).taskReadyList = s.taskReadyList.erase t := rfl
  cases herase : s.taskReadyList.erase t with
  | nil =>
    simp only [hready, herase] at hd
    cases hd
  | cons next rest =>
    simp only [hready, herase] at hd
    obtain ⟨rfl, -⟩ := Prod.mk.inj (Except.ok.inj hd)
    exact ⟨next, rest, b', rfl, rfl⟩

/-- The tid of a task that has exited has a bit. -/
lemma lt_size_of_taskExit {κ : Type} {s : Sched κ} {t : TaskAddr} {r : Sched κ × κ}
    (hfree : s.LockFree .tid) (h : s.taskExit t = .ok r) :
    (s.bitIdxOf (s.task t).tid).toNat < s.tidBitmap.size := by
  rw [taskExit_eq, bind_eq_ok] at h
  obtain ⟨m, hrel, -⟩ := h
  have hfree' : (s.exitState t).LockFree .tid := hfree
  simp only [releaseTid, lockAcquire_of_free hfree', bind_eq_ok] at hrel
  obtain ⟨m', hm, b, hset, -⟩ := hrel
  obtain rfl := Except.ok.inj hm
  exact Bitmap.lt_size_of_bitmapSet hset

end Libtask.Conservation
