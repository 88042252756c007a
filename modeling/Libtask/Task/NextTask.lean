import Libtask.Task.Scheduler

/-!
# `get_next_task_011` of `task/task.c`

One pass over all tasks ages those that cannot run and picks among those that
can. The pick is the first maximum of the list, whatever the counters are. The
aged counter is a sum of two bytes stored in one byte, so it is exact for all
tasks if and only if no such sum reaches 256.
-/
namespace Libtask.Sched

variable {κ : Type}

/-- The test before the aging, for a waiting, blocked, hanging or sleeping task. -/
def Ages (p : TaskStruct κ) : Prop := p.status.Suspended ∨ p.isCollaborativeSchedule = true

instance (p : TaskStruct κ) : Decidable (Ages p) := by
  unfold Ages
  infer_instance

/-- The loop, with `c` and with the value of `next_task` once it has one. -/
def nextTask011Loop (s : Sched κ) (c : ℤ) (nextTask : Option TaskAddr) :
    List TaskAddr → Sched κ × Option TaskAddr
  | [] => (s, nextTask)
  | task :: rest =>
    let s := if Ages (s.task task) then
      s.setTask task fun p => { p with ticks := p.ticks / 2 + p.priority } else s
    if (s.task task).status = .ready ∧ c < (s.task task).ticks.toNat then
      nextTask011Loop s (s.task task).ticks.toNat (some task) rest
    else nextTask011Loop s c nextTask rest

/-- `get_next_task_011`, without a result when `next_task` was never set. -/
def getNextTask011 (s : Sched κ) : Option (Sched κ × TaskAddr) :=
  match s.nextTask011Loop (-1) none s.taskAllList with
  | (_, none) => none
  | (s, some nextTask) =>
    let s := { s with taskReadyList := s.taskReadyList.erase nextTask }
    some (s.setStatus nextTask .running, nextTask)

/-- What the pass leaves of one task. -/
def age (p : TaskStruct κ) : TaskStruct κ :=
  if Ages p then { p with ticks := p.ticks / 2 + p.priority } else p

/-- What the pass leaves of the tasks of `l`. -/
def ageAll (s : Sched κ) (l : List TaskAddr) : Sched κ :=
  { s with task := fun t => if t ∈ l then age (s.task t) else s.task t }

lemma age_status (p : TaskStruct κ) : (age p).status = p.status := by
  unfold age
  split <;> rfl

lemma age_of_ages {p : TaskStruct κ} (h : Ages p) :
    (age p).ticks.toNat = (p.ticks.toNat / 2 + p.priority.toNat) % 256 := by
  rw [age, if_pos h, UInt8.toNat_add, UInt8.toNat_div]
  rfl

lemma age_of_not_ages {p : TaskStruct κ} (h : ¬ Ages p) : age p = p := if_neg h

lemma ageAll_task_of_mem (s : Sched κ) {l : List TaskAddr} {t : TaskAddr} (h : t ∈ l) :
    (s.ageAll l).task t = age (s.task t) := if_pos h

lemma ageAll_task_of_not_mem (s : Sched κ) {l : List TaskAddr} {t : TaskAddr} (h : t ∉ l) :
    (s.ageAll l).task t = s.task t := if_neg h

/-- Nothing but `ticks` is written. -/
lemma ageAll_task (s : Sched κ) (l : List TaskAddr) (t : TaskAddr) :
    ∃ ticks, (s.ageAll l).task t = { s.task t with ticks := ticks } := by
  by_cases h : t ∈ l ∧ Ages (s.task t)
  · exact ⟨_, by rw [ageAll_task_of_mem s h.1, age, if_pos h.2]⟩
  · refine ⟨(s.task t).ticks, ?_⟩
    by_cases hmem : t ∈ l
    · rw [ageAll_task_of_mem s hmem, age_of_not_ages fun hages => h ⟨hmem, hages⟩]
    · rw [ageAll_task_of_not_mem s hmem]

lemma ageAll_nil (s : Sched κ) : s.ageAll [] = s := by simp [ageAll]

/-- The first task of the list is aged first. -/
lemma ageAll_cons (s : Sched κ) {t : TaskAddr} {rest : List TaskAddr} (h : t ∉ rest) :
    (s.setTask t age).ageAll rest = s.ageAll (t :: rest) := by
  unfold ageAll setTask
  congr 1
  ext u
  by_cases hut : u = t
  · subst hut
    simp [h]
  · simp [hut]

lemma setTask_age (s : Sched κ) (t : TaskAddr) :
    (if Ages (s.task t) then
      s.setTask t fun p => { p with ticks := p.ticks / 2 + p.priority } else s) =
      s.setTask t age := by
  by_cases h : Ages (s.task t)
  · simp only [if_pos h, setTask, age]
  · simp only [if_neg h, setTask, age, Function.update_eq_self]

/-- The list is scanned for the first task of largest `f`, from the best one so
far on. -/
lemma nextTask011Loop_eq (f : TaskAddr → ℕ) {l : List TaskAddr} (hnodup : l.Nodup) (s : Sched κ)
    (nextTask : Option TaskAddr) (hf : ∀ t ∈ l, (age (s.task t)).ticks.toNat = f t) :
    s.nextTask011Loop (nextTask.elim (-1) fun t => f t) nextTask l =
      (s.ageAll l, (l.filter fun t => (s.task t).status = .ready).foldl
        (List.argAux fun b c => f c < f b) nextTask) := by
  induction l generalizing s nextTask with
  | nil => simp [nextTask011Loop, ageAll_nil]
  | cons t rest ih =>
    obtain ⟨hnot, hrest⟩ := List.nodup_cons.mp hnodup
    have hkept : ∀ u ∈ rest, (s.setTask t age).task u = s.task u := by
      intro u hu
      exact setTask_task_of_ne s age fun hut => hnot (hut ▸ hu)
    have hself : (s.setTask t age).task t = age (s.task t) := setTask_task_self s t age
    have hfilter : (rest.filter fun u => ((s.setTask t age).task u).status = .ready) =
        rest.filter fun u => (s.task u).status = .ready := by
      apply List.filter_congr
      intro u hu
      rw [hkept u hu]
    have hf' : ∀ u ∈ rest, (age ((s.setTask t age).task u)).ticks.toNat = f u := by
      intro u hu
      rw [hkept u hu]
      exact hf u (List.mem_cons_of_mem t hu)
    have hih := fun best => ih hrest (s.setTask t age) best hf'
    rw [hfilter, ageAll_cons s hnot] at hih
    have hft : (age (s.task t)).ticks.toNat = f t := hf t List.mem_cons_self
    simp only [nextTask011Loop, setTask_age, hself, age_status, hft]
    by_cases hready : (s.task t).status = .ready
    · -- the strict comparison keeps the earlier of two equal tasks
      rw [List.filter_cons_of_pos (by simpa using hready), List.foldl_cons]
      cases nextTask with
      | none =>
        rw [if_pos ⟨hready, by simp only [Option.elim_none]; omega⟩]
        exact hih (some t)
      | some best =>
        by_cases hlt : f best < f t
        · rw [if_pos ⟨hready, by simpa using hlt⟩]
          simpa [List.argAux, hlt] using hih (some t)
        · rw [if_neg (by simpa [hready] using hlt)]
          simpa [List.argAux, hlt] using hih (some best)
    · rw [if_neg fun h => hready h.1, List.filter_cons_of_neg (by simpa using hready)]
      exact hih nextTask

/-- `task_ready_list` holds exactly the tasks of status `TASK_READY`, and there
is one. No task is linked twice. -/
structure ReadyListed (s : Sched κ) : Prop where
  all_nodup : s.taskAllList.Nodup
  ready_nodup : s.taskReadyList.Nodup
  mem_ready : ∀ t, t ∈ s.taskReadyList ↔ t ∈ s.taskAllList ∧ (s.task t).status = .ready
  exists_ready : ∃ t ∈ s.taskAllList, (s.task t).status = .ready

/-- The task `next` was picked between `s` and `s'`, and the others were aged. -/
structure Picked (s s' : Sched κ) (next : TaskAddr) : Prop where
  /-- The first in the order of `task_all_list` of the largest `ticks`, once aged. -/
  first : next ∈ (s.taskAllList.filter fun t => (s.task t).status = .ready).argmax
    fun t => (s'.task t).ticks.toNat
  running : (s'.task next).status = .running
  status : ∀ t, t ≠ next → (s'.task t).status = (s.task t).status
  removed : next ∈ s.taskReadyList ∧ s'.taskReadyList = s.taskReadyList.erase next
  aged : ∀ t ∈ s.taskAllList, Ages (s.task t) →
    (s'.task t).ticks.toNat = (s.task t).ticks.toNat / 2 + (s.task t).priority.toNat
  priority_le : ∀ t ∈ s.taskAllList, Ages (s.task t) → (s.task t).priority ≤ (s'.task t).ticks
  kept : ∀ t, ¬ (t ∈ s.taskAllList ∧ Ages (s.task t)) → (s'.task t).ticks = (s.task t).ticks
  frameTask : ∀ t, { s'.task t with status := (s.task t).status, ticks := (s.task t).ticks } =
    s.task t
  frame : { s' with task := s.task, taskReadyList := s.taskReadyList } = s

/-- The state that the pick of `next` leaves. -/
def pickState (s : Sched κ) (next : TaskAddr) : Sched κ :=
  ({ s.ageAll s.taskAllList with taskReadyList := s.taskReadyList.erase next } : Sched κ).setStatus
    next .running

lemma pickState_task_self (s : Sched κ) (next : TaskAddr) :
    (s.pickState next).task next =
      { (s.ageAll s.taskAllList).task next with status := .running } := by
  unfold pickState setStatus
  rw [setTask_task_self]

lemma pickState_task_of_ne (s : Sched κ) {next t : TaskAddr} (h : t ≠ next) :
    (s.pickState next).task t = (s.ageAll s.taskAllList).task t := by
  rw [pickState, setStatus_task_of_ne _ _ h]

lemma pickState_ticks (s : Sched κ) (next t : TaskAddr) :
    ((s.pickState next).task t).ticks = ((s.ageAll s.taskAllList).task t).ticks := by
  by_cases h : t = next
  · subst h
    rw [pickState_task_self]
  · rw [pickState_task_of_ne s h]

/-- A ready task is there, so the loop ends with the first largest one. -/
lemma getNextTask011_eq {s : Sched κ} (h : s.ReadyListed) :
    ∃ next, next ∈ (s.taskAllList.filter fun t => (s.task t).status = .ready).argmax
        (fun t => ((s.pickState next).task t).ticks.toNat) ∧
      s.getNextTask011 = some (s.pickState next, next) := by
  let f : TaskAddr → ℕ := fun t => ((s.ageAll s.taskAllList).task t).ticks.toNat
  have hloop := nextTask011Loop_eq f h.all_nodup s none
    fun t ht => by simp only [f, ageAll_task_of_mem s ht]
  have hsome : ((s.taskAllList.filter fun t => (s.task t).status = .ready).argmax f).isSome := by
    rw [← Option.ne_none_iff_isSome, ne_eq, List.argmax_eq_none, List.filter_eq_nil_iff]
    obtain ⟨t, hall, hready⟩ := h.exists_ready
    intro hnone
    exact hnone t hall (by simpa using hready)
  obtain ⟨next, hnext⟩ := Option.isSome_iff_exists.mp hsome
  refine ⟨next, ?_, ?_⟩
  · simp only [pickState_ticks]
    exact hnext
  · have hbest : ((s.taskAllList.filter fun t => (s.task t).status = .ready).foldl
        (List.argAux fun b c => f c < f b) none) = some next := hnext
    rw [hbest] at hloop
    simp only [getNextTask011]
    rw [show (-1 : ℤ) = (none : Option TaskAddr).elim (-1) fun t => (f t : ℤ) from rfl, hloop]
    rfl

/-- All of `Picked` but the exactness of the aging. -/
lemma picked_of_exact {s : Sched κ} (h : s.ReadyListed) {next : TaskAddr}
    (hfirst : next ∈ (s.taskAllList.filter fun t => (s.task t).status = .ready).argmax
      fun t => ((s.pickState next).task t).ticks.toNat)
    (hexact : ∀ t ∈ s.taskAllList, Ages (s.task t) →
      (s.task t).ticks.toNat / 2 + (s.task t).priority.toNat < 256) :
    Picked s (s.pickState next) next := by
  have hmem := List.mem_filter.mp (List.argmax_mem hfirst)
  have haged : ∀ t ∈ s.taskAllList, Ages (s.task t) → ((s.pickState next).task t).ticks.toNat =
      (s.task t).ticks.toNat / 2 + (s.task t).priority.toNat := by
    intro t ht hages
    rw [pickState_ticks, ageAll_task_of_mem s ht, age_of_ages hages,
      Nat.mod_eq_of_lt (hexact t ht hages)]
  constructor
  case first => exact hfirst
  case running => exact setStatus_status_self ..
  case status =>
    intro t ht
    obtain ⟨ticks, hage⟩ := ageAll_task s s.taskAllList t
    rw [pickState_task_of_ne s ht, hage]
  case removed => exact ⟨(h.mem_ready next).mpr ⟨hmem.1, by simpa using hmem.2⟩, rfl⟩
  case aged => exact haged
  case priority_le =>
    intro t ht hages
    have hticks := haged t ht hages
    rw [UInt8.le_iff_toNat_le]
    omega
  case kept =>
    intro t ht
    rw [pickState_ticks]
    by_cases hall : t ∈ s.taskAllList
    · rw [ageAll_task_of_mem s hall, age_of_not_ages fun hages => ht ⟨hall, hages⟩]
    · rw [ageAll_task_of_not_mem s hall]
  case frameTask =>
    intro t
    obtain ⟨ticks, hage⟩ := ageAll_task s s.taskAllList t
    by_cases ht : t = next
    · subst ht
      rw [pickState_task_self, hage]
    · rw [pickState_task_of_ne s ht, hage]
  case frame => rfl

/-- The pick is right in all respects if and only if no sum of the aging reaches
256. -/
theorem getNextTask011_picked_iff {s : Sched κ} (h : s.ReadyListed) :
    (∃ s' next, s.getNextTask011 = some (s', next) ∧ Picked s s' next) ↔
      ∀ t ∈ s.taskAllList, Ages (s.task t) →
        (s.task t).ticks.toNat / 2 + (s.task t).priority.toNat < 256 := by
  constructor
  · rintro ⟨s', next, hpick, hpicked⟩ t ht hages
    rw [← hpicked.aged t ht hages]
    exact (s'.task t).ticks.toNat_lt
  · intro hexact
    obtain ⟨next, hfirst, heq⟩ := getNextTask011_eq h
    exact ⟨_, next, heq, picked_of_exact h hfirst hexact⟩

/-- A small priority, and `ticks` that aging from 0 on does not exceed. -/
def Modest (p : TaskStruct κ) : Prop :=
  p.priority.toNat < 128 ∧ p.ticks.toNat ≤ 2 * p.priority.toNat

/-- Below priority 128 the aging stays exact from one pick to the next. -/
theorem getNextTask011_modest {s : Sched κ} (h : s.ReadyListed)
    (hmodest : ∀ t ∈ s.taskAllList, Modest (s.task t)) :
    ∃ s' next, s.getNextTask011 = some (s', next) ∧ Picked s s' next ∧
      ∀ t ∈ s'.taskAllList, Modest (s'.task t) := by
  have hexact : ∀ t ∈ s.taskAllList, Ages (s.task t) →
      (s.task t).ticks.toNat / 2 + (s.task t).priority.toNat < 256 := by
    intro t ht _
    obtain ⟨hpriority, hticks⟩ := hmodest t ht
    omega
  obtain ⟨next, hfirst, heq⟩ := getNextTask011_eq h
  have hpicked := picked_of_exact h hfirst hexact
  refine ⟨_, next, heq, hpicked, ?_⟩
  intro t (ht : t ∈ s.taskAllList)
  have hpriority : ((s.pickState next).task t).priority = (s.task t).priority := by
    have hframe := congrArg TaskStruct.priority (hpicked.frameTask t)
    exact hframe
  obtain ⟨hlt, hle⟩ := hmodest t ht
  unfold Modest
  rw [hpriority]
  by_cases hages : Ages (s.task t)
  · have hticks := hpicked.aged t ht hages
    exact ⟨hlt, by omega⟩
  · rw [hpicked.kept t fun hboth => hages hboth.2]
    exact ⟨hlt, hle⟩

/-- One task blocked on a semaphore and one that is ready. -/
def blockedAndReady (priority : UInt8) : Sched Unit :=
  { (boot fun _ => 0 : Sched Unit) with
    task := fun t => { (TaskStruct.zero : TaskStruct Unit) with
      status := if t = 1 then .blocked else .ready
      priority := priority
      ticks := priority }
    taskReadyList := [2]
    taskAllList := [1, 2] }

lemma readyListed_blockedAndReady (priority : UInt8) : (blockedAndReady priority).ReadyListed := by
  constructor
  case all_nodup => exact (by decide : [1, 2].Nodup)
  case ready_nodup => exact List.nodup_singleton 2
  case mem_ready =>
    intro t
    simp only [blockedAndReady, List.mem_cons, List.not_mem_nil, or_false]
    split
    · next h => simp [h]
    · next h => simp [h]
  case exists_ready => exact ⟨2, List.mem_cons_of_mem 1 List.mem_cons_self, rfl⟩

theorem getNextTask011_picked_thirtyOne :
    ∃ s' next, (blockedAndReady 31).getNextTask011 = some (s', next) ∧
      Picked (blockedAndReady 31) s' next :=
  (getNextTask011_picked_iff (readyListed_blockedAndReady 31)).mpr (by
    intro t ht _
    exact (by decide : (31 : UInt8).toNat / 2 + (31 : UInt8).toNat < 256))

/-- A blocked task of priority 200 is left with 44 ticks. -/
theorem not_getNextTask011_picked : ¬ ∀ s : Sched Unit, s.ReadyListed →
    ∃ s' next, s.getNextTask011 = some (s', next) ∧ Picked s s' next := by
  intro hall
  obtain ⟨s', next, -, hpicked⟩ := hall (blockedAndReady 200) (readyListed_blockedAndReady 200)
  have haged : (s'.task 1).ticks.toNat = (200 : UInt8).toNat / 2 + (200 : UInt8).toNat :=
    hpicked.aged 1 List.mem_cons_self (.inl (.inl rfl))
  have hlt := (s'.task 1).ticks.toNat_lt
  rw [haged] at hlt
  exact absurd hlt (by decide)

end Libtask.Sched
