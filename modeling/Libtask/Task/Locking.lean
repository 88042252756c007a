import Libtask.Task.Struct
import Libtask.Transition

/-!
# One lock and any number of tasks

`lock_acquire` and `lock_release` statement by statement, with a preemption
possible between any two statements. The masked regions of `sema_down` and
`sema_up` are one step each; a `sema_down` that has to wait ends its step in
`task_block` and tests again when it is resumed. Which task runs next is left
open, so there is no ready list here.
-/
namespace Libtask.Locking
open Transition

/-- The next statement of a task. -/
inductive Pc
  /-- outside both functions -/
  | user
  /-- `if(plock->holder != current_task)` -/
  | acquireTest
  /-- the region of `sema_down`, entered or resumed -/
  | semaDown
  /-- suspended in `task_block`, with status BLOCKED -/
  | waiting
  /-- `plock->holder = current_task` -/
  | setHolder
  /-- `assert(plock->holder_repeat_nr == 0)` -/
  | assertZero
  /-- `plock->holder_repeat_nr = 1` -/
  | setRepeatNr
  /-- `plock->holder_repeat_nr++`, which loads and then stores -/
  | incLoad
  | incStore (loaded : UInt32)
  /-- `assert(plock->holder == current_task)` -/
  | assertHolder
  /-- `if(plock->holder_repeat_nr > 1)` -/
  | releaseTest
  /-- `plock->holder_repeat_nr--`, which loads and then stores -/
  | decLoad
  | decStore (loaded : UInt32)
  /-- `assert(plock->holder_repeat_nr == 1)` -/
  | assertOne
  /-- `plock->holder = NULL` -/
  | clearHolder
  /-- `plock->holder_repeat_nr = 0` -/
  | clearRepeatNr
  /-- the region of `sema_up` -/
  | semaUp
  /-- an assertion has failed -/
  | stopped
  deriving DecidableEq, Repr

/-- A task: its next statement, and how often it has completed `lock_acquire`,
begun `lock_release`, completed `sema_down` and completed `sema_up`. -/
structure Local where
  pc : Pc
  acquires : ℕ
  releases : ℕ
  downs : ℕ
  ups : ℕ
  deriving DecidableEq, Repr

/-- Completed acquires less begun releases. -/
def Local.nesting (l : Local) : ℤ := l.acquires - l.releases

/-- The task took the unit of the semaphore and has not given it back. -/
def Local.Owns (l : Local) : Prop := l.ups < l.downs

structure LockRun where
  lock : Lock
  semaphore : Semaphore
  task : TaskAddr → Local

def LockRun.set (s : LockRun) (t : TaskAddr) (l : Local) : LockRun :=
  { s with task := Function.update s.task t l }

/-- Task `t` goes on at `pc`. -/
def LockRun.goto (s : LockRun) (t : TaskAddr) (pc : Pc) : LockRun :=
  s.set t { s.task t with pc := pc }

/-- `assert(c)` before `pc`. -/
def LockRun.check (s : LockRun) (t : TaskAddr) (c : Prop) [Decidable c] (pc : Pc) : LockRun :=
  s.goto t (if c then pc else .stopped)

/-- The region of `sema_down`, from `interrupt_disable` or the return of
`task_block` to `interrupt_enable` or the next `task_block`. -/
def LockRun.semaDown (s : LockRun) (t : TaskAddr) : LockRun :=
  if s.semaphore.value = 0 then
    if t ∈ s.semaphore.waiters then s.goto t .stopped
    else { s with semaphore := { s.semaphore with
      waiters := s.semaphore.waiters ++ [t] } }.goto t .waiting
  else
    let s := { s with semaphore := { s.semaphore with value := s.semaphore.value - 1 } }
    if s.semaphore.value = 0 then
      s.set t { s.task t with pc := .setHolder, downs := (s.task t).downs + 1 }
    else s.goto t .stopped

/-- `task_unblock`, `none` when its assertion on the status fails. A task that
was unblocked tests the value again when it is resumed. -/
def LockRun.taskUnblock (s : LockRun) (ptask : TaskAddr) : Option LockRun :=
  if (s.task ptask).pc = .waiting then some (s.goto ptask .semaDown) else none

/-- The end of the region of `sema_up`. -/
def LockRun.semaGive (s : LockRun) (t : TaskAddr) : LockRun :=
  let s := { s with semaphore := { s.semaphore with value := s.semaphore.value + 1 } }
  if s.semaphore.value = 1 then
    s.set t { s.task t with pc := .user, ups := (s.task t).ups + 1 }
  else s.goto t .stopped

/-- The region of `sema_up`. -/
def LockRun.semaUp (s : LockRun) (t : TaskAddr) : LockRun :=
  if s.semaphore.value = 0 then
    match s.semaphore.waiters with
    | [] => s.semaGive t
    | threadBlocked :: rest =>
      let popped := { s with semaphore := { s.semaphore with waiters := rest } }
      match popped.taskUnblock threadBlocked with
      | none => popped.goto t .stopped
      | some s => s.semaGive t
  else s.goto t .stopped

/-- One statement of task `t`, which is `current_task`. -/
def LockRun.run (s : LockRun) (t : TaskAddr) : LockRun :=
  match (s.task t).pc with
  | .user | .waiting | .stopped => s
  | .acquireTest => s.goto t (if s.lock.holder ≠ some t then .semaDown else .incLoad)
  | .semaDown => s.semaDown t
  | .setHolder => { s with lock := { s.lock with holder := some t } }.goto t .assertZero
  | .assertZero => s.check t (s.lock.holderRepeatNr = 0) .setRepeatNr
  | .setRepeatNr => { s with lock := { s.lock with holderRepeatNr := 1 } }.set t
      { s.task t with pc := .user, acquires := (s.task t).acquires + 1 }
  | .incLoad => s.goto t (.incStore s.lock.holderRepeatNr)
  | .incStore n => { s with lock := { s.lock with holderRepeatNr := n + 1 } }.set t
      { s.task t with pc := .user, acquires := (s.task t).acquires + 1 }
  | .assertHolder => s.check t (s.lock.holder = some t) .releaseTest
  | .releaseTest => s.goto t (if s.lock.holderRepeatNr > 1 then .decLoad else .assertOne)
  | .decLoad => s.goto t (.decStore s.lock.holderRepeatNr)
  | .decStore n => { s with lock := { s.lock with holderRepeatNr := n - 1 } }.goto t .user
  | .assertOne => s.check t (s.lock.holderRepeatNr = 1) .clearHolder
  | .clearHolder => { s with lock := { s.lock with holder := none } }.goto t .clearRepeatNr
  | .clearRepeatNr => { s with lock := { s.lock with holderRepeatNr := 0 } }.goto t .semaUp
  | .semaUp => s.semaUp t

inductive Op
  | lockAcquire (t : TaskAddr)
  | lockRelease (t : TaskAddr)
  | run (t : TaskAddr)
  deriving DecidableEq, Repr

/-- A task calls one of the functions, releasing only what it holds, or runs
its next statement. -/
inductive Step (s : LockRun) : Op → LockRun → Prop
  | lockAcquire {t : TaskAddr} (h : (s.task t).pc = .user) :
      Step s (.lockAcquire t) (s.goto t .acquireTest)
  | lockRelease {t : TaskAddr} (h : (s.task t).pc = .user) (hholder : s.lock.holder = some t) :
      Step s (.lockRelease t) (s.set t { s.task t with
        pc := .assertHolder
        releases := (s.task t).releases + 1 })
  | run {t : TaskAddr} : Step s (.run t) (s.run t)

/-- After `lock_init`, with every task outside the two functions. -/
def lockStart : LockRun := ⟨lockInit.1, lockInit.2, fun _ => ⟨.user, 0, 0, 0, 0⟩⟩

def lockSystem : System LockRun Op where
  init s := s = lockStart
  step := Step

/-- What a lock is for. -/
structure LockSafe (s : LockRun) : Prop where
  exclusive : ∀ t u, 0 < (s.task t).nesting → 0 < (s.task u).nesting → t = u
  outside : ∀ t, 0 < (s.task t).nesting → (s.task t).pc = .user →
    s.lock.holder = some t ∧ (s.lock.holderRepeatNr.toNat : ℤ) = (s.task t).nesting
  value : s.semaphore.value = 0 ∨ s.semaphore.value = 1
  owned : s.semaphore.value = 0 ↔ ∃ t, (s.task t).Owns
  one_owner : ∀ t u, (s.task t).Owns → (s.task u).Owns → t = u
  asserts : ∀ t, (s.task t).pc ≠ .stopped

/-- No task acquires the lock when it has it `2 ^ 32 - 1` times already. -/
def Shallow (s : LockRun) : Op → Prop
  | .lockAcquire t => (s.task t).nesting < 2 ^ 32 - 1
  | _ => True

/-- A task without the unit is outside, or on its way to it. -/
structure Idle (l : Local) : Prop where
  pc : l.pc = .user ∨ l.pc = .acquireTest ∨ l.pc = .semaDown ∨ l.pc = .waiting
  nesting : l.acquires = l.releases
  owns : l.downs = l.ups

/-- The fields of the lock while `t` has the unit. They are written outside the
masked regions, so what they say depends on the statement `t` is at. -/
def Held (lock : Lock) (t : TaskAddr) (l : Local) : Prop :=
  let nr := (lock.holderRepeatNr.toNat : ℤ)
  match l.pc with
  | .setHolder => lock = ⟨none, 0⟩ ∧ l.nesting = 0
  | .assertZero | .setRepeatNr => lock = ⟨some t, 0⟩ ∧ l.nesting = 0
  | .user => lock.holder = some t ∧ nr = l.nesting ∧ 0 < nr
  | .acquireTest | .incLoad => lock.holder = some t ∧ nr = l.nesting ∧ 0 < nr ∧ nr < 2 ^ 32 - 1
  | .incStore n =>
    lock.holder = some t ∧ nr = l.nesting ∧ 0 < nr ∧ nr < 2 ^ 32 - 1 ∧ n = lock.holderRepeatNr
  | .assertHolder | .releaseTest => lock.holder = some t ∧ nr = l.nesting + 1 ∧ 0 < nr
  | .decLoad => lock.holder = some t ∧ nr = l.nesting + 1 ∧ 1 < nr
  | .decStore n => lock.holder = some t ∧ nr = l.nesting + 1 ∧ 1 < nr ∧ n = lock.holderRepeatNr
  | .assertOne | .clearHolder => lock = ⟨some t, 1⟩ ∧ l.nesting = 0
  | .clearRepeatNr => lock = ⟨none, 1⟩ ∧ l.nesting = 0
  | .semaUp => lock = ⟨none, 0⟩ ∧ l.nesting = 0
  | .semaDown | .waiting | .stopped => False

/-- Nobody has the unit. -/
structure Free (s : LockRun) : Prop where
  value : s.semaphore.value = 1
  lock : s.lock = ⟨none, 0⟩
  idle : ∀ u, Idle (s.task u)

/-- Task `t` has the unit. -/
structure Taken (s : LockRun) (t : TaskAddr) : Prop where
  value : s.semaphore.value = 0
  held : Held s.lock t (s.task t)
  owns : (s.task t).downs = (s.task t).ups + 1
  idle : ∀ u, u ≠ t → Idle (s.task u)

structure LockInv (s : LockRun) : Prop where
  unit : Free s ∨ ∃ t, Taken s t
  waiters_nodup : s.semaphore.waiters.Nodup
  waiting : ∀ u, u ∈ s.semaphore.waiters ↔ (s.task u).pc = .waiting

@[simp] lemma set_lock (s : LockRun) (t : TaskAddr) (l : Local) : (s.set t l).lock = s.lock := rfl

@[simp] lemma set_semaphore (s : LockRun) (t : TaskAddr) (l : Local) :
    (s.set t l).semaphore = s.semaphore := rfl

@[simp] lemma set_task_self (s : LockRun) (t : TaskAddr) (l : Local) : (s.set t l).task t = l :=
  Function.update_self ..

lemma set_task_of_ne (s : LockRun) {t u : TaskAddr} (l : Local) (h : u ≠ t) :
    (s.set t l).task u = s.task u := Function.update_of_ne h ..

/-- The holder is the owner of the unit, if it is anybody. -/
lemma Held.holder {lock : Lock} {t : TaskAddr} {l : Local} (h : Held lock t l) :
    lock.holder = none ∨ lock.holder = some t := by
  unfold Held at h
  cases hpc : l.pc <;> simp only [hpc] at h
  case setHolder | clearRepeatNr | semaUp =>
    rw [h.1]
    exact .inl rfl
  case assertZero | setRepeatNr | assertOne | clearHolder =>
    rw [h.1]
    exact .inr rfl
  all_goals exact .inr h.1

lemma Held.not_stopped {lock : Lock} {t : TaskAddr} {l : Local} (h : Held lock t l) :
    l.pc ≠ .stopped := by
  intro hpc
  unfold Held at h
  simp only [hpc] at h

lemma Idle.not_stopped {l : Local} (h : Idle l) : l.pc ≠ .stopped := by
  intro hpc
  have := h.pc
  simp [hpc] at this

lemma Idle.nesting_eq {l : Local} (h : Idle l) : l.nesting = 0 := by
  have := h.nesting
  simp only [Local.nesting]
  omega

lemma Idle.not_owns {l : Local} (h : Idle l) : ¬ l.Owns := by
  have := h.owns
  simp only [Local.Owns]
  omega

/-- The invariant says that the lock is safe. -/
theorem LockInv.lockSafe {s : LockRun} (h : LockInv s) : LockSafe s := by
  rcases h.unit with hfree | ⟨t, ht⟩
  · have hnot : ∀ u, ¬ 0 < (s.task u).nesting := by
      intro u
      rw [(hfree.idle u).nesting_eq]
      exact lt_irrefl 0
    constructor
    · exact fun u v hu => absurd hu (hnot u)
    · exact fun u hu => absurd hu (hnot u)
    · exact .inr hfree.value
    · rw [hfree.value]
      constructor
      · exact fun h => absurd h (by decide)
      · exact fun ⟨u, hu⟩ => absurd hu (hfree.idle u).not_owns
    · exact fun u v hu => absurd hu (hfree.idle u).not_owns
    · exact fun u => (hfree.idle u).not_stopped
  · have hnest : ∀ u, 0 < (s.task u).nesting → u = t := by
      intro u hu
      by_contra hne
      rw [(ht.idle u hne).nesting_eq] at hu
      exact lt_irrefl 0 hu
    have howns : ∀ u, (s.task u).Owns → u = t := by
      intro u hu
      by_contra hne
      exact (ht.idle u hne).not_owns hu
    constructor
    · exact fun u v hu hv => (hnest u hu).trans (hnest v hv).symm
    · intro u hu hpc
      obtain rfl := hnest u hu
      have hheld := ht.held
      simp only [Held, hpc] at hheld
      exact ⟨hheld.1, hheld.2.1⟩
    · exact .inl ht.value
    · refine ⟨fun _ => ⟨t, ?_⟩, fun _ => ht.value⟩
      have := ht.owns
      simp only [Local.Owns]
      omega
    · exact fun u v hu hv => (howns u hu).trans (howns v hv).symm
    · intro u
      by_cases hu : u = t
      · subst hu
        exact ht.held.not_stopped
      · exact (ht.idle u hu).not_stopped

/-- A task that neither starts nor stops waiting leaves the waiters as they are. -/
lemma waiting_set {s : LockRun} (h : LockInv s) {t : TaskAddr} {l : Local}
    (hpc : (s.task t).pc ≠ .waiting) (hl : l.pc ≠ .waiting) (u : TaskAddr) :
    u ∈ s.semaphore.waiters ↔ ((s.set t l).task u).pc = .waiting := by
  by_cases hu : u = t
  · subst hu
    rw [set_task_self, h.waiting u]
    exact ⟨fun hw => absurd hw hpc, fun hw => absurd hw hl⟩
  · rw [set_task_of_ne s l hu]
    exact h.waiting u

/-- A step of the owner that keeps the unit; it may write the lock. -/
theorem LockInv.owner {s : LockRun} (h : LockInv s) {t : TaskAddr} (ht : Taken s t) {lock : Lock}
    {l : Local} (hheld : Held lock t l) (howns : l.downs = l.ups + 1) :
    LockInv ({ s with lock := lock }.set t l) := by
  have hpc : (s.task t).pc ≠ .waiting := by
    intro hpc
    have := ht.held
    simp only [Held, hpc] at this
  have hl : l.pc ≠ .waiting := by
    intro hl
    simp only [Held, hl] at hheld
  constructor
  · refine .inr ⟨t, ht.value, ?_, ?_, ?_⟩
    · rw [set_task_self]
      exact hheld
    · rw [set_task_self]
      exact howns
    · intro u hu
      rw [set_task_of_ne _ l hu]
      exact ht.idle u hu
  · exact h.waiters_nodup
  · exact waiting_set h hpc hl

/-- A step of a task that does not have the unit and does not get it. -/
theorem LockInv.idle {s : LockRun} (h : LockInv s) {t : TaskAddr} (hidle : Idle (s.task t))
    (hnot : ¬ Taken s t) {l : Local} (hl : Idle l) (hpc : (s.task t).pc ≠ .waiting)
    (hl' : l.pc ≠ .waiting) : LockInv (s.set t l) := by
  have hother : ∀ u, (u ≠ t → Idle (s.task u)) → Idle ((s.set t l).task u) := by
    intro u hu
    by_cases hut : u = t
    · subst hut
      rwa [set_task_self]
    · rw [set_task_of_ne s l hut]
      exact hu hut
  constructor
  · rcases h.unit with hfree | ⟨v, hv⟩
    · exact .inl ⟨hfree.value, hfree.lock, fun u => hother u fun _ => hfree.idle u⟩
    · have hvt : v ≠ t := by
        rintro rfl
        exact hnot hv
      refine .inr ⟨v, hv.value, ?_, ?_, fun u hu => hother u fun _ => hv.idle u hu⟩
      · rw [set_task_of_ne s l hvt]
        exact hv.held
      · rw [set_task_of_ne s l hvt]
        exact hv.owns
  · exact h.waiters_nodup
  · exact waiting_set h hpc hl'

lemma LockInv.taken_or_idle {s : LockRun} (h : LockInv s) (t : TaskAddr) :
    Taken s t ∨ Idle (s.task t) ∧ ¬ Taken s t := by
  by_cases ht : Taken s t
  · exact .inl ht
  · right
    refine ⟨?_, ht⟩
    rcases h.unit with hfree | ⟨v, hv⟩
    · exact hfree.idle t
    · apply hv.idle t
      rintro rfl
      exact ht hv

/-- Only the owner of the unit finds itself as the holder. -/
lemma LockInv.taken_of_holder {s : LockRun} (h : LockInv s) {t : TaskAddr}
    (ht : s.lock.holder = some t) : Taken s t := by
  rcases h.unit with hfree | ⟨v, hv⟩
  · rw [hfree.lock] at ht
    cases ht
  · rcases hv.held.holder with hnone | hsome
    · rw [hnone] at ht
      cases ht
    · rw [hsome] at ht
      obtain rfl := Option.some.inj ht
      exact hv

/-- The region of `sema_down`: the unit is taken, or the task waits for it. -/
theorem LockInv.semaDown {s : LockRun} (h : LockInv s) {t : TaskAddr} (hidle : Idle (s.task t))
    (hnot : ¬ Taken s t) (hpc : (s.task t).pc = .semaDown) : LockInv (s.semaDown t) := by
  have hwait : t ∉ s.semaphore.waiters := by
    rw [h.waiting t, hpc]
    simp
  rcases h.unit with hfree | ⟨v, hv⟩
  · have hvalue : s.semaphore.value - 1 = 0 := by
      rw [hfree.value]
      rfl
    have hne : s.semaphore.value ≠ 0 := by
      rw [hfree.value]
      decide
    have heq : s.semaDown t = { s with semaphore := ⟨0, s.semaphore.waiters⟩ }.set t
        { s.task t with pc := .setHolder, downs := (s.task t).downs + 1 } := by
      simp only [LockRun.semaDown, if_neg hne, hvalue, if_true]
    rw [heq]
    constructor
    · refine .inr ⟨t, rfl, ?_, ?_, ?_⟩
      · rw [set_task_self]
        exact ⟨hfree.lock, hidle.nesting_eq⟩
      · rw [set_task_self]
        exact congrArg (· + 1) hidle.owns
      · intro u hu
        rw [set_task_of_ne _ _ hu]
        exact hfree.idle u
    · exact h.waiters_nodup
    · exact waiting_set h (by simp [hpc]) (by simp)
  · have hvt : v ≠ t := by
      rintro rfl
      exact hnot hv
    have heq : s.semaDown t = { s with semaphore :=
        ⟨s.semaphore.value, s.semaphore.waiters ++ [t]⟩ }.goto t .waiting := by
      simp only [LockRun.semaDown, if_pos hv.value, if_neg hwait]
    rw [heq, LockRun.goto]
    constructor
    · refine .inr ⟨v, hv.value, ?_, ?_, ?_⟩
      · rw [set_task_of_ne _ _ hvt]
        exact hv.held
      · rw [set_task_of_ne _ _ hvt]
        exact hv.owns
      · intro u hu
        by_cases hut : u = t
        · subst hut
          rw [set_task_self]
          exact ⟨.inr (.inr (.inr rfl)), hidle.nesting, hidle.owns⟩
        · rw [set_task_of_ne _ _ hut]
          exact hv.idle u hu
    · simpa using h.waiters_nodup.concat hwait
    · intro u
      by_cases hut : u = t
      · subst hut
        simp
      · rw [set_task_of_ne _ _ hut]
        simpa [hut] using h.waiting u

/-- The end of `sema_up`: nobody has the unit. -/
lemma LockInv.semaGive {s : LockRun} (h : LockInv s) {t : TaskAddr} (ht : Taken s t)
    (hpc : (s.task t).pc = .semaUp) : LockInv (s.semaGive t) := by
  have hheld := ht.held
  simp only [Held, hpc] at hheld
  have hvalue : s.semaphore.value + 1 = 1 := by
    rw [ht.value]
    rfl
  have heq : s.semaGive t = { s with semaphore := ⟨1, s.semaphore.waiters⟩ }.set t
      { s.task t with pc := .user, ups := (s.task t).ups + 1 } := by
    simp only [LockRun.semaGive, hvalue, if_true]
  rw [heq]
  constructor
  · refine .inl ⟨rfl, hheld.1, ?_⟩
    intro u
    by_cases hu : u = t
    · subst hu
      rw [set_task_self]
      have hzero := hheld.2
      simp only [Local.nesting] at hzero
      refine ⟨.inl rfl, ?_, ht.owns⟩
      show (s.task u).acquires = (s.task u).releases
      omega
    · rw [set_task_of_ne _ _ hu]
      exact ht.idle u hu
  · exact h.waiters_nodup
  · exact waiting_set h (by simp [hpc]) (by simp)

/-- `sema_up` wakes the first waiter, which gets no unit: it will test the value
again, and may find that another task was faster. -/
lemma LockInv.wake {s : LockRun} (h : LockInv s) {t u : TaskAddr} {rest : List TaskAddr}
    (ht : Taken s t) (hw : s.semaphore.waiters = u :: rest) (hut : u ≠ t) :
    let woken := { s with semaphore := ⟨s.semaphore.value, rest⟩ }.goto u .semaDown
    LockInv woken ∧ Taken woken t := by
  intro woken
  have htaken : Taken woken t := by
    refine ⟨ht.value, ?_, ?_, ?_⟩
    · show Held s.lock t (woken.task t)
      rw [show woken.task t = s.task t from set_task_of_ne _ _ (Ne.symm hut)]
      exact ht.held
    · rw [show woken.task t = s.task t from set_task_of_ne _ _ (Ne.symm hut)]
      exact ht.owns
    · intro v hv
      by_cases hvu : v = u
      · subst hvu
        rw [show woken.task v = { s.task v with pc := .semaDown } from set_task_self _ _ _]
        exact ⟨.inr (.inr (.inl rfl)), (ht.idle v hv).nesting, (ht.idle v hv).owns⟩
      · rw [show woken.task v = s.task v from set_task_of_ne _ _ hvu]
        exact ht.idle v hv
  have hnodup := h.waiters_nodup
  rw [hw, List.nodup_cons] at hnodup
  refine ⟨⟨.inr ⟨t, htaken⟩, hnodup.2, ?_⟩, htaken⟩
  intro v
  show v ∈ rest ↔ (woken.task v).pc = .waiting
  by_cases hvu : v = u
  · subst hvu
    rw [show woken.task v = { s.task v with pc := .semaDown } from set_task_self _ _ _]
    simp [hnodup.1]
  · rw [show woken.task v = s.task v from set_task_of_ne _ _ hvu, ← h.waiting v, hw]
    simp [hvu]

/-- The region of `sema_up`. -/
theorem LockInv.semaUp {s : LockRun} (h : LockInv s) {t : TaskAddr} (ht : Taken s t)
    (hpc : (s.task t).pc = .semaUp) : LockInv (s.semaUp t) := by
  rw [LockRun.semaUp, if_pos ht.value]
  cases hw : s.semaphore.waiters with
  | nil => exact h.semaGive ht hpc
  | cons u rest =>
    have hu : (s.task u).pc = .waiting := (h.waiting u).mp (by simp [hw])
    have hut : u ≠ t := by
      rintro rfl
      rw [hpc] at hu
      cases hu
    obtain ⟨hwoken, htaken⟩ := h.wake ht hw hut
    simp only [LockRun.taskUnblock, if_pos hu]
    apply hwoken.semaGive htaken
    exact (congrArg Local.pc (set_task_of_ne _ _ (Ne.symm hut))).trans hpc

/-- One statement of the task that has the unit. -/
theorem LockInv.run_taken {s : LockRun} (h : LockInv s) {t : TaskAddr} (ht : Taken s t) :
    LockInv (s.run t) := by
  have hheld := ht.held
  have hlt := s.lock.holderRepeatNr.toNat_lt
  cases hpc : (s.task t).pc <;> simp only [Held, hpc] at hheld <;> simp only [LockRun.run, hpc]
  case user => exact h
  case acquireTest =>
    rw [if_neg (not_not.mpr hheld.1)]
    exact h.owner ht hheld ht.owns
  case setHolder =>
    rw [hheld.1]
    exact h.owner ht ⟨rfl, hheld.2⟩ ht.owns
  case assertZero =>
    rw [LockRun.check, if_pos (by rw [hheld.1])]
    exact h.owner ht hheld ht.owns
  case setRepeatNr =>
    rw [hheld.1]
    refine h.owner ht ⟨rfl, ?_, Int.one_pos⟩ ht.owns
    have hzero := hheld.2
    simp only [Local.nesting] at hzero ⊢
    show ((1 : ℕ) : ℤ) = _
    push_cast
    omega
  case incLoad =>
    obtain ⟨hholder, hnr, hpos, hmax⟩ := hheld
    exact h.owner ht ⟨hholder, hnr, hpos, hmax, rfl⟩ ht.owns
  case incStore n =>
    obtain ⟨hholder, hnr, hpos, hmax, rfl⟩ := hheld
    have hinc : (s.lock.holderRepeatNr + 1).toNat = s.lock.holderRepeatNr.toNat + 1 := by
      rw [UInt32.toNat_add, show (1 : UInt32).toNat = 1 from rfl]
      omega
    refine h.owner ht ⟨hholder, ?_, ?_⟩ ht.owns
    · simp only [Local.nesting] at hnr ⊢
      rw [hinc]
      push_cast
      omega
    · rw [hinc]
      push_cast
      omega
  case assertHolder =>
    rw [LockRun.check, if_pos hheld.1]
    exact h.owner ht hheld ht.owns
  case releaseTest =>
    obtain ⟨hholder, hnr, hpos⟩ := hheld
    by_cases hone : s.lock.holderRepeatNr > 1
    · rw [if_pos hone]
      have hlt1 : 1 < s.lock.holderRepeatNr.toNat := UInt32.lt_iff_toNat_lt.mp hone
      exact h.owner ht ⟨hholder, hnr, by omega⟩ ht.owns
    · rw [if_neg hone]
      have hle : ¬ 1 < s.lock.holderRepeatNr.toNat :=
        fun hlt => hone (UInt32.lt_iff_toNat_lt.mpr hlt)
      have heq : s.lock.holderRepeatNr = 1 := UInt32.toNat_inj.mp (by
        show s.lock.holderRepeatNr.toNat = 1
        omega)
      rw [heq] at hnr
      refine h.owner ht ⟨?_, ?_⟩ ht.owns
      · cases hl : s.lock
        rw [hl] at hholder heq
        simp only at hholder heq
        rw [hholder, heq]
      · change ((1 : ℕ) : ℤ) = _ at hnr
        show (s.task t).nesting = 0
        omega
  case decLoad =>
    obtain ⟨hholder, hnr, hpos⟩ := hheld
    exact h.owner ht ⟨hholder, hnr, hpos, rfl⟩ ht.owns
  case decStore n =>
    obtain ⟨hholder, hnr, hpos, rfl⟩ := hheld
    have hdec : (s.lock.holderRepeatNr - 1).toNat = s.lock.holderRepeatNr.toNat - 1 := by
      rw [UInt32.toNat_sub, show (1 : UInt32).toNat = 1 from rfl]
      omega
    refine h.owner ht ⟨hholder, ?_, ?_⟩ ht.owns
    · show ((s.lock.holderRepeatNr - 1).toNat : ℤ) = (s.task t).nesting
      rw [hdec]
      omega
    · show 0 < ((s.lock.holderRepeatNr - 1).toNat : ℤ)
      rw [hdec]
      omega
  case assertOne =>
    rw [LockRun.check, if_pos (by rw [hheld.1])]
    exact h.owner ht hheld ht.owns
  case clearHolder =>
    rw [hheld.1]
    exact h.owner ht ⟨rfl, hheld.2⟩ ht.owns
  case clearRepeatNr =>
    rw [hheld.1]
    exact h.owner ht ⟨rfl, hheld.2⟩ ht.owns
  case semaUp => exact h.semaUp ht hpc

/-- One statement of a task that does not have the unit. -/
theorem LockInv.run_idle {s : LockRun} (h : LockInv s) {t : TaskAddr} (hidle : Idle (s.task t))
    (hnot : ¬ Taken s t) : LockInv (s.run t) := by
  rcases hidle.pc with hpc | hpc | hpc | hpc
  · simpa only [LockRun.run, hpc] using h
  · have hholder : s.lock.holder ≠ some t := fun hh => hnot (h.taken_of_holder hh)
    simp only [LockRun.run, hpc, if_pos hholder]
    refine h.idle hidle hnot ⟨.inr (.inr (.inl rfl)), hidle.nesting, hidle.owns⟩ ?_ ?_
    · simp [hpc]
    · simp
  · simpa only [LockRun.run, hpc] using h.semaDown hidle hnot hpc
  · simpa only [LockRun.run, hpc] using h

theorem LockInv.step {s s' : LockRun} {op : Op} (h : LockInv s) (hg : Shallow s op)
    (hst : Step s op s') : LockInv s' := by
  cases hst with
  | @lockAcquire t hpc =>
    rcases h.taken_or_idle t with ht | ⟨hidle, hnot⟩
    · have hheld := ht.held
      simp only [Held, hpc] at hheld
      obtain ⟨hholder, hnr, hpos⟩ := hheld
      have hdeep : (s.task t).nesting < 2 ^ 32 - 1 := hg
      exact h.owner ht ⟨hholder, hnr, hpos, by omega⟩ ht.owns
    · refine h.idle hidle hnot ⟨.inr (.inl rfl), hidle.nesting, hidle.owns⟩ ?_ ?_
      · simp [hpc]
      · simp
  | @lockRelease t hpc hholder =>
    have ht := h.taken_of_holder hholder
    have hheld := ht.held
    simp only [Held, hpc] at hheld
    obtain ⟨-, hnr, hpos⟩ := hheld
    refine h.owner ht ⟨hholder, ?_, hpos⟩ ht.owns
    simp only [Local.nesting] at hnr ⊢
    push_cast
    omega
  | @run t =>
    rcases h.taken_or_idle t with ht | ⟨hidle, hnot⟩
    · exact h.run_taken ht
    · exact h.run_idle hidle hnot

theorem LockInv.init : LockInv lockStart := by
  refine ⟨.inl ⟨rfl, rfl, fun u => ⟨.inl rfl, rfl, rfl⟩⟩, List.nodup_nil, ?_⟩
  intro u
  simp [lockStart, lockInit, semaInit]

/-- The lock is safe in every interleaving in which no task nests more than
`2 ^ 32 - 1` acquires. -/
theorem lockSafe_of_shallow {s : LockRun} (hs : lockSystem.Reach Shallow s) : LockSafe s := by
  have h : LockInv s := by
    refine hs.invariant ?_ (fun _ _ _ h hg hst => h.step hg hst)
    intro s hs
    rw [show s = lockStart from hs]
    exact LockInv.init
  exact h.lockSafe

/-- The first acquire of task 1. -/
def acquiredOnce : LockRun :=
  (((((lockStart.goto 1 .acquireTest).run 1).run 1).run 1).run 1).run 1

lemma reach_run {guard : LockRun → Op → Prop} {s : LockRun} (hs : lockSystem.Reach guard s)
    {t : TaskAddr} (hg : guard s (.run t)) : lockSystem.Reach guard (s.run t) :=
  .step hs hg (show lockSystem.step s (.run t) (s.run t) from .run)

lemma reach_lockAcquire {guard : LockRun → Op → Prop} {s : LockRun}
    (hs : lockSystem.Reach guard s) {t : TaskAddr} (hg : guard s (.lockAcquire t))
    (hpc : (s.task t).pc = .user) : lockSystem.Reach guard (s.goto t .acquireTest) :=
  .step hs hg (show lockSystem.step s (.lockAcquire t) _ from .lockAcquire hpc)

/-- The next `n` statements of a task. -/
def LockRun.runs (s : LockRun) (t : TaskAddr) (n : ℕ) : LockRun := (fun s => s.run t)^[n] s

lemma reach_runs {s : LockRun} (hs : lockSystem.Reach Shallow s) (t : TaskAddr) (n : ℕ) :
    lockSystem.Reach Shallow (s.runs t n) := by
  induction n with
  | zero => exact hs
  | succ n ih =>
    rw [LockRun.runs, Function.iterate_succ_apply']
    exact reach_run ih (t := t) trivial

lemma acquiredOnce_reach : lockSystem.Reach Shallow acquiredOnce := by
  have h0 : lockSystem.Reach Shallow lockStart := .init rfl
  have h1 := reach_lockAcquire h0 (t := 1) (by simp [Shallow, lockStart, Local.nesting]) rfl
  exact reach_runs h1 1 5

/-- Task 2 waits for the lock that task 1 has. -/
def contendedRun : LockRun := (acquiredOnce.goto 2 .acquireTest).runs 2 2

/-- Task 1 gives it up, and task 2 gets it. -/
def handedOver : LockRun :=
  ((contendedRun.set 1 { contendedRun.task 1 with
    pc := .assertHolder
    releases := 1 }).runs 1 6).runs 2 4

lemma handedOver_reach : lockSystem.Reach Shallow handedOver := by
  have h1 := reach_lockAcquire acquiredOnce_reach (t := 2)
    (show (0 : ℤ) < 2 ^ 32 - 1 by decide) rfl
  have h2 : lockSystem.Reach Shallow contendedRun := reach_runs h1 2 2
  have h3 := h2.step (a := Op.lockRelease 1) trivial
    (show Step contendedRun (.lockRelease 1) _ from .lockRelease rfl rfl)
  exact reach_runs (reach_runs h3 1 6) 2 4

theorem lockSafe_handedOver : (contendedRun.task 2).pc = .waiting ∧
    handedOver.lock = ⟨some 2, 1⟩ ∧ LockSafe handedOver :=
  ⟨rfl, rfl, lockSafe_of_shallow handedOver_reach⟩

/-- A task that has the lock can acquire it once more. -/
lemma exists_nested {s : LockRun} (hs : lockSystem.Reachable s) {t : TaskAddr}
    (hpc : (s.task t).pc = .user) (hholder : s.lock.holder = some t) :
    ∃ s', lockSystem.Reachable s' ∧ (s'.task t).pc = .user ∧ s'.lock.holder = some t ∧
      s'.lock.holderRepeatNr = s.lock.holderRepeatNr + 1 ∧
      (s'.task t).nesting = (s.task t).nesting + 1 := by
  have h1 := reach_lockAcquire hs trivial hpc
  have h2 := reach_run h1 (t := t) trivial
  have h3 := reach_run h2 (t := t) trivial
  have h4 := reach_run h3 (t := t) trivial
  refine ⟨_, h4, ?_⟩
  simp only [LockRun.run, LockRun.goto, set_task_self, set_lock, hholder, ne_eq,
    not_true_eq_false, if_false, true_and, Local.nesting]
  push_cast
  omega

lemma exists_nesting (n : ℕ) : ∃ s, lockSystem.Reachable s ∧ (s.task 1).pc = .user ∧
    s.lock = ⟨some 1, UInt32.ofNat (n + 1)⟩ ∧ (s.task 1).nesting = n + 1 := by
  induction n with
  | zero => exact ⟨acquiredOnce, acquiredOnce_reach.reachable, rfl, rfl, rfl⟩
  | succ n ih =>
    obtain ⟨s, hs, hpc, hlock, hnest⟩ := ih
    obtain ⟨s', hs', hpc', hholder', hnr, hnest'⟩ := exists_nested hs hpc (by rw [hlock])
    refine ⟨s', hs', hpc', ?_, ?_⟩
    · cases hl : s'.lock
      rw [hl] at hholder' hnr
      simp only at hholder' hnr
      rw [hholder', hnr, hlock, UInt32.ofNat_add (n + 1) 1]
      rfl
    · rw [hnest', hnest]
      push_cast
      omega

/-- After `2 ^ 32` nested acquires `holder_repeat_nr` is 0 again. -/
theorem not_lockSafe : ¬ ∀ s, lockSystem.Reachable s → LockSafe s := by
  intro hall
  obtain ⟨s, hs, hpc, hlock, hnest⟩ := exists_nesting (2 ^ 32 - 1)
  have hout := ((hall s hs).outside 1 (by rw [hnest]; decide) hpc).2
  have hzero : (UInt32.ofNat (2 ^ 32 - 1 + 1)).toNat = 0 := rfl
  rw [hnest, hlock, hzero] at hout
  exact absurd hout (by decide)

end Libtask.Locking
