import Libtask.Ioqueue.Waiting

/-!
# Several producers or several consumers

The lock is held only around waiting. Tasks of one side share an index and wake
the same task, and a task is woken before its slot is cleared, so a second task
may want the slot in between. Where neither happens the bytes and the assertions
are safe, however many tasks there are.
-/
namespace Libtask.Ioq
open Locking Transition Window

/-- The statement that follows the one of `t`. -/
def Next (s : IoqRun) (t : TaskAddr) (pc : Pc) : Prop :=
  match (s.task t).pc with
  | .test => pc = .acquire ∨ pc = .access ∧ s.mustWait (s.task t).side = false
  | .acquire => pc = .acquire ∨ pc = .waitAssert
  | .waitAssert =>
    pc = if s.queue.waiter (s.task t).side = none then .waitSet else .failed .waiterNull
  | .waitSet => pc = .block
  | .block => pc = .blocked
  | .woken => pc = .release
  | .release => pc = .release ∨ pc = .test
  | .access => pc = .advance ∨ pc = .fault
  | .advance => pc = .wakeTest
  | .wakeTest => pc = if s.queue.waiter (s.task t).side.other ≠ none then .wakeAssert else .user
  | .wakeAssert =>
    pc = if s.queue.waiter (s.task t).side.other ≠ none then .unblock else .failed .waiterNotNull
  | .unblock => pc = .wakeClear ∨ pc = .failed .status ∨ pc = .fault
  | .wakeClear => pc = .user
  | .user | .blocked | .failed _ | .fault => pc = (s.task t).pc

/-- The slots after the statement of `t`. -/
def waiterAfter (s : IoqRun) (t : TaskAddr) : Side → Option TaskAddr :=
  match (s.task t).pc with
  | .waitSet => Function.update s.queue.waiter (s.task t).side (some t)
  | .wakeClear => Function.update s.queue.waiter (s.task t).side.other none
  | _ => s.queue.waiter

/-- What a statement of `t` does to the tasks and to the slots. -/
structure Ran (s s' : IoqRun) (t : TaskAddr) : Prop where
  next : Next s t (s'.task t).pc
  others : ∀ u, u ≠ t → (s'.task u).pc = (s.task u).pc ∨
    ((s.task t).pc = .unblock ∧ (s'.task t).pc = .wakeClear) ∧
      s.queue.waiter (s.task t).side.other = some u ∧ (s'.task u).pc = .woken ∧
      (s.task u).pc = .blocked
  waiter : s'.queue.waiter = waiterAfter s t

/-- A statement that moves only `t`. -/
lemma ran_set {s r : IoqRun} {t : TaskAddr} {l : Local} (htask : r.task = s.task)
    (hwaiter : r.queue.waiter = waiterAfter s t) (hl : Next s t l.pc) : Ran s (r.set t l) t := by
  constructor
  · rwa [set_task_self]
  · intro u hu
    rw [set_task_of_ne _ _ hu, htask]
    exact .inl rfl
  · exact hwaiter

theorem ran_run (s : IoqRun) (t : TaskAddr) : Ran s (s.run t) t := by
  have hset : ∀ {r : IoqRun} {l : Local}, r.task = s.task → r.queue.waiter = waiterAfter s t →
      Next s t l.pc → Ran s (r.set t l) t := fun htask hwaiter => ran_set htask hwaiter
  cases hpc : (s.task t).pc <;> simp only [IoqRun.run, hpc]
  case user | blocked | failed | fault =>
    exact ⟨by simp [Next, hpc], fun u _ => .inl rfl, by simp [waiterAfter, hpc]⟩
  case test =>
    split_ifs with hwait
    · exact hset rfl (by simp [waiterAfter, hpc]) (by simp [Next, hpc])
    · exact hset rfl (by simp [waiterAfter, hpc]) (by simpa [Next, hpc] using hwait)
  case acquire | release =>
    refine hset rfl (by simp [waiterAfter, hpc]) ?_
    simp only [Next, hpc]
    split_ifs <;> simp
  case access =>
    unfold IoqRun.access
    split <;> split <;> exact hset rfl (by simp [waiterAfter, hpc]) (by simp [Next, hpc])
  case advance =>
    unfold IoqRun.advance
    split <;> exact hset rfl (by simp [waiterAfter, hpc]) (by simp [Next, hpc])
  case unblock =>
    have hstay : ∀ {pc : Pc}, pc = .wakeClear ∨ pc = .failed .status ∨ pc = .fault →
        Ran s (s.goto t pc) t := by
      intro pc hl
      exact hset rfl (by simp [waiterAfter, hpc]) (by simpa [Next, hpc] using hl)
    split
    · exact hstay (.inr (.inr rfl))
    · split
      · exact hstay (.inr (.inl rfl))
      · rename_i w hw _ r hr
        rcases taskUnblock_cases hr with ⟨hblocked, rfl⟩ | ⟨-, -, rfl⟩
        · have htw : w ≠ t := by
            rintro rfl
            rw [hpc] at hblocked
            cases hblocked
          constructor
          · simp [Next, hpc, IoqRun.goto]
          · intro u hu
            rw [IoqRun.goto, set_task_of_ne _ _ hu, set_task_self]
            by_cases huw : u = w
            · subst huw
              refine .inr ⟨⟨hpc, rfl⟩, hw, ?_, hblocked⟩
              rw [IoqRun.goto, set_task_self]
            · rw [IoqRun.goto, set_task_of_ne _ _ huw]
              exact .inl rfl
          · simp [waiterAfter, hpc, IoqRun.goto, IoqRun.set]
        · exact hset rfl (by simp [waiterAfter, hpc]) (by simp [Next, hpc])
  all_goals
    refine hset rfl (by simp [waiterAfter, hpc, IoqRun.setWaiter]) ?_
    simp [Next, hpc]

/-- The task is in `wakeup`. -/
def InWakeup (pc : Pc) : Prop := pc = .wakeAssert ∨ pc = .unblock ∨ pc = .wakeClear

/-- A task enters `wakeup` when no other task of its side is in it, and comes to
the assertion of `ioq_wait` when its slot is not about to be cleared. -/
def Turns (s : IoqRun) : Op → Prop
  | .run t =>
    ((s.task t).pc = .wakeTest → s.queue.waiter (s.task t).side.other ≠ none →
      ∀ u, (s.task u).side = (s.task t).side → ¬ InWakeup (s.task u).pc) ∧
    ((s.task t).pc = .waitAssert →
      ∀ u, (s.task u).side = (s.task t).side.other → (s.task u).pc ≠ .wakeClear)
  | _ => True

/-- Whom a slot may name: a task that sleeps or is about to, unless the slot is
being cleared. -/
structure Slots (s : IoqRun) : Prop where
  owner : ∀ side x, s.queue.waiter side = some x →
    ((s.task x).side = side ∧ ((s.task x).pc = .block ∨ (s.task x).pc = .blocked)) ∨
    ∃ y, (s.task y).side = side.other ∧ (s.task y).pc = .wakeClear
  waking : ∀ t, (s.task t).pc = .wakeAssert ∨ (s.task t).pc = .unblock →
    s.queue.waiter (s.task t).side.other ≠ none
  single : ∀ t u, (s.task t).side = (s.task u).side → InWakeup (s.task t).pc →
    InWakeup (s.task u).pc → t = u

section Slots

variable {s s' : IoqRun} {t : TaskAddr}

/-- A task comes into `wakeup` from the test of the slot. -/
lemma Ran.inWakeup (h : Ran s s' t) {u : TaskAddr} (hu : InWakeup (s'.task u).pc) :
    InWakeup (s.task u).pc ∨
    u = t ∧ (s.task t).pc = .wakeTest ∧ s.queue.waiter (s.task t).side.other ≠ none := by
  by_cases hut : u = t
  · subst hut
    have hnext := h.next
    cases hpc : (s.task u).pc <;> simp only [Next, hpc] at hnext
    case wakeTest =>
      by_cases hslot : s.queue.waiter (s.task u).side.other = none
      · rw [if_neg (by simp [hslot])] at hnext
        simp [InWakeup, hnext] at hu
      · exact .inr ⟨rfl, rfl, hslot⟩
    case wakeAssert | unblock | wakeClear => simp [InWakeup]
    case waitAssert => split_ifs at hnext <;> simp [InWakeup, hnext] at hu
    case test | acquire | release | access =>
      rcases hnext with hnext | hnext <;> simp [InWakeup, hnext] at hu
    all_goals simp [InWakeup, hnext] at hu
  · rcases h.others u hut with heq | ⟨-, -, hwoken, -⟩
    · rw [heq] at hu
      exact .inl hu
    · simp [InWakeup, hwoken] at hu

/-- The task that `t` wakes is the one that its slot names. -/
lemma Slots.unblock (h : Slots s) (ht : (s.task t).pc = .unblock) {w : TaskAddr}
    (hw : s.queue.waiter (s.task t).side.other = some w) :
    (s.task w).side = (s.task t).side.other ∧
      ((s.task w).pc = .block ∨ (s.task w).pc = .blocked) := by
  rcases h.owner _ w hw with hleft | ⟨y, hside, hy⟩
  · exact hleft
  · rw [Side.other_other] at hside
    obtain rfl := h.single y t hside (by simp [InWakeup, hy]) (by simp [InWakeup, ht])
    rw [ht] at hy
    cases hy

lemma Slots.single_run (h : Slots s) (hg : Turns s (.run t)) (hran : Ran s s' t)
    (hside : ∀ u, (s'.task u).side = (s.task u).side) :
    ∀ u v, (s'.task u).side = (s'.task v).side → InWakeup (s'.task u).pc →
      InWakeup (s'.task v).pc → u = v := by
  intro u v huv hu hv
  rw [hside, hside] at huv
  rcases hran.inWakeup hu with hu | ⟨rfl, hpc, hslot⟩
  · rcases hran.inWakeup hv with hv | ⟨rfl, hpc, hslot⟩
    · exact h.single u v huv hu hv
    · exact absurd hu (hg.1 hpc hslot u huv)
  · rcases hran.inWakeup hv with hv | ⟨rfl, -, -⟩
    · exact absurd hv (hg.1 hpc hslot v huv.symm)
    · rfl

lemma Slots.waking_run (h : Slots s) (hran : Ran s s' t)
    (hside : ∀ u, (s'.task u).side = (s.task u).side) :
    ∀ u, (s'.task u).pc = .wakeAssert ∨ (s'.task u).pc = .unblock →
      s'.queue.waiter (s'.task u).side.other ≠ none := by
  intro u hu
  rw [hside, hran.waiter]
  by_cases hut : u = t
  · subst hut
    have hnext := hran.next
    cases hpc : (s.task u).pc <;> simp only [Next, hpc] at hnext <;> simp only [waiterAfter, hpc]
    case wakeTest | wakeAssert =>
      split_ifs at hnext with hslot
      · exact hslot
      · simp [hnext] at hu
    case waitAssert => split_ifs at hnext <;> simp [hnext] at hu
    case test | acquire | release | access =>
      rcases hnext with hnext | hnext <;> simp [hnext] at hu
    case unblock => rcases hnext with hnext | hnext | hnext <;> simp [hnext] at hu
    all_goals simp [hnext] at hu
  · rcases hran.others u hut with heq | ⟨-, -, hwoken, -⟩
    · rw [heq] at hu
      have hslot := h.waking u hu
      cases hpc : (s.task t).pc <;> simp only [waiterAfter, hpc] <;> try exact hslot
      case waitSet =>
        by_cases hs : (s.task u).side.other = (s.task t).side
        · simp [hs]
        · rwa [Function.update_of_ne hs]
      case wakeClear =>
        have hs : (s.task u).side.other ≠ (s.task t).side.other := by
          intro hs
          have hs' := congrArg Side.other hs
          rw [Side.other_other, Side.other_other] at hs'
          refine hut (h.single u t hs' ?_ (by simp [InWakeup, hpc]))
          rcases hu with hu | hu <;> simp [InWakeup, hu]
        rwa [Function.update_of_ne hs]
    · simp [hwoken] at hu

/-- Who is named by a slot that the statement of `t` leaves. -/
lemma Slots.owner_kept (h : Slots s) (hran : Ran s s' t)
    (hside : ∀ u, (s'.task u).side = (s.task u).side) {side : Side} {x : TaskAddr}
    (hx : s.queue.waiter side = some x)
    (hclear : (s.task t).pc = .wakeClear → side = (s.task t).side) :
    ((s'.task x).side = side ∧ ((s'.task x).pc = .block ∨ (s'.task x).pc = .blocked)) ∨
    ∃ y, (s'.task y).side = side.other ∧ (s'.task y).pc = .wakeClear := by
  rcases h.owner side x hx with ⟨hxs, hpc⟩ | ⟨y, hys, hy⟩
  · by_cases hxt : x = t
    · subst hxt
      have hnext := hran.next
      left
      rw [hside]
      refine ⟨hxs, ?_⟩
      rcases hpc with hpc | hpc <;> simp only [Next, hpc] at hnext <;> simp [hnext]
    · rcases hran.others x hxt with heq | ⟨⟨hunblock, hnow⟩, hslot, -, -⟩
      · rw [hside, heq]
        exact .inl ⟨hxs, hpc⟩
      · right
        refine ⟨t, ?_, hnow⟩
        rw [hside, ← hxs, (h.unblock hunblock hslot).1, Side.other_other]
  · have hyt : y ≠ t := by
      rintro rfl
      have hs := hclear hy
      rw [← hs] at hys
      exact Side.ne_other side hys
    right
    refine ⟨y, by rw [hside, hys], ?_⟩
    rcases hran.others y hyt with heq | ⟨-, -, -, hblocked⟩
    · rw [heq, hy]
    · rw [hy] at hblocked
      cases hblocked

lemma Slots.owner_run (h : Slots s) (hran : Ran s s' t)
    (hside : ∀ u, (s'.task u).side = (s.task u).side) :
    ∀ side x, s'.queue.waiter side = some x →
      ((s'.task x).side = side ∧ ((s'.task x).pc = .block ∨ (s'.task x).pc = .blocked)) ∨
      ∃ y, (s'.task y).side = side.other ∧ (s'.task y).pc = .wakeClear := by
  intro side x hx
  rw [hran.waiter] at hx
  cases hpc : (s.task t).pc <;> simp only [waiterAfter, hpc] at hx
  case waitSet =>
    by_cases hs : side = (s.task t).side
    · rw [hs, Function.update_self] at hx
      obtain rfl := Option.some.inj hx
      have hnext := hran.next
      simp only [Next, hpc] at hnext
      rw [hside]
      exact .inl ⟨hs.symm, .inl hnext⟩
    · rw [Function.update_of_ne hs] at hx
      exact h.owner_kept hran hside hx (by simp [hpc])
  case wakeClear =>
    have hs : side ≠ (s.task t).side.other := by
      rintro rfl
      simp at hx
    rw [Function.update_of_ne hs] at hx
    exact h.owner_kept hran hside hx fun _ => (Side.eq_or_other _ _).resolve_right hs
  all_goals exact h.owner_kept hran hside hx (by simp [hpc])

theorem Slots.run (h : Slots s) (hg : Turns s (.run t)) : Slots (s.run t) := by
  have hran := ran_run s t
  have hside : ∀ u, ((s.run t).task u).side = (s.task u).side := fun u => (keeps_run s t u).1
  constructor
  · exact h.owner_run hran hside
  · exact h.waking_run hran hside
  · exact h.single_run hg hran hside

/-- A task that calls one of the functions. -/
lemma Slots.call (h : Slots s) {l : Local} (ht : (s.task t).pc = .user) (hl : l.pc = .test) :
    Slots (s.set t l) := by
  have hne : ∀ u, (s.task u).pc ≠ .user → (s.set t l).task u = s.task u := by
    intro u hu
    apply set_task_of_ne
    rintro rfl
    exact hu ht
  have hold : ∀ u, ((s.set t l).task u).pc ≠ .test → (s.set t l).task u = s.task u := by
    intro u hu
    apply set_task_of_ne
    rintro rfl
    rw [set_task_self] at hu
    exact hu hl
  constructor
  · intro side x hx
    rcases h.owner side x hx with ⟨hxs, hpc⟩ | ⟨y, hys, hy⟩
    · rw [hne x (by rcases hpc with hpc | hpc <;> simp [hpc])]
      exact .inl ⟨hxs, hpc⟩
    · right
      refine ⟨y, ?_⟩
      rw [hne y (by simp [hy])]
      exact ⟨hys, hy⟩
  · intro u hu
    have heq := hold u (by rcases hu with hu | hu <;> simp [hu])
    rw [heq] at hu ⊢
    exact h.waking u hu
  · intro u v huv hu hv
    have hu' := hold u (by rcases hu with hu | hu | hu <;> simp [hu])
    have hv' := hold v (by rcases hv with hv | hv | hv <;> simp [hv])
    rw [hu', hv'] at huv
    rw [hu'] at hu
    rw [hv'] at hv
    exact h.single u v huv hu hv

end Slots

/-- The task has the lock and is not in its functions. -/
def HasLock (pc : Pc) : Prop :=
  pc = .waitAssert ∨ pc = .waitSet ∨ pc = .block ∨ pc = .blocked ∨ pc = .woken

instance : DecidablePred HasLock := fun _ => inferInstanceAs (Decidable (_ ∨ _ ∨ _ ∨ _ ∨ _))

/-- The lock is used as the module on locks has it, once by each task. -/
structure Locks (s : IoqRun) : Prop where
  reach : lockSystem.Reach Shallow s.locking
  nesting : ∀ t, (s.locking.task t).nesting = if HasLock (s.task t).pc then 1 else 0

/-- How a statement of the lock counts. -/
structure Counts (r r' : LockRun) (t : TaskAddr) : Prop where
  acquiring : Acquiring (r.task t).pc →
    (r'.task t).nesting = (r.task t).nesting + if (r'.task t).pc = .user then 1 else 0
  releasing : Releasing (r.task t).pc → (r'.task t).nesting = (r.task t).nesting
  others : ∀ u, u ≠ t → (r'.task u).nesting = (r.task u).nesting

lemma Counts.set {r r' : LockRun} {t : TaskAddr} {l : Locking.Local}
    (hothers : ∀ u, u ≠ t → (r'.task u).nesting = (r.task u).nesting)
    (hacq : Acquiring (r.task t).pc →
      l.nesting = (r.task t).nesting + if l.pc = .user then 1 else 0)
    (hrel : Releasing (r.task t).pc → l.nesting = (r.task t).nesting) :
    Counts r (r'.set t l) t := by
  constructor
  · rwa [Locking.set_task_self]
  · rwa [Locking.set_task_self]
  · intro u hu
    rw [Locking.set_task_of_ne _ _ hu]
    exact hothers u hu

lemma counts_semaDown {r : LockRun} {t : TaskAddr} (hpc : (r.task t).pc = .semaDown) :
    Counts r (r.semaDown t) t := by
  have hset : ∀ {r' : LockRun} {l : Locking.Local}, r'.task = r.task →
      l.nesting = (r.task t).nesting → l.pc ≠ .user → Counts r (r'.set t l) t := by
    intro r' l htask hl hl'
    apply Counts.set (fun u _ => by rw [htask])
    · intro _
      rw [hl, if_neg hl', add_zero]
    · simp [hpc, Releasing]
  unfold LockRun.semaDown
  dsimp only
  split_ifs <;> exact hset rfl rfl (by simp)

lemma counts_semaUp {r : LockRun} {t : TaskAddr} (hpc : (r.task t).pc = .semaUp) :
    Counts r (r.semaUp t) t := by
  have hset : ∀ {r' : LockRun} {l : Locking.Local},
      (∀ u, (r'.task u).nesting = (r.task u).nesting) → l.nesting = (r.task t).nesting →
      Counts r (r'.set t l) t := by
    intro r' l hothers hl
    exact Counts.set (fun u _ => hothers u) (by simp [hpc, Acquiring]) fun _ => hl
  have hgive : ∀ {r' : LockRun}, (∀ u, (r'.task u).nesting = (r.task u).nesting) →
      Counts r (r'.semaGive t) t := by
    intro r' hothers
    unfold LockRun.semaGive
    dsimp only
    split_ifs <;> exact hset hothers (hothers t)
  unfold LockRun.semaUp
  split_ifs
  · cases r.semaphore.waiters with
    | nil => exact hgive fun _ => rfl
    | cons w rest =>
      dsimp only
      split
      · exact hset (fun _ => rfl) rfl
      · rename_i r' hr'
        unfold LockRun.taskUnblock at hr'
        split_ifs at hr' with hw
        obtain rfl := Option.some.inj hr'
        apply hgive
        intro u
        by_cases huw : u = w
        · subst huw
          rw [LockRun.goto, Locking.set_task_self]
          rfl
        · rw [LockRun.goto, Locking.set_task_of_ne _ _ huw]
  · exact hset (fun _ => rfl) rfl

theorem counts_run (r : LockRun) (t : TaskAddr) : Counts r (r.run t) t := by
  have hset : ∀ {r' : LockRun} {l : Locking.Local}, r'.task = r.task →
      (Acquiring (r.task t).pc →
        l.nesting = (r.task t).nesting + if l.pc = .user then 1 else 0) →
      (Releasing (r.task t).pc → l.nesting = (r.task t).nesting) → Counts r (r'.set t l) t :=
    fun htask => Counts.set fun u _ => by rw [htask]
  have hmove : ∀ {r' : LockRun} {l : Locking.Local}, r'.task = r.task →
      l.nesting = (r.task t).nesting → (Acquiring (r.task t).pc → l.pc ≠ .user) →
      Counts r (r'.set t l) t := by
    intro r' l htask hl huser
    apply hset htask
    · intro hacq
      rw [hl, if_neg (huser hacq), add_zero]
    · exact fun _ => hl
  cases hpc : (r.task t).pc <;> simp only [LockRun.run, hpc]
  case user | waiting | stopped =>
    exact ⟨by simp [hpc, Acquiring], fun _ => rfl, fun _ _ => rfl⟩
  case semaDown => exact counts_semaDown hpc
  case semaUp => exact counts_semaUp hpc
  case setRepeatNr | incStore =>
    refine hset rfl ?_ ?_
    · simp only [Locking.Local.nesting, hpc]
      push_cast
      omega
    · simp [hpc, Releasing]
  case acquireTest | assertZero =>
    refine hmove rfl rfl fun _ => ?_
    dsimp only
    split_ifs <;> simp
  all_goals exact hmove rfl rfl (by simp [hpc, Acquiring])

section Locks

variable {s : IoqRun} {t : TaskAddr}

/-- A statement of `t`, inside the lock or not. -/
lemma Locks.set (h : Locks s) {r : IoqRun} {l : Local} (htask : r.task = s.task)
    (hreach : lockSystem.Reach Shallow r.locking)
    (hown : (r.locking.task t).nesting = if HasLock l.pc then 1 else 0)
    (hothers : ∀ u, u ≠ t → (r.locking.task u).nesting = (s.locking.task u).nesting) :
    Locks (r.set t l) := by
  refine ⟨hreach, fun u => ?_⟩
  show (r.locking.task u).nesting = _
  by_cases hu : u = t
  · subst hu
    rw [set_task_self, hown]
  · rw [set_task_of_ne _ _ hu, htask, hothers u hu]
    exact h.nesting u

/-- A statement outside the functions of the lock. -/
lemma Locks.goto (h : Locks s) {r : IoqRun} {l : Local} (htask : r.task = s.task)
    (hlock : r.locking = s.locking) (hl : HasLock l.pc ↔ HasLock (s.task t).pc) :
    Locks (r.set t l) := by
  refine h.set htask ?_ ?_ fun u _ => by rw [hlock]
  · rw [hlock]
    exact h.reach
  · rw [hlock, h.nesting t]
    exact if_congr hl.symm rfl rfl

/-- A statement in `lock_acquire` or `lock_release`. -/
lemma Locks.runLock (h : Locks s) (hphases : Phases s) {pc : Pc}
    (hpc : (s.task t).pc = .acquire ∧ pc = .waitAssert ∨ (s.task t).pc = .release ∧ pc = .test) :
    Locks (s.runLock t pc) := by
  have hcounts := counts_run s.locking t
  have hstop := (lockSafe_of_shallow h.reach).asserts t
  have hphase := hphases t
  have hnesting := h.nesting t
  refine h.set rfl (Locking.reach_run h.reach trivial) ?_ hcounts.others
  show ((s.locking.run t).task t).nesting =
    if HasLock (if ((s.locking.run t).task t).pc = Locking.Pc.user then pc else (s.task t).pc)
      then 1 else 0
  rcases hpc with ⟨hpc, rfl⟩ | ⟨hpc, rfl⟩
  · rw [hpc] at hphase hnesting ⊢
    rw [hcounts.acquiring (hphase.resolve_right hstop), hnesting]
    split_ifs <;> simp_all [HasLock]
  · rw [hpc] at hphase hnesting ⊢
    rw [hcounts.releasing (hphase.resolve_right hstop), hnesting]
    split_ifs <;> simp_all [HasLock]

/-- The slot of a task at the assertion of `ioq_wait` is empty: its owner would
have the lock. -/
theorem Locks.slot_none (h : Locks s) (hslots : Slots s)
    (hg : Turns s (.run t)) (hpc : (s.task t).pc = .waitAssert) :
    s.queue.waiter (s.task t).side = none := by
  by_contra hsome
  obtain ⟨x, hx⟩ := Option.ne_none_iff_exists'.mp hsome
  rcases hslots.owner _ x hx with ⟨-, hxpc⟩ | ⟨y, hys, hy⟩
  · have hsafe := lockSafe_of_shallow h.reach
    have ht : (s.locking.task t).nesting = 1 := by
      rw [h.nesting t, hpc]
      rfl
    have hx' : (s.locking.task x).nesting = 1 := by
      rw [h.nesting x]
      rcases hxpc with hxpc | hxpc <;> rw [hxpc] <;> rfl
    obtain rfl := hsafe.exclusive t x (by omega) (by omega)
    simp [hpc] at hxpc
  · exact hg.2 hpc y hys hy

theorem Locks.run (h : Locks s) (hphases : Phases s) (hslots : Slots s)
    (hg : Turns s (.run t)) : Locks (s.run t) := by
  have hphase := hphases t
  cases hpc : (s.task t).pc <;> simp only [IoqRun.run, hpc]
  case user | blocked | failed | fault => exact h
  case test =>
    rw [hpc] at hphase
    have hnesting := h.nesting t
    split_ifs
    · refine h.set rfl (reach_lockAcquire h.reach ?_ hphase) ?_ ?_
      · show (s.locking.task t).nesting < _
        rw [hnesting, hpc]
        decide
      · show ((s.locking.goto t .acquireTest).task t).nesting = _
        rw [LockRun.goto, Locking.set_task_self]
        show (s.locking.task t).nesting = _
        rw [hnesting, hpc]
        rfl
      · intro u hu
        show ((s.locking.goto t .acquireTest).task u).nesting = _
        rw [LockRun.goto, Locking.set_task_of_ne _ _ hu]
    · exact h.goto rfl rfl (by simp [hpc, HasLock])
  case acquire => exact h.runLock hphases (.inl ⟨hpc, rfl⟩)
  case release => exact h.runLock hphases (.inr ⟨hpc, rfl⟩)
  case woken =>
    rw [hpc] at hphase
    have hnesting := h.nesting t
    rw [hpc, if_pos (by decide)] at hnesting
    have hholder := ((lockSafe_of_shallow h.reach).outside t (by omega) hphase).1
    refine h.set rfl ?_ ?_ ?_
    · exact .step h.reach (a := .lockRelease t) trivial (.lockRelease hphase hholder)
    · show ((s.locking.set t _).task t).nesting = _
      rw [Locking.set_task_self]
      simp only [Locking.Local.nesting] at hnesting ⊢
      push_cast
      rw [if_neg (by decide)]
      omega
    · intro u hu
      show ((s.locking.set t _).task u).nesting = _
      rw [Locking.set_task_of_ne _ _ hu]
  case access =>
    unfold IoqRun.access
    split <;> split <;> exact h.goto rfl rfl (by simp [hpc, HasLock])
  case advance =>
    unfold IoqRun.advance
    split <;> exact h.goto rfl rfl (by simp [hpc, HasLock])
  case waitAssert =>
    refine h.goto rfl rfl ?_
    rw [if_pos (h.slot_none hslots hg hpc)]
    simp [hpc, HasLock]
  case wakeTest | wakeAssert =>
    refine h.goto rfl rfl ?_
    dsimp only
    split_ifs <;> simp [hpc, HasLock]
  case unblock =>
    split
    · exact h.goto rfl rfl (by simp [hpc, HasLock])
    · split
      · exact h.goto rfl rfl (by simp [hpc, HasLock])
      · rename_i w hw _ r hr
        obtain ⟨-, hblock⟩ := hslots.unblock hpc hw
        rcases taskUnblock_cases hr with ⟨hblocked, rfl⟩ | ⟨hnot, hwaiting, rfl⟩
        · have hwoken : Locks (s.goto w .woken) := h.goto rfl rfl (by simp [hblocked, HasLock])
          refine hwoken.goto rfl rfl ?_
          have htw : t ≠ w := by
            rintro rfl
            rw [hpc] at hblocked
            cases hblocked
          rw [IoqRun.goto, set_task_of_ne _ _ htw, hpc]
          simp [HasLock]
        · have hw' := hphases w
          rw [hblock.resolve_right hnot, show (s.locking.task w).pc = _ from hwaiting] at hw'
          cases hw'
  all_goals exact h.goto rfl rfl (by simp [hpc, HasLock])

end Locks

/-- What an ioqueue is for, when the order of the bytes is left to the tasks. -/
structure Shareable (s : IoqRun) : Prop where
  bytes : (s.returned ++ ringBytes s.queue).Perm s.stored
  waiterNull : ∀ t, (s.task t).pc ≠ .failed .waiterNull
  waiterNotNull : ∀ t, (s.task t).pc ≠ .failed .waiterNotNull

/-- Tasks of one side follow one another. -/
def Orderly (s : IoqRun) (op : Op) : Prop := Serial s op ∧ Turns s op

/-- Everything about waiting that the steps keep. -/
structure Sharing (s : IoqRun) : Prop where
  phases : Phases s
  slots : Slots s
  locks : Locks s
  asserts : ∀ t a, (s.task t).pc = .failed a → a = .status

/-- Only the assertion on the status may fail. -/
lemma Sharing.asserts_run {s : IoqRun} {t : TaskAddr} (h : Sharing s) (hg : Turns s (.run t)) :
    ∀ u a, ((s.run t).task u).pc = .failed a → a = .status := by
  intro u a hu
  have hran := ran_run s t
  by_cases hut : u = t
  · subst hut
    have hnext := hran.next
    rw [hu] at hnext
    cases hpc : (s.task u).pc <;> simp only [Next, hpc] at hnext
    case waitAssert =>
      rw [if_pos (h.locks.slot_none h.slots hg hpc)] at hnext
      cases hnext
    case wakeAssert =>
      rw [if_pos (h.slots.waking u (.inl hpc))] at hnext
      cases hnext
    case failed b =>
      obtain rfl := Pc.failed.inj hnext
      exact h.asserts u a hpc
    case wakeTest => split_ifs at hnext
    case unblock => simpa using hnext
    all_goals simp at hnext
  · rcases hran.others u hut with heq | ⟨-, -, hwoken, -⟩
    · rw [heq] at hu
      exact h.asserts u a hu
    · rw [hwoken] at hu
      cases hu

/-- A task that calls one of the functions. -/
lemma Sharing.call {s : IoqRun} {t : TaskAddr} {l : Local} (h : Sharing s)
    (ht : (s.task t).pc = .user) (hl : l.pc = .test) : Sharing (s.set t l) := by
  constructor
  · have hphase := h.phases t
    rw [ht] at hphase
    refine h.phases.set (fun _ _ => rfl) (fun _ _ => .inl rfl) ?_
    rw [hl]
    exact hphase
  · exact h.slots.call ht hl
  · exact h.locks.goto rfl rfl (by simp [ht, hl, HasLock])
  · intro u a hu
    by_cases hut : u = t
    · subst hut
      rw [set_task_self, hl] at hu
      cases hu
    · rw [set_task_of_ne _ _ hut] at hu
      exact h.asserts u a hu

theorem Sharing.step {s s' : IoqRun} {op : Op} (h : Sharing s) (hg : Orderly s op)
    (hst : Step s op s') : Sharing s' := by
  cases hst with
  | getchar ht | putchar ht => exact h.call ht rfl
  | run => exact ⟨h.phases.run _, h.slots.run hg.2, h.locks.run h.phases h.slots hg.2,
      h.asserts_run hg.2⟩

theorem sharing_of_orderly {s : IoqRun} (hs : ioqSystem.Reach Orderly s) : Sharing s := by
  refine hs.invariant ?_ fun s op s' h hg hst => h.step hg hst
  rintro s ⟨buf, rfl⟩
  refine ⟨fun t => rfl, ⟨nofun, nofun, ?_⟩, ⟨.init rfl, fun t => rfl⟩, nofun⟩
  intro t u _ ht
  simp [InWakeup, ioqStart] at ht

/-- Tasks of one side may share the queue as long as they follow one another. -/
theorem shareable_of_orderly {s : IoqRun} (hs : ioqSystem.Reach Orderly s) : Shareable s := by
  obtain ⟨tail, len, hring⟩ := ringInv_of_serial (hs.mono fun _ _ hg => hg.1)
  have hsharing := sharing_of_orderly hs
  constructor
  · rw [hring.intact.order]
  · intro t ht
    cases hsharing.asserts t _ ht
  · intro t ht
    cases hsharing.asserts t _ ht

/-- Task 1 has put a byte, and task 2 is about to. -/
def twoPuts : IoqRun :=
  ((((((ioqStart fun _ => 0).set 1 ⟨.test, .producer, 7⟩).run 1).run 1).run 1).run 1).set 2
    ⟨.test, .producer, 9⟩ |>.run 2

lemma twoPuts_orderly : ioqSystem.Reach Orderly twoPuts := by
  have h0 : ioqSystem.Reach Orderly (ioqStart fun _ => 0) := .init ⟨_, rfl⟩
  have h1 := reach_putchar h0 (t := 1) 7 ⟨trivial, trivial⟩ rfl
  have hother1 : ∀ u, u ≠ 1 →
      (((ioqStart fun _ => 0).set 1 ⟨.test, .producer, 7⟩).task u).pc = .user := by
    intro u hu
    rw [set_task_of_ne _ _ hu]
    rfl
  have hregion : ∀ {l : Local} {side : Side}, l.pc = .user ∨ l.pc = .test → ¬ l.InRegion side := by
    rintro l side hpc ⟨-, hl⟩
    rcases hpc with hpc | hpc <;> simp [hpc] at hl
  have h2 := reach_run h1 (t := 1) ⟨fun _ _ u => hregion (by
    by_cases hu : u = 1
    · subst hu
      exact .inr rfl
    · exact .inl (hother1 u hu)), nofun, nofun⟩
  have h3 := reach_run h2 (t := 1) ⟨nofun, nofun, nofun⟩
  have h4 := reach_run h3 (t := 1) ⟨nofun, nofun, nofun⟩
  have h5 := reach_run h4 (t := 1) ⟨nofun, fun _ hslot => absurd rfl hslot, nofun⟩
  have h6 := reach_putchar h5 (t := 2) 9 ⟨trivial, trivial⟩ rfl
  refine reach_run h6 (t := 2) ⟨fun _ _ u => hregion ?_, nofun, nofun⟩
  by_cases hu2 : u = 2
  · subst hu2
    exact .inr rfl
  · rw [set_task_of_ne _ _ hu2]
    by_cases hu1 : u = 1
    · subst hu1
      exact .inl rfl
    · left
      exact (keeps_run _ 1 u).2 ((keeps_run _ 1 u).2 ((keeps_run _ 1 u).2
        ((keeps_run _ 1 u).2 (hother1 u hu1))))

theorem shareable_twoPuts : Shareable twoPuts := shareable_of_orderly twoPuts_orderly

/-- Tasks 1 and 2 both write to the first cell and then both advance `head`. -/
def raced : IoqRun :=
  (((ioqStart fun _ => 0).set 1 ⟨.test, .producer, 7⟩).set 2 ⟨.test, .producer, 9⟩)
    |>.run 1 |>.run 2 |>.run 1 |>.run 2 |>.run 1 |>.run 2

lemma raced_reachable : ioqSystem.Reachable raced := by
  have h0 : ioqSystem.Reachable (ioqStart fun _ => 0) := .init ⟨_, rfl⟩
  have h1 := reach_putchar h0 (t := 1) 7 trivial rfl
  have h2 := reach_putchar h1 (t := 2) 9 trivial rfl
  have h3 := reach_run h2 (t := 1) trivial
  have h4 := reach_run h3 (t := 2) trivial
  have h5 := reach_run h4 (t := 1) trivial
  have h6 := reach_run h5 (t := 2) trivial
  have h7 := reach_run h6 (t := 1) trivial
  exact reach_run h7 (t := 2) trivial

/-- The byte of task 1 is lost, and a byte that nobody put is in the ring. -/
theorem not_shareable : ¬ ∀ s, ioqSystem.Reachable s → Shareable s := by
  intro hall
  have hbytes := (hall raced raced_reachable).bytes
  revert hbytes
  decide

end Libtask.Ioq
