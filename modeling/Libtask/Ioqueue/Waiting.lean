import Libtask.Ioqueue.Integrity

/-!
# Waiting for an ioqueue

A task tests the queue, takes the lock, registers itself and sleeps, and does
not test again in between. It sleeps in vain only when the other side moves its
index in that time.
-/
namespace Libtask.Ioq
open Locking Transition Window

/-- The statements of `lock_acquire`. -/
def Acquiring (pc : Locking.Pc) : Prop :=
  match pc with
  | .acquireTest | .semaDown | .waiting | .setHolder | .assertZero | .setRepeatNr | .incLoad
  | .incStore _ => True
  | _ => False

/-- The statements of `lock_release`. -/
def Releasing (pc : Locking.Pc) : Prop :=
  match pc with
  | .assertHolder | .releaseTest | .decLoad | .decStore _ | .assertOne | .clearHolder
  | .clearRepeatNr | .semaUp => True
  | .user | .acquireTest | .semaDown | .waiting | .setHolder | .assertZero | .setRepeatNr
  | .incLoad | .incStore _ | .stopped => False

/-- Where a task is in the lock, given where it is in the ioqueue. -/
def LockPhase (pc : Pc) (lockPc : Locking.Pc) : Prop :=
  match pc with
  | .acquire => Acquiring lockPc ∨ lockPc = .stopped
  | .release => Releasing lockPc ∨ lockPc = .stopped
  | _ => lockPc = .user

/-- Where a statement of `t` takes the tasks in the lock. -/
structure LockRan (r r' : LockRun) (t : TaskAddr) : Prop where
  acquiring : Acquiring (r.task t).pc →
    Acquiring (r'.task t).pc ∨ (r'.task t).pc = .user ∨ (r'.task t).pc = .stopped
  releasing : Releasing (r.task t).pc →
    Releasing (r'.task t).pc ∨ (r'.task t).pc = .user ∨ (r'.task t).pc = .stopped
  stopped : (r.task t).pc = .stopped → (r'.task t).pc = .stopped
  others : ∀ u, u ≠ t → (r'.task u).pc = (r.task u).pc ∨
    (r.task u).pc = .waiting ∧ (r'.task u).pc = .semaDown

/-- A statement that moves `t` on, and may make another task test again. -/
lemma LockRan.set {r r' : LockRun} {t : TaskAddr} {l : Locking.Local}
    (hothers : ∀ u, u ≠ t → (r'.task u).pc = (r.task u).pc ∨
      (r.task u).pc = .waiting ∧ (r'.task u).pc = .semaDown)
    (hacq : Acquiring (r.task t).pc → Acquiring l.pc ∨ l.pc = .user ∨ l.pc = .stopped)
    (hrel : Releasing (r.task t).pc → Releasing l.pc ∨ l.pc = .user ∨ l.pc = .stopped)
    (hstop : (r.task t).pc ≠ .stopped) : LockRan r (r'.set t l) t := by
  constructor
  · rwa [Locking.set_task_self]
  · rwa [Locking.set_task_self]
  · exact fun h => absurd h hstop
  · intro u hu
    rw [Locking.set_task_of_ne _ _ hu]
    exact hothers u hu

lemma lockRan_semaDown {r : LockRun} {t : TaskAddr} (hpc : (r.task t).pc = .semaDown) :
    LockRan r (r.semaDown t) t := by
  have hset : ∀ {r' : LockRun} {l : Locking.Local}, r'.task = r.task →
      (Acquiring l.pc ∨ l.pc = .user ∨ l.pc = .stopped) → LockRan r (r'.set t l) t := by
    intro r' l htask hl
    apply LockRan.set (fun u _ => .inl (by rw [htask])) (fun _ => hl)
    · simp [hpc, Releasing]
    · simp [hpc]
  unfold LockRun.semaDown
  dsimp only
  split_ifs
  · exact hset rfl (.inr (.inr rfl))
  · exact hset rfl (.inl (by simp [Acquiring]))
  · exact hset rfl (.inl (by simp [Acquiring]))
  · exact hset rfl (.inr (.inr rfl))

lemma lockRan_semaUp {r : LockRun} {t : TaskAddr} (hpc : (r.task t).pc = .semaUp) :
    LockRan r (r.semaUp t) t := by
  have hset : ∀ {r' : LockRun} {l : Locking.Local}, (∀ u, u ≠ t →
      (r'.task u).pc = (r.task u).pc ∨ (r.task u).pc = .waiting ∧ (r'.task u).pc = .semaDown) →
      (l.pc = .user ∨ l.pc = .stopped) → LockRan r (r'.set t l) t := by
    intro r' l hothers hl
    apply LockRan.set hothers
    · simp [hpc, Acquiring]
    · exact fun _ => .inr hl
    · simp [hpc]
  have hgive : ∀ {r' : LockRun}, (∀ u, u ≠ t →
      (r'.task u).pc = (r.task u).pc ∨ (r.task u).pc = .waiting ∧ (r'.task u).pc = .semaDown) →
      LockRan r (r'.semaGive t) t := by
    intro r' hothers
    unfold LockRun.semaGive
    dsimp only
    split_ifs
    · exact hset hothers (.inl rfl)
    · exact hset hothers (.inr rfl)
  unfold LockRun.semaUp
  split_ifs
  · cases r.semaphore.waiters with
    | nil => exact hgive fun _ _ => .inl rfl
    | cons w rest =>
      dsimp only
      split
      · exact hset (fun _ _ => .inl rfl) (.inr rfl)
      · rename_i r' hr'
        unfold LockRun.taskUnblock at hr'
        split_ifs at hr' with hw
        obtain rfl := Option.some.inj hr'
        apply hgive
        intro u _
        by_cases huw : u = w
        · subst huw
          exact .inr ⟨hw, by simp [LockRun.goto]⟩
        · rw [LockRun.goto, Locking.set_task_of_ne _ _ huw]
          exact .inl rfl
  · exact hset (fun _ _ => .inl rfl) (.inr rfl)

theorem lockRan_run (r : LockRun) (t : TaskAddr) : LockRan r (r.run t) t := by
  have hset : ∀ {r' : LockRun} {l : Locking.Local}, r'.task = r.task →
      (Acquiring (r.task t).pc → Acquiring l.pc ∨ l.pc = .user ∨ l.pc = .stopped) →
      (Releasing (r.task t).pc → Releasing l.pc ∨ l.pc = .user ∨ l.pc = .stopped) →
      (r.task t).pc ≠ .stopped → LockRan r (r'.set t l) t :=
    fun htask => LockRan.set fun u _ => .inl (by rw [htask])
  cases hpc : (r.task t).pc <;> simp only [LockRun.run, hpc]
  case user | waiting | stopped =>
    exact ⟨fun h => .inl h, fun h => .inl h, id, fun _ _ => .inl rfl⟩
  case semaDown => exact lockRan_semaDown hpc
  case semaUp => exact lockRan_semaUp hpc
  case assertZero | assertHolder | assertOne =>
    refine hset rfl ?_ ?_ (by simp [hpc]) <;> split_ifs <;> simp [hpc, Acquiring, Releasing]
  case acquireTest | releaseTest =>
    refine hset rfl ?_ ?_ (by simp [hpc]) <;> split_ifs <;> simp [hpc, Acquiring, Releasing]
  all_goals refine hset rfl ?_ ?_ (by simp [hpc]) <;> simp [hpc, Acquiring, Releasing]

def Phases (s : IoqRun) : Prop := ∀ t, LockPhase (s.task t).pc (s.locking.task t).pc

/-- Only a task in `lock_acquire` waits for the lock. -/
lemma LockPhase.acquire {pc : Pc} (h : LockPhase pc .waiting) : pc = .acquire := by
  cases pc <;> simp [LockPhase, Releasing] at h ⊢

lemma Phases.set {s r : IoqRun} {t : TaskAddr} {l : Local} (h : Phases s)
    (htask : ∀ u, u ≠ t → (r.task u).pc = (s.task u).pc)
    (hlock : ∀ u, u ≠ t → (r.locking.task u).pc = (s.locking.task u).pc ∨
      (s.locking.task u).pc = .waiting ∧ (r.locking.task u).pc = .semaDown)
    (ht : LockPhase l.pc (r.locking.task t).pc) : Phases (r.set t l) := by
  intro u
  by_cases hu : u = t
  · subst hu
    rwa [set_task_self]
  · rw [set_task_of_ne _ _ hu, htask u hu]
    have hu' := h u
    rcases hlock u hu with heq | ⟨hwait, hdown⟩
    · show LockPhase _ (r.locking.task u).pc
      rwa [heq]
    · show LockPhase _ (r.locking.task u).pc
      rw [hwait] at hu'
      rw [hdown, hu'.acquire]
      exact .inl trivial

/-- A statement outside the lock. -/
lemma Phases.goto {s r : IoqRun} {t : TaskAddr} {pc : Pc} (h : Phases s) (htask : r.task = s.task)
    (hlock : r.locking = s.locking) (huser : (s.locking.task t).pc = .user)
    (hpc : pc ≠ .acquire ∧ pc ≠ .release) : Phases (r.goto t pc) := by
  apply h.set (fun u _ => by rw [htask]) (fun u _ => .inl (by rw [hlock]))
  rw [hlock, huser]
  cases pc <;> first | rfl | simp at hpc

/-- A statement in the lock. -/
lemma Phases.runLock {s : IoqRun} {t : TaskAddr} {pc : Pc} (h : Phases s)
    (hpc : (s.task t).pc = .acquire ∧ pc = .waitAssert ∨ (s.task t).pc = .release ∧ pc = .test) :
    Phases (s.runLock t pc) := by
  have hran := lockRan_run s.locking t
  have ht := h t
  refine h.set (fun u _ => rfl) hran.others ?_
  show LockPhase (if ((s.locking.run t).task t).pc = Locking.Pc.user then pc else (s.task t).pc)
    ((s.locking.run t).task t).pc
  by_cases huser : ((s.locking.run t).task t).pc = Locking.Pc.user
  · rw [if_pos huser, huser]
    rcases hpc with ⟨-, rfl⟩ | ⟨-, rfl⟩ <;> rfl
  · rw [if_neg huser]
    rcases hpc with ⟨hacq, -⟩ | ⟨hrel, -⟩
    · rw [hacq] at ht ⊢
      rcases ht with ht | ht
      · rcases hran.acquiring ht with h' | h' | h'
        · exact .inl h'
        · exact absurd h' huser
        · exact .inr h'
      · exact .inr (hran.stopped ht)
    · rw [hrel] at ht ⊢
      rcases ht with ht | ht
      · rcases hran.releasing ht with h' | h' | h'
        · exact .inl h'
        · exact absurd h' huser
        · exact .inr h'
      · exact .inr (hran.stopped ht)

lemma Phases.taskUnblock {s r : IoqRun} {w : TaskAddr} (h : Phases s)
    (hr : s.taskUnblock w = some r) : Phases r := by
  rcases taskUnblock_cases hr with ⟨hblocked, rfl⟩ | ⟨-, hwaiting, rfl⟩
  · have hw := h w
    rw [hblocked] at hw
    exact h.goto rfl rfl hw ⟨nofun, nofun⟩
  · intro u
    show LockPhase (s.task u).pc ((s.locking.goto w .semaDown).task u).pc
    by_cases hu : u = w
    · subst hu
      have hw := h u
      rw [hwaiting] at hw
      rw [hw.acquire, LockRun.goto, Locking.set_task_self]
      exact .inl trivial
    · rw [LockRun.goto, Locking.set_task_of_ne _ _ hu]
      exact h u

theorem Phases.run {s : IoqRun} (h : Phases s) (t : TaskAddr) : Phases (s.run t) := by
  have ht := h t
  cases hpc : (s.task t).pc <;> rw [hpc] at ht <;> simp only [IoqRun.run, hpc]
  case user | blocked | failed | fault => exact h
  case test =>
    split_ifs
    · refine h.set (fun _ _ => rfl) ?_ ?_
      · intro u hu
        left
        show ((s.locking.goto t .acquireTest).task u).pc = _
        rw [LockRun.goto, Locking.set_task_of_ne _ _ hu]
      · show LockPhase .acquire ((s.locking.goto t .acquireTest).task t).pc
        rw [LockRun.goto, Locking.set_task_self]
        exact .inl trivial
    · exact h.goto rfl rfl ht (by simp)
  case acquire => exact h.runLock (.inl ⟨hpc, rfl⟩)
  case release => exact h.runLock (.inr ⟨hpc, rfl⟩)
  case woken =>
    refine h.set (fun _ _ => rfl) ?_ ?_
    · intro u hu
      left
      show ((s.locking.set t _).task u).pc = _
      rw [Locking.set_task_of_ne _ _ hu]
    · show LockPhase .release ((s.locking.set t _).task t).pc
      rw [Locking.set_task_self]
      exact .inl trivial
  case waitAssert | wakeAssert =>
    refine h.goto rfl rfl ht ?_
    split_ifs <;> simp
  case wakeTest =>
    refine h.goto rfl rfl ht ?_
    split_ifs <;> simp
  case access =>
    unfold IoqRun.access
    split <;> split
    · exact h.goto rfl rfl ht (by simp)
    · exact h.set (fun _ _ => rfl) (fun _ _ => .inl rfl) ht
    · exact h.goto rfl rfl ht (by simp)
    · exact h.goto rfl rfl ht (by simp)
  case advance =>
    unfold IoqRun.advance
    split <;> exact h.goto rfl rfl ht (by simp)
  case unblock =>
    cases hw : s.queue.waiter (s.task t).side.other with
    | none => exact h.goto rfl rfl ht (by simp)
    | some w =>
      cases hr : s.taskUnblock w with
      | none =>
        simp only [hr]
        exact h.goto rfl rfl ht (by simp)
      | some r =>
        simp only [hr]
        refine (h.taskUnblock hr).goto rfl rfl ?_ (by simp)
        rcases taskUnblock_cases hr with ⟨-, rfl⟩ | ⟨-, hwaiting, rfl⟩
        · exact ht
        · have htw : t ≠ w := by
            rintro rfl
            rw [show (s.locking.task t).pc = .user from ht] at hwaiting
            cases hwaiting
          show ((s.locking.goto w .semaDown).task t).pc = .user
          rw [LockRun.goto, Locking.set_task_of_ne _ _ htw]
          exact ht
  all_goals exact h.goto rfl rfl ht (by simp)

/-- The task of each side. -/
def role (p c : TaskAddr) : Side → TaskAddr
  | .consumer => c
  | .producer => p

/-- The task has found that it must wait, and does not sleep yet. -/
def Deciding (pc : Pc) : Prop :=
  pc = .acquire ∨ pc = .waitAssert ∨ pc = .waitSet ∨ pc = .block

instance : DecidablePred Deciding := fun _ => inferInstanceAs (Decidable (_ ∨ _ ∨ _ ∨ _))

/-- The task has updated its index and is to wake the other side. -/
def Waking (pc : Pc) : Prop := pc = .wakeTest ∨ pc = .wakeAssert ∨ pc = .unblock

/-- In `ioq_wait`, or on `ioq->lock`. -/
def IoqRun.Asleep (s : IoqRun) (t : TaskAddr) : Prop :=
  (s.task t).pc = .blocked ∨ (s.locking.task t).pc = .waiting

/-- No index is updated while a task of the other side has found that it must
wait and does not sleep yet. -/
def Undisturbed (s : IoqRun) : Op → Prop
  | .run t => (s.task t).pc = .advance →
    ∀ u, (s.task u).side = (s.task t).side.other → ¬ Deciding (s.task u).pc
  | _ => True

/-- Nobody waits for ever: the two tasks do not sleep both, and a task that
sleeps in `ioq_wait` must wait, unless the other one is about to wake it. -/
structure Awake (p c : TaskAddr) (s : IoqRun) : Prop where
  not_both : ¬ (s.Asleep p ∧ s.Asleep c)
  empty : (s.task c).pc = .blocked → ¬ Waking (s.task p).pc → ioqEmpty s.queue = true
  full : (s.task p).pc = .blocked → ¬ Waking (s.task c).pc → ioqFull s.queue = true

/-- What a task `a`, at `apc`, may rely on, given the statement of the other task
and the waiter slot of the side of `a`. -/
structure SideInv (a : TaskAddr) (apc bpc : Pc) (slot : Option TaskAddr) (wait : Prop) : Prop where
  deciding : Deciding apc → wait
  asleep : apc = .blocked → slot = some a ∧ (wait ∨ Waking bpc)
  owner : ∀ x, slot = some x → x = a ∧ (apc = .block ∨ apc = .blocked ∨ bpc = .wakeClear)
  block : apc = .block → slot = some a
  waitSet : apc = .waitSet → slot = none
  unblock : bpc = .unblock → slot = some a
  wakeClear : bpc = .wakeClear → slot = some a ∧ apc ≠ .block ∧ apc ≠ .blocked

def Sides (p c : TaskAddr) (s : IoqRun) : Prop := ∀ side, SideInv (role p c side)
  (s.task (role p c side)).pc (s.task (role p c side.other)).pc (s.queue.waiter side)
  (s.mustWait side = true)

section Steps

variable {p c : TaskAddr} {s : IoqRun}

lemma Roles.eq_role (h : Roles p c s) {t : TaskAddr} (ht : (s.task t).pc ≠ .user) :
    t = role p c (s.task t).side := by
  have := h t ht
  cases hside : (s.task t).side <;> rw [hside] at this <;> exact this

lemma role_ne (hpc : p ≠ c) (side : Side) : role p c side.other ≠ role p c side := by
  cases side
  · exact hpc
  · exact hpc.symm

/-- A statement of the task of one side that moves only this task. -/
lemma sides_set (hpc : p ≠ c) {r : IoqRun} {l : Local} {side : Side}
    (htask : r.task = s.task)
    (hown : SideInv (role p c side) l.pc (s.task (role p c side.other)).pc (r.queue.waiter side)
      (r.mustWait side = true))
    (hother : SideInv (role p c side.other) (s.task (role p c side.other)).pc l.pc
      (r.queue.waiter side.other) (r.mustWait side.other = true)) :
    Sides p c (r.set (role p c side) l) := by
  have hself : ((r.set (role p c side) l).task (role p c side)).pc = l.pc := by
    rw [set_task_self]
  have hne : ((r.set (role p c side) l).task (role p c side.other)).pc =
      (s.task (role p c side.other)).pc := by
    rw [set_task_of_ne _ _ (role_ne hpc side), htask]
  intro side'
  rcases Side.eq_or_other side' side with rfl | rfl
  · rw [hself, hne]
    exact hown
  · rw [Side.other_other, hself, hne]
    exact hother

/-- A statement that touches neither the queue nor a slot. -/
lemma Sides.goto (h : Sides p c s) (hpc : p ≠ c) {r : IoqRun} {side : Side} {l : Local}
    (htask : r.task = s.task) (hwaiter : r.queue.waiter = s.queue.waiter)
    (hwait : ∀ side, r.mustWait side = s.mustWait side)
    (hown : SideInv (role p c side) l.pc (s.task (role p c side.other)).pc (s.queue.waiter side)
      (s.mustWait side = true))
    (hwake : l.pc ≠ .unblock ∧ l.pc ≠ .wakeClear)
    (hwas : Waking (s.task (role p c side)).pc → Waking l.pc ∨
      (s.task (role p c side.other)).pc ≠ .blocked)
    (hclear : (s.task (role p c side)).pc ≠ .wakeClear) :
    Sides p c (r.set (role p c side) l) := by
  refine sides_set hpc htask ?_ ?_
  · rwa [hwaiter, hwait]
  · have hb := h side.other
    rw [Side.other_other] at hb
    rw [hwaiter, hwait]
    refine ⟨hb.deciding, ?_, ?_, hb.block, hb.waitSet, fun hl => absurd hl hwake.1,
      fun hl => absurd hl hwake.2⟩
    · intro hbl
      obtain ⟨hslot, hw⟩ := hb.asleep hbl
      refine ⟨hslot, hw.imp_right fun hwaking => ?_⟩
      exact (hwas hwaking).resolve_right fun hn => hn hbl
    · intro x hx
      obtain ⟨hxa, hst⟩ := hb.owner x hx
      refine ⟨hxa, ?_⟩
      rcases hst with hst | hst | hst
      · exact .inl hst
      · exact .inr (.inl hst)
      · exact absurd hst hclear

/-- The task goes on awake, and has not begun to wait. -/
lemma SideInv.calm {a : TaskAddr} {apc apc' bpc : Pc} {slot : Option TaskAddr} {wait wait' : Prop}
    (h : SideInv a apc bpc slot wait) (hwas : apc ≠ .block ∧ apc ≠ .blocked)
    (hnow : ¬ Deciding apc' ∧ apc' ≠ .blocked) : SideInv a apc' bpc slot wait' := by
  have hblock : apc' ≠ .block := fun hb => hnow.1 (.inr (.inr (.inr hb)))
  constructor
  · exact fun hd => absurd hd hnow.1
  · exact fun hb => absurd hb hnow.2
  · intro x hx
    obtain ⟨hxa, hb | hb | hb⟩ := h.owner x hx
    · exact absurd hb hwas.1
    · exact absurd hb hwas.2
    · exact ⟨hxa, .inr (.inr hb)⟩
  · exact fun hb => absurd hb hblock
  · exact fun hw => absurd (.inr (.inr (.inl hw))) hnow.1
  · exact h.unblock
  · exact fun hb => ⟨(h.wakeClear hb).1, hblock, hnow.2⟩

/-- The task goes on deciding, without a registration yet. -/
lemma SideInv.decide {a : TaskAddr} {apc apc' bpc : Pc} {slot : Option TaskAddr} {wait : Prop}
    (h : SideInv a apc bpc slot wait) (hwas : apc ≠ .block ∧ apc ≠ .blocked)
    (hnow : apc' = .acquire ∨ apc' = .waitAssert ∨ apc' = .waitSet ∧ slot = none) (hwait : wait) :
    SideInv a apc' bpc slot wait := by
  have hsleep : apc' ≠ .block ∧ apc' ≠ .blocked := by
    rcases hnow with rfl | rfl | ⟨rfl, -⟩ <;> exact ⟨nofun, nofun⟩
  constructor
  · exact fun _ => hwait
  · exact fun hb => absurd hb hsleep.2
  · intro x hx
    obtain ⟨hxa, hb | hb | hb⟩ := h.owner x hx
    · exact absurd hb hwas.1
    · exact absurd hb hwas.2
    · exact ⟨hxa, .inr (.inr hb)⟩
  · exact fun hb => absurd hb hsleep.1
  · intro hw
    rcases hnow with rfl | rfl | ⟨-, hnone⟩
    · cases hw
    · cases hw
    · exact hnone
  · exact h.unblock
  · exact fun hb => ⟨(h.wakeClear hb).1, hsleep⟩

lemma role_inj (hpc : p ≠ c) {a b : Side} (h : role p c a = role p c b) : a = b := by
  rcases Side.eq_or_other a b with rfl | rfl
  · rfl
  · exact absurd h (role_ne hpc b)

lemma Roles.side_eq (h : Roles p c s) (hpc : p ≠ c) {side : Side}
    (ht : (s.task (role p c side)).pc ≠ .user) : (s.task (role p c side)).side = side :=
  (role_inj hpc (h.eq_role ht)).symm

/-- The update of an index is followed by the test of the other slot. -/
lemma Sides.advance (h : Sides p c s) (hpc : p ≠ c) (hroles : Roles p c s) {side : Side}
    (ht : (s.task (role p c side)).pc = .advance)
    (hg : Undisturbed s (.run (role p c side))) : Sides p c (s.advance (role p c side)) := by
  have hside : (s.task (role p c side)).side = side := hroles.side_eq hpc (by simp [ht])
  have hown := h side
  have hother := h side.other
  rw [Side.other_other] at hother
  have hcalm : ∀ wait' : Prop, SideInv (role p c side) .wakeTest
      (s.task (role p c side.other)).pc (s.queue.waiter side) wait' := by
    intro wait'
    apply hown.calm
    · simp [ht]
    · simp [Deciding]
  have hawait : ∀ wait' : Prop, SideInv (role p c side.other) (s.task (role p c side.other)).pc
      .wakeTest (s.queue.waiter side.other) wait' := by
    intro wait'
    refine ⟨?_, ?_, ?_, hother.block, hother.waitSet, nofun, nofun⟩
    · intro hd
      have huser : (s.task (role p c side.other)).pc ≠ .user := by
        intro hu
        simp [Deciding, hu] at hd
      exact absurd hd (hg ht _ (by rw [hroles.side_eq hpc huser, hside]))
    · exact fun hb => ⟨(hother.asleep hb).1, .inr (.inl rfl)⟩
    · intro x hx
      obtain ⟨hxa, hb | hb | hb⟩ := hother.owner x hx
      · exact ⟨hxa, .inl hb⟩
      · exact ⟨hxa, .inr (.inl hb)⟩
      · rw [ht] at hb
        cases hb
  unfold IoqRun.advance
  split <;> exact sides_set hpc rfl (hcalm _) (hawait _)

/-- `wakeup` finds the task of the other side asleep, or about to sleep. -/
lemma Sides.unblock (h : Sides p c s) (hpc : p ≠ c) (hroles : Roles p c s) (hphases : Phases s)
    {side : Side} (ht : (s.task (role p c side)).pc = .unblock) :
    Sides p c (s.run (role p c side)) := by
  have hside : (s.task (role p c side)).side = side := hroles.side_eq hpc (by simp [ht])
  have hown := h side
  have hother := h side.other
  rw [Side.other_other] at hother
  have hslot := hother.unblock ht
  simp only [IoqRun.run, ht, hside, hslot]
  have hcalm : ∀ pc, ¬ Deciding pc ∧ pc ≠ .blocked → SideInv (role p c side) pc
      (s.task (role p c side.other)).pc (s.queue.waiter side) (s.mustWait side = true) :=
    fun pc hpc => hown.calm (by simp [ht]) hpc
  obtain ⟨-, hb | hb | hb⟩ := hother.owner _ hslot
  · -- not yet asleep: the assertion of `task_unblock` fails
    have hlock := hphases (role p c side.other)
    rw [hb] at hlock
    have hnone : s.taskUnblock (role p c side.other) = none := by
      unfold IoqRun.taskUnblock
      rw [if_neg (by simp [hb]), if_neg]
      rw [show (s.locking.task (role p c side.other)).pc = .user from hlock]
      simp
    simp only [hnone]
    apply h.goto hpc rfl rfl (fun _ => rfl)
    · exact hcalm _ ⟨by simp [Deciding], by simp⟩
    · simp
    · exact fun _ => .inr (by simp [hb])
    · simp [ht]
  · have hsome : s.taskUnblock (role p c side.other) =
        some (s.goto (role p c side.other) .woken) := if_pos hb
    simp only [hsome]
    have hself : (((s.goto (role p c side.other) .woken).goto (role p c side) .wakeClear).task
        (role p c side)).pc = .wakeClear := by
      rw [IoqRun.goto, set_task_self]
    have hne : (((s.goto (role p c side.other) .woken).goto (role p c side) .wakeClear).task
        (role p c side.other)).pc = .woken := by
      rw [IoqRun.goto, set_task_of_ne _ _ (role_ne hpc side), IoqRun.goto, set_task_self]
    intro side'
    rcases Side.eq_or_other side' side with rfl | rfl
    · rw [hself, hne]
      have hnow := hcalm .wakeClear ⟨by simp [Deciding], by simp⟩
      refine ⟨hnow.deciding, by simp, ?_, by simp, by simp, by simp, by simp⟩
      intro x hx
      obtain ⟨-, hst | hst | hst⟩ := hnow.owner x hx
      · cases hst
      · cases hst
      · rw [hb] at hst
        cases hst
    · rw [Side.other_other, hself, hne]
      refine ⟨by simp [Deciding], by simp, ?_, by simp, by simp, by simp,
        fun _ => ⟨hslot, by simp, by simp⟩⟩
      exact fun x hx => ⟨(hother.owner x hx).1, .inr (.inr rfl)⟩
  · rw [ht] at hb
    cases hb

/-- The slot of the other side is emptied. -/
lemma Sides.wakeClear (h : Sides p c s) (hpc : p ≠ c) {side : Side}
    (ht : (s.task (role p c side)).pc = .wakeClear) :
    Sides p c ((s.setWaiter side.other none).goto (role p c side) .user) := by
  have hown := h side
  have hother := h side.other
  rw [Side.other_other] at hother
  obtain ⟨-, hblock, hblocked⟩ := hother.wakeClear ht
  refine sides_set hpc rfl ?_ ?_
  · have hslot : (s.setWaiter side.other none).queue.waiter side = s.queue.waiter side :=
      Function.update_of_ne side.ne_other ..
    have hnow : SideInv (role p c side) .user (s.task (role p c side.other)).pc
        (s.queue.waiter side) (s.mustWait side = true) := by
      apply hown.calm
      · simp [ht]
      · simp [Deciding]
    rw [hslot]
    cases side <;> exact hnow
  · have hslot : (s.setWaiter side.other none).queue.waiter side.other = none :=
      Function.update_self ..
    have hwait : (s.setWaiter side.other none).mustWait side.other = s.mustWait side.other := by
      cases side <;> rfl
    rw [hslot, hwait]
    refine ⟨hother.deciding, fun hb => absurd hb hblocked, by simp, fun hb => absurd hb hblock,
      fun _ => rfl, by simp, by simp⟩

/-- The task registers itself. -/
lemma Sides.waitSet (h : Sides p c s) (hpc : p ≠ c) {side : Side}
    (ht : (s.task (role p c side)).pc = .waitSet) :
    Sides p c ((s.setWaiter side (some (role p c side))).goto (role p c side) .block) := by
  have hown := h side
  have hother := h side.other
  rw [Side.other_other] at hother
  have hnone := hown.waitSet ht
  have hwait : ∀ side', (s.setWaiter side (some (role p c side))).mustWait side' =
      s.mustWait side' := by
    intro side'
    cases side' <;> rfl
  have hbpc : (s.task (role p c side.other)).pc ≠ .wakeClear := by
    intro hb
    have := (hown.wakeClear hb).1
    rw [hnone] at this
    cases this
  refine sides_set hpc rfl ?_ ?_
  · have hslot : (s.setWaiter side (some (role p c side))).queue.waiter side =
        some (role p c side) := Function.update_self ..
    rw [hslot, hwait]
    refine ⟨fun _ => hown.deciding (by simp [Deciding, ht]), by simp, ?_, fun _ => rfl, by simp,
      fun _ => rfl, fun hb => absurd hb hbpc⟩
    exact fun x hx => ⟨(Option.some.inj hx).symm, .inl rfl⟩
  · have hslot : (s.setWaiter side (some (role p c side))).queue.waiter side.other =
        s.queue.waiter side.other := Function.update_of_ne side.ne_other.symm ..
    rw [hslot, hwait]
    refine ⟨hother.deciding, ?_, ?_, hother.block, hother.waitSet, by simp, by simp⟩
    · intro hb
      refine ⟨(hother.asleep hb).1, (hother.asleep hb).2.imp_right fun hw => ?_⟩
      simp [Waking, ht] at hw
    · intro x hx
      refine ⟨(hother.owner x hx).1, (hother.owner x hx).2.imp_right fun hst => hst.imp_right ?_⟩
      intro hst
      rw [ht] at hst
      cases hst

/-- A statement that goes on awake, neither in the wake-up of the other side nor
about to wait. -/
lemma Sides.calm (h : Sides p c s) (hpc : p ≠ c) {r : IoqRun} {side : Side} {l : Local}
    (htask : r.task = s.task) (hwaiter : r.queue.waiter = s.queue.waiter)
    (hwait : ∀ side, r.mustWait side = s.mustWait side)
    (hwas : (s.task (role p c side)).pc ≠ .block ∧ (s.task (role p c side)).pc ≠ .blocked ∧
      (s.task (role p c side)).pc ≠ .wakeClear ∧ ¬ Waking (s.task (role p c side)).pc)
    (hnow : ¬ Deciding l.pc ∧ l.pc ≠ .blocked ∧ l.pc ≠ .unblock ∧ l.pc ≠ .wakeClear) :
    Sides p c (r.set (role p c side) l) :=
  h.goto hpc htask hwaiter hwait ((h side).calm ⟨hwas.1, hwas.2.1⟩ ⟨hnow.1, hnow.2.1⟩) hnow.2.2
    (fun hw => absurd hw hwas.2.2.2) hwas.2.2.1

/-- A statement before the registration of a task that must wait. -/
lemma Sides.decide (h : Sides p c s) (hpc : p ≠ c) {r : IoqRun} {side : Side} {l : Local}
    (htask : r.task = s.task) (hwaiter : r.queue.waiter = s.queue.waiter)
    (hwait : ∀ side, r.mustWait side = s.mustWait side)
    (hwas : (s.task (role p c side)).pc ≠ .block ∧ (s.task (role p c side)).pc ≠ .blocked ∧
      (s.task (role p c side)).pc ≠ .wakeClear ∧ ¬ Waking (s.task (role p c side)).pc)
    (hnow : l.pc = .acquire ∨ l.pc = .waitAssert ∨
      l.pc = .waitSet ∧ s.queue.waiter side = none) (hmust : s.mustWait side = true) :
    Sides p c (r.set (role p c side) l) := by
  refine h.goto hpc htask hwaiter hwait ((h side).decide ⟨hwas.1, hwas.2.1⟩ hnow hmust) ?_
    (fun hw => absurd hw hwas.2.2.2) hwas.2.2.1
  rcases hnow with hl | hl | ⟨hl, -⟩ <;> simp [hl]

theorem Sides.run (h : Sides p c s) (hpc : p ≠ c) (hroles : Roles p c s) (hphases : Phases s)
    {t : TaskAddr} (hg : Undisturbed s (.run t)) : Sides p c (s.run t) := by
  by_cases huser : (s.task t).pc = .user
  · simpa only [IoqRun.run, huser] using h
  obtain ⟨side, rfl⟩ : ∃ side, t = role p c side := ⟨_, hroles.eq_role huser⟩
  have hside := hroles.side_eq hpc huser
  have hown := h side
  have hother := h side.other
  rw [Side.other_other] at hother
  cases ht : (s.task (role p c side)).pc
  case unblock => exact h.unblock hpc hroles hphases ht
  all_goals simp only [IoqRun.run, IoqRun.check, ht, hside]
  case user | blocked | failed | fault => exact h
  case test =>
    split_ifs with hwait
    · exact h.decide hpc rfl rfl (fun _ => rfl) (by simp [ht, Waking]) (.inl rfl) hwait
    · exact h.calm hpc rfl rfl (fun _ => rfl) (by simp [ht, Waking]) (by simp [Deciding])
  case acquire =>
    apply h.decide hpc rfl rfl (fun _ => rfl) (by simp [ht, Waking])
    · show (if _ then Pc.waitAssert else _) = _ ∨ (if _ then Pc.waitAssert else _) = _ ∨ _
      rw [ht]
      split_ifs
      · exact .inr (.inl rfl)
      · exact .inl rfl
    · exact hown.deciding (.inl ht)
  case waitAssert =>
    split_ifs with hslot
    · exact h.decide hpc rfl rfl (fun _ => rfl) (by simp [ht, Waking]) (.inr (.inr ⟨rfl, hslot⟩))
        (hown.deciding (.inr (.inl ht)))
    · exact h.calm hpc rfl rfl (fun _ => rfl) (by simp [ht, Waking]) (by simp [Deciding])
  case waitSet => exact h.waitSet hpc ht
  case block =>
    have hwait := hown.deciding (.inr (.inr (.inr ht)))
    refine h.goto hpc rfl rfl (fun _ => rfl) ⟨by simp [Deciding],
      fun _ => ⟨hown.block ht, .inl hwait⟩, ?_, by simp, by simp, hown.unblock, ?_⟩
      (by simp) (by simp [ht, Waking]) (by simp [ht])
    · exact fun x hx => ⟨(hown.owner x hx).1, .inr (.inl rfl)⟩
    · exact fun hb => absurd ht (hown.wakeClear hb).2.1
  case release =>
    apply h.calm hpc rfl rfl (fun _ => rfl) (by simp [ht, Waking])
    show ¬ Deciding (if _ then _ else _) ∧ (if _ then _ else _) ≠ _ ∧ (if _ then _ else _) ≠ _ ∧
      (if _ then _ else _) ≠ _
    rw [ht]
    split_ifs <;> simp [Deciding]
  case access =>
    unfold IoqRun.access
    rw [hside]
    cases side with
    | consumer =>
      cases cell s.queue.tail <;>
        exact h.calm hpc rfl rfl (fun _ => rfl) (by simp [ht, Waking]) (by simp [Deciding])
    | producer =>
      cases cell s.queue.head <;>
        exact h.calm hpc rfl rfl (fun side => by cases side <;> rfl) (by simp [ht, Waking])
          (by simp [Deciding])
  case advance => exact h.advance hpc hroles ht hg
  case woken => exact h.calm hpc rfl rfl (fun _ => rfl) (by simp [ht, Waking]) (by simp [Deciding])
  case wakeTest =>
    by_cases hslot : s.queue.waiter side.other = none
    · rw [if_neg (by simp [hslot])]
      have hasleep : (s.task (role p c side.other)).pc ≠ .blocked := by
        intro hb
        rw [hslot] at hother
        cases (hother.asleep hb).1
      exact h.goto hpc rfl rfl (fun _ => rfl) (hown.calm (by simp [ht]) (by simp [Deciding]))
        (by simp) (fun _ => .inr hasleep) (by simp [ht])
    · rw [if_pos hslot]
      exact h.goto hpc rfl rfl (fun _ => rfl) (hown.calm (by simp [ht]) (by simp [Deciding]))
        (by simp) (fun _ => .inl (.inr (.inl rfl))) (by simp [ht])
  case wakeAssert =>
    by_cases hslot : s.queue.waiter side.other = none
    · rw [if_neg (by simp [hslot])]
      have hasleep : (s.task (role p c side.other)).pc ≠ .blocked := by
        intro hb
        rw [hslot] at hother
        cases (hother.asleep hb).1
      exact h.goto hpc rfl rfl (fun _ => rfl) (hown.calm (by simp [ht]) (by simp [Deciding]))
        (by simp) (fun _ => .inr hasleep) (by simp [ht])
    · rw [if_pos hslot]
      refine sides_set hpc rfl (hown.calm (by simp [ht]) (by simp [Deciding])) ?_
      obtain ⟨x, hx⟩ := Option.ne_none_iff_exists'.mp hslot
      obtain ⟨rfl, hst⟩ := hother.owner x hx
      refine ⟨hother.deciding, ?_, ?_, hother.block, hother.waitSet, fun _ => hx, by simp⟩
      · exact fun hb => ⟨hx, .inr (.inr (.inr rfl))⟩
      · intro y hy
        refine ⟨(hother.owner y hy).1, ?_⟩
        rcases hst with hst | hst | hst
        · exact .inl hst
        · exact .inr (.inl hst)
        · rw [ht] at hst
          cases hst
  case wakeClear => exact h.wakeClear hpc ht

/-- A task that calls one of the functions. -/
lemma Sides.call (h : Sides p c s) (hpc : p ≠ c) (side : Side)
    (ht : (s.task (role p c side)).pc = .user) {l : Local} (hl : l.pc = .test) :
    Sides p c (s.set (role p c side) l) :=
  h.calm hpc rfl rfl (fun _ => rfl) (by simp [ht, Waking]) (by simp [hl, Deciding])

/-- A task that sleeps is not about to wake the other one. -/
lemma Phases.not_waking (h : Phases s) {t : TaskAddr} (ht : s.Asleep t) :
    ¬ Waking (s.task t).pc := by
  rcases ht with hb | hw
  · simp [Waking, hb]
  · have hlock := h t
    rw [hw] at hlock
    simp [Waking, hlock.acquire]

/-- A task that sleeps must wait, unless the other one is about to wake it. -/
lemma SideInv.must (hphases : Phases s) {a : TaskAddr} {bpc : Pc} {slot : Option TaskAddr}
    {wait : Prop} (h : SideInv a (s.task a).pc bpc slot wait) (ha : s.Asleep a)
    (hb : ¬ Waking bpc) : wait := by
  rcases ha with hblocked | hwaiting
  · exact (h.asleep hblocked).2.resolve_right hb
  · have hlock := hphases a
    rw [hwaiting] at hlock
    exact h.deciding (.inl hlock.acquire)

/-- A queue is not empty and full at once, so the two tasks do not both wait. -/
theorem Sides.awake (h : Sides p c s) (hphases : Phases s) {tail : Fin 64} {len : ℕ}
    (hholds : Holds s.queue tail len) : Awake p c s := by
  constructor
  · rintro ⟨hp, hc⟩
    have hempty := (h .consumer).must hphases hc (hphases.not_waking hp)
    have hfull := (h .producer).must hphases hp (hphases.not_waking hc)
    have hzero := hholds.empty.mp hempty
    have hmax := hholds.full.mp hfull
    omega
  · exact fun hc hp => (h .consumer).must hphases (.inl hc) hp
  · exact fun hp hc => (h .producer).must hphases (.inl hp) hc

end Steps

/-- One producer and one consumer whose updates do not come between the test and
the sleep of the other one. -/
def Polite (p c : TaskAddr) (s : IoqRun) (op : Op) : Prop := OneEach p c s op ∧ Undisturbed s op

lemma Phases.step {s s' : IoqRun} {op : Op} (h : Phases s) (hst : Step s op s') : Phases s' := by
  cases hst with
  | @getchar t hpc | @putchar t byte hpc =>
    have ht := h t
    rw [hpc] at ht
    exact h.set (fun _ _ => rfl) (fun _ _ => .inl rfl) ht
  | run => exact h.run _

lemma Sides.step {p c : TaskAddr} {s s' : IoqRun} {op : Op} (h : Sides p c s) (hpc : p ≠ c)
    (hroles : Roles p c s) (hphases : Phases s) (hg : Polite p c s op) (hst : Step s op s') :
    Sides p c s' := by
  obtain ⟨hone, hg⟩ := hg
  cases hst with
  | @getchar t ht =>
    obtain rfl : t = c := hone
    have hcall : Sides p t (s.set (role p t .consumer) ⟨.test, .consumer, (s.task t).byte⟩) :=
      h.call hpc .consumer ht rfl
    exact hcall
  | @putchar t byte ht =>
    obtain rfl : t = p := hone
    have hcall : Sides t c (s.set (role t c .producer) ⟨.test, .producer, byte⟩) :=
      h.call hpc .producer ht rfl
    exact hcall
  | run => exact h.run hpc hroles hphases hg

theorem awake_of_polite {p c : TaskAddr} (hpc : p ≠ c) {s : IoqRun}
    (hs : ioqSystem.Reach (Polite p c) s) : Awake p c s := by
  have hone : ioqSystem.Reach (OneEach p c) s := hs.mono fun _ _ hg => hg.1
  obtain ⟨tail, len, hring⟩ := ringInv_of_oneEach hone
  have h : Roles p c s ∧ Phases s ∧ Sides p c s := by
    refine hs.invariant (I := fun s => Roles p c s ∧ Phases s ∧ Sides p c s) ?_ ?_
    · rintro s ⟨buf, rfl⟩
      refine ⟨fun t ht => absurd rfl ht, fun t => rfl, fun side => ?_⟩
      exact ⟨by simp [Deciding, ioqStart], nofun, nofun, nofun, nofun, nofun, nofun⟩
    · intro s op t ⟨hroles, hphases, hsides⟩ hg hst
      exact ⟨hroles.step hg.1 hst, hphases.step hst, hsides.step hpc hroles hphases hg hst⟩
  exact h.2.2.awake h.2.1 hring.holds

/-- Task 2 has found the queue empty and sleeps in `ioq_wait`. -/
def asleepOnce : IoqRun :=
  (((((((((ioqStart fun _ => 0).set 2 ⟨.test, .consumer, 0⟩).run 2).run 2).run 2).run 2).run 2).run
    2).run 2).run 2 |>.run 2

lemma asleepOnce_polite : ioqSystem.Reach (Polite 1 2) asleepOnce := by
  have h0 : ioqSystem.Reach (Polite 1 2) (ioqStart fun _ => 0) := .init ⟨_, rfl⟩
  have h1 := reach_getchar h0 (t := 2) ⟨rfl, trivial⟩ rfl
  have h2 := reach_run h1 (t := 2) ⟨trivial, nofun⟩
  have h3 := reach_run h2 (t := 2) ⟨trivial, nofun⟩
  have h4 := reach_run h3 (t := 2) ⟨trivial, nofun⟩
  have h5 := reach_run h4 (t := 2) ⟨trivial, nofun⟩
  have h6 := reach_run h5 (t := 2) ⟨trivial, nofun⟩
  have h7 := reach_run h6 (t := 2) ⟨trivial, nofun⟩
  have h8 := reach_run h7 (t := 2) ⟨trivial, nofun⟩
  have h9 := reach_run h8 (t := 2) ⟨trivial, nofun⟩
  exact reach_run h9 (t := 2) ⟨trivial, nofun⟩

theorem awake_asleepOnce : (asleepOnce.task 2).pc = .blocked ∧ Awake 1 2 asleepOnce :=
  ⟨rfl, awake_of_polite (by decide) asleepOnce_polite⟩

/-- Task 1 has put a byte and has yet to wake task 2. -/
lemma exists_blocked_filled : ∃ s, ioqSystem.Reach (Polite 1 2) s ∧ (s.task 2).pc = .blocked ∧
    ioqEmpty s.queue = false := by
  have h1 := reach_putchar asleepOnce_polite (t := 1) 0 ⟨rfl, trivial⟩ rfl
  have h2 := reach_run h1 (t := 1) ⟨trivial, nofun⟩
  have h3 := reach_run h2 (t := 1) ⟨trivial, nofun⟩
  refine ⟨_, reach_run h3 (t := 1) ⟨trivial, fun _ u _ hu => ?_⟩, rfl, rfl⟩
  have hrole := (roles_of_oneEach (h3.mono fun _ _ hg => hg.1)).eq_role (t := u) (by
    intro huser
    simp [Deciding, huser] at hu)
  revert hu
  rw [hrole]
  generalize (IoqRun.task _ u).side = side
  cases side <;> decide

section Vain

variable {s : IoqRun} {tail : Fin 64} {len : ℕ}

/-- A whole `ioq_putchar` of task 1, with nobody to wake. -/
lemma exists_put (hs : ioqSystem.Reach (OneEach 1 2) s) (hpc : (s.task 1).pc = .user)
    (hwaiter : s.queue.waiter = fun _ => none) (h : Holds s.queue tail len) (hlen : len < 63) :
    ∃ s', ioqSystem.Reach (OneEach 1 2) s' ∧ (s'.task 1).pc = .user ∧ s'.task 2 = s.task 2 ∧
      s'.queue.waiter = (fun _ => none) ∧ s'.locking = s.locking ∧
      Holds s'.queue tail (len + 1) := by
  have hroom : ioqFull s.queue = false := by
    rw [Bool.eq_false_iff, Ne, h.full]
    omega
  have hcell : cell s.queue.head = some (place tail len) := by
    rw [h.head_eq, cell_position]
  have h1 := reach_putchar hs (t := 1) 0 rfl hpc
  have h2 := reach_run h1 (t := 1) trivial
  have h3 := reach_run h2 (t := 1) trivial
  have h4 := reach_run h3 (t := 1) trivial
  refine ⟨_, reach_run h4 (t := 1) trivial, ?_⟩
  have hholds : Holds ⟨fun _ => none, Function.update s.queue.buf (place tail len) 0,
      nextPos s.queue.head, s.queue.tail⟩ tail (len + 1) := by
    refine ⟨h.tail_eq, ?_, by omega⟩
    rw [h.head_eq, nextPos_position, place_place]
  simpa [IoqRun.run, IoqRun.mustWait, hroom, IoqRun.goto, IoqRun.access, IoqRun.advance, hcell,
    hwaiter, IoqRun.set] using hholds

/-- A whole `ioq_getchar` of task 2, with nobody to wake. -/
lemma exists_get (hs : ioqSystem.Reach (OneEach 1 2) s) (hpc : (s.task 2).pc = .user)
    (hwaiter : s.queue.waiter = fun _ => none) (h : Holds s.queue tail (len + 1)) :
    ∃ s', ioqSystem.Reach (OneEach 1 2) s' ∧ (s'.task 2).pc = .user ∧ s'.task 1 = s.task 1 ∧
      s'.queue.waiter = (fun _ => none) ∧ s'.locking = s.locking ∧
      Holds s'.queue (place tail 1) len := by
  have hfilled : ioqEmpty s.queue = false := by
    rw [Bool.eq_false_iff, Ne, h.empty]
    omega
  have hcell : cell s.queue.tail = some tail := by
    rw [h.tail_eq, cell_position]
  have h1 := reach_getchar hs (t := 2) rfl hpc
  have h2 := reach_run h1 (t := 2) trivial
  have h3 := reach_run h2 (t := 2) trivial
  have h4 := reach_run h3 (t := 2) trivial
  refine ⟨_, reach_run h4 (t := 2) trivial, ?_⟩
  have hlen := h.len_lt
  have hholds : Holds ⟨fun _ => none, s.queue.buf, s.queue.head, nextPos s.queue.tail⟩
      (place tail 1) len := by
    refine ⟨?_, ?_, by omega⟩
    · show nextPos s.queue.tail = _
      rw [h.tail_eq, nextPos_position]
    · show s.queue.head = _
      rw [h.head_eq, place_place, Nat.add_comm]
  simpa [IoqRun.run, IoqRun.mustWait, hfilled, IoqRun.goto, IoqRun.access, IoqRun.advance, hcell,
    hwaiter, IoqRun.set] using hholds

lemma exists_filled (n : ℕ) (hn : n ≤ 63) : ∃ s, ioqSystem.Reach (OneEach 1 2) s ∧
    (s.task 1).pc = .user ∧ (s.task 2).pc = .user ∧ s.queue.waiter = (fun _ => none) ∧
    s.locking = lockStart ∧ Holds s.queue 0 n := by
  induction n with
  | zero => exact ⟨ioqStart fun _ => 0, .init ⟨_, rfl⟩, rfl, rfl, rfl, rfl, rfl, rfl, by omega⟩
  | succ n ih =>
    obtain ⟨s, hs, h1, h2, hwaiter, hlock, h⟩ := ih (by omega)
    obtain ⟨s', hs', h1', htask, hwaiter', hlock', h'⟩ := exists_put hs h1 hwaiter h (by omega)
    exact ⟨s', hs', h1', by rw [htask, h2], hwaiter', hlock'.trans hlock, h'⟩

lemma exists_drained (hs : ioqSystem.Reach (OneEach 1 2) s) (hpc : (s.task 2).pc = .user)
    (hwaiter : s.queue.waiter = fun _ => none) (h : Holds s.queue tail len) :
    ∃ s' tail', ioqSystem.Reach (OneEach 1 2) s' ∧ (s'.task 2).pc = .user ∧
      s'.task 1 = s.task 1 ∧ s'.queue.waiter = (fun _ => none) ∧ s'.locking = s.locking ∧
      Holds s'.queue tail' 0 := by
  induction len generalizing s tail with
  | zero => exact ⟨s, tail, hs, hpc, rfl, hwaiter, rfl, h⟩
  | succ len ih =>
    obtain ⟨s1, hs1, hpc1, htask1, hwaiter1, hlock1, h1⟩ := exists_get hs hpc hwaiter h
    obtain ⟨s2, tail2, hs2, hpc2, htask2, hwaiter2, hlock2, h2⟩ := ih hs1 hpc1 hwaiter1 h1
    exact ⟨s2, tail2, hs2, hpc2, htask2.trans htask1, hwaiter2, hlock2.trans hlock1, h2⟩

/-- A statement of `lock_acquire` after which the task is still in it. -/
lemma run_acquiring {t : TaskAddr} {lock : LockRun} (hpc : (s.task t).pc = .acquire)
    (hlock : ((lock.run t).task t).pc ≠ .user) :
    { s with locking := lock }.run t = { s with locking := lock.run t } := by
  have hself : { s.task t with pc := .acquire } = s.task t := by
    rw [← hpc]
  simp [IoqRun.run, hpc, IoqRun.runLock, IoqRun.set, IoqRun.goto, hlock, hself]

/-- The last statement of `lock_acquire`. -/
lemma run_acquired {t : TaskAddr} {lock : LockRun} (hpc : (s.task t).pc = .acquire)
    (hlock : ((lock.run t).task t).pc = .user) :
    { s with locking := lock }.run t = { s with locking := lock.run t }.goto t .waitAssert := by
  simp [IoqRun.run, hpc, IoqRun.runLock, IoqRun.goto, hlock]

/-- Task 1 is in `lock_acquire` because the queue was full, and task 2 finds it
empty: task 2 sleeps in `ioq_wait` with the lock, and task 1 on the lock. -/
lemma exists_asleep (hs : ioqSystem.Reach (OneEach 1 2) s) (hempty : ioqEmpty s.queue = true)
    (hwaiter : s.queue.waiter = fun _ => none) (hlock : s.locking = lockStart.goto 1 .acquireTest)
    (hp : (s.task 1).pc = .acquire) (hc : (s.task 2).pc = .user) :
    ∃ s, ioqSystem.Reach (OneEach 1 2) s ∧ s.Asleep 1 ∧ s.Asleep 2 := by
  have h1 := reach_getchar hs (t := 2) rfl hc
  generalize (s.task 2).byte = b at h1
  have h2 := reach_run h1 (t := 2) trivial
  let lock : LockRun := (lockStart.goto 1 .acquireTest).goto 2 .acquireTest
  have htest : (s.set 2 ⟨.test, .consumer, b⟩).run 2 =
      { s.set 2 ⟨.acquire, .consumer, b⟩ with locking := lock } := by
    simp [IoqRun.run, IoqRun.mustWait, IoqRun.set, IoqRun.goto, hempty, hlock, lock]
  rw [htest] at h2
  -- the lock is free
  have hpc : ((s.set 2 ⟨.acquire, .consumer, b⟩).task 2).pc = .acquire := by
    rw [set_task_self]
  have h3 := reach_run h2 (t := 2) trivial
  rw [run_acquiring hpc (by decide)] at h3
  have h4 := reach_run h3 (t := 2) trivial
  rw [run_acquiring hpc (by decide)] at h4
  have h5 := reach_run h4 (t := 2) trivial
  rw [run_acquiring hpc (by decide)] at h5
  have h6 := reach_run h5 (t := 2) trivial
  rw [run_acquiring hpc (by decide)] at h6
  have h7 := reach_run h6 (t := 2) trivial
  rw [run_acquired hpc (by decide)] at h7
  have h8 := reach_run h7 (t := 2) trivial
  have h9 := reach_run h8 (t := 2) trivial
  have h10 := reach_run h9 (t := 2) trivial
  let taken : LockRun := ((((lock.run 2).run 2).run 2).run 2).run 2
  have hsleep : (((({ s.set 2 ⟨.acquire, .consumer, b⟩ with locking := taken }.goto 2
      .waitAssert).run 2).run 2).run 2) = { (s.setWaiter .consumer (some 2)).set 2
        ⟨.blocked, .consumer, b⟩ with locking := taken } := by
    simp [IoqRun.run, IoqRun.check, IoqRun.set, IoqRun.goto, IoqRun.setWaiter, hwaiter]
  rw [hsleep] at h10
  -- it is not free any more
  have hpc' : (((s.setWaiter .consumer (some 2)).set 2 ⟨.blocked, .consumer, b⟩).task 1).pc =
      .acquire := by
    rw [set_task_of_ne _ _ (by decide)]
    exact hp
  have h11 := reach_run h10 (t := 1) trivial
  rw [run_acquiring hpc' (by decide)] at h11
  have h12 := reach_run h11 (t := 1) trivial
  rw [run_acquiring hpc' (by decide)] at h12
  refine ⟨_, h12, .inr ?_, .inl ?_⟩
  · show (((taken.run 1).run 1).task 1).pc = .waiting
    decide
  · show (((s.setWaiter .consumer (some 2)).set 2 ⟨.blocked, .consumer, b⟩).task 2).pc = .blocked
    rw [set_task_self]

/-- 63 bytes are put, task 1 finds the queue full and is preempted, task 2 gets
them all. -/
lemma exists_both_asleep : ∃ s, ioqSystem.Reach (OneEach 1 2) s ∧ s.Asleep 1 ∧ s.Asleep 2 := by
  obtain ⟨s, hs, hp, hc, hwaiter, hlock, h⟩ := exists_filled 63 le_rfl
  have h1 := reach_putchar hs (t := 1) 0 rfl hp
  have h2 := reach_run h1 (t := 1) trivial
  have hfull : ioqFull s.queue = true := h.full.mpr rfl
  have hrun : (s.set 1 ⟨.test, .producer, 0⟩).run 1 =
      { s with locking := lockStart.goto 1 .acquireTest }.set 1 ⟨.acquire, .producer, 0⟩ := by
    simp [IoqRun.run, IoqRun.mustWait, IoqRun.set, IoqRun.goto, hfull, hlock]
  rw [hrun] at h2
  obtain ⟨r, tail, hr, hc', hp', hwaiter', hlock', h'⟩ := exists_drained h2
    (by rw [set_task_of_ne _ _ (by decide)]; exact hc) hwaiter h
  exact exists_asleep hr (h'.empty.mpr rfl) hwaiter' hlock' (by rw [hp', set_task_self]) hc'

/-- Task 2 sleeps for a moment although the queue is not empty, and it may do so
for ever, with task 1 asleep too. -/
theorem not_awake :
    (∃ s, ioqSystem.Reach (Polite 1 2) s ∧ (s.task 2).pc = .blocked ∧
      ioqEmpty s.queue = false) ∧
    ∃ s, ioqSystem.Reach (OneEach 1 2) s ∧ s.Asleep 1 ∧ s.Asleep 2 :=
  ⟨exists_blocked_filled, exists_both_asleep⟩

end Vain

end Libtask.Ioq
