import Libtask.Ioqueue.Run

/-!
# The bytes of an ioqueue

Between the test of the loop and the update of the index a task relies on the
queue being neither empty nor full, and on the byte in the cell that it works
at. Another task on the same side would spoil both, one on the other side does
not.
-/
namespace Libtask.Ioq
open Locking Transition Window

/-- What an ioqueue is for. The bytes returned, followed by those in the ring,
are those stored. -/
structure Intact (s : IoqRun) : Prop where
  head : 0 ≤ s.queue.head ∧ s.queue.head < bufsize
  tail : 0 ≤ s.queue.tail ∧ s.queue.tail < bufsize
  order : s.returned ++ ringBytes s.queue = s.stored
  bound : (ringBytes s.queue).length ≤ 63
  length : (ioqLength s.queue).toNat = (ringBytes s.queue).length
  empty : ioqEmpty s.queue = true ↔ (ringBytes s.queue).length = 0
  full : ioqFull s.queue = true ↔ (ringBytes s.queue).length = 63

/-- The task has passed the loop and has not yet moved its index. -/
def Local.InRegion (l : Local) (side : Side) : Prop :=
  l.side = side ∧ (l.pc = .access ∨ l.pc = .advance)

/-- Nobody passes the loop while a task on the same side is between it and the
update of the index. -/
def Serial (s : IoqRun) : Op → Prop
  | .run t => (s.task t).pc = .test → s.mustWait (s.task t).side = false →
    ∀ u, ¬ (s.task u).InRegion (s.task t).side
  | _ => True

/-- What a task in the region relies on. -/
def Relies (buf : Fin 64 → UInt8) (tail : Fin 64) (len : ℕ) (l : Local) : Prop :=
  match l.pc, l.side with
  | .access, .consumer => 0 < len
  | .advance, .consumer => 0 < len ∧ l.byte = buf tail
  | .access, .producer => len < 63
  | .advance, .producer => len < 63 ∧ l.byte = buf (place tail len)
  | _, _ => True

structure RingInv (s : IoqRun) (tail : Fin 64) (len : ℕ) : Prop where
  holds : Holds s.queue tail len
  order : s.stored = s.returned ++ window s.queue.buf tail len
  relies : ∀ t, Relies s.queue.buf tail len (s.task t)
  exclusive : ∀ t u side, (s.task t).InRegion side → (s.task u).InRegion side → t = u

/-- The invariant says that the queue is intact. -/
theorem RingInv.intact {s : IoqRun} {tail : Fin 64} {len : ℕ} (h : RingInv s tail len) :
    Intact s := by
  have hlen : (ringBytes s.queue).length = len := by rw [h.holds.ringBytes, length_window]
  have hlt := h.holds.len_lt
  constructor
  · rw [h.holds.head_eq]
    exact position_range _
  · rw [h.holds.tail_eq]
    exact position_range _
  · rw [h.order, h.holds.ringBytes]
  · omega
  · rw [hlen]
    exact h.holds.length
  · rw [hlen]
    exact h.holds.empty
  · rw [hlen]
    exact h.holds.full

lemma relies_of_not_region {buf : Fin 64 → UInt8} {tail : Fin 64} {len : ℕ} {l : Local}
    (h : ∀ side, ¬ l.InRegion side) : Relies buf tail len l := by
  have hpc : l.pc ≠ .access ∧ l.pc ≠ .advance :=
    ⟨fun hpc => h l.side ⟨rfl, .inl hpc⟩, fun hpc => h l.side ⟨rfl, .inr hpc⟩⟩
  unfold Relies
  split
  · exact absurd ‹_› hpc.1
  · exact absurd ‹_› hpc.2
  · exact absurd ‹_› hpc.1
  · exact absurd ‹_› hpc.2
  · trivial

section Steps

variable {s s' : IoqRun} {tail : Fin 64} {len : ℕ} {t : TaskAddr}

/-- A step that leaves the ring and brings no task into the region. -/
theorem RingInv.quiet (h : RingInv s tail len) (hbuf : s'.queue.buf = s.queue.buf)
    (hhead : s'.queue.head = s.queue.head) (htail : s'.queue.tail = s.queue.tail)
    (hstored : s'.stored = s.stored) (hreturned : s'.returned = s.returned)
    (htask : ∀ u, s'.task u = s.task u ∨ ∀ side, ¬ (s'.task u).InRegion side) :
    RingInv s' tail len := by
  constructor
  · exact ⟨htail.trans h.holds.tail_eq, hhead.trans h.holds.head_eq, h.holds.len_lt⟩
  · rw [hstored, hreturned, hbuf]
    exact h.order
  · intro u
    rw [hbuf]
    rcases htask u with heq | hout
    · rw [heq]
      exact h.relies u
    · exact relies_of_not_region hout
  · intro u v side hu hv
    rcases htask u with heq | hout
    · rcases htask v with heq' | hout'
      · rw [heq] at hu
        rw [heq'] at hv
        exact h.exclusive u v side hu hv
      · exact absurd hv (hout' side)
    · exact absurd hu (hout side)

/-- A step of one task inside the region or into it. -/
theorem RingInv.region {l : Local} {tail' : Fin 64} {len' : ℕ} {r : IoqRun}
    (h : RingInv s tail len) (htask : r.task = s.task)
    (hholds : Holds r.queue tail' len') (horder : r.stored = r.returned ++
      window r.queue.buf tail' len') (hl : Relies r.queue.buf tail' len' l)
    (hother : ∀ u, u ≠ t → Relies r.queue.buf tail' len' (s.task u))
    (halone : ∀ side, l.InRegion side → ∀ u, u ≠ t → ¬ (s.task u).InRegion side) :
    RingInv (r.set t l) tail' len' := by
  have hne : ∀ {u}, u ≠ t → (r.set t l).task u = s.task u := by
    intro u hu
    rw [set_task_of_ne _ _ hu, htask]
  refine ⟨hholds, horder, ?_, ?_⟩
  · intro u
    by_cases hu : u = t
    · subst hu
      rwa [set_task_self]
    · rw [hne hu]
      exact hother u hu
  · intro u v side hu hv
    by_cases hut : u = t <;> by_cases hvt : v = t
    · rw [hut, hvt]
    · rw [hut, set_task_self] at hu
      rw [hne hvt] at hv
      exact absurd hv (halone side hu v hvt)
    · rw [hvt, set_task_self] at hv
      rw [hne hut] at hu
      exact absurd hu (halone side hv u hut)
    · rw [hne hut] at hu
      rw [hne hvt] at hv
      exact h.exclusive u v side hu hv

/-- No other task is in the region of the side of a task in its region. -/
lemma RingInv.alone (h : RingInv s tail len) {side : Side} (ht : (s.task t).InRegion side)
    {u : TaskAddr} (hu : u ≠ t) : ¬ (s.task u).InRegion side := fun hu' =>
  hu (h.exclusive u t side hu' ht)

/-- A task that goes on outside the region. -/
lemma RingInv.goto (h : RingInv s tail len) {r : IoqRun} (hbuf : r.queue.buf = s.queue.buf)
    (hhead : r.queue.head = s.queue.head) (htail : r.queue.tail = s.queue.tail)
    (hstored : r.stored = s.stored) (hreturned : r.returned = s.returned) (htask : r.task = s.task)
    {l : Local} (hl : l.pc ≠ .access ∧ l.pc ≠ .advance) : RingInv (r.set t l) tail len := by
  have hother : ∀ u, (r.set t l).task u = s.task u ∨
      ∀ side, ¬ ((r.set t l).task u).InRegion side := by
    intro u
    by_cases hu : u = t
    · subst hu
      rw [set_task_self]
      exact .inr fun side hin => hin.2.elim hl.1 hl.2
    · rw [set_task_of_ne _ _ hu, htask]
      exact .inl rfl
  exact h.quiet hbuf hhead htail hstored hreturned hother

/-- The access to the buffer: `cell` never fails, and a write goes to a cell
outside the window. -/
theorem RingInv.access (h : RingInv s tail len) (hpc : (s.task t).pc = .access) :
    RingInv (s.access t) tail len := by
  have hin : (s.task t).InRegion (s.task t).side := ⟨rfl, .inl hpc⟩
  have hrelies := h.relies t
  have hlt := h.holds.len_lt
  cases hside : (s.task t).side with
  | consumer =>
    simp only [Relies, hpc, hside] at hrelies
    simp only [IoqRun.access, hside, h.holds.tail_eq, cell_position]
    refine h.region rfl h.holds h.order ?_ (fun u _ => h.relies u) ?_
    · simp only [Relies]
      exact ⟨hrelies, trivial⟩
    · intro side hl u hu
      have hs : (s.task t).side = side := hside.trans hl.1
      exact h.alone (hs ▸ hin) hu
  | producer =>
    simp only [Relies, hpc, hside] at hrelies
    simp only [IoqRun.access, hside, h.holds.head_eq, cell_position]
    refine h.region rfl ⟨h.holds.tail_eq, rfl, hlt⟩ ?_ ?_ ?_ ?_
    · show s.stored = s.returned ++ window (Function.update s.queue.buf (place tail len) _) tail len
      rw [window_update le_rfl hlt]
      exact h.order
    · simp only [Relies, hside]
      refine ⟨hrelies, ?_⟩
      rw [Function.update_self]
    · intro u hu
      have hout := h.alone hin hu
      have hr := h.relies u
      show Relies (Function.update s.queue.buf (place tail len) _) tail len (s.task u)
      rw [hside] at hout
      unfold Relies at hr ⊢
      split
      · rename_i hpc' hside'
        simpa only [hpc', hside'] using hr
      · rename_i hpc' hside'
        simp only [hpc', hside'] at hr
        refine ⟨hr.1, ?_⟩
        have hne : tail ≠ place tail len := by
          intro heq
          rw [← place_zero tail, place_place, place_inj (by omega) (by omega)] at heq
          omega
        rw [Function.update_of_ne hne]
        exact hr.2
      · rename_i hpc' hside'
        exact absurd ⟨hside', .inl hpc'⟩ hout
      · rename_i hpc' hside'
        exact absurd ⟨hside', .inr hpc'⟩ hout
      · trivial
    · intro side hl u hu
      obtain rfl : (s.task t).side = side := hl.1
      exact h.alone hin hu

/-- The update of an index moves one byte into or out of the window. -/
theorem RingInv.advance (h : RingInv s tail len) (hpc : (s.task t).pc = .advance) :
    ∃ tail' len', RingInv (s.advance t) tail' len' := by
  have hin : (s.task t).InRegion (s.task t).side := ⟨rfl, .inr hpc⟩
  have hrelies := h.relies t
  have hlt := h.holds.len_lt
  cases hside : (s.task t).side with
  | consumer =>
    simp only [Relies, hpc, hside] at hrelies
    obtain ⟨hpos, hbyte⟩ := hrelies
    obtain ⟨n, rfl⟩ : ∃ n, len = n + 1 := ⟨len - 1, by omega⟩
    refine ⟨place tail 1, n, ?_⟩
    simp only [IoqRun.advance, hside]
    refine h.region rfl ⟨?_, ?_, by omega⟩ ?_ (relies_of_not_region ?_) ?_ ?_
    · show nextPos s.queue.tail = _
      rw [h.holds.tail_eq, nextPos_position]
    · show s.queue.head = _
      rw [h.holds.head_eq, place_place, Nat.add_comm]
    · show s.stored = (s.returned ++ [(s.task t).byte]) ++ window s.queue.buf (place tail 1) n
      rw [h.order, window_cons, hbyte, List.append_assoc]
      rfl
    · rintro side ⟨-, hin | hin⟩ <;> cases hin
    · intro u hu
      have hout := h.alone hin hu
      have hr := h.relies u
      rw [hside] at hout
      show Relies s.queue.buf (place tail 1) n (s.task u)
      unfold Relies at hr ⊢
      split
      · rename_i hpc' hside'
        exact absurd ⟨hside', .inl hpc'⟩ hout
      · rename_i hpc' hside'
        exact absurd ⟨hside', .inr hpc'⟩ hout
      · rename_i hpc' hside'
        simp only [hpc', hside'] at hr
        omega
      · rename_i hpc' hside'
        simp only [hpc', hside'] at hr
        rw [place_place, Nat.add_comm 1 n]
        exact ⟨by omega, hr.2⟩
      · trivial
    · rintro side ⟨-, hin | hin⟩ <;> cases hin
  | producer =>
    simp only [Relies, hpc, hside] at hrelies
    obtain ⟨hroom, hbyte⟩ := hrelies
    refine ⟨tail, len + 1, ?_⟩
    simp only [IoqRun.advance, hside]
    refine h.region rfl ⟨h.holds.tail_eq, ?_, by omega⟩ ?_ (relies_of_not_region ?_) ?_ ?_
    · show nextPos s.queue.head = _
      rw [h.holds.head_eq, nextPos_position, place_place]
    · show s.stored ++ [(s.task t).byte] = s.returned ++ window s.queue.buf tail (len + 1)
      rw [h.order, window_snoc, hbyte, List.append_assoc]
    · rintro side ⟨-, hin | hin⟩ <;> cases hin
    · intro u hu
      have hout := h.alone hin hu
      have hr := h.relies u
      rw [hside] at hout
      show Relies s.queue.buf tail (len + 1) (s.task u)
      unfold Relies at hr ⊢
      split
      · omega
      · rename_i hpc' hside'
        simp only [hpc', hside'] at hr
        exact ⟨by omega, hr.2⟩
      · rename_i hpc' hside'
        exact absurd ⟨hside', .inl hpc'⟩ hout
      · rename_i hpc' hside'
        exact absurd ⟨hside', .inr hpc'⟩ hout
      · trivial
    · rintro side ⟨-, hin | hin⟩ <;> cases hin

/-- The test of the loop lets a task into the region. -/
theorem RingInv.enter (h : RingInv s tail len) (hwait : s.mustWait (s.task t).side = false)
    (halone : ∀ u, ¬ (s.task u).InRegion (s.task t).side) :
    RingInv (s.goto t .access) tail len := by
  refine h.region rfl h.holds h.order ?_ (fun u _ => h.relies u) ?_
  · have hlt := h.holds.len_lt
    cases hside : (s.task t).side with
    | consumer =>
      rw [hside] at hwait
      simp only [Relies, hside]
      by_contra hlen
      have hempty := h.holds.empty.mpr (by omega)
      rw [show ioqEmpty s.queue = false from hwait] at hempty
      cases hempty
    | producer =>
      rw [hside] at hwait
      simp only [Relies, hside]
      by_contra hlen
      have hfull := h.holds.full.mpr (by omega)
      rw [show ioqFull s.queue = false from hwait] at hfull
      cases hfull
  · intro side hl u _
    obtain rfl : (s.task t).side = side := hl.1
    exact halone u

/-- `task_unblock` brings no task into the region. -/
lemma RingInv.taskUnblock (h : RingInv s tail len) {w : TaskAddr}
    (hw : s.taskUnblock w = some s') : RingInv s' tail len := by
  rcases taskUnblock_cases hw with ⟨-, rfl⟩ | ⟨-, -, rfl⟩
  · exact h.goto rfl rfl rfl rfl rfl rfl (by simp)
  · exact h.quiet rfl rfl rfl rfl rfl fun _ => .inl rfl

theorem RingInv.run (h : RingInv s tail len) (hserial : Serial s (.run t)) :
    ∃ tail' len', RingInv (s.run t) tail' len' := by
  have hout : ∀ {pc : Pc}, (pc ≠ .access ∧ pc ≠ .advance) → ∀ {r : IoqRun},
      r.queue.buf = s.queue.buf → r.queue.head = s.queue.head → r.queue.tail = s.queue.tail →
      r.stored = s.stored → r.returned = s.returned → r.task = s.task →
      ∃ tail' len', RingInv (r.goto t pc) tail' len' := by
    intro pc hpc r hbuf hhead htail hstored hreturned htask
    exact ⟨tail, len, h.goto hbuf hhead htail hstored hreturned htask hpc⟩
  cases hpc : (s.task t).pc
  case user | blocked | failed | fault =>
    simp only [IoqRun.run, hpc]
    exact ⟨tail, len, h⟩
  case test =>
    simp only [IoqRun.run, hpc]
    split_ifs with hwait
    · exact hout (by simp) rfl rfl rfl rfl rfl rfl
    · have hwait' : s.mustWait (s.task t).side = false := by simpa using hwait
      exact ⟨tail, len, h.enter hwait' (hserial hpc hwait')⟩
  case acquire | release =>
    simp only [IoqRun.run, IoqRun.runLock, hpc]
    refine hout ?_ rfl rfl rfl rfl rfl rfl
    split_ifs <;> simp
  case waitAssert | wakeAssert =>
    simp only [IoqRun.run, IoqRun.check, hpc]
    refine hout ?_ rfl rfl rfl rfl rfl rfl
    split_ifs <;> simp
  case wakeTest =>
    simp only [IoqRun.run, hpc]
    refine hout ?_ rfl rfl rfl rfl rfl rfl
    split_ifs <;> simp
  case waitSet | block | woken | wakeClear =>
    simp only [IoqRun.run, hpc]
    exact hout (by simp) rfl rfl rfl rfl rfl rfl
  case access =>
    simp only [IoqRun.run, hpc]
    exact ⟨tail, len, h.access hpc⟩
  case advance =>
    simp only [IoqRun.run, hpc]
    exact h.advance hpc
  case unblock =>
    simp only [IoqRun.run, hpc]
    cases hw : s.queue.waiter (s.task t).side.other with
    | none => exact hout (by simp) rfl rfl rfl rfl rfl rfl
    | some w =>
      cases hr : s.taskUnblock w with
      | none =>
        simp only [hr]
        exact hout (by simp) rfl rfl rfl rfl rfl rfl
      | some r =>
        simp only [hr]
        exact ⟨tail, len, (h.taskUnblock hr).goto rfl rfl rfl rfl rfl rfl (by simp)⟩

end Steps

/-- Any number of tasks, as long as nobody passes the loop too early. -/
theorem ringInv_of_serial {s : IoqRun} (hs : ioqSystem.Reach Serial s) :
    ∃ tail len, RingInv s tail len := by
  refine hs.invariant (I := fun s => ∃ tail len, RingInv s tail len) ?_ ?_
  · rintro s ⟨buf, rfl⟩
    refine ⟨0, 0, ⟨rfl, rfl, by omega⟩, rfl, fun t => trivial, ?_⟩
    rintro t u side ⟨-, hin | hin⟩ <;> cases hin
  · rintro s op t ⟨tail, len, h⟩ hserial hst
    cases hst with
    | getchar hpc => exact ⟨tail, len, h.goto rfl rfl rfl rfl rfl rfl (by simp)⟩
    | putchar hpc => exact ⟨tail, len, h.goto rfl rfl rfl rfl rfl rfl (by simp)⟩
    | run => exact h.run hserial

/-- Every task inside a function is the one task of its side. -/
def Roles (p c : TaskAddr) (s : IoqRun) : Prop :=
  ∀ t, (s.task t).pc ≠ .user → match (s.task t).side with
    | .consumer => t = c
    | .producer => t = p

lemma Roles.set {p c : TaskAddr} {s r : IoqRun} (h : Roles p c s) (htask : r.task = s.task)
    {t : TaskAddr} {l : Local} (hl : l.pc ≠ .user → match l.side with
      | .consumer => t = c
      | .producer => t = p) : Roles p c (r.set t l) := by
  intro u hu
  by_cases hut : u = t
  · subst hut
    rw [set_task_self] at hu ⊢
    exact hl hu
  · rw [set_task_of_ne _ _ hut, htask] at hu ⊢
    exact h u hu

/-- Running statements neither changes the side of a task nor takes it out of the
code of its user. -/
def Keeps (l l' : Local) : Prop := l'.side = l.side ∧ (l.pc = .user → l'.pc = .user)

lemma Keeps.trans {l l' l'' : Local} (h : Keeps l l') (h' : Keeps l' l'') : Keeps l l'' :=
  ⟨h'.1.trans h.1, fun hpc => h'.2 (h.2 hpc)⟩

lemma keeps_set {s r : IoqRun} {t : TaskAddr} {l : Local} (htask : r.task = s.task)
    (ht : (s.task t).pc ≠ .user) (hl : l.side = (s.task t).side) (u : TaskAddr) :
    Keeps (s.task u) ((r.set t l).task u) := by
  by_cases hu : u = t
  · subst hu
    rw [set_task_self]
    exact ⟨hl, fun hpc => absurd hpc ht⟩
  · rw [set_task_of_ne _ _ hu, htask]
    exact ⟨rfl, id⟩

lemma keeps_goto {s r : IoqRun} {t : TaskAddr} (htask : r.task = s.task)
    (ht : (s.task t).pc ≠ .user) (pc : Pc) (u : TaskAddr) :
    Keeps (s.task u) ((r.goto t pc).task u) := by
  apply keeps_set htask ht
  rw [htask]

lemma keeps_taskUnblock {s r : IoqRun} {w : TaskAddr} (hr : s.taskUnblock w = some r)
    (u : TaskAddr) : Keeps (s.task u) (r.task u) := by
  rcases taskUnblock_cases hr with ⟨hblocked, rfl⟩ | ⟨-, -, rfl⟩
  · exact keeps_goto rfl (by simp [hblocked]) _ u
  · exact ⟨rfl, id⟩

theorem keeps_run (s : IoqRun) (t u : TaskAddr) : Keeps (s.task u) ((s.run t).task u) := by
  have hgoto : (s.task t).pc ≠ .user → ∀ {r : IoqRun} (pc : Pc), r.task = s.task →
      Keeps (s.task u) ((r.goto t pc).task u) := fun ht _ pc htask => keeps_goto htask ht pc u
  cases hpc : (s.task t).pc <;> simp only [IoqRun.run, hpc]
  case user | blocked | failed | fault => exact ⟨rfl, id⟩
  case test => split_ifs <;> exact hgoto (by simp [hpc]) _ rfl
  case access =>
    unfold IoqRun.access
    split <;> split <;> exact keeps_set rfl (by simp [hpc]) (by rfl) u
  case advance =>
    unfold IoqRun.advance
    split <;> exact hgoto (by simp [hpc]) _ rfl
  case unblock =>
    split
    · exact hgoto (by simp [hpc]) _ rfl
    · split
      · exact hgoto (by simp [hpc]) _ rfl
      · rename_i w hw _ r hr
        refine (keeps_taskUnblock hr u).trans (keeps_goto rfl ?_ _ u)
        rcases taskUnblock_cases hr with ⟨hblocked, rfl⟩ | ⟨-, -, rfl⟩
        · have htw : t ≠ w := by
            rintro rfl
            rw [hpc] at hblocked
            cases hblocked
          rw [IoqRun.goto, set_task_of_ne _ _ htw]
          simp [hpc]
        · simp [hpc]
  all_goals exact hgoto (by simp [hpc]) _ rfl

lemma Roles.run {p c : TaskAddr} {s : IoqRun} (h : Roles p c s) (t : TaskAddr) :
    Roles p c (s.run t) := by
  intro u hu
  obtain ⟨hside, huser⟩ := keeps_run s t u
  rw [hside]
  exact h u fun hpc => hu (huser hpc)

theorem Roles.step {p c : TaskAddr} {s s' : IoqRun} {op : Op} (h : Roles p c s)
    (hop : OneEach p c s op) (hst : Step s op s') : Roles p c s' := by
  cases hst with
  | getchar hpc => exact h.set rfl fun _ => hop
  | putchar hpc => exact h.set rfl fun _ => hop
  | run => exact h.run _

/-- With one task on each side nobody passes the loop too early. -/
lemma Roles.serial {p c : TaskAddr} {s : IoqRun} (h : Roles p c s) (op : Op) : Serial s op := by
  cases op with
  | getchar t => trivial
  | putchar t byte => trivial
  | run t =>
    intro hpc _ u hu
    have ht := h t (by simp [hpc])
    have hu' := h u (by rcases hu.2 with hu | hu <;> simp [hu])
    rw [hu.1] at hu'
    have hut : u = t := by
      cases hside : (s.task t).side <;> simp only [hside] at ht hu' <;> rw [ht, hu']
    subst hut
    rcases hu.2 with hu | hu <;> simp [hu] at hpc

theorem roles_of_oneEach {p c : TaskAddr} {s : IoqRun} (hs : ioqSystem.Reach (OneEach p c) s) :
    Roles p c s := by
  refine hs.invariant ?_ fun s op s' h hg hst => h.step hg hst
  rintro s ⟨buf, rfl⟩
  exact fun t ht => absurd rfl ht

theorem ringInv_of_oneEach {p c : TaskAddr} {s : IoqRun}
    (hs : ioqSystem.Reach (OneEach p c) s) : ∃ tail len, RingInv s tail len :=
  ringInv_of_serial (hs.weaken fun _ op hs _ => (roles_of_oneEach hs).serial op)

/-- The queue of one producer and one consumer is intact in every interleaving. -/
theorem intact_of_oneEach {p c : TaskAddr} {s : IoqRun} (hs : ioqSystem.Reach (OneEach p c) s) :
    Intact s := by
  obtain ⟨tail, len, hinv⟩ := ringInv_of_oneEach hs
  exact hinv.intact

/-- The next `n` statements of a task. -/
def IoqRun.runs (s : IoqRun) (t : TaskAddr) (n : ℕ) : IoqRun := (fun s => s.run t)^[n] s

lemma reach_runs {p c : TaskAddr} {s : IoqRun} (hs : ioqSystem.Reach (OneEach p c) s)
    (t : TaskAddr) (n : ℕ) : ioqSystem.Reach (OneEach p c) (s.runs t n) := by
  induction n with
  | zero => exact hs
  | succ n ih =>
    rw [IoqRun.runs, Function.iterate_succ_apply']
    exact reach_run ih (t := t) trivial

/-- Task 2 waits in `ioq_getchar`, and task 1 puts a byte and wakes it. -/
def onePut : IoqRun :=
  ((((ioqStart fun _ => 0).set 2 ⟨.test, .consumer, 0⟩).runs 2 9).set 1
    ⟨.test, .producer, 7⟩).runs 1 7

/-- Task 2 returns with the byte. -/
def onePassed : IoqRun := onePut.runs 2 11

lemma onePassed_reach : ioqSystem.Reach (OneEach 1 2) onePassed := by
  have h0 : ioqSystem.Reach (OneEach 1 2) (ioqStart fun _ => 0) := .init ⟨_, rfl⟩
  have h1 := reach_runs (reach_getchar h0 (t := 2) rfl rfl) 2 9
  have h2 := reach_runs (reach_putchar h1 (t := 1) 7 rfl rfl) 1 7
  exact reach_runs h2 2 11

theorem intact_onePassed : onePut.stored = [7] ∧ (onePut.task 2).pc = .woken ∧
    onePassed.returned = [7] ∧ (onePassed.task 2).pc = .user ∧ Intact onePassed :=
  ⟨rfl, rfl, rfl, rfl, intact_of_oneEach onePassed_reach⟩

end Libtask.Ioq
