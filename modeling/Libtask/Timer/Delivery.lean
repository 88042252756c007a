import Libtask.Timer.Runs

/-!
# No node is lost and none is late

The invariant of a run is carried through the two loops of a tick: through the
cascades, which leave every node with its turn after this tick or in the slot
about to be emptied, and through the walk over that slot.
-/
namespace Libtask.Timer
open Transition

lemma Linked.not_mem {rest : List Addr} {s : TimerState} {p : Addr} (h : Linked (p :: rest) s) :
    p ∈ s.heap ∧ p ∉ rest ∧ ∀ i, p ∉ s.arrListTimer i := by
  have hp := h p
  rw [List.count_cons_self] at hp
  split_ifs at hp with hh
  · refine ⟨hh, List.count_eq_zero.mp (by omega), ?_⟩
    exact not_mem_of_occupancy_eq_zero (by omega)
  · omega

lemma Linked.mem_heap {rest : List Addr} {s : TimerState} (h : Linked rest s) {p : Addr}
    {i : Slot} (hp : p ∈ s.arrListTimer i) : p ∈ s.heap := by
  have hpos := occupancy_pos_of_mem hp
  have := h p
  split_ifs at this with hh
  · exact hh
  · omega

/-- `add_timer` takes a node from the caller's hands into a slot. -/
lemma Linked.addTimer {rest : List Addr} {s : TimerState} {p : Addr}
    (h : Linked (p :: rest) s) : Linked rest (addTimer s p) := by
  intro q
  have hq := h q
  rw [List.count_cons] at hq
  rw [addTimer_arrListTimer, occupancy_append]
  simp only [beq_iff_eq] at hq
  change _ = if q ∈ s.heap then 1 else 0
  omega

/-- A new node is in the caller's hands. -/
lemma Linked.insert {rest : List Addr} {s : TimerState} {p : Addr} (h : Linked rest s)
    (hp : p ∉ s.heap) (n : TimerNode) : Linked (p :: rest) { s with
      heap := insert p s.heap
      node := Function.update s.node p n } := by
  intro q
  have hq := h q
  simp only [List.count_cons, beq_iff_eq, Finset.mem_insert] at hq ⊢
  by_cases hqp : q = p
  · subst hqp
    simp only [hp, if_false] at hq
    simp only [if_true, true_or]
    omega
  · simp only [hqp, Ne.symm hqp, if_false, add_zero, false_or]
    exact hq

lemma Linked.rearmOrFree {rest : List Addr} {s : TimerState} {p : Addr}
    (h : Linked (p :: rest) s) : Linked rest (rearmOrFree s p) := by
  unfold Timer.rearmOrFree
  dsimp only
  split_ifs with hP
  · exact Linked.addTimer (s := { s with node := _ }) h
  · intro q
    have hq := h q
    rw [List.count_cons] at hq
    simp only [freeNode, Finset.mem_erase]
    obtain ⟨hp, hrest, hslots⟩ := h.not_mem
    by_cases hqp : q = p
    · subst hqp
      simp only [beq_self_eq_true, if_true, hp] at hq
      simp only [ne_eq, not_true_eq_false, false_and, if_false]
      omega
    · simp only [beq_iff_eq, Ne.symm hqp, if_false, add_zero] at hq
      simpa [hqp] using hq

/-- `delete_timer` of a pending node leaves it in no slot. -/
lemma Linked.not_mem_deleteTimer {rest : List Addr} {s : TimerState} (h : Linked rest s)
    (p : Addr) : occupancy (deleteTimer s p).arrListTimer p = 0 := by
  apply occupancy_erase_self
  have hp := h p
  split_ifs at hp <;> omega

lemma Linked.deleteTimer {rest : List Addr} {s : TimerState} (h : Linked rest s) (p : Addr) :
    Linked (rest.erase p) (deleteTimer s p) := by
  intro q
  have hq := h q
  change _ = if q ∈ s.heap.erase p then 1 else 0
  by_cases hqp : q = p
  · subst hqp
    have hcount : rest.count q ≤ 1 := by split_ifs at hq <;> omega
    rw [h.not_mem_deleteTimer, List.count_erase_self]
    simp only [Finset.notMem_erase, if_false]
    omega
  · change _ + occupancy (fun i => (s.arrListTimer i).erase p) q = _
    rw [occupancy_erase_of_ne _ hqp, List.count_erase_of_ne hqp]
    simpa [hqp] using hq

/-- `list_timer_replace_init` moves the nodes of a slot to the caller's ring. -/
lemma Linked.detach {s : TimerState} (h : Linked [] s) (k : Slot) :
    Linked (s.arrListTimer k) (listTimerReplaceInit s k) := by
  intro q
  have hq := h q
  have hu := occupancy_update s.arrListTimer k [] q
  simp only [List.count_nil, zero_add, add_zero] at hq hu
  change _ + occupancy (Function.update s.arrListTimer k []) q = if q ∈ s.heap then 1 else 0
  omega

lemma Linked.foldl_addTimer {l : List Addr} {s : TimerState} (h : Linked l s) :
    Linked [] (l.foldl Timer.addTimer s) := by
  induction l generalizing s with
  | nil => exact h
  | cons p l ih => exact ih h.addTimer

lemma Linked.cascadeTimer {s : TimerState} (h : Linked [] s) (k : Slot) :
    Linked [] (cascadeTimer s k) := (h.detach k).foldl_addTimer

lemma Linked.cascadeTick {s : TimerState} (h : Linked [] s) : Linked [] (cascadeTick s) := by
  unfold Timer.cascadeTick
  dsimp only
  split_ifs
  · exact (((h.cascadeTimer _).cascadeTimer _).cascadeTimer _).cascadeTimer _
  · exact ((h.cascadeTimer _).cascadeTimer _).cascadeTimer _
  · exact (h.cascadeTimer _).cascadeTimer _
  · exact h.cascadeTimer _
  · exact h

lemma foldl_addTimer (l : List Addr) (s : TimerState) :
    l.foldl addTimer s = { s with
      arrListTimer := fun i => s.arrListTimer i ++
        l.filter fun p => addTimerSlot s.uJiffies (s.node p).uExpires = i } := by
  induction l generalizing s with
  | nil => simp
  | cons p l ih =>
    rw [List.foldl_cons, ih]
    simp only [addTimer, listTimerInsertTail, TimerState.mk.injEq, and_true, true_and]
    funext i
    by_cases h : addTimerSlot s.uJiffies (s.node p).uExpires = i
    · subst h
      simp only [Function.update_self, List.filter_cons_of_pos, decide_true, List.append_assoc,
        List.singleton_append]
      rfl
    · rw [Function.update_of_ne (Ne.symm h), List.filter_cons_of_neg (by simpa using h)]
      rfl

/-- The rings after a cascade: the slot is emptied and its nodes go home. -/
theorem cascadeTimer_eq (s : TimerState) (k : Slot) :
    cascadeTimer s k = { s with
      arrListTimer := fun i => Function.update s.arrListTimer k [] i ++
        (s.arrListTimer k).filter fun p => addTimerSlot s.uJiffies (s.node p).uExpires = i } := by
  simp only [cascadeTimer, foldl_addTimer, listTimerReplaceInit]

lemma cascadeTick_heap (s : TimerState) :
    (cascadeTick s).heap = s.heap ∧ (cascadeTick s).node = s.node := by
  unfold cascadeTick
  dsimp only
  split_ifs <;> simp only [cascadeTimer_eq, and_self]

lemma rearmOrFree_uJiffies (s : TimerState) (p : Addr) :
    (rearmOrFree s p).uJiffies = s.uJiffies := by
  unfold rearmOrFree
  dsimp only
  split_ifs <;> rfl

lemma rearmOrFree_heap (s : TimerState) (p : Addr) : (rearmOrFree s p).heap ⊆ s.heap := by
  unfold rearmOrFree
  dsimp only
  split_ifs
  · exact Finset.Subset.refl s.heap
  · exact Finset.erase_subset p s.heap

/-- The state inside a tick: `C` is the set of slots cascaded so far, and the
nodes found there have their turn after this tick. -/
structure Cascading (t : ℕ) (arming : Addr → Option Arming) (heap : Finset Addr)
    (C : Slot → Prop) (s : TimerState) : Prop where
  jiffies : s.uJiffies.toNat = t % 2 ^ 32
  heap_eq : s.heap = heap
  linked : Linked [] s
  waiting : ∀ p i, p ∈ s.arrListTimer i → ∃ a, arming p = some a ∧
    Waiting t (s.node p) a i ∧ (C i → TurnAhead (t + 1) a.due i)

theorem Cascading.one {t : ℕ} {arming : Addr → Option Arming} {heap : Finset Addr}
    {C : Slot → Prop} {s : TimerState} (h : Cascading t arming heap C s) {k : Slot}
    (hk : Cascaded s.uJiffies k) :
    Cascading t arming heap (fun i => C i ∨ i = k) (cascadeTimer s k) := by
  have hlinked := h.linked.cascadeTimer k
  rw [cascadeTimer_eq] at hlinked ⊢
  refine ⟨h.jiffies, h.heap_eq, hlinked, ?_⟩
  · intro p i hp
    rcases List.mem_append.mp hp with hp | hp
    · have hik : i ≠ k := by
        rintro rfl
        simp at hp
      rw [Function.update_of_ne hik] at hp
      obtain ⟨a, ha, hw, hC⟩ := h.waiting p i hp
      exact ⟨a, ha, hw, fun hi => hC (hi.resolve_right hik)⟩
    · obtain ⟨hpk, hi⟩ := List.mem_filter.mp hp
      obtain ⟨a, ha, hw, -⟩ := h.waiting p k hpk
      have hi : addTimerSlot s.uJiffies (s.node p).uExpires = i := by simpa using hi
      subst hi
      have hturn := addTimerSlot_turnAhead h.jiffies hw.expires hw.ahead hw.span.wrap
      refine ⟨a, ha, ⟨hw.expires, hw.begun, hw.ahead, hturn.of_succ, ?_, ?_⟩, fun _ => hturn⟩
      · exact addTimerSlot_inSpan h.jiffies hw.expires hw.ahead hw.span.wrap
      · exact (punctual_addTimerSlot_of_cascaded h.jiffies hw.expires hw.ahead hw.turn hw.span
          hk).trans hw.punctual

lemma Cascading.weaken {t : ℕ} {arming : Addr → Option Arming} {heap : Finset Addr}
    {C C' : Slot → Prop} {s : TimerState} (h : Cascading t arming heap C s)
    (hC : ∀ i, C' i → C i) : Cascading t arming heap C' s :=
  ⟨h.jiffies, h.heap_eq, h.linked, fun p i hp =>
    let ⟨a, ha, hw, ht⟩ := h.waiting p i hp
    ⟨a, ha, hw, fun hi => ht (hC i hi)⟩⟩

lemma cascadeTimer_uJiffies (s : TimerState) (k : Slot) :
    (cascadeTimer s k).uJiffies = s.uJiffies := by rw [cascadeTimer_eq]

/-- What one cascade keeps, with one slot more gone through, holds after the
cascades of a tick, which go through all of its slots. -/
theorem cascadeTick_rule {P : (Slot → Prop) → TimerState → Prop}
    (hone : ∀ C s k, P C s → Cascaded s.uJiffies k → P (fun i => C i ∨ i = k) (cascadeTimer s k))
    (hweaken : ∀ C C' s, (∀ i, C' i → C i) → P C s → P C' s) {s : TimerState}
    (h : P (fun _ => False) s) : P (Cascaded s.uJiffies) (cascadeTick s) := by
  unfold cascadeTick
  dsimp only
  by_cases h0 : tvrIndex s.uJiffies = 0
  · have c2 := hone _ _ (.tv2 (tvnIndex 0 s.uJiffies)) h ⟨h0, rfl⟩
    rw [if_pos h0]
    by_cases h1 : tvnIndex 0 s.uJiffies = 0
    · have c3 := hone _ _ (.tv3 (tvnIndex 1 s.uJiffies)) c2
        (by rw [cascadeTimer_uJiffies]; exact ⟨h0, h1, rfl⟩)
      rw [if_pos h1]
      by_cases h2 : tvnIndex 1 s.uJiffies = 0
      · have c4 := hone _ _ (.tv4 (tvnIndex 2 s.uJiffies)) c3
          (by simp only [cascadeTimer_uJiffies]; exact ⟨h0, h1, h2, rfl⟩)
        rw [if_pos h2]
        by_cases h3 : tvnIndex 2 s.uJiffies = 0
        · have c5 := hone _ _ (.tv5 (tvnIndex 3 s.uJiffies)) c4
            (by simp only [cascadeTimer_uJiffies]; exact ⟨h0, h1, h2, h3, rfl⟩)
          rw [if_pos h3]
          exact hweaken _ _ _ (fun i => by cases i <;> simp +contextual [Cascaded]) c5
        · rw [if_neg h3]
          exact hweaken _ _ _ (fun i => by cases i <;> simp +contextual [Cascaded, h3]) c4
      · rw [if_neg h2]
        exact hweaken _ _ _ (fun i => by cases i <;> simp +contextual [Cascaded, h2]) c3
    · rw [if_neg h1]
      exact hweaken _ _ _ (fun i => by cases i <;> simp +contextual [Cascaded, h1]) c2
  · rw [if_neg h0]
    exact hweaken _ _ _ (fun i => by cases i <;> simp [Cascaded, h0]) h

/-- After the cascades every slot of the tick has been gone through. -/
theorem Cascading.all {t : ℕ} {arming : Addr → Option Arming} {heap : Finset Addr}
    {s : TimerState} (h : Cascading t arming heap (fun _ => False) s) :
    Cascading t arming heap (Cascaded s.uJiffies) (cascadeTick s) :=
  cascadeTick_rule (P := Cascading t arming heap) (fun _ _ _ hs hk => hs.one hk)
    (fun _ _ _ hC hs => hs.weaken hC) h

/-- Between two calls of tick `t`: the nodes of `rest` are due now or, if their
delay was not resolved, later; all others wait for a later tick. -/
structure Expiring (t : ℕ) (rest : List Addr) (s : TimerState) (log : List Event) : Prop where
  jiffies : s.uJiffies.toNat = t % 2 ^ 32
  linked : Linked rest s
  armed : ∀ p, p ∉ s.heap → armingOf log p = none
  expiring : ∀ p ∈ rest, ∃ a, armingOf log p = some a ∧ Answers a t
  waiting : ∀ p i, p ∈ s.arrListTimer i →
    ∃ a, armingOf log p = some a ∧ Waiting (t + 1) (s.node p) a i
  timely : Timely log

/-- The events of the other nodes are not touched by what is logged for one. -/
lemma Expiring.log_of_ne {p q : Addr} {t : ℕ} {P : UInt32} (log : List Event) (h : q ≠ p) :
    armingOf (.called p t P :: log) q = armingOf log q :=
  armingOf_cons_of_ne log (by simpa [Event.pTmr] using Ne.symm h)

theorem Expiring.step {t : ℕ} {p : Addr} {rest : List Addr} {s : TimerState} {log : List Event}
    (h : Expiring t (p :: rest) s log) :
    Expiring t rest (rearmOrFree s p) (.called p t (s.node p).uPeriod :: log) := by
  obtain ⟨hheap, hrest, hslots⟩ := h.linked.not_mem
  obtain ⟨a, ha, hans⟩ := h.expiring p List.mem_cons_self
  have hne : ∀ q, (q ∈ rest ∨ (∃ i, q ∈ s.arrListTimer i) ∨ q ∉ s.heap) → q ≠ p := by
    rintro q hq rfl
    rcases hq with hq | ⟨i, hq⟩ | hq
    · exact hrest hq
    · exact hslots i hq
    · exact hq hheap
  have hlinked := h.linked.rearmOrFree
  have htimely : Timely (.called p t (s.node p).uPeriod :: log) := ⟨h.timely, a, ha, hans⟩
  have hexp : ∀ q ∈ rest, ∃ a, armingOf (.called p t (s.node p).uPeriod :: log) q = some a ∧
      Answers a t := fun q hq => by
    rw [Expiring.log_of_ne log (hne q (.inl hq))]
    exact h.expiring q (List.mem_cons_of_mem p hq)
  have harms := armingOf_cons_self (e := .called p t (s.node p).uPeriod) log
  simp only [Event.pTmr, Event.arms] at harms
  unfold rearmOrFree at hlinked ⊢
  dsimp only at hlinked ⊢
  split_ifs at hlinked ⊢ with hP
  · -- periodic: armed again for tick `t + uPeriod`
    rw [if_pos hP] at harms
    have hpos : 0 < (s.node p).uPeriod.toNat := Nat.pos_of_ne_zero fun hz =>
      hP (UInt32.toNat_inj.mp (by simpa using hz))
    have hlt := (s.node p).uPeriod.toNat_lt
    let n : TimerNode := { s.node p with uExpires := s.uJiffies + (s.node p).uPeriod }
    let b : Arming := ⟨t, (s.node p).uPeriod.toNat, true⟩
    have hdue : b.due = t + (s.node p).uPeriod.toNat := rfl
    have hx : n.uExpires.toNat = b.due % 2 ^ 32 := by
      rw [hdue, UInt32.toNat_add, h.jiffies]
      omega
    have hpunct := punctual_addTimerSlot_iff (a := b) h.jiffies hx (by simpa [b] using hlt)
    have hspan := addTimerSlot_inSpan h.jiffies hx (by omega) (by omega)
    have hturn := addTimerSlot_turnAhead h.jiffies hx (by omega) (by omega)
    refine ⟨h.jiffies, hlinked, ?_, hexp, ?_, htimely⟩
    · intro q hq
      rw [Expiring.log_of_ne log (hne q (.inr (.inr hq)))]
      exact h.armed q hq
    · intro q i hq
      rw [addTimer_arrListTimer] at hq
      simp only [Function.update_self] at hq
      change ∃ a, _ ∧ Waiting (t + 1) (Function.update s.node p n q) a i
      by_cases hqp : q = p
      · subst hqp
        have hi : i = addTimerSlot s.uJiffies n.uExpires := by
          by_contra hi
          rw [Function.update_of_ne hi] at hq
          exact hslots i hq
        subst hi
        rw [Function.update_self]
        exact ⟨b, harms, hx, by simp [b], by omega, hturn, hspan.succ, by simpa [b] using hpunct⟩
      · rw [Function.update_of_ne hqp, Expiring.log_of_ne log hqp]
        refine h.waiting q i ?_
        by_cases hi : i = addTimerSlot s.uJiffies n.uExpires
        · subst hi
          simpa [hqp, n] using hq
        · rwa [Function.update_of_ne hi] at hq
  · -- one-shot: freed
    rw [if_neg hP] at harms
    refine ⟨h.jiffies, hlinked, ?_, hexp, ?_, htimely⟩
    · intro q hq
      by_cases hqp : q = p
      · subst hqp
        exact harms
      · rw [Expiring.log_of_ne log hqp]
        exact h.armed q fun hq' => hq (Finset.mem_erase.mpr ⟨hqp, hq'⟩)
    · intro q i hq
      rw [Expiring.log_of_ne log (hne q (.inr (.inl ⟨i, hq⟩)))]
      exact h.waiting q i hq

theorem Expiring.walk {t : ℕ} {rest : List Addr} {s : TimerState} {log : List Event}
    (h : Expiring t rest s log) :
    Expiring t [] (expireWalk (recordCall t) rest (s, log)).1
      (expireWalk (recordCall t) rest (s, log)).2 := by
  induction rest generalizing s log with
  | nil => exact h
  | cons p rest ih => exact ih h.step

/-- A node that is not in the slot of this tick, and has its turn after it,
waits for the next tick as it did for this one. -/
lemma Waiting.succ {t : ℕ} {n : TimerNode} {a : Arming} {i : Slot} (h : Waiting t n a i)
    (hturn : TurnAhead (t + 1) a.due i) (hslot : ∀ j, i = .tv1 j → j.val ≠ t % 256) :
    Waiting (t + 1) n a i := by
  have hahead := h.ahead
  have hold := h.punctual
  cases i with
  | tv1 j =>
    have hj := hslot j rfl
    have hturn' : j.val = a.due % 256 := hturn
    refine ⟨h.expires, Nat.le_succ_of_le h.begun, by omega, hturn, h.span.succ, ?_⟩
    rw [← hold]
    simp only [Punctual]
    omega
  | tv2 j | tv3 j | tv4 j | tv5 j =>
    refine ⟨h.expires, Nat.le_succ_of_le h.begun, ?_, hturn, h.span.succ, hold⟩
    simp only [TurnAhead] at hturn
    omega

/-- The nodes of the slot of tick `t` are answered by a call at `t`. -/
lemma Waiting.answers {t : ℕ} {n : TimerNode} {a : Arming} {j : Fin 256}
    (h : Waiting t n a (.tv1 j)) (hj : j.val = t % 256) : Answers a t := by
  have hahead := h.ahead
  have hturn : j.val = a.due % 256 := h.turn
  refine ⟨h.begun, hahead, ?_⟩
  rw [← h.punctual]
  simp only [Punctual]
  omega

theorem WheelInv.tick {s : WheelRun} (h : WheelInv s) : WheelInv (applyOp s .tick) := by
  have hstart : Cascading s.tick (armingOf s.log) s.timers.heap (fun _ => False) s.timers :=
    ⟨h.jiffies, rfl, h.linked, fun p i hp =>
      let ⟨a, ha, hw⟩ := h.waiting p i hp
      ⟨a, ha, hw, False.elim⟩⟩
  have hc := hstart.all
  set m := cascadeTick s.timers with hm
  have hidx : (tvrIndex m.uJiffies).val = s.tick % 256 := by
    rw [tvrIndex_val, hc.jiffies]
    omega
  have hexp : Expiring s.tick (m.arrListTimer (.tv1 (tvrIndex m.uJiffies)))
      (listTimerReplaceInit m (.tv1 (tvrIndex m.uJiffies))) s.log := by
    refine ⟨hc.jiffies, hc.linked.detach _, ?_, ?_, ?_, h.timely⟩
    · intro p hp
      exact h.armed p (by rw [← hc.heap_eq]; exact hp)
    · intro p hp
      obtain ⟨a, ha, hw, -⟩ := hc.waiting p _ hp
      exact ⟨a, ha, hw.answers hidx⟩
    · intro p i hp
      have hi : i ≠ .tv1 (tvrIndex m.uJiffies) := by
        rintro rfl
        simp [listTimerReplaceInit] at hp
      obtain ⟨a, ha, hw, hC⟩ := hc.waiting p i
        (by simpa [listTimerReplaceInit, Function.update_of_ne hi] using hp)
      refine ⟨a, ha, hw.succ ?_ ?_⟩
      · by_cases hcas : Cascaded s.timers.uJiffies i
        · exact hC hcas
        · exact hw.turn.succ_of_not_cascaded h.jiffies hcas
      · rintro j rfl hj
        exact hi (congrArg Slot.tv1 (Fin.ext (hj.trans hidx.symm)))
  have hwalk := hexp.walk
  refine ⟨?_, hwalk.linked, hwalk.armed, hwalk.waiting, hwalk.timely⟩
  change (UInt32.toNat (_ + 1)) = (s.tick + 1) % 2 ^ 32
  rw [UInt32.toNat_add, hwalk.jiffies, show (1 : UInt32).toNat = 1 from rfl]
  omega

/-- `create_timer` arms a node for the tick `uDueTime` ahead. -/
theorem WheelInv.createTimer {s : WheelRun} (h : WheelInv s) {p : Addr} (hp : p ∉ s.timers.heap)
    (f : TimerFn) (pParam : ℕ) (D P : UInt32) :
    WheelInv (applyOp s (.createTimer (some p) (some f) pParam D P)) := by
  let n : TimerNode := ⟨s.timers.uJiffies + D, P, f, pParam⟩
  let a : Arming := ⟨s.tick, D.toNat, false⟩
  have hlt := D.toNat_lt
  have hdue : a.due = s.tick + D.toNat := rfl
  have hx : n.uExpires.toNat = a.due % 2 ^ 32 := by
    rw [hdue, UInt32.toNat_add, h.jiffies]
    omega
  have hpunct := punctual_addTimerSlot_iff (a := a) h.jiffies hx (by simpa [a] using hlt)
  have hspan := addTimerSlot_inSpan h.jiffies hx (by omega) (by omega)
  have hturn := (addTimerSlot_turnAhead h.jiffies hx (by omega) (by omega)).of_succ
  have hlog : ∀ q, q ≠ p →
      armingOf (.created p s.tick D P :: s.log) q = armingOf s.log q := fun q hq =>
    armingOf_cons_of_ne s.log (by simpa [Event.pTmr] using Ne.symm hq)
  have hfree : ∀ i, p ∉ s.timers.arrListTimer i := fun i hi => hp (h.linked.mem_heap hi)
  refine ⟨h.jiffies, (h.linked.insert hp n).addTimer, ?_, ?_, h.timely, h.armed p hp⟩
  · intro q hq
    have hq' : q ∉ insert p s.timers.heap := hq
    rw [Finset.mem_insert, not_or] at hq'
    exact (hlog q hq'.1).trans (h.armed q hq'.2)
  · intro q i hq
    change q ∈ Function.update s.timers.arrListTimer _ _ i at hq
    simp only [Function.update_self] at hq
    change ∃ b, armingOf (.created p s.tick D P :: s.log) q = some b ∧
      Waiting s.tick (Function.update s.timers.node p n q) b i
    by_cases hqp : q = p
    · subst hqp
      have hi : i = addTimerSlot s.timers.uJiffies n.uExpires := by
        by_contra hi
        rw [Function.update_of_ne hi] at hq
        exact hfree i hq
      subst hi
      rw [Function.update_self]
      exact ⟨a, armingOf_cons_self _, hx, le_rfl, Nat.le_add_right _ _, hturn, hspan, hpunct⟩
    · rw [hlog q hqp, Function.update_of_ne hqp]
      refine h.waiting q i ?_
      by_cases hi : i = addTimerSlot s.timers.uJiffies n.uExpires
      · subst hi
        simpa [hqp, n] using hq
      · rwa [Function.update_of_ne hi] at hq

theorem WheelInv.deleteTimer {s : WheelRun} (h : WheelInv s) {p : Addr}
    (hp : p ∈ s.timers.heap) : WheelInv (applyOp s (.deleteTimer p)) := by
  have hlog : ∀ q, q ≠ p → armingOf (.deleted p :: s.log) q = armingOf s.log q := fun q hq =>
    armingOf_cons_of_ne s.log (by simpa [Event.pTmr] using Ne.symm hq)
  have hocc : occupancy s.timers.arrListTimer p = 1 := by simpa [hp] using h.linked p
  obtain ⟨i, hi, -⟩ := existsUnique_of_occupancy_eq_one hocc
  obtain ⟨a, ha, -⟩ := h.waiting p i (List.count_pos_iff.mp (by omega))
  refine ⟨h.jiffies, h.linked.deleteTimer p, ?_, ?_, h.timely, a, ha⟩
  · intro q hq
    change armingOf (.deleted p :: s.log) q = none
    by_cases hqp : q = p
    · subst hqp
      exact armingOf_cons_self _
    · rw [hlog q hqp]
      exact h.armed q fun hq' => hq (Finset.mem_erase.mpr ⟨hqp, hq'⟩)
  · intro q j hq
    have hqp : q ≠ p := by
      rintro rfl
      exact not_mem_of_occupancy_eq_zero (h.linked.not_mem_deleteTimer _) j hq
    change ∃ b, armingOf (.deleted p :: s.log) q = some b ∧ _
    rw [hlog q hqp]
    exact h.waiting q j (List.mem_of_mem_erase hq)

/-- The manager before the first `create_timer`: no node, an empty log. -/
lemma wheelInv_emptyManager (b : UInt32) : WheelInv ⟨emptyManager b, b.toNat, []⟩ := by
  have hlt := b.toNat_lt
  refine ⟨(Nat.mod_eq_of_lt hlt).symm, ?_, fun _ _ => rfl, ?_, trivial⟩
  · intro p
    simp [emptyManager]
  · intro p i hp
    simp [emptyManager] at hp

theorem wheelInv_of_reachable {s : WheelRun} (hs : wheelSystem.Reachable s) : WheelInv s := by
  refine hs.invariant ?_ ?_
  · rintro _ ⟨b, rfl⟩
    exact (wheelInv_emptyManager b).createTimer (p := 0) (by simp [emptyManager]) .cleanDeadTask 0
      150000 150000
  · rintro s op _ h - ⟨hop, rfl⟩
    match op, hop with
    | .createTimer (some p) (some f) pParam D P, hop =>
      exact h.createTimer (hop p rfl) f pParam D P
    | .createTimer none f pParam D P, _ => cases f <;> exact h
    | .createTimer (some p) none pParam D P, _ => exact h
    | .deleteTimer p, hop => exact h.deleteTimer hop
    | .tick, _ => exact h.tick

/-- The next thing that happens to a node, in a log read in the order of time. -/
def nextEvent (log : List Event) (p : Addr) : Option Event := log.find? fun e => e.pTmr = p

/-- The event after `e` on its node is one that the arming of `e` allows; while
there is none, the arming of `e` is the one the log leaves pending. -/
theorem Timely.next {newer older : List Event} {e : Event} (h : Timely (newer ++ e :: older)) :
    match nextEvent newer.reverse e.pTmr with
    | none => armingOf (newer ++ e :: older) e.pTmr = e.arms
    | some (.created _ _ _ _) => e.arms = none
    | some (.called _ t _) => ∃ a, e.arms = some a ∧ Answers a t
    | some (.deleted _) => ∃ a, e.arms = some a := by
  induction newer with
  | nil => exact armingOf_cons_self older
  | cons f newer ih =>
    have ih := ih h.1
    have hnext : nextEvent (f :: newer).reverse e.pTmr =
        (nextEvent newer.reverse e.pTmr).or (if f.pTmr = e.pTmr then some f else none) := by
      simp [nextEvent, List.find?_append]
    rw [hnext]
    cases hn : nextEvent newer.reverse e.pTmr with
    | some g =>
      rw [hn] at ih
      rw [Option.some_or]
      cases g <;> exact ih
    | none =>
      rw [hn] at ih
      by_cases hf : f.pTmr = e.pTmr
      · have hhead := h.2
        simp only [hf, if_true, Option.none_or]
        cases f <;> simp only [Event.pTmr] at hf <;> subst hf <;> rw [← ih] <;> exact hhead
      · simp only [hf, if_false, Option.or_none]
        exact (armingOf_cons_of_ne _ hf).trans ih

/-- Linked once in one slot of one wheel. -/
def LinkedOnce (s : TimerState) (p : Addr) : Prop :=
  ∃ i, (s.arrListTimer i).count p = 1 ∧ ∀ j, j ≠ i → p ∉ s.arrListTimer j

/-- What becomes of each event of the log. An arming is followed by a deletion
or by one call, at the latest at the tick with `uJiffies == uExpires`; until
then the node is linked once and that tick is still ahead. A node that was
deleted, or called with period 0, is released; only then is its address used
again. -/
def ArmingsMet (s : WheelRun) : Prop :=
  ∀ pre e post, s.log.reverse = pre ++ e :: post →
    match e.arms, nextEvent post e.pTmr with
    | some _, some (.deleted _) => True
    | some a, some (.called _ t _) => a.tick ≤ t ∧ t ≤ a.due
    | some a, none => e.pTmr ∈ s.timers.heap ∧ LinkedOnce s.timers e.pTmr ∧ s.tick ≤ a.due ∧
        (s.timers.node e.pTmr).uExpires.toNat = a.due % 2 ^ 32
    | none, some (.created _ _ _ _) => True
    | none, none => e.pTmr ∉ s.timers.heap ∧ ∀ i, e.pTmr ∉ s.timers.arrListTimer i
    | _, _ => False

/-- No loss and no lateness: in every run, every arming that is not deleted
leads to exactly one call, and that call is not late. -/
theorem armingsMet_of_reachable {s : WheelRun} (hs : wheelSystem.Reachable s) :
    s.timers.uJiffies.toNat = s.tick % 2 ^ 32 ∧ ArmingsMet s := by
  have h := wheelInv_of_reachable hs
  refine ⟨h.jiffies, ?_⟩
  intro pre e post hsplit
  have hlog : s.log = post.reverse ++ e :: pre.reverse := by
    simpa using congrArg List.reverse hsplit
  have hnext := (hlog ▸ h.timely : Timely (post.reverse ++ e :: pre.reverse)).next
  rw [List.reverse_reverse] at hnext
  cases hn : nextEvent post e.pTmr with
  | some f =>
    rw [hn] at hnext
    cases f with
    | created => simp only [hnext]
    | called =>
      obtain ⟨a, ha, hans⟩ := hnext
      simp only [ha]
      exact ⟨hans.1, hans.2.1⟩
    | deleted =>
      obtain ⟨a, ha⟩ := hnext
      simp only [ha]
  | none =>
    rw [hn] at hnext
    simp only at hnext
    rw [← hlog] at hnext
    by_cases hheap : e.pTmr ∈ s.timers.heap
    · have hocc : occupancy s.timers.arrListTimer e.pTmr = 1 := by
        simpa [hheap] using h.linked e.pTmr
      obtain ⟨i, hi, huniq⟩ := existsUnique_of_occupancy_eq_one hocc
      obtain ⟨a, ha, hw⟩ := h.waiting e.pTmr i (List.count_pos_iff.mp (by omega))
      rw [hnext] at ha
      simp only [ha]
      exact ⟨hheap, ⟨i, hi, huniq⟩, hw.ahead, hw.expires⟩
    · have hnone := h.armed e.pTmr hheap
      rw [hnext] at hnone
      simp only [hnone]
      exact ⟨hheap, fun i hi => hheap (h.linked.mem_heap hi)⟩

/-- A one-shot timer for the current tick, created at `uJiffies == 1`, and that
tick. -/
def oneShotRun : WheelRun :=
  applyOp (applyOp (wheelStart 1) (.createTimer (some 1) (some (.user 0)) 0 0 0)) .tick

lemma oneShotRun_reachable : wheelSystem.Reachable oneShotRun :=
  .step (.step (.init ⟨1, rfl⟩) trivial ⟨by decide, rfl⟩) (a := .tick) trivial ⟨trivial, rfl⟩

lemma oneShotRun_log :
    oneShotRun.log = [.called 1 1 0, .created 1 1 0 0, .created 0 1 150000 150000] := by
  rfl

/-- The one-shot node is called and released, the periodic one still linked. -/
theorem armingsMet_oneShotRun :
    1 ∉ oneShotRun.timers.heap ∧ LinkedOnce oneShotRun.timers 0 := by
  have h := (armingsMet_of_reachable oneShotRun_reachable).2
  have hlog : oneShotRun.log.reverse =
      [.created 0 1 150000 150000, .created 1 1 0 0, .called 1 1 0] := by rw [oneShotRun_log]; rfl
  have h1 := h [.created 0 1 150000 150000, .created 1 1 0 0] (.called 1 1 0) [] hlog
  have h0 := h [] (.created 0 1 150000 150000) [.created 1 1 0 0, .called 1 1 0] hlog
  exact ⟨h1.1, h0.2.1⟩

end Libtask.Timer
