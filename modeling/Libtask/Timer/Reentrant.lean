import Libtask.Timer.Delivery

/-!
# Callbacks that use the timers

`run_timer` walks the detached ring of a slot with a saved next pointer and
reads each node again after its call, while the `timerFn` may create and delete
timers. A run is made of the steps of the walk and of the calls that come from
outside or from the callback that is running. The address of a node is used
once, so that it names the node; an access to a freed node is a fault.

A node that the walk has left is linked from one node of the detached ring only,
the one that the saved pointer names. As long as that one is not deleted, the
links of every other node lead to its neighbours.
-/
namespace Libtask.Timer
open Transition

/-- Where control is; the argument is `pListTmrExpire`. -/
inductive Phase
  | idle
  /-- at the test of the inner loop -/
  | walking (pListTmrExpire : Option Addr)
  /-- in the `timerFn` of `pTmr` -/
  | firing (pTmr : Addr) (pListTmrExpire : Option Addr)
  | fault
  deriving DecidableEq, Repr

/-- When a node was created, with which delay, and whether by a `timerFn`. -/
structure Birth where
  tick : ℕ
  uDueTime : UInt32
  inside : Bool
  deriving DecidableEq, Repr

/-- `ring` holds the nodes of the detached ring that the walk has not reached. The
fields from `born` on are a record: of the creations, of the tick of the first
call of each node, of the calls of this tick, of the nodes that it has detached
and not deleted since, and of the deletions. -/
structure ExpiryRun where
  timers : TimerState
  ring : List Addr
  phase : Phase
  tick : ℕ
  born : Addr → Option Birth
  firstCall : Addr → Option ℕ
  fired : List Addr
  expired : List Addr
  deleted : Finset Addr

inductive ExpiryOp
  | beginTick
  | fire (pTmr : Addr)
  | ret
  | finish
  | createTimer (malloc : Addr) (timerFn : TimerFn) (pParam : ℕ) (uDueTime uPeriod : UInt32)
  | deleteTimer (lpTimer : Addr)
  deriving DecidableEq, Repr

/-- Control is outside the library, or in a callback. -/
def Phase.Outside (ph : Phase) : Prop := ph = .idle ∨ ∃ q saved, ph = .firing q saved

inductive ExpiryStep (s : ExpiryRun) : ExpiryOp → ExpiryRun → Prop
  /-- the cascades and the detaching of the slot -/
  | beginTick {expired : List Addr} {idx : Slot} (hphase : s.phase = .idle)
      (hidx : idx = .tv1 (tvrIndex (cascadeTick s.timers).uJiffies))
      (hexpired : expired = (cascadeTick s.timers).arrListTimer idx) :
      ExpiryStep s .beginTick { s with
        timers := listTimerReplaceInit (cascadeTick s.timers) idx
        ring := expired
        phase := .walking expired.head?
        fired := []
        expired := expired }
  /-- the next pointer is saved and the `timerFn` called -/
  | fire {p : Addr} {rest : List Addr} (hphase : s.phase = .walking (some p))
      (hring : s.ring = p :: rest) (hlive : p ∈ s.timers.heap) :
      ExpiryStep s (.fire p) { s with
        ring := rest
        phase := .firing p rest.head?
        firstCall := Function.update s.firstCall p (some ((s.firstCall p).getD s.tick))
        fired := s.fired ++ [p] }
  | fireFreed {p : Addr} (hphase : s.phase = .walking (some p)) (hfreed : p ∉ s.timers.heap) :
      ExpiryStep s (.fire p) { s with phase := .fault }
  /-- the period of the node is read -/
  | ret {p : Addr} {saved : Option Addr} (hphase : s.phase = .firing p saved)
      (hlive : p ∈ s.timers.heap) :
      ExpiryStep s .ret { s with timers := rearmOrFree s.timers p, phase := .walking saved }
  | retFreed {p : Addr} {saved : Option Addr} (hphase : s.phase = .firing p saved)
      (hfreed : p ∉ s.timers.heap) : ExpiryStep s .ret { s with phase := .fault }
  | finish (hphase : s.phase = .walking none) :
      ExpiryStep s .finish { s with
        timers := { s.timers with uJiffies := s.timers.uJiffies + 1 }
        phase := .idle
        tick := s.tick + 1 }
  | createTimer {p : Addr} {f : TimerFn} {pParam : ℕ} {due period : UInt32}
      (hphase : s.phase.Outside) (hnew : s.born p = none) :
      ExpiryStep s (.createTimer p f pParam due period) { s with
        timers := (Timer.createTimer s.timers (some p) (some f) pParam due period).1
        born := Function.update s.born p (some ⟨s.tick, due, s.phase ≠ .idle⟩) }
  | deleteTimer {p : Addr} (hphase : s.phase.Outside) (hborn : s.born p ≠ none)
      (hfirst : p ∉ s.deleted) (hlive : p ∈ s.timers.heap) :
      ExpiryStep s (.deleteTimer p) { s with
        timers := Timer.deleteTimer s.timers p
        ring := s.ring.erase p
        expired := if p ∈ s.ring then s.expired.erase p else s.expired
        deleted := insert p s.deleted }
  | deleteFreed {p : Addr} (hphase : s.phase.Outside) (hborn : s.born p ≠ none)
      (hfirst : p ∉ s.deleted) (hfreed : p ∉ s.timers.heap) :
      ExpiryStep s (.deleteTimer p) { s with phase := .fault, deleted := insert p s.deleted }

/-- `timer_init` at the clock reading `b`. -/
def expiryStart (b : UInt32) : ExpiryRun where
  timers := timerInit b
  ring := []
  phase := .idle
  tick := b.toNat
  born := Function.update (fun _ => none) 0 (some ⟨b.toNat, 150000, false⟩)
  firstCall := fun _ => none
  fired := []
  expired := []
  deleted := ∅

def expirySystem : System ExpiryRun ExpiryOp where
  init s := ∃ b, s = expiryStart b
  step := ExpiryStep

/-- The node is pending, and the walk neither is at it nor goes there next. -/
def Cancellable (s : ExpiryRun) (p : Addr) : Prop :=
  p ∈ s.timers.heap ∧ ∀ q saved, s.phase = .firing q saved → q ≠ p ∧ saved ≠ some p

/-- Only such nodes are deleted. -/
def Cancelling (s : ExpiryRun) : ExpiryOp → Prop
  | .deleteTimer p => Cancellable s p
  | _ => True

/-- The nodes that are in the hands of the walk. -/
def ExpiryRun.inHand (s : ExpiryRun) : List Addr :=
  match s.phase with
  | .firing p _ => p :: s.ring
  | _ => s.ring

/-- The saved pointer names the next node of the ring. -/
def ExpiryRun.Saved (s : ExpiryRun) : Prop :=
  match s.phase with
  | .idle => s.ring = []
  | .walking saved => saved = s.ring.head?
  | .firing _ saved => saved = s.ring.head?
  | .fault => False

structure ExpiryInv (s : ExpiryRun) : Prop where
  saved : s.Saved
  linked : Linked s.inHand s.timers
  born : ∀ p ∈ s.timers.heap, s.born p ≠ none
  deleted : ∀ p ∈ s.deleted, p ∉ s.timers.heap ∧ s.born p ≠ none
  order : s.fired ++ s.ring = s.expired
  nodup : s.expired.Nodup

section Inv

variable {s : ExpiryRun} {p q : Addr} {saved : Option Addr}

lemma Linked.nodup_of_mem {rest : List Addr} {t : TimerState} (h : Linked rest t) :
    rest.Nodup := by
  apply List.nodup_iff_count_le_one.mpr
  intro q
  have := h q
  split_ifs at this <;> omega

lemma Linked.mem_of_hand {rest : List Addr} {t : TimerState} (h : Linked rest t) (hp : p ∈ rest) :
    p ∈ t.heap ∧ ∀ i, p ∉ t.arrListTimer i := by
  have hcount := List.count_pos_iff.mpr hp
  have hp' := h p
  split_ifs at hp' with hheap
  · exact ⟨hheap, not_mem_of_occupancy_eq_zero (by omega)⟩
  · omega

/-- The node that is called is live, and so is the saved one. -/
lemma ExpiryInv.firing (h : ExpiryInv s) (hphase : s.phase = .firing p saved) :
    p ∈ s.timers.heap ∧ p ∉ s.ring ∧ saved = s.ring.head? ∧ Linked (p :: s.ring) s.timers := by
  have hlinked := h.linked
  have hsaved := h.saved
  simp only [ExpiryRun.inHand, ExpiryRun.Saved, hphase] at hlinked hsaved
  obtain ⟨hheap, hring, -⟩ := hlinked.not_mem
  exact ⟨hheap, hring, hsaved, hlinked⟩

lemma ExpiryInv.walking (h : ExpiryInv s) (hphase : s.phase = .walking saved) :
    saved = s.ring.head? ∧ Linked s.ring s.timers := by
  have hlinked := h.linked
  have hsaved := h.saved
  simp only [ExpiryRun.inHand, ExpiryRun.Saved, hphase] at hlinked hsaved
  exact ⟨hsaved, hlinked⟩

lemma ExpiryInv.idle (h : ExpiryInv s) (hphase : s.phase = .idle) :
    s.ring = [] ∧ Linked [] s.timers := by
  have hlinked := h.linked
  have hsaved := h.saved
  simp only [ExpiryRun.inHand, ExpiryRun.Saved, hphase] at hlinked hsaved
  rw [hsaved] at hlinked
  exact ⟨hsaved, hlinked⟩

lemma ExpiryInv.head_live (h : ExpiryInv s) (hphase : s.phase = .walking (some p)) :
    p ∈ s.timers.heap := by
  obtain ⟨hsaved, hlinked⟩ := h.walking hphase
  exact (hlinked.mem_of_hand (List.mem_of_mem_head? hsaved.symm)).1

/-- A freed node is in no list. -/
lemma ExpiryInv.not_linked (h : ExpiryInv s) (hp : p ∉ s.timers.heap) :
    (∀ i, p ∉ s.timers.arrListTimer i) ∧ p ∉ s.ring := by
  have hcount : ∀ hand, Linked hand s.timers → p ∉ hand ∧ ∀ i, p ∉ s.timers.arrListTimer i := by
    intro hand hlinked
    have hz := hlinked p
    rw [if_neg hp] at hz
    exact ⟨List.count_eq_zero.mp (by omega), not_mem_of_occupancy_eq_zero (by omega)⟩
  obtain ⟨hhand, hslots⟩ := hcount _ h.linked
  refine ⟨hslots, fun hm => hhand ?_⟩
  unfold ExpiryRun.inHand
  split
  · exact List.mem_cons_of_mem _ hm
  · exact hm

lemma ExpiryInv.not_fault (h : ExpiryInv s) : s.phase ≠ .fault := by
  intro hphase
  have hsaved := h.saved
  rwa [ExpiryRun.Saved, hphase] at hsaved

lemma ExpiryInv.createTimer (h : ExpiryInv s) (hnew : s.born p = none) (f : TimerFn) (pParam : ℕ)
    (due period : UInt32) (b : Birth) : ExpiryInv { s with
      timers := (Timer.createTimer s.timers (some p) (some f) pParam due period).1
      born := Function.update s.born p (some b) } := by
  have hp : p ∉ s.timers.heap := fun hm => h.born p hm hnew
  constructor
  case saved => exact h.saved
  case linked => exact (h.linked.insert hp _).addTimer
  case born =>
    intro q hq
    by_cases hqp : q = p
    · subst hqp
      simp
    · show Function.update s.born p (some b) q ≠ none
      rw [Function.update_of_ne hqp]
      exact h.born q (Finset.mem_of_mem_insert_of_ne hq hqp)
  case deleted =>
    intro q hq
    obtain ⟨hheap, hborn⟩ := h.deleted q hq
    have hqp : q ≠ p := by
      rintro rfl
      exact hborn hnew
    refine ⟨fun hm => hheap (Finset.mem_of_mem_insert_of_ne hm hqp), ?_⟩
    show Function.update s.born p (some b) q ≠ none
    rwa [Function.update_of_ne hqp]
  case order => exact h.order
  case nodup => exact h.nodup

/-- A node that the walk is not at is taken from its slot or from the ring. -/
lemma ExpiryInv.deleteTimer (h : ExpiryInv s) (hphase : s.phase.Outside) (hborn : s.born p ≠ none)
    (hcan : Cancellable s p) : ExpiryInv { s with
      timers := Timer.deleteTimer s.timers p
      ring := s.ring.erase p
      expired := if p ∈ s.ring then s.expired.erase p else s.expired
      deleted := insert p s.deleted } := by
  obtain ⟨hlive, hwalk⟩ := hcan
  constructor
  case saved =>
    rcases hphase with hidle | ⟨q, saved, hfiring⟩
    · show ExpiryRun.Saved _
      simp only [ExpiryRun.Saved, hidle, (h.idle hidle).1, List.erase_nil]
    · obtain ⟨-, -, hsaved, -⟩ := h.firing hfiring
      show ExpiryRun.Saved _
      simp only [ExpiryRun.Saved, hfiring]
      rw [hsaved]
      cases hring : s.ring with
      | nil => rfl
      | cons r rest =>
        have hr : r ≠ p := by
          rintro rfl
          exact (hwalk q saved hfiring).2 (by rw [hsaved, hring]; rfl)
        rw [List.erase_cons_tail (by simpa using hr)]
        rfl
  case linked =>
    have hlinked := h.linked.deleteTimer p
    rcases hphase with hidle | ⟨q, saved, hfiring⟩
    · simp only [ExpiryRun.inHand, hidle] at hlinked ⊢
      exact hlinked
    · have hq := (hwalk q saved hfiring).1
      simp only [ExpiryRun.inHand, hfiring] at hlinked ⊢
      rwa [List.erase_cons_tail (by simpa using hq)] at hlinked
  case born => exact fun q hq => h.born q (Finset.mem_of_mem_erase hq)
  case deleted =>
    intro q hq
    rcases Finset.mem_insert.mp hq with rfl | hq
    · exact ⟨Finset.notMem_erase q s.timers.heap, hborn⟩
    · obtain ⟨hheap, hb⟩ := h.deleted q hq
      exact ⟨fun hm => hheap (Finset.mem_of_mem_erase hm), hb⟩
  case order =>
    show s.fired ++ s.ring.erase p = if p ∈ s.ring then s.expired.erase p else s.expired
    by_cases hp : p ∈ s.ring
    · have hnodup := h.nodup
      rw [← h.order] at hnodup ⊢
      have hfired : p ∉ s.fired := fun hf => (List.disjoint_of_nodup_append hnodup) hf hp
      rw [if_pos hp, List.erase_append_right _ hfired]
    · rw [if_neg hp, List.erase_of_not_mem hp, h.order]
  case nodup =>
    show (if p ∈ s.ring then s.expired.erase p else s.expired).Nodup
    split_ifs
    · exact h.nodup.erase p
    · exact h.nodup

end Inv

theorem ExpiryInv.step {s s' : ExpiryRun} {op : ExpiryOp} (h : ExpiryInv s)
    (hg : Cancelling s op) (hst : ExpiryStep s op s') : ExpiryInv s' := by
  cases hst with
  | beginTick hphase hidx hexpired =>
    have hlinked := ((h.idle hphase).2.cascadeTick).detach (.tv1 (tvrIndex
      (cascadeTick s.timers).uJiffies))
    rw [← hidx, ← hexpired] at hlinked
    have hheap := (cascadeTick_heap s.timers).1
    constructor
    case saved => rfl
    case linked => exact hlinked
    case born => exact fun q hq => h.born q (hheap ▸ hq)
    case deleted =>
      intro q hq
      obtain ⟨hq1, hq2⟩ := h.deleted q hq
      exact ⟨fun hm => hq1 (hheap ▸ hm), hq2⟩
    case order => rfl
    case nodup => exact hlinked.nodup_of_mem
  | @fire p rest hphase hring hlive =>
    obtain ⟨-, hlinked⟩ := h.walking hphase
    rw [hring] at hlinked
    refine ⟨rfl, hlinked, h.born, h.deleted, ?_, h.nodup⟩
    show s.fired ++ [p] ++ rest = s.expired
    rw [List.append_assoc, List.singleton_append, ← hring, h.order]
  | fireFreed hphase hfreed => exact absurd (h.head_live hphase) hfreed
  | ret hphase hlive =>
    obtain ⟨-, -, hsaved, hlinked⟩ := h.firing hphase
    have hsub := rearmOrFree_heap s.timers
    refine ⟨hsaved, hlinked.rearmOrFree, fun q hq => h.born q (hsub _ hq), ?_, h.order, h.nodup⟩
    intro q hq
    obtain ⟨hq1, hq2⟩ := h.deleted q hq
    exact ⟨fun hm => hq1 (hsub _ hm), hq2⟩
  | retFreed hphase hfreed => exact absurd (h.firing hphase).1 hfreed
  | finish hphase =>
    obtain ⟨hsaved, hlinked⟩ := h.walking hphase
    have hring : s.ring = [] := List.head?_eq_none_iff.mp hsaved.symm
    exact ⟨hring, hlinked, h.born, h.deleted, h.order, h.nodup⟩
  | createTimer hphase hnew => exact h.createTimer hnew ..
  | deleteTimer hphase hborn hfirst hlive => exact h.deleteTimer hphase hborn hg
  | deleteFreed hphase hborn hfirst hfreed => exact absurd hg.1 hfreed

lemma ExpiryInv.start (b : UInt32) : ExpiryInv (expiryStart b) := by
  constructor
  case saved => rfl
  case linked => exact (wheelInv_of_reachable (.init ⟨b, rfl⟩)).linked
  case born =>
    intro q hq
    obtain rfl : q = 0 := Finset.mem_singleton.mp hq
    simp [expiryStart]
  case deleted =>
    intro q hq
    exact absurd hq (Finset.notMem_empty q)
  case order => rfl
  case nodup => exact List.nodup_nil

theorem expiryInv_of_reach {s : ExpiryRun} (hs : expirySystem.Reach Cancelling s) :
    ExpiryInv s := by
  refine hs.invariant ?_ fun _ _ _ h hg hst => h.step hg hst
  intro s hinit
  obtain ⟨b, rfl⟩ := hinit
  exact .start b

end Libtask.Timer
