import Libtask.Timer.Reentrant

/-!
# Cancelling a timer

A node that is deleted leaves the others where they are: the state after the
call is the one before it less the node. The two states take the same steps from
there on, except for the calls of the node, which only the state that still has
it makes. So what happens after a cancellation is what would have happened
without it, with these calls taken out.
-/
namespace Libtask.Timer
open Transition

/-- The nodes of a ring other than `p`. -/
def others (p : Addr) (l : List Addr) : List Addr := l.filter (· != p)

@[simp] lemma others_nil (p : Addr) : others p [] = [] := rfl

@[simp] lemma others_append (p : Addr) (l l' : List Addr) :
    others p (l ++ l') = others p l ++ others p l' := List.filter_append ..

@[simp] lemma others_cons_self (p : Addr) (l : List Addr) : others p (p :: l) = others p l := by
  simp [others]

lemma others_cons_of_ne {p q : Addr} (h : q ≠ p) (l : List Addr) :
    others p (q :: l) = q :: others p l := by
  simp [others, h]

lemma others_erase (p q : Addr) (l : List Addr) : others p (l.erase q) = (others p l).erase q :=
  List.erase_filter.symm

lemma cons_of_others {p q : Addr} {l rest : List Addr} (h : others p l = q :: rest)
    (hhead : l.head? ≠ some p) : ∃ rest', l = q :: rest' ∧ rest = others p rest' := by
  cases l with
  | nil => simp at h
  | cons r l =>
    have hr : r ≠ p := by simpa using hhead
    rw [others_cons_of_ne hr, List.cons.injEq] at h
    exact ⟨l, by rw [h.1], h.2.symm⟩

lemma nil_of_others {p : Addr} {l : List Addr} (h : others p l = []) (hhead : l.head? ≠ some p) :
    l = [] := by
  cases l with
  | nil => rfl
  | cons r l =>
    have hr : r ≠ p := by simpa using hhead
    simp [others_cons_of_ne hr] at h

/-- `u` has the nodes of `s` other than `p`, in their order. -/
structure TimersWithout (p : Addr) (s u : TimerState) : Prop where
  uJiffies : u.uJiffies = s.uJiffies
  slots : ∀ i, u.arrListTimer i = others p (s.arrListTimer i)
  heap : u.heap = s.heap.erase p
  node : ∀ q, q ≠ p → u.node q = s.node q

section TimersWithout

variable {p q : Addr} {s u : TimerState}

lemma TimersWithout.addTimer (h : TimersWithout p s u) (hq : q ≠ p) :
    TimersWithout p (addTimer s q) (addTimer u q) := by
  refine ⟨h.uJiffies, ?_, h.heap, h.node⟩
  intro i
  rw [addTimer_arrListTimer, addTimer_arrListTimer, h.uJiffies, h.node q hq]
  by_cases hi : i = addTimerSlot s.uJiffies (s.node q).uExpires
  · subst hi
    rw [Function.update_self, Function.update_self, h.slots, others_append,
      others_cons_of_ne hq, others_nil]
  · rw [Function.update_of_ne hi, Function.update_of_ne hi, h.slots]

lemma TimersWithout.addTimer_self (h : TimersWithout p s u) :
    TimersWithout p (Timer.addTimer s p) u := by
  refine ⟨h.uJiffies, ?_, h.heap, h.node⟩
  intro i
  rw [addTimer_arrListTimer]
  by_cases hi : i = addTimerSlot s.uJiffies (s.node p).uExpires
  · subst hi
    rw [Function.update_self, h.slots, others_append, others_cons_self, others_nil,
      List.append_nil]
  · rw [Function.update_of_ne hi, h.slots]

lemma TimersWithout.write (h : TimersWithout p s u) (q : Addr) (n : TimerNode) :
    TimersWithout p { s with node := Function.update s.node q n }
      { u with node := Function.update u.node q n } := by
  refine ⟨h.uJiffies, h.slots, h.heap, ?_⟩
  intro r hr
  by_cases hrq : r = q
  · subst hrq
    simp
  · simpa [hrq] using h.node r hr

lemma TimersWithout.write_self (h : TimersWithout p s u) (n : TimerNode) :
    TimersWithout p { s with node := Function.update s.node p n } u := by
  refine ⟨h.uJiffies, h.slots, h.heap, ?_⟩
  intro r hr
  simpa [hr] using h.node r hr

lemma TimersWithout.malloc (h : TimersWithout p s u) (hq : q ≠ p) :
    TimersWithout p { s with heap := insert q s.heap } { u with heap := insert q u.heap } := by
  refine ⟨h.uJiffies, h.slots, ?_, h.node⟩
  show insert q u.heap = (insert q s.heap).erase p
  rw [h.heap, Finset.erase_insert_of_ne hq]

lemma TimersWithout.freeNode (h : TimersWithout p s u) (q : Addr) :
    TimersWithout p (freeNode s q) (freeNode u q) := by
  refine ⟨h.uJiffies, h.slots, ?_, h.node⟩
  show u.heap.erase q = (s.heap.erase q).erase p
  rw [h.heap, Finset.erase_right_comm]

lemma TimersWithout.freeNode_self (h : TimersWithout p s u) :
    TimersWithout p (Timer.freeNode s p) u := by
  refine ⟨h.uJiffies, h.slots, ?_, h.node⟩
  show u.heap = (s.heap.erase p).erase p
  rw [h.heap, Finset.erase_idem]

lemma TimersWithout.rearmOrFree (h : TimersWithout p s u) (hq : q ≠ p) :
    TimersWithout p (rearmOrFree s q) (rearmOrFree u q) := by
  have hexpires : u.uJiffies + (s.node q).uPeriod = s.uJiffies + (s.node q).uPeriod := by
    rw [h.uJiffies]
  unfold Timer.rearmOrFree
  dsimp only
  rw [h.node q hq, hexpires]
  split_ifs
  · exact (h.write q _).addTimer hq
  · exact h.freeNode q

/-- The statement after the call of `p` itself. -/
lemma TimersWithout.rearmOrFree_self (h : TimersWithout p s u) :
    TimersWithout p (Timer.rearmOrFree s p) u := by
  unfold Timer.rearmOrFree
  dsimp only
  split_ifs
  · exact (h.write_self _).addTimer_self
  · exact h.freeNode_self

lemma TimersWithout.createTimer (h : TimersWithout p s u) (hq : q ≠ p) (f : TimerFn)
    (pParam : ℕ) (due period : UInt32) :
    TimersWithout p (createTimer s (some q) (some f) pParam due period).1
      (createTimer u (some q) (some f) pParam due period).1 := by
  have hexpires : u.uJiffies + due = s.uJiffies + due := by rw [h.uJiffies]
  unfold Timer.createTimer
  dsimp only
  rw [hexpires]
  exact ((h.malloc hq).write q _).addTimer hq

lemma TimersWithout.deleteTimer (h : TimersWithout p s u) (q : Addr) :
    TimersWithout p (deleteTimer s q) (deleteTimer u q) := by
  apply TimersWithout.freeNode
  refine ⟨h.uJiffies, ?_, h.heap, h.node⟩
  intro i
  show (u.arrListTimer i).erase q = others p ((s.arrListTimer i).erase q)
  rw [h.slots, others_erase]

/-- What `delete_timer` does to the state. -/
lemma Linked.without {rest : List Addr} (h : Linked rest s) (p : Addr) :
    TimersWithout p s (Timer.deleteTimer s p) := by
  refine ⟨rfl, ?_, rfl, fun _ _ => rfl⟩
  intro i
  apply List.Nodup.erase_eq_filter
  apply List.nodup_iff_count_le_one.mpr
  intro q
  have hq := h q
  have hle := count_le_occupancy s.arrListTimer i q
  split_ifs at hq <;> omega

lemma TimersWithout.listTimerReplaceInit (h : TimersWithout p s u) (k : Slot) :
    TimersWithout p (listTimerReplaceInit s k) (listTimerReplaceInit u k) := by
  refine ⟨h.uJiffies, ?_, h.heap, h.node⟩
  intro i
  show Function.update u.arrListTimer k [] i = others p (Function.update s.arrListTimer k [] i)
  by_cases hi : i = k
  · subst hi
    simp
  · rw [Function.update_of_ne hi, Function.update_of_ne hi, h.slots]

/-- A ring that is put back node by node. -/
lemma TimersWithout.foldl_addTimer (l : List Addr) (h : TimersWithout p s u) :
    TimersWithout p (l.foldl Timer.addTimer s) ((others p l).foldl Timer.addTimer u) := by
  induction l generalizing s u with
  | nil => exact h
  | cons q l ih =>
    by_cases hq : q = p
    · subst hq
      rw [others_cons_self]
      exact ih h.addTimer_self
    · rw [others_cons_of_ne hq]
      exact ih (h.addTimer hq)

lemma TimersWithout.cascadeTimer (h : TimersWithout p s u) (k : Slot) :
    TimersWithout p (cascadeTimer s k) (cascadeTimer u k) := by
  unfold Timer.cascadeTimer
  rw [h.slots]
  exact (h.listTimerReplaceInit k).foldl_addTimer _

lemma TimersWithout.cascadeTick (h : TimersWithout p s u) :
    TimersWithout p (cascadeTick s) (cascadeTick u) := by
  unfold Timer.cascadeTick
  rw [h.uJiffies]
  dsimp only
  split_ifs
  · exact (((h.cascadeTimer _).cascadeTimer _).cascadeTimer _).cascadeTimer _
  · exact ((h.cascadeTimer _).cascadeTimer _).cascadeTimer _
  · exact (h.cascadeTimer _).cascadeTimer _
  · exact h.cascadeTimer _
  · exact h

end TimersWithout

/-- The same place, not in a call of `p`; the saved pointers may differ. -/
inductive Phase.Like (p : Addr) : Phase → Phase → Prop
  | idle : Phase.Like p .idle .idle
  | walking {saved saved' : Option Addr} : Phase.Like p (.walking saved) (.walking saved')
  | firing {q : Addr} {saved saved' : Option Addr} (hq : q ≠ p) :
      Phase.Like p (.firing q saved) (.firing q saved')

/-- `u` is `s` with the timer `p` deleted. -/
structure Without (p : Addr) (s u : ExpiryRun) : Prop where
  timers : TimersWithout p s.timers u.timers
  ring : u.ring = others p s.ring
  phase : Phase.Like p s.phase u.phase
  tick : u.tick = s.tick
  born : u.born = s.born
  known : s.born p ≠ none
  deleted : u.deleted = insert p s.deleted

/-- The second list is the first one without the calls of `p`, in which nothing
is created or deleted. -/
inductive CallsTakenOut (p : Addr) : List ExpiryOp → List ExpiryOp → Prop
  | nil : CallsTakenOut p [] []
  | same {op : ExpiryOp} {ops ops' : List ExpiryOp} (hfire : op ≠ .fire p)
      (hdelete : op ≠ .deleteTimer p) (h : CallsTakenOut p ops ops') :
      CallsTakenOut p (op :: ops) (op :: ops')
  | call {ops ops' : List ExpiryOp} (h : CallsTakenOut p ops ops') :
      CallsTakenOut p (.fire p :: .ret :: ops) ops'

section Without

variable {p : Addr} {s u : ExpiryRun}

lemma Phase.Like.idle_iff {ph ph' : Phase} (h : Phase.Like p ph ph') :
    ph' = .idle ↔ ph = .idle := by
  cases h <;> simp

lemma Phase.Like.outside {ph ph' : Phase} (h : Phase.Like p ph ph') (hout : ph'.Outside) :
    ph.Outside := by
  cases h with
  | idle => exact .inl rfl
  | walking => simp [Phase.Outside] at hout
  | firing hq => exact .inr ⟨_, _, rfl⟩

lemma Without.saved_ne (h : Without p s u) {r : Addr} (hr : r ≠ p)
    (hne : u.ring.head? ≠ some r) : s.ring.head? ≠ some r := by
  intro hhead
  obtain ⟨rest, hring⟩ := List.head?_eq_some_iff.mp hhead
  apply hne
  rw [h.ring, hring, others_cons_of_ne hr]
  rfl

/-- What may be deleted there may be deleted here. -/
lemma Without.cancellable (h : Without p s u) (hs : ExpiryInv s) (hu : ExpiryInv u) {r : Addr}
    (hr : r ≠ p) (hcan : Cancellable u r) : Cancellable s r := by
  obtain ⟨hlive, hwalk⟩ := hcan
  constructor
  · rw [h.timers.heap] at hlive
    exact Finset.mem_of_mem_erase hlive
  · intro q saved hphase
    have hlike := h.phase
    rw [hphase] at hlike
    cases hu0 : u.phase with
    | idle | walking | fault => rw [hu0] at hlike; cases hlike
    | firing q' saved' =>
      rw [hu0] at hlike
      cases hlike with
      | firing hq =>
        obtain ⟨hqr, hne⟩ := hwalk q saved' hu0
        rw [(hu.firing hu0).2.2.1] at hne
        rw [(hs.firing hphase).2.2.1]
        exact ⟨hqr, h.saved_ne hr hne⟩

/-- The walk comes to `p`: it is called, and nothing else happens to it. -/
lemma Without.call (h : Without p s u) (hs : ExpiryInv s) (hphase : s.phase = .walking (some p)) :
    ∃ s1 s2, ExpiryStep s (.fire p) s1 ∧ ExpiryStep s1 .ret s2 ∧ Without p s2 u ∧
      s2.phase ≠ .walking (some p) := by
  obtain ⟨hsaved, hlinked⟩ := hs.walking hphase
  obtain ⟨rest, hring⟩ : ∃ rest, s.ring = p :: rest := by
    cases hring : s.ring with
    | nil => simp [hring] at hsaved
    | cons q rest =>
      rw [hring, List.head?_cons, Option.some.injEq] at hsaved
      exact ⟨rest, by rw [hsaved]⟩
  rw [hring] at hlinked
  obtain ⟨hlive, hrest, -⟩ := hlinked.not_mem
  refine ⟨_, _, .fire hphase hring hlive, .ret rfl hlive, ?_, ?_⟩
  · refine ⟨h.timers.rearmOrFree_self, ?_, ?_, h.tick, h.born, h.known, h.deleted⟩
    · rw [h.ring, hring, others_cons_self]
    · have hlike := h.phase
      rw [hphase] at hlike
      cases hu : u.phase with
      | walking saved => exact .walking
      | idle | firing | fault => rw [hu] at hlike; cases hlike
  · intro hwalk
    exact hrest (List.mem_of_mem_head? (Phase.walking.inj hwalk))

/-- Otherwise the two take the same step. -/
lemma Without.step (h : Without p s u) (hs : ExpiryInv s) (hu : ExpiryInv u)
    (hready : s.phase ≠ .walking (some p)) {op : ExpiryOp} {u' : ExpiryRun}
    (hg : Cancelling u op) (hst : ExpiryStep u op u') :
    op ≠ .fire p ∧ op ≠ .deleteTimer p ∧
      ∃ s', Cancelling s op ∧ ExpiryStep s op s' ∧ Without p s' u' := by
  have hlike := h.phase
  cases hst with
  | beginTick hphase hidx hexpired =>
    rw [hphase] at hlike
    cases hs0 : s.phase with
    | walking | firing | fault => rw [hs0] at hlike; cases hlike
    | idle =>
      have hcascade := h.timers.cascadeTick
      refine ⟨by simp, by simp, _, trivial, .beginTick hs0 rfl rfl, ?_⟩
      rw [hidx, hcascade.uJiffies]
      refine ⟨hcascade.listTimerReplaceInit _, ?_, .walking, h.tick, h.born, h.known, h.deleted⟩
      rw [hexpired, hidx, hcascade.uJiffies]
      exact hcascade.slots _
  | @fire q rest hphase hring hlive =>
    rw [hphase] at hlike
    cases hs0 : s.phase with
    | idle | firing | fault => rw [hs0] at hlike; cases hlike
    | walking saved =>
      rw [h.ring] at hring
      have hhead : s.ring.head? ≠ some p := by
        rwa [hs0, (hs.walking hs0).1, ne_eq, Phase.walking.injEq] at hready
      obtain ⟨rest', hring', hrest⟩ := cons_of_others hring hhead
      have hq : q ≠ p := by simpa [hring'] using hhead
      have hsaved : s.phase = .walking (some q) := by rw [hs0, (hs.walking hs0).1, hring']; rfl
      refine ⟨by simpa using hq, by simp, _, trivial, .fire hsaved hring' (hs.head_live hsaved), ?_⟩
      exact ⟨h.timers, hrest, .firing hq, h.tick, h.born, h.known, h.deleted⟩
  | fireFreed hphase hfreed => exact absurd (hu.head_live hphase) hfreed
  | @ret q saved hphase hlive =>
    rw [hphase] at hlike
    cases hs0 : s.phase with
    | idle | walking | fault => rw [hs0] at hlike; cases hlike
    | firing q' saved' =>
      rw [hs0] at hlike
      cases hlike with
      | firing hq =>
        refine ⟨by simp, by simp, _, trivial, .ret hs0 (hs.firing hs0).1, ?_⟩
        exact ⟨h.timers.rearmOrFree hq, h.ring, .walking, h.tick, h.born, h.known, h.deleted⟩
  | retFreed hphase hfreed => exact absurd (hu.firing hphase).1 hfreed
  | finish hphase =>
    rw [hphase] at hlike
    cases hs0 : s.phase with
    | idle | firing | fault => rw [hs0] at hlike; cases hlike
    | walking saved =>
      have hring : others p s.ring = [] := by
        rw [← h.ring]
        exact List.head?_eq_none_iff.mp (hu.walking hphase).1.symm
      have hhead : s.ring.head? ≠ some p := by
        rwa [hs0, (hs.walking hs0).1, ne_eq, Phase.walking.injEq] at hready
      have hnone : s.phase = .walking none := by
        rw [hs0, (hs.walking hs0).1, nil_of_others hring hhead]
        rfl
      refine ⟨by simp, by simp, _, trivial, .finish hnone, ?_⟩
      refine ⟨?_, h.ring, .idle, ?_, h.born, h.known, h.deleted⟩
      · refine ⟨?_, h.timers.slots, h.timers.heap, h.timers.node⟩
        show u.timers.uJiffies + 1 = s.timers.uJiffies + 1
        rw [h.timers.uJiffies]
      · show u.tick + 1 = s.tick + 1
        rw [h.tick]
  | @createTimer q f pParam due period hphase hnew =>
    rw [h.born] at hnew
    have hq : q ≠ p := by
      rintro rfl
      exact h.known hnew
    refine ⟨by simp, by simp, _, trivial, .createTimer (hlike.outside hphase) hnew, ?_⟩
    refine ⟨h.timers.createTimer hq .., h.ring, hlike, h.tick, ?_, ?_, h.deleted⟩
    · simp only [h.born, h.tick, ne_eq, hlike.idle_iff]
    · show Function.update s.born q _ p ≠ none
      rw [Function.update_of_ne hq.symm]
      exact h.known
  | @deleteTimer r hphase hborn hfirst hlive =>
    rw [h.deleted, Finset.mem_insert, not_or] at hfirst
    rw [h.born] at hborn
    have hcan := h.cancellable hs hu hfirst.1 hg
    refine ⟨by simp, by simpa using hfirst.1, _, hcan,
      .deleteTimer (hlike.outside hphase) hborn hfirst.2 hcan.1, ?_⟩
    refine ⟨h.timers.deleteTimer r, ?_, hlike, h.tick, h.born, h.known, ?_⟩
    · rw [h.ring, others_erase]
    · rw [h.deleted, Finset.insert_comm]
  | deleteFreed hphase hborn hfirst hfreed => exact absurd hg.1 hfreed

/-- After the deletion there happens what would have happened without it, less
the calls of `p`. -/
theorem Without.run {run : List (ExpiryOp × ExpiryRun)} (hrun : expirySystem.Run Cancelling u run)
    (h : Without p s u) (hs : ExpiryInv s) (hu : ExpiryInv u) :
    ∃ run', expirySystem.Run Cancelling s run' ∧
      CallsTakenOut p (run'.map Prod.fst) (run.map Prod.fst) := by
  induction hrun generalizing s with
  | nil u => exact ⟨[], .nil s, .nil⟩
  | @cons u u' op rest hg hst hrest ih =>
    -- once the walk is not at `p`, the first step is one of both
    have hready : ∀ s, Without p s u → ExpiryInv s → s.phase ≠ .walking (some p) →
        ∃ run', expirySystem.Run Cancelling s run' ∧
          CallsTakenOut p (run'.map Prod.fst) (op :: rest.map Prod.fst) := by
      intro s h hs hphase
      obtain ⟨hfire, hdelete, s', hg', hst', h'⟩ := h.step hs hu hphase hg hst
      obtain ⟨run', hrun', hcalls⟩ := ih h' (hs.step hg' hst') (hu.step hg hst)
      exact ⟨(op, s') :: run', .cons hg' hst' hrun', .same hfire hdelete hcalls⟩
    by_cases hphase : s.phase = .walking (some p)
    · obtain ⟨s1, s2, hfire, hret, h2, hphase2⟩ := h.call hs hphase
      have hs1 : ExpiryInv s1 := hs.step (by trivial) hfire
      obtain ⟨run', hrun', hcalls⟩ := hready s2 h2 (hs1.step (by trivial) hret) hphase2
      exact ⟨(.fire p, s1) :: (.ret, s2) :: run',
        .cons trivial hfire (.cons trivial hret hrun'), .call hcalls⟩
    · exact hready s h hs hphase

end Without

/-- The call frees a live node and takes nothing else away; afterwards the node
is not called and not linked, nothing that was freed is used, and what happens
is what would have happened without the call, less the calls of the node. -/
structure CancelledBy (s s' : ExpiryRun) (p : Addr) : Prop where
  step : ExpiryStep s (.deleteTimer p) s'
  safe : s'.phase ≠ .fault
  without : Without p s s'
  final : ∀ run, expirySystem.Run Cancelling s' run → ∀ x ∈ run,
    x.1 ≠ .fire p ∧ x.2.phase ≠ .fault ∧ p ∉ x.2.timers.heap ∧
      (∀ i, p ∉ x.2.timers.arrListTimer i) ∧ p ∉ x.2.ring
  others : ∀ run, expirySystem.Run Cancelling s' run →
    ∃ run', expirySystem.Run Cancelling s run' ∧
      CallsTakenOut p (run'.map Prod.fst) (run.map Prod.fst)

def CancelsFinally (s : ExpiryRun) (p : Addr) : Prop := ∃ s', CancelledBy s s' p

section Cancel

variable {p : Addr} {s : ExpiryRun}

lemma ExpiryStep.deleted_subset {s' : ExpiryRun} {op : ExpiryOp} (hst : ExpiryStep s op s') :
    s.deleted ⊆ s'.deleted := by
  cases hst with
  | deleteTimer | deleteFreed => exact Finset.subset_insert _ s.deleted
  | beginTick | fire | fireFreed | ret | retFreed | finish | createTimer =>
    exact Finset.Subset.refl s.deleted

/-- A deleted node stays deleted. -/
theorem ExpiryInv.final (h : ExpiryInv s) (hp : p ∈ s.deleted) {run : List (ExpiryOp × ExpiryRun)}
    (hrun : expirySystem.Run Cancelling s run) : ∀ x ∈ run, x.1 ≠ .fire p ∧ x.2.phase ≠ .fault ∧
      p ∉ x.2.timers.heap ∧ (∀ i, p ∉ x.2.timers.arrListTimer i) ∧ p ∉ x.2.ring := by
  induction hrun with
  | nil => simp
  | @cons s s' op rest hg hst hrest ih =>
    have h' := h.step hg hst
    have hp' := hst.deleted_subset hp
    have hheap := (h'.deleted p hp').1
    intro x hx
    rcases List.mem_cons.mp hx with rfl | hx
    · refine ⟨?_, h'.not_fault, hheap, h'.not_linked hheap⟩
      rintro rfl
      cases hst with
      | fire hphase hring hlive => exact (h.deleted p hp).1 hlive
      | fireFreed hphase hfreed => exact hfreed (h.head_live hphase)
    · exact ih h' hp' x hx

/-- A pending node that the walk is neither at nor goes to next. -/
lemma ExpiryInv.cancelsFinally (h : ExpiryInv s) (hopen : s.phase.Outside)
    (hborn : s.born p ≠ none) (hfirst : p ∉ s.deleted) (hcan : Cancellable s p) :
    CancelsFinally s p := by
  have hst := ExpiryStep.deleteTimer hopen hborn hfirst hcan.1
  have h' := h.deleteTimer hopen hborn hcan
  have hring : s.ring.Nodup := by
    have hnodup := h.nodup
    rw [← h.order] at hnodup
    exact hnodup.of_append_right
  have hwithout : Without p s { s with
      timers := Timer.deleteTimer s.timers p
      ring := s.ring.erase p
      expired := if p ∈ s.ring then s.expired.erase p else s.expired
      deleted := insert p s.deleted } := by
    refine ⟨h.linked.without p, hring.erase_eq_filter p, ?_, rfl, rfl, hborn, rfl⟩
    rcases hopen with hidle | ⟨q, saved, hfiring⟩
    · rw [hidle]
      exact .idle
    · rw [hfiring]
      exact .firing (hcan.2 q saved hfiring).1
  refine ⟨_, hst, h'.not_fault, hwithout, ?_, ?_⟩
  · exact fun run hrun => h'.final (Finset.mem_insert_self p s.deleted) hrun
  · exact fun run hrun => Without.run hrun hwithout h h'

/-- The walk reads the node that it is at when the call returns, and the saved
one after that. -/
lemma not_awaited {q : Addr} {saved : Option Addr} (hphase : s.phase = .firing q saved)
    (hq : q ≠ p → q ∈ s.timers.heap) (hp : p ∉ s.timers.heap)
    (hsafe : ∀ run, expirySystem.Run Cancelling s run → ∀ x ∈ run, x.2.phase ≠ .fault) :
    q ≠ p ∧ saved ≠ some p := by
  have hqp : q ≠ p := by
    rintro rfl
    have hret := ExpiryStep.retFreed hphase hp
    exact hsafe _ (.cons (by trivial) hret (.nil _)) _ List.mem_cons_self rfl
  refine ⟨hqp, ?_⟩
  rintro rfl
  have hret := ExpiryStep.ret hphase (hq hqp)
  have hfreed : p ∉ (rearmOrFree s.timers q).heap := fun hm => hp (rearmOrFree_heap _ _ hm)
  have hfire := ExpiryStep.fireFreed (p := p)
    (s := { s with timers := rearmOrFree s.timers q, phase := .walking (some p) }) rfl hfreed
  exact hsafe _ (.cons (by trivial) hret (.cons (by trivial) hfire (.nil _))) _
    (List.mem_cons_of_mem _ List.mem_cons_self) rfl

/-- A node in the hands of the walk is missed. -/
lemma CancelsFinally.cancellable (h : ExpiryInv s) (hc : CancelsFinally s p) :
    Cancellable s p := by
  obtain ⟨s', hst, hsafe, -, hfinal, -⟩ := hc
  have hrun : ∀ run, expirySystem.Run Cancelling s' run → ∀ x ∈ run, x.2.phase ≠ .fault :=
    fun run hrun x hx => (hfinal run hrun x hx).2.1
  obtain ⟨hlive, hphase', htimers⟩ : p ∈ s.timers.heap ∧ s'.phase = s.phase ∧
      s'.timers = Timer.deleteTimer s.timers p := by
    cases hst with
    | deleteFreed => exact absurd rfl hsafe
    | deleteTimer hopen hborn hfirst hlive => exact ⟨hlive, rfl, rfl⟩
  have hheap : s'.timers.heap = s.timers.heap.erase p := by rw [htimers]; rfl
  refine ⟨hlive, ?_⟩
  intro q saved hphase
  apply not_awaited (hphase'.trans hphase)
  case hq =>
    intro hqp
    rw [hheap]
    exact Finset.mem_erase.mpr ⟨hqp, (h.firing hphase).1⟩
  case hp =>
    rw [hheap]
    exact Finset.notMem_erase p s.timers.heap
  case hsafe => exact hrun

end Cancel

/-- A deletion is final and safe exactly when the node is pending and the walk
is neither at it nor going to it next, whatever was deleted in this way before. -/
theorem cancelsFinally_iff {s : ExpiryRun} (hs : expirySystem.Reach Cancelling s) {p : Addr}
    (hopen : s.phase.Outside) (hborn : s.born p ≠ none) (hfirst : p ∉ s.deleted) :
    CancelsFinally s p ↔ Cancellable s p :=
  ⟨fun h => h.cancellable (expiryInv_of_reach hs),
    fun h => (expiryInv_of_reach hs).cancelsFinally hopen hborn hfirst h⟩

/-- Three one-shot timers expire at tick 1; the first one is called. -/
lemma exists_threeDue : ∃ s, expirySystem.Reach Cancelling s ∧ s.phase = .firing 1 (some 2) ∧
    3 ∈ s.timers.heap ∧ s.born 1 ≠ none ∧ s.born 3 ≠ none ∧ s.deleted = ∅ := by
  have due : ∀ s p, expirySystem.Reach Cancelling s → s.phase.Outside → s.born p = none →
      expirySystem.Reach Cancelling { s with
        timers := (createTimer s.timers (some p) (some (.user p)) 0 0 0).1
        born := Function.update s.born p (some ⟨s.tick, 0, s.phase ≠ .idle⟩) } :=
    fun s p hs hopen hnew => hs.step (by trivial) (.createTimer hopen hnew)
  have h0 : expirySystem.Reach Cancelling (expiryStart 1) := .init ⟨1, rfl⟩
  have h1 := due _ 1 h0 (.inl rfl) (by decide)
  have h2 := due _ 2 h1 (.inl rfl) (by decide)
  have h3 := due _ 3 h2 (.inl rfl) (by decide)
  have h4 := h3.step (by trivial) (.beginTick rfl rfl rfl)
  have h5 := h4.step (by trivial) (@ExpiryStep.fire _ 1 [2, 3] (by decide) (by decide) (by decide))
  exact ⟨_, h5, rfl, by decide, by decide, by decide, rfl⟩

theorem cancelsFinally_third : ∃ s, s.phase = .firing 1 (some 2) ∧ CancelsFinally s 3 := by
  obtain ⟨s, hs, hphase, hlive, -, hborn, hdeleted⟩ := exists_threeDue
  have hopen : s.phase.Outside := .inr ⟨1, some 2, hphase⟩
  have hcan : Cancellable s 3 := by
    refine ⟨hlive, ?_⟩
    intro q saved h
    obtain ⟨rfl, rfl⟩ := Phase.firing.inj (hphase.symm.trans h)
    decide
  exact ⟨s, hphase, (cancelsFinally_iff hs hopen hborn (by simp [hdeleted])).mpr hcan⟩

/-- A one-shot timer that deletes itself is freed twice. -/
theorem not_cancelsFinally : ¬ ∀ s, expirySystem.Reach Cancelling s → ∀ p, s.phase.Outside →
    s.born p ≠ none → p ∉ s.deleted → CancelsFinally s p := by
  intro h
  obtain ⟨s, hs, hphase, -, hborn, -, hdeleted⟩ := exists_threeDue
  have hc := h s hs 1 (.inr ⟨1, some 2, hphase⟩) hborn (by simp [hdeleted])
  exact ((hc.cancellable (expiryInv_of_reach hs)).2 1 (some 2) hphase).1 rfl

end Libtask.Timer
