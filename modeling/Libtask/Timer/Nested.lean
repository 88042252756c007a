import Libtask.Timer.Reentrant

/-!
# Timers created in a callback

While a callback runs, the slot of the tick has been detached and `uJiffies` has
not been advanced. A delay of at least one tick leads to a slot whose turn is
still to come, and the node is not late. A delay of 0 leads to the slot that has
just been detached, whose next turn is 256 ticks later.
-/
namespace Libtask.Timer
open Transition

/-- The last tick that can call a node created in a callback. -/
def Birth.deadline (b : Birth) : ℕ :=
  b.tick + if b.uDueTime = 0 then 256 else b.uDueTime.toNat

/-- A node created in a callback that is not called yet. -/
structure ExpiryRun.Awaited (s : ExpiryRun) (p : Addr) (b : Birth) : Prop where
  born : s.born p = some b
  inside : b.inside = true
  uncalled : s.firstCall p = none

/-- A linked node that is ahead of tick `t` in its slot. Only the nodes of the
lower levels are put again by their `uExpires`. -/
structure Placed (t : ℕ) (n : TimerNode) (b : Birth) (i : Slot) : Prop where
  begun : b.tick < t
  ahead : t ≤ b.deadline
  turn : TurnAhead t b.deadline i
  span : InSpan t b.deadline i
  expires : (∃ j, i = .tv1 j) ∨ n.uExpires.toNat = b.deadline % 2 ^ 32

/-- Tick `t` may call the node: its slot has its turn. -/
structure Birth.DueAt (b : Birth) (t : ℕ) : Prop where
  begun : b.tick < t
  ahead : t ≤ b.deadline
  turn : t % 256 = b.deadline % 256

/-- The next tick that detaches a slot. -/
def ExpiryRun.next (s : ExpiryRun) : ℕ :=
  match s.phase with
  | .idle => s.tick
  | _ => s.tick + 1

structure CallbackInv (s : ExpiryRun) : Prop where
  links : ExpiryInv s
  jiffies : s.timers.uJiffies.toNat = s.tick % 2 ^ 32
  uncalled : ∀ p, s.born p = none → s.firstCall p = none
  kept : ∀ p, s.born p ≠ none → p ∉ s.deleted → s.firstCall p = none → p ∈ s.timers.heap
  firing : ∀ p saved, s.phase = .firing p saved → s.firstCall p ≠ none
  placed : ∀ p b i, s.Awaited p b → p ∈ s.timers.arrListTimer i →
    Placed s.next (s.timers.node p) b i
  due : ∀ p b, s.Awaited p b → p ∈ s.ring → b.DueAt s.tick
  called : ∀ p b t, s.born p = some b → b.inside = true → s.firstCall p = some t → b.DueAt t

section Placing

variable {t : ℕ} {n : TimerNode} {b : Birth} {i : Slot}

/-- A node that a callback of tick `t` creates. -/
lemma placed_of_created {u : UInt32} (hu : u.toNat = t % 2 ^ 32) (due : UInt32) (f : TimerFn)
    (pParam : ℕ) (period : UInt32) : Placed (t + 1) ⟨u + due, period, f, pParam⟩ ⟨t, due, true⟩
      (addTimerSlot u (u + due)) := by
  have hlt := due.toNat_lt
  by_cases hzero : due = 0
  · subst hzero
    have hslot : addTimerSlot u (u + 0) = .tv1 (tvrIndex u) := by
      rw [UInt32.add_zero, addTimerSlot_eq, UInt32.sub_self]
      rfl
    have hdeadline : Birth.deadline ⟨t, 0, true⟩ = t + 256 := rfl
    rw [hslot]
    constructor
    case begun => exact Nat.lt_succ_self t
    case ahead => omega
    case turn =>
      rw [hdeadline, TurnAhead, tvrIndex_val, hu]
      omega
    case span =>
      rw [hdeadline, InSpan]
      omega
    case expires => exact .inl ⟨_, rfl⟩
  · have hpos : 0 < due.toNat := Nat.pos_of_ne_zero fun hz => hzero (UInt32.toNat_inj.mp hz)
    have hdeadline : Birth.deadline ⟨t, due, true⟩ = t + due.toNat := by
      rw [Birth.deadline, if_neg hzero]
    have hx : (u + due).toNat = (t + due.toNat) % 2 ^ 32 := by
      rw [UInt32.toNat_add, hu]
      omega
    constructor
    case begun => exact Nat.lt_succ_self t
    case ahead => omega
    case turn =>
      rw [hdeadline]
      exact addTimerSlot_turnAhead hu hx (by omega) (by omega)
    case span =>
      rw [hdeadline]
      exact (addTimerSlot_inSpan hu hx (by omega) (by omega)).succ
    case expires => exact .inr (by rw [hdeadline]; exact hx)

/-- A node that is not in the slot of this tick, and has its turn after it. -/
lemma Placed.succ (h : Placed t n b i) (hturn : TurnAhead (t + 1) b.deadline i)
    (hslot : ∀ j, i = .tv1 j → j.val ≠ t % 256) : Placed (t + 1) n b i := by
  have hahead := h.ahead
  refine ⟨Nat.lt_succ_of_lt h.begun, ?_, hturn, h.span.succ, h.expires⟩
  cases i with
  | tv1 j =>
    have hj := hslot j rfl
    have hturn' : j.val = b.deadline % 256 := hturn
    omega
  | tv2 j | tv3 j | tv4 j | tv5 j =>
    simp only [TurnAhead] at hturn
    omega

lemma Placed.dueAt {j : Fin 256} (h : Placed t n b (.tv1 j)) (hj : j.val = t % 256) :
    b.DueAt t := by
  have hturn : j.val = b.deadline % 256 := h.turn
  exact ⟨h.begun, h.ahead, hj.symm.trans hturn⟩

/-- Inside the cascades of tick `t`; `C` is the set of slots cascaded so far. -/
structure Dropping (t : ℕ) (awaited : Addr → Birth → Prop) (C : Slot → Prop) (s : TimerState) :
    Prop where
  jiffies : s.uJiffies.toNat = t % 2 ^ 32
  placed : ∀ p b i, awaited p b → p ∈ s.arrListTimer i →
    Placed t (s.node p) b i ∧ (C i → TurnAhead (t + 1) b.deadline i)

lemma Dropping.one {awaited : Addr → Birth → Prop} {C : Slot → Prop} {s : TimerState}
    (h : Dropping t awaited C s) {k : Slot} (hk : Cascaded s.uJiffies k) :
    Dropping t awaited (fun i => C i ∨ i = k) (cascadeTimer s k) := by
  rw [cascadeTimer_eq]
  refine ⟨h.jiffies, ?_⟩
  intro p b i hb hp
  rcases List.mem_append.mp hp with hp | hp
  · have hik : i ≠ k := by
      rintro rfl
      simp at hp
    rw [Function.update_of_ne hik] at hp
    obtain ⟨hplaced, hC⟩ := h.placed p b i hb hp
    exact ⟨hplaced, fun hi => hC (hi.resolve_right hik)⟩
  · obtain ⟨hpk, hi⟩ := List.mem_filter.mp hp
    obtain ⟨hplaced, -⟩ := h.placed p b k hb hpk
    have hi : addTimerSlot s.uJiffies (s.node p).uExpires = i := by simpa using hi
    have hexpires : (s.node p).uExpires.toNat = b.deadline % 2 ^ 32 := by
      apply hplaced.expires.resolve_left
      rintro ⟨j, rfl⟩
      exact hk
    have hturn := addTimerSlot_turnAhead h.jiffies hexpires hplaced.ahead hplaced.span.wrap
    have hspan := addTimerSlot_inSpan h.jiffies hexpires hplaced.ahead hplaced.span.wrap
    rw [hi] at hturn hspan
    exact ⟨⟨hplaced.begun, hplaced.ahead, hturn.of_succ, hspan, .inr hexpires⟩, fun _ => hturn⟩

lemma Dropping.all {awaited : Addr → Birth → Prop} {s : TimerState}
    (h : Dropping t awaited (fun _ => False) s) :
    Dropping t awaited (Cascaded s.uJiffies) (cascadeTick s) := by
  apply cascadeTick_rule (P := Dropping t awaited) _ _ h
  · exact fun C s k hs hk => hs.one hk
  · exact fun C C' s hC hs => ⟨hs.jiffies, fun p b i hb hp =>
      ⟨(hs.placed p b i hb hp).1, fun hi => (hs.placed p b i hb hp).2 (hC i hi)⟩⟩

end Placing

section Step

variable {s : ExpiryRun} {p q : Addr} {saved : Option Addr}

/-- The cascades and the detaching. -/
lemma CallbackInv.beginTick (h : CallbackInv s) (hphase : s.phase = .idle) {idx : Slot}
    (hidx : idx = .tv1 (tvrIndex (cascadeTick s.timers).uJiffies)) {expired : List Addr}
    (hexpired : expired = (cascadeTick s.timers).arrListTimer idx) : CallbackInv { s with
      timers := listTimerReplaceInit (cascadeTick s.timers) idx
      ring := expired
      phase := .walking expired.head?
      fired := []
      expired := expired } := by
  have hnext : s.next = s.tick := by simp [ExpiryRun.next, hphase]
  have hstart : Dropping s.tick s.Awaited (fun _ => False) s.timers :=
    ⟨h.jiffies, fun p b i hb hp => ⟨hnext ▸ h.placed p b i hb hp, False.elim⟩⟩
  have hdrop := hstart.all
  have hturn : (tvrIndex (cascadeTick s.timers).uJiffies).val = s.tick % 256 := by
    rw [tvrIndex_val, hdrop.jiffies]
    omega
  constructor
  case links => exact h.links.step (by trivial) (.beginTick hphase hidx hexpired)
  case jiffies => exact hdrop.jiffies
  case uncalled => exact h.uncalled
  case kept =>
    intro p hborn hdeleted hcall
    show p ∈ (cascadeTick s.timers).heap
    rw [(cascadeTick_heap s.timers).1]
    exact h.kept p hborn hdeleted hcall
  case firing =>
    intro p saved hfiring
    cases hfiring
  case placed =>
    intro p b i hb hp
    have hb' : s.Awaited p b := ⟨hb.born, hb.inside, hb.uncalled⟩
    have hi : i ≠ idx := by
      rintro rfl
      simp [listTimerReplaceInit] at hp
    have hp' : p ∈ (cascadeTick s.timers).arrListTimer i := by
      simpa [listTimerReplaceInit, Function.update_of_ne hi] using hp
    obtain ⟨hplaced, hC⟩ := hdrop.placed p b i hb' hp'
    apply hplaced.succ
    · by_cases hcas : Cascaded s.timers.uJiffies i
      · exact hC hcas
      · exact hplaced.turn.succ_of_not_cascaded h.jiffies hcas
    · rintro j rfl hj
      apply hi
      rw [hidx]
      exact congrArg Slot.tv1 (Fin.ext (hj.trans hturn.symm))
  case due =>
    intro p b hb hp
    have hb' : s.Awaited p b := ⟨hb.born, hb.inside, hb.uncalled⟩
    have hp' : p ∈ expired := hp
    rw [hexpired, hidx] at hp'
    exact (hdrop.placed p b _ hb' hp').1.dueAt hturn
  case called => exact h.called

/-- The call of a node that was due. -/
lemma CallbackInv.fire (h : CallbackInv s) {rest : List Addr}
    (hphase : s.phase = .walking (some p)) (hring : s.ring = p :: rest) : CallbackInv { s with
      ring := rest
      phase := .firing p rest.head?
      firstCall := Function.update s.firstCall p (some ((s.firstCall p).getD s.tick))
      fired := s.fired ++ [p] } := by
  have hlive := h.links.head_live hphase
  have hnext : s.next = s.tick + 1 := by simp [ExpiryRun.next, hphase]
  -- only `p` has been called
  have hback : ∀ q, Function.update s.firstCall p (some ((s.firstCall p).getD s.tick)) q = none →
      q ≠ p ∧ s.firstCall q = none := by
    intro q hq
    have hqp : q ≠ p := by
      rintro rfl
      simp at hq
    rw [Function.update_of_ne hqp] at hq
    exact ⟨hqp, hq⟩
  constructor
  case links => exact h.links.step (by trivial) (.fire hphase hring hlive)
  case jiffies => exact h.jiffies
  case uncalled =>
    intro q hq
    have hqp : q ≠ p := by
      rintro rfl
      exact h.links.born q hlive hq
    show Function.update s.firstCall p _ q = none
    rw [Function.update_of_ne hqp]
    exact h.uncalled q hq
  case kept => exact fun q hborn hdeleted hcall => h.kept q hborn hdeleted (hback q hcall).2
  case firing =>
    intro q saved hfiring
    obtain ⟨rfl, -⟩ := Phase.firing.inj hfiring
    show Function.update s.firstCall p _ p ≠ none
    simp
  case placed =>
    intro q b i hb hq
    have hplaced := h.placed q b i ⟨hb.born, hb.inside, (hback q hb.uncalled).2⟩ hq
    rwa [hnext] at hplaced
  case due =>
    intro q b hb hq
    apply h.due q b ⟨hb.born, hb.inside, (hback q hb.uncalled).2⟩
    rw [hring]
    exact List.mem_cons_of_mem p hq
  case called =>
    intro q b t hborn hinside hcall
    have hcall' : Function.update s.firstCall p (some ((s.firstCall p).getD s.tick)) q = some t :=
      hcall
    by_cases hqp : q = p
    · subst hqp
      rw [Function.update_self, Option.some.injEq] at hcall'
      cases hfirst : s.firstCall q with
      | none =>
        have hdue := h.due q b ⟨hborn, hinside, hfirst⟩ (by rw [hring]; exact List.mem_cons_self)
        rw [hfirst] at hcall'
        exact hcall' ▸ hdue
      | some t' =>
        rw [hfirst] at hcall'
        exact h.called q b t hborn hinside (hfirst.trans (congrArg some hcall'))
    · rw [Function.update_of_ne hqp] at hcall'
      exact h.called q b t hborn hinside hcall'

/-- The statement after the call concerns a node that has been called. -/
lemma CallbackInv.ret (h : CallbackInv s) (hphase : s.phase = .firing p saved) :
    CallbackInv { s with timers := rearmOrFree s.timers p, phase := .walking saved } := by
  have hlive := (h.links.firing hphase).1
  have hnext : s.next = s.tick + 1 := by simp [ExpiryRun.next, hphase]
  have hcalled := h.firing p saved hphase
  have hnode : ∀ q, q ≠ p → (rearmOrFree s.timers p).node q = s.timers.node q ∧
      (∀ i, q ∈ (rearmOrFree s.timers p).arrListTimer i → q ∈ s.timers.arrListTimer i) ∧
      (q ∈ s.timers.heap → q ∈ (rearmOrFree s.timers p).heap) := by
    intro q hq
    unfold rearmOrFree
    dsimp only
    split_ifs
    · refine ⟨Function.update_of_ne hq .., ?_, id⟩
      intro i hi
      exact (mem_addTimer hi).resolve_right fun hp => hq hp.1
    · exact ⟨rfl, fun i => id, fun hm => Finset.mem_erase.mpr ⟨hq, hm⟩⟩
  constructor
  case links => exact h.links.step (by trivial) (.ret hphase hlive)
  case jiffies =>
    show (rearmOrFree s.timers p).uJiffies.toNat = s.tick % 2 ^ 32
    rw [rearmOrFree_uJiffies]
    exact h.jiffies
  case uncalled => exact h.uncalled
  case kept =>
    intro q hborn hdeleted hcall
    have hq : q ≠ p := by
      rintro rfl
      exact hcalled hcall
    exact (hnode q hq).2.2 (h.kept q hborn hdeleted hcall)
  case firing =>
    intro q saved hfiring
    cases hfiring
  case placed =>
    intro q b i hb hi
    have hq : q ≠ p := by
      rintro rfl
      exact hcalled hb.uncalled
    obtain ⟨hn, hslots, -⟩ := hnode q hq
    have hplaced := h.placed q b i ⟨hb.born, hb.inside, hb.uncalled⟩ (hslots i hi)
    show Placed (s.tick + 1) ((rearmOrFree s.timers p).node q) b i
    rwa [hn, ← hnext]
  case due => exact fun q b hb hq => h.due q b ⟨hb.born, hb.inside, hb.uncalled⟩ hq
  case called => exact h.called

lemma CallbackInv.finish (h : CallbackInv s) (hphase : s.phase = .walking none) :
    CallbackInv { s with
      timers := { s.timers with uJiffies := s.timers.uJiffies + 1 }
      phase := .idle
      tick := s.tick + 1 } := by
  have hnext : s.next = s.tick + 1 := by simp [ExpiryRun.next, hphase]
  have hring : s.ring = [] := List.head?_eq_none_iff.mp (h.links.walking hphase).1.symm
  constructor
  case links => exact h.links.step (by trivial) (.finish hphase)
  case jiffies =>
    show (s.timers.uJiffies + 1).toNat = (s.tick + 1) % 2 ^ 32
    rw [UInt32.toNat_add, h.jiffies, show (1 : UInt32).toNat = 1 from rfl]
    omega
  case uncalled => exact h.uncalled
  case kept => exact h.kept
  case firing =>
    intro p saved hfiring
    cases hfiring
  case placed =>
    intro p b i hb hp
    have hplaced := h.placed p b i ⟨hb.born, hb.inside, hb.uncalled⟩ hp
    rwa [hnext] at hplaced
  case due =>
    intro p b hb hp
    have hp' : p ∈ s.ring := hp
    rw [hring] at hp'
    exact absurd hp' List.not_mem_nil
  case called => exact h.called

/-- The new node is linked into a slot and not into the ring. -/
lemma CallbackInv.createTimer (h : CallbackInv s) (hphase : s.phase.Outside)
    (hnew : s.born p = none) (f : TimerFn) (pParam : ℕ) (due period : UInt32) : CallbackInv { s with
      timers := (Timer.createTimer s.timers (some p) (some f) pParam due period).1
      born := Function.update s.born p (some ⟨s.tick, due, s.phase ≠ .idle⟩) } := by
  have hlinks := h.links.createTimer hnew f pParam due period ⟨s.tick, due, s.phase ≠ .idle⟩
  have hp : p ∉ s.timers.heap := fun hm => h.links.born p hm hnew
  have hback : ∀ q b', q ≠ p →
      Function.update s.born p (some ⟨s.tick, due, s.phase ≠ .idle⟩) q = b' → s.born q = b' := by
    intro q b' hq hb
    rwa [Function.update_of_ne hq] at hb
  constructor
  case links => exact hlinks
  case jiffies => exact h.jiffies
  case uncalled =>
    intro q hq
    have hqp : q ≠ p := by
      rintro rfl
      simp at hq
    exact h.uncalled q (hback q _ hqp hq)
  case kept =>
    intro q hborn hdeleted hcall
    show q ∈ insert p s.timers.heap
    by_cases hqp : q = p
    · exact hqp ▸ Finset.mem_insert_self p s.timers.heap
    · have hborn' : s.born q ≠ none := fun hn => hborn ((Function.update_of_ne hqp ..).trans hn)
      exact Finset.mem_insert_of_mem (h.kept q hborn' hdeleted hcall)
  case firing => exact h.firing
  case placed =>
    intro q b i hb hq
    have hinside := hb.inside
    by_cases hqp : q = p
    · subst hqp
      have hbirth : b = ⟨s.tick, due, s.phase ≠ .idle⟩ := by
        have hborn := hb.born
        simpa using hborn.symm
      subst hbirth
      have hnext : s.next = s.tick + 1 := by
        rcases hphase with hidle | ⟨r, saved, hfiring⟩
        · simp [hidle] at hinside
        · simp [ExpiryRun.next, hfiring]
      obtain hi | ⟨-, hi⟩ := mem_addTimer hq
      · exact absurd hi ((h.links.not_linked hp).1 i)
      · show Placed s.next (Function.update s.timers.node q
          ⟨s.timers.uJiffies + due, period, f, pParam⟩ q) _ i
        simp only [Function.update_self] at hi
        rw [hi, hnext, Function.update_self]
        have hplaced := placed_of_created h.jiffies due f pParam period
        rwa [← hinside] at hplaced
    · have hi : q ∈ s.timers.arrListTimer i := (mem_addTimer hq).resolve_right fun hi => hqp hi.1
      have hplaced := h.placed q b i ⟨hback q _ hqp hb.born, hb.inside, hb.uncalled⟩ hi
      show Placed s.next (Function.update s.timers.node p
        ⟨s.timers.uJiffies + due, period, f, pParam⟩ q) b i
      rwa [Function.update_of_ne hqp]
  case due =>
    intro q b hb hq
    have hqp : q ≠ p := by
      rintro rfl
      exact (h.links.not_linked hp).2 hq
    exact h.due q b ⟨hback q _ hqp hb.born, hb.inside, hb.uncalled⟩ hq
  case called =>
    intro q b t hborn hinside hcall
    have hqp : q ≠ p := by
      rintro rfl
      exact absurd hcall (by simp [h.uncalled q hnew])
    exact h.called q b t (hback q _ hqp hborn) hinside hcall

lemma CallbackInv.deleteTimer (h : CallbackInv s) (hphase : s.phase.Outside)
    (hborn : s.born p ≠ none) (hcan : Cancellable s p) : CallbackInv { s with
      timers := Timer.deleteTimer s.timers p
      ring := s.ring.erase p
      expired := if p ∈ s.ring then s.expired.erase p else s.expired
      deleted := insert p s.deleted } := by
  constructor
  case links => exact h.links.deleteTimer hphase hborn hcan
  case jiffies => exact h.jiffies
  case uncalled => exact h.uncalled
  case kept =>
    intro q hb hdeleted hcall
    obtain ⟨hq, hold⟩ := not_or.mp (Finset.mem_insert.not.mp hdeleted)
    exact Finset.mem_erase.mpr ⟨hq, h.kept q hb hold hcall⟩
  case firing => exact h.firing
  case placed =>
    intro q b i hb hq
    exact h.placed q b i ⟨hb.born, hb.inside, hb.uncalled⟩ (List.mem_of_mem_erase hq)
  case due =>
    intro q b hb hq
    exact h.due q b ⟨hb.born, hb.inside, hb.uncalled⟩ (List.mem_of_mem_erase hq)
  case called => exact h.called

end Step

theorem CallbackInv.step {s s' : ExpiryRun} {op : ExpiryOp} (h : CallbackInv s)
    (hg : Cancelling s op) (hst : ExpiryStep s op s') : CallbackInv s' := by
  cases hst with
  | beginTick hphase hidx hexpired => exact h.beginTick hphase hidx hexpired
  | fire hphase hring hlive => exact h.fire hphase hring
  | fireFreed hphase hfreed => exact absurd (h.links.head_live hphase) hfreed
  | ret hphase hlive => exact h.ret hphase
  | retFreed hphase hfreed => exact absurd (h.links.firing hphase).1 hfreed
  | finish hphase => exact h.finish hphase
  | createTimer hphase hnew => exact h.createTimer hphase hnew ..
  | deleteTimer hphase hborn hfirst hlive => exact h.deleteTimer hphase hborn hg
  | deleteFreed hphase hborn hfirst hfreed => exact absurd hg.1 hfreed

lemma CallbackInv.start (b : UInt32) : CallbackInv (expiryStart b) := by
  have houtside : ∀ p c, (expiryStart b).born p = some c → c.inside = false := by
    intro p c hborn
    by_cases hp : p = 0
    · subst hp
      have hc : some (⟨b.toNat, 150000, false⟩ : Birth) = some c := hborn
      rw [← Option.some.inj hc]
    · simp [expiryStart, hp] at hborn
  constructor
  case links => exact .start b
  case jiffies => exact (Nat.mod_eq_of_lt b.toNat_lt).symm
  case uncalled => exact fun p _ => rfl
  case kept =>
    intro p hborn _ _
    by_cases hp : p = 0
    · exact hp ▸ Finset.mem_insert_self 0 ∅
    · simp [expiryStart, hp] at hborn
  case firing =>
    intro p saved hfiring
    cases hfiring
  case placed => exact fun p c i hb _ => absurd hb.inside (by simp [houtside p c hb.born])
  case due => exact fun p c hb _ => absurd hb.inside (by simp [houtside p c hb.born])
  case called => exact fun p c t hborn hinside _ => absurd hinside (by simp [houtside p c hborn])

theorem callbackInv_of_reach {s : ExpiryRun} (hs : expirySystem.Reach Cancelling s) :
    CallbackInv s := by
  refine hs.invariant ?_ fun _ _ _ h hg hst => h.step hg hst
  intro s hinit
  obtain ⟨b, rfl⟩ := hinit
  exact .start b

def ExpiryOp.isCall : ExpiryOp → Bool
  | .fire _ => true
  | _ => false

/-- The calls of one tick are those of the detached nodes, each once. Inside the
tick there is always a step to take, and no more calls than nodes left. -/
structure WalkEnds (s : ExpiryRun) : Prop where
  order : s.fired ++ s.ring = s.expired
  nodup : s.expired.Nodup
  complete : s.phase = .idle → s.fired = s.expired
  onward : s.phase ≠ .idle → ∃ op s', (op = .ret ∨ op = .finish ∨ op.isCall) ∧
    ExpiryStep s op s' ∧ s'.phase ≠ .fault
  ends : s.phase ≠ .idle → ∀ run, expirySystem.Run Cancelling s run →
    .finish ∉ run.map Prod.fst → (run.map Prod.fst).countP ExpiryOp.isCall ≤ s.ring.length

lemma ExpiryStep.ring_length {s s' : ExpiryRun} {op : ExpiryOp} (hst : ExpiryStep s op s')
    (hphase : s.phase ≠ .idle) (hfinish : op ≠ .finish) (hsafe : s'.phase ≠ .fault) :
    s'.phase ≠ .idle ∧ s'.ring.length + (if op.isCall then 1 else 0) ≤ s.ring.length := by
  cases hst with
  | beginTick hidle => exact absurd hidle hphase
  | fire hwalk hring hlive =>
    rw [hring]
    exact ⟨by simp, le_rfl⟩
  | ret hfiring hlive => exact ⟨by simp, le_rfl⟩
  | finish hwalk => exact absurd rfl hfinish
  | createTimer hopen hnew => exact ⟨hphase, le_rfl⟩
  | deleteTimer hopen hborn hfirst hlive => exact ⟨hphase, List.length_erase_le⟩
  | fireFreed | retFreed | deleteFreed => exact absurd rfl hsafe

/-- Every call takes a node off the ring, and nothing puts one on it. -/
lemma ExpiryInv.calls_le {s : ExpiryRun} (h : ExpiryInv s) (hphase : s.phase ≠ .idle)
    {run : List (ExpiryOp × ExpiryRun)} (hrun : expirySystem.Run Cancelling s run)
    (hfinish : .finish ∉ run.map Prod.fst) :
    (run.map Prod.fst).countP ExpiryOp.isCall ≤ s.ring.length := by
  induction hrun with
  | nil s => simp
  | @cons s s' op rest hg hst hrest ih =>
    have h' := h.step hg hst
    rw [List.map_cons, List.mem_cons, not_or] at hfinish
    obtain ⟨hphase', hlength⟩ := hst.ring_length hphase (Ne.symm hfinish.1) h'.not_fault
    have hcalls := ih h' hphase' hfinish.2
    rw [List.map_cons, List.countP_cons]
    dsimp only
    omega

lemma ExpiryInv.onward {s : ExpiryRun} (h : ExpiryInv s) (hphase : s.phase ≠ .idle) :
    ∃ op s', (op = .ret ∨ op = .finish ∨ op.isCall) ∧ ExpiryStep s op s' ∧
      s'.phase ≠ .fault := by
  cases hs : s.phase with
  | idle => exact absurd hs hphase
  | fault => exact absurd hs h.not_fault
  | firing p saved => exact ⟨.ret, _, .inl rfl, .ret hs (h.firing hs).1, by simp⟩
  | walking saved =>
    cases saved with
    | none => exact ⟨.finish, _, .inr (.inl rfl), .finish hs, by simp⟩
    | some p =>
      obtain ⟨rest, hring⟩ := List.head?_eq_some_iff.mp (h.walking hs).1.symm
      exact ⟨.fire p, _, .inr (.inr rfl), .fire hs hring (h.head_live hs), by simp⟩

theorem ExpiryInv.walkEnds {s : ExpiryRun} (h : ExpiryInv s) : WalkEnds s := by
  constructor
  case order => exact h.order
  case nodup => exact h.nodup
  case complete =>
    intro hidle
    rw [← h.order, (h.idle hidle).1, List.append_nil]
  case onward => exact h.onward
  case ends => exact fun hphase run hrun hfinish => h.calls_le hphase hrun hfinish

/-- The first call was made by tick `J + max D 1`. -/
def InTime (s : ExpiryRun) (p : Addr) (b : Birth) : Prop :=
  ∃ t, s.firstCall p = some t ∧ t ≤ b.tick + max b.uDueTime.toNat 1

/-- After that tick a node that is not deleted has been called, if its delay is
not 0. -/
lemma CallbackInv.called_of_past {s : ExpiryRun} (h : CallbackInv s) {p : Addr} {b : Birth}
    (hborn : s.born p = some b) (hinside : b.inside = true) (hkept : p ∉ s.deleted)
    (hpast : b.deadline < s.tick) : s.firstCall p ≠ none := by
  intro hcall
  have hb : s.Awaited p b := ⟨hborn, hinside, hcall⟩
  have hheap := h.kept p (by simp [hborn]) hkept hcall
  have hnext : s.tick ≤ s.next := by
    unfold ExpiryRun.next
    split <;> omega
  have hslots : ∀ i, p ∉ s.timers.arrListTimer i := by
    intro i hp
    have := (h.placed p b i hb hp).ahead
    omega
  have hring : p ∉ s.ring := by
    intro hp
    have := (h.due p b hb hp).ahead
    omega
  -- so the node would have to be the one being called
  have hhand : p ∈ s.inHand := by
    have hlinked := h.links.linked p
    have hzero : occupancy s.timers.arrListTimer p = 0 :=
      Finset.sum_eq_zero fun i _ => List.count_eq_zero.mpr (hslots i)
    rw [if_pos hheap, hzero] at hlinked
    exact List.count_pos_iff.mp (by omega)
  unfold ExpiryRun.inHand at hhand
  split at hhand
  case h_1 q saved hphase =>
    rcases List.mem_cons.mp hhand with rfl | hp
    · exact h.firing p saved hphase hcall
    · exact hring hp
  case h_2 => exact hring hhand

/-- A timer that a callback of tick `J` creates with delay `D` has been called
by tick `J + max D 1`, and the walk ends, exactly when `D` is not 0. -/
theorem inTime_iff {s : ExpiryRun} (hs : expirySystem.Reach Cancelling s) {p : Addr} {b : Birth}
    (hborn : s.born p = some b) (hinside : b.inside = true) (hkept : p ∉ s.deleted)
    (hpast : b.tick + max b.uDueTime.toNat 1 < s.tick) :
    InTime s p b ∧ WalkEnds s ↔ b.uDueTime ≠ 0 := by
  have h := callbackInv_of_reach hs
  constructor
  · intro ⟨⟨t, hcall, hle⟩, _⟩ hzero
    obtain ⟨hbegun, hahead, hturn⟩ := h.called p b t hborn hinside hcall
    rw [Birth.deadline, if_pos hzero] at hturn
    rw [hzero, show (0 : UInt32).toNat = 0 from rfl] at hle
    omega
  · intro hne
    refine ⟨?_, h.links.walkEnds⟩
    have hpos : 0 < b.uDueTime.toNat := Nat.pos_of_ne_zero fun hz => hne (UInt32.toNat_inj.mp hz)
    have hdeadline : b.deadline = b.tick + max b.uDueTime.toNat 1 := by
      rw [Birth.deadline, if_neg hne, max_eq_left hpos]
    have hcalled := h.called_of_past hborn hinside hkept (by omega)
    obtain ⟨t, hcall⟩ := Option.ne_none_iff_exists'.mp hcalled
    exact ⟨t, hcall, hdeadline ▸ (h.called p b t hborn hinside hcall).ahead⟩

/-- In the tick 1 the callback of a one-shot timer has created another one. -/
def duringCall (due : UInt32) : ExpiryRun where
  timers := (createTimer (listTimerReplaceInit
    (createTimer (timerInit 1) (some 1) (some (.user 1)) 0 0 0).1 (.tv1 1))
    (some 2) (some (.user 2)) 0 due 0).1
  ring := []
  phase := .firing 1 none
  tick := 1
  born := Function.update (Function.update (expiryStart 1).born 1 (some ⟨1, 0, false⟩)) 2
    (some ⟨1, due, true⟩)
  firstCall := Function.update (fun _ => none) 1 (some 1)
  fired := [1]
  expired := [1]
  deleted := ∅

lemma duringCall_reach (due : UInt32) : expirySystem.Reach Cancelling (duringCall due) := by
  have h0 : expirySystem.Reach Cancelling (expiryStart 1) := .init ⟨1, rfl⟩
  have h1 := h0.step (by trivial) (@ExpiryStep.createTimer _ 1 (.user 1) 0 0 0 (.inl rfl) rfl)
  have h2 := h1.step (by trivial) (.beginTick rfl rfl rfl)
  have h3 := h2.step (by trivial) (@ExpiryStep.fire _ 1 [] (by decide) (by decide) (by decide))
  exact h3.step (by trivial)
    (@ExpiryStep.createTimer _ 2 (.user 2) 0 due 0 (.inr ⟨1, none, rfl⟩) rfl)

theorem inTime_nextTick : ∃ s, s.born 2 = some ⟨1, 1, true⟩ ∧
    (InTime s 2 ⟨1, 1, true⟩ ∧ WalkEnds s) := by
  have h1 := (duringCall_reach 1).step (by trivial) (@ExpiryStep.ret _ 1 none rfl (by decide))
  have h2 := h1.step (by trivial) (.finish rfl)
  have h3 := h2.step (by trivial) (.beginTick rfl rfl rfl)
  have h4 := h3.step (by trivial) (@ExpiryStep.fire _ 2 [] (by decide) (by decide) (by decide))
  have h5 := h4.step (by trivial) (@ExpiryStep.ret _ 2 none rfl (by decide))
  have h6 := h5.step (by trivial) (.finish rfl)
  exact ⟨_, rfl, (inTime_iff h6 rfl rfl (by decide) (by decide)).mpr (by decide)⟩

/-- With the delay 0 the timer has not been called at the end of the next tick. -/
theorem not_inTime : ¬ ∀ s, expirySystem.Reach Cancelling s → ∀ p b, s.born p = some b →
    b.inside = true → p ∉ s.deleted → b.tick + max b.uDueTime.toNat 1 < s.tick →
    InTime s p b ∧ WalkEnds s := by
  intro h
  have h1 := (duringCall_reach 0).step (by trivial) (@ExpiryStep.ret _ 1 none rfl (by decide))
  have h2 := h1.step (by trivial) (.finish rfl)
  have h3 := h2.step (by trivial) (.beginTick rfl rfl rfl)
  have h4 := h3.step (by trivial) (.finish (by decide))
  obtain ⟨⟨t, hcall, -⟩, -⟩ := h _ h4 2 ⟨1, 0, true⟩ rfl rfl (by decide) (by decide)
  have hnone : none = some t := hcall
  cases hnone

end Libtask.Timer
