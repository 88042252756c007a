import Libtask.Occupancy
import Libtask.Transition
import Libtask.Timer.Placement

/-!
# Runs of the timing wheels

A run is any sequence of `create_timer`, `delete_timer` of pending nodes, and
ticks, from `timer_init`. It keeps a log of what happened to each node. Every
arming in the log is met: the next thing that happens to the node is a deletion
or one call, not after the tick at which it is due.
-/
namespace Libtask.Timer
open Transition

/-- What the log records, with the number of the tick at which it happened. A
call of a node whose period is not 0 arms it again. -/
inductive Event
  | created (pTmr : Addr) (tick : ℕ) (uDueTime uPeriod : UInt32)
  | called (pTmr : Addr) (tick : ℕ) (uPeriod : UInt32)
  | deleted (pTmr : Addr)
  deriving DecidableEq, Repr

/-- Armed at `tick` to be called `delay` ticks later; `rearm` tells the re-arm
in `run_timer` from `create_timer`. -/
structure Arming where
  tick : ℕ
  delay : ℕ
  rearm : Bool
  deriving DecidableEq, Repr

/-- The tick at which `uJiffies == uExpires`. -/
def Arming.due (a : Arming) : ℕ := a.tick + a.delay

def Event.pTmr : Event → Addr
  | .created p _ _ _ | .called p _ _ | .deleted p => p

def Event.arms : Event → Option Arming
  | .created _ t d _ => some ⟨t, d.toNat, false⟩
  | .called _ t p => if p ≠ 0 then some ⟨t, p.toNat, true⟩ else none
  | .deleted _ => none

/-- The arming that the log leaves pending for a node; the newest event comes
first. -/
def armingOf (log : List Event) (p : Addr) : Option Arming :=
  (log.find? fun e => e.pTmr = p).bind Event.arms

/-- The timers, the unwrapped value of `uJiffies`, and the log. -/
structure WheelRun where
  timers : TimerState
  tick : ℕ
  log : List Event

inductive TimerOp
  | createTimer (malloc : Option Addr) (timerFn : Option TimerFn) (pParam : ℕ)
      (uDueTime uPeriod : UInt32)
  | deleteTimer (lpTimer : Addr)
  | tick
  deriving DecidableEq, Repr

/-- `malloc` returns no block in use, and only pending nodes are deleted. -/
def Allowed (s : WheelRun) : TimerOp → Prop
  | .createTimer malloc _ _ _ _ => ∀ p ∈ malloc, p ∉ s.timers.heap
  | .deleteTimer p => p ∈ s.timers.heap
  | .tick => True

instance (s : WheelRun) (op : TimerOp) : Decidable (Allowed s op) := by
  cases op <;> simp only [Allowed] <;> infer_instance

/-- A callback that leaves the timers alone and is put on record. -/
def recordCall (tick : ℕ) : Callback (List Event) := fun pTmr n c =>
  (c.1, .called pTmr tick n.uPeriod :: c.2)

def applyOp (s : WheelRun) : TimerOp → WheelRun
  | .createTimer malloc timerFn pParam uDueTime uPeriod =>
    match createTimer s.timers malloc timerFn pParam uDueTime uPeriod with
    | (timers, some p) => ⟨timers, s.tick, .created p s.tick uDueTime uPeriod :: s.log⟩
    | (timers, none) => ⟨timers, s.tick, s.log⟩
  | .deleteTimer p => ⟨deleteTimer s.timers p, s.tick, .deleted p :: s.log⟩
  | .tick =>
    let r := runTick (recordCall s.tick) (s.timers, s.log)
    ⟨r.1, s.tick + 1, r.2⟩

/-- `timer_init` at the clock reading `b`. -/
def wheelStart (b : UInt32) : WheelRun :=
  ⟨timerInit b, b.toNat, [.created 0 b.toNat 150000 150000]⟩

def wheelSystem : System WheelRun TimerOp where
  init s := ∃ b, s = wheelStart b
  step s op t := Allowed s op ∧ t = applyOp s op

/-- The delays that the wheels resolve exactly. Up to 2559 ticks the first level
takes the node, and it has 256 slots; from 163840 on, a cascade may hand it down
at such a distance. -/
def Arming.OnTime (a : Arming) : Prop :=
  if a.delay < 2560 then a.delay < 256 ∨ a.delay = 256 ∧ a.rearm
  else if a.delay < 163840 then True
  else if a.delay < 10485760 then Clear3 a.due
  else if a.delay < 671088640 then Clear4 a.due
  else Clear5 a.due

instance (a : Arming) : Decidable a.OnTime := by
  unfold Arming.OnTime
  infer_instance

/-- A call at tick `t` answers the arming: not late, and on its tick exactly
when the wheels resolve its delay. -/
def Answers (a : Arming) (t : ℕ) : Prop :=
  a.tick ≤ t ∧ t ≤ a.due ∧ (t = a.due ↔ a.OnTime)

/-- Every event of the log, newest first, is one its node can meet. -/
def Timely : List Event → Prop
  | [] => True
  | e :: log => Timely log ∧ match e with
    | .created p _ _ _ => armingOf log p = none
    | .called p t _ => ∃ a, armingOf log p = some a ∧ Answers a t
    | .deleted p => ∃ a, armingOf log p = some a

/-- A linked node, armed as `a`, still ahead of tick `t` in its slot. -/
structure Waiting (t : ℕ) (n : TimerNode) (a : Arming) (i : Slot) : Prop where
  expires : n.uExpires.toNat = a.due % 2 ^ 32
  begun : a.tick ≤ t
  ahead : t ≤ a.due
  turn : TurnAhead t a.due i
  span : InSpan t a.due i
  punctual : Punctual t a.due i ↔ a.OnTime

/-- Every allocated node stands once in one place, either in a slot or in the
detached ring `rest`, and no freed node is linked. -/
def Linked (rest : List Addr) (s : TimerState) : Prop :=
  ∀ p, rest.count p + occupancy s.arrListTimer p = if p ∈ s.heap then 1 else 0

/-- The invariant between two operations. -/
structure WheelInv (s : WheelRun) : Prop where
  jiffies : s.timers.uJiffies.toNat = s.tick % 2 ^ 32
  linked : Linked [] s.timers
  armed : ∀ p, p ∉ s.timers.heap → armingOf s.log p = none
  waiting : ∀ p i, p ∈ s.timers.arrListTimer i →
    ∃ a, armingOf s.log p = some a ∧ Waiting s.tick (s.timers.node p) a i
  timely : Timely s.log

lemma armingOf_cons_self {e : Event} (log : List Event) : armingOf (e :: log) e.pTmr = e.arms := by
  simp [armingOf]

lemma armingOf_cons_of_ne {e : Event} (log : List Event) {p : Addr} (h : e.pTmr ≠ p) :
    armingOf (e :: log) p = armingOf log p := by
  simp [armingOf, h]

lemma InSpan.wrap {t e : ℕ} {i : Slot} (h : InSpan t e i) : e < t + 2 ^ 32 := by
  cases i <;> simp only [InSpan] at h <;> omega

/-- Whether a fresh node will be punctual depends on its delay alone, and on
whether the tick of the arming can still call it. -/
theorem punctual_addTimerSlot_iff {u x : UInt32} {a : Arming} (hu : u.toNat = a.tick % 2 ^ 32)
    (hx : x.toNat = a.due % 2 ^ 32) (hwrap : a.delay < 2 ^ 32) :
    Punctual (a.tick + if a.rearm then 1 else 0) a.due (addTimerSlot u x) ↔ a.OnTime := by
  obtain ⟨t, d, r⟩ := a
  simp only [Arming.due] at hu hx hwrap ⊢
  rw [addTimerSlot_eq, toNat_sub_of_unwrapped hu hx (by omega) (by omega), Nat.add_sub_cancel_left]
  simp only [Arming.OnTime, Arming.due]
  cases r <;> simp only [Bool.false_eq_true, if_true, if_false, and_false, or_false, and_true] <;>
    split_ifs <;> simp only [Punctual] <;> omega

end Libtask.Timer
