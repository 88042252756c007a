import Mathlib

/-!
# The timing wheels of `interrupt/timer.c`

The rings of the five arrays `arrListTimer1` .. `arrListTimer5` are lists of
node addresses, from the head's `pNext` on; `listTimerInsertTail` appends and
`list_timer_replace_init` hands over the whole list and empties the slot. The
32-bit counters are `UInt32`, so `uJiffies` and `uExpires` wrap as in the code.

`timer_manager->lock` is free whenever one of these operations starts and free
again when it ends, so it does not appear in this sequential model.
-/
namespace Libtask.Timer

/-- Address of a `TIMERNODE`. -/
abbrev Addr := ℕ

def tvnBits : UInt32 := 6
def tvrBits : UInt32 := 8
def tvnSize : UInt32 := 1 <<< tvnBits
def tvrSize : UInt32 := 1 <<< tvrBits
def tvnMask : UInt32 := tvnSize - 1
def tvrMask : UInt32 := tvrSize - 1

/-- No wheel is empty. -/
scoped instance neZero_tvrSize : NeZero 256 := ⟨by decide⟩

scoped instance neZero_tvnSize : NeZero 64 := ⟨by decide⟩

/-- `clock_granularity`: the milliseconds between two ticks of SIGALRM. -/
def clockGranularity : UInt32 := 10

/-- The callbacks that the library installs, and those of its users. -/
inductive TimerFn
  | cleanDeadTask
  | collaborativeScheduleHelper
  | user (f : ℕ)
  deriving DecidableEq, Repr

/-- `struct TIMER_NODE`, without its ring links. -/
structure TimerNode where
  uExpires : UInt32
  uPeriod : UInt32
  timerFn : TimerFn
  pParam : ℕ
  deriving DecidableEq, Repr

/-- One ring head of one of the five arrays. -/
inductive Slot
  | tv1 (i : Fin 256)
  | tv2 (i : Fin 64)
  | tv3 (i : Fin 64)
  | tv4 (i : Fin 64)
  | tv5 (i : Fin 64)
  deriving DecidableEq, Fintype, Repr

/-- `*timer_manager`, the nodes that are allocated, and their contents. -/
structure TimerState where
  uJiffies : UInt32
  arrListTimer : Slot → List Addr
  heap : Finset Addr
  node : Addr → TimerNode

/-- `expires & TVR_MASK`. -/
def tvrIndex (u : UInt32) : Fin 256 := Fin.ofNat 256 (u &&& tvrMask).toNat

/-- `(u >> (TVR_BITS + N * TVN_BITS)) & TVN_MASK`, the macro `INDEX(N)` at `u`. -/
def tvnIndex (n u : UInt32) : Fin 64 :=
  Fin.ofNat 64 ((u >>> (tvrBits + n * tvnBits)) &&& tvnMask).toNat

/-- The ring that `add_timer` chooses. The last two branches compare a 32-bit
value as a 64-bit `signed long` with 0 and as an `unsigned long` with
`0xffffffff`. -/
def addTimerSlot (uJiffies uExpires : UInt32) : Slot :=
  let uDueTime := (uExpires - uJiffies) / clockGranularity
  if uDueTime < tvrSize then .tv1 (tvrIndex uExpires)
  else if uDueTime < 1 <<< (tvrBits + tvnBits) then .tv2 (tvnIndex 0 uExpires)
  else if uDueTime < 1 <<< (tvrBits + 2 * tvnBits) then .tv3 (tvnIndex 1 uExpires)
  else if uDueTime < 1 <<< (tvrBits + 3 * tvnBits) then .tv4 (tvnIndex 2 uExpires)
  else if (uDueTime.toNat : ℤ) < 0 then .tv1 (tvrIndex uJiffies)
  else if uDueTime.toNat > 0xffffffff then .tv5 (tvnIndex 3 (0xffffffff + uJiffies))
  else .tv5 (tvnIndex 3 uExpires)

/-- `list_timer_insert_tail` of a node at a ring head of the manager. -/
def listTimerInsertTail (s : TimerState) (pTmr : Addr) (pHead : Slot) : TimerState :=
  { s with arrListTimer :=
      Function.update s.arrListTimer pHead (s.arrListTimer pHead ++ [pTmr]) }

def addTimer (s : TimerState) (pTmr : Addr) : TimerState :=
  listTimerInsertTail s pTmr (addTimerSlot s.uJiffies (s.node pTmr).uExpires)

lemma addTimer_arrListTimer (s : TimerState) (p : Addr) : (addTimer s p).arrListTimer =
    Function.update s.arrListTimer (addTimerSlot s.uJiffies (s.node p).uExpires)
      (s.arrListTimer (addTimerSlot s.uJiffies (s.node p).uExpires) ++ [p]) := rfl

lemma mem_addTimer {s : TimerState} {p q : Addr} {i : Slot}
    (hq : q ∈ (addTimer s p).arrListTimer i) :
    q ∈ s.arrListTimer i ∨ q = p ∧ i = addTimerSlot s.uJiffies (s.node p).uExpires := by
  rw [addTimer_arrListTimer] at hq
  by_cases hi : i = addTimerSlot s.uJiffies (s.node p).uExpires
  · subst hi
    rw [Function.update_self, List.mem_append, List.mem_singleton] at hq
    exact hq.imp_right fun h => ⟨h, rfl⟩
  · rw [Function.update_of_ne hi] at hq
    exact .inl hq

/-- `list_timer_replace_init` of a ring head: the slot is left empty. The nodes
go to a ring of the caller, which is `s.arrListTimer pHead`. -/
def listTimerReplaceInit (s : TimerState) (pHead : Slot) : TimerState :=
  { s with arrListTimer := Function.update s.arrListTimer pHead [] }

/-- The walk over the detached ring puts every node back by its expiry time. -/
def cascadeTimer (s : TimerState) (pHead : Slot) : TimerState :=
  (s.arrListTimer pHead).foldl addTimer (listTimerReplaceInit s pHead)

/-- The cascades at the head of one tick. A further array is cascaded only when
the index of the one before it is 0. -/
def cascadeTick (s : TimerState) : TimerState :=
  let u := s.uJiffies
  if tvrIndex u = 0 then
    let s := cascadeTimer s (.tv2 (tvnIndex 0 u))
    if tvnIndex 0 u = 0 then
      let s := cascadeTimer s (.tv3 (tvnIndex 1 u))
      if tvnIndex 1 u = 0 then
        let s := cascadeTimer s (.tv4 (tvnIndex 2 u))
        if tvnIndex 2 u = 0 then cascadeTimer s (.tv5 (tvnIndex 3 u))
        else s
      else s
    else s
  else s

/-- `free(pTmr)`. -/
def freeNode (s : TimerState) (pTmr : Addr) : TimerState :=
  { s with heap := s.heap.erase pTmr }

/-- The statement after the call in `run_timer`: a periodic node is armed again
from the tick being processed, a one-shot node is freed. -/
def rearmOrFree (s : TimerState) (pTmr : Addr) : TimerState :=
  let n := s.node pTmr
  if n.uPeriod ≠ 0 then
    let n' := { n with uExpires := s.uJiffies + n.uPeriod }
    addTimer { s with node := Function.update s.node pTmr n' } pTmr
  else freeNode s pTmr

/-- What a `timerFn` does to the timers and to the rest of the program, given
the address and the contents of its node. -/
abbrev Callback (ε : Type*) := Addr → TimerNode → TimerState × ε → TimerState × ε

/-- The walk over the expired ring: call, then arm again or free. -/
def expireWalk {ε : Type*} (call : Callback ε) : List Addr → TimerState × ε → TimerState × ε
  | [], c => c
  | pTmr :: rest, c =>
    let c := call pTmr (c.1.node pTmr) c
    expireWalk call rest (rearmOrFree c.1 pTmr, c.2)

/-- One iteration of the outer loop of `run_timer`. -/
def runTick {ε : Type*} (call : Callback ε) (c : TimerState × ε) : TimerState × ε :=
  let s := cascadeTick c.1
  let idx := Slot.tv1 (tvrIndex s.uJiffies)
  let r := expireWalk call (s.arrListTimer idx) (listTimerReplaceInit s idx, c.2)
  ({ r.1 with uJiffies := r.1.uJiffies + 1 }, r.2)

/-- `create_timer` with the address that `malloc` returned, `none` for NULL. -/
def createTimer (s : TimerState) (malloc : Option Addr) (timerFn : Option TimerFn)
    (pParam : ℕ) (uDueTime uPeriod : UInt32) : TimerState × Option Addr :=
  match timerFn, malloc with
  | some f, some pTmr =>
    let n : TimerNode := ⟨s.uJiffies + uDueTime, uPeriod, f, pParam⟩
    (addTimer { s with heap := insert pTmr s.heap, node := Function.update s.node pTmr n } pTmr,
      some pTmr)
  | _, _ => (s, none)

/-- Unlink a node through its own links, whichever ring it is on. -/
def unlink (s : TimerState) (pTmr : Addr) : TimerState :=
  { s with arrListTimer := fun i => (s.arrListTimer i).erase pTmr }

/-- `delete_timer` of a node that is linked. -/
def deleteTimer (s : TimerState) (lpTimer : Addr) : TimerState :=
  freeNode (unlink s lpTimer) lpTimer

/-- The manager that `timer_init` fills in, before its `create_timer`. -/
def emptyManager (uJiffies : UInt32) : TimerState where
  uJiffies := uJiffies
  arrListTimer := fun _ => []
  heap := ∅
  node := fun _ => ⟨0, 0, .cleanDeadTask, 0⟩

/-- `timer_init` at the clock reading `uJiffies`; its node for the cleaning of
dead tasks is allocated at address 0. -/
def timerInit (uJiffies : UInt32) : TimerState :=
  (createTimer (emptyManager uJiffies) (some 0) (some .cleanDeadTask) 0 150000 150000).1

end Libtask.Timer
