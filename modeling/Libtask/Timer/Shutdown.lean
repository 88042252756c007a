import Libtask.Task.Handler
import Libtask.Timer.Delivery

/-!
# Shutting down the timer manager

`destroy_timer_manager` frees the nodes of the five wheels and then the manager,
and leaves `timer_manager` as it was. The blocks are live or freed here, and a
read of a freed one is a fault, as is a second `free`.
-/
namespace Libtask.Timer
open Sched

inductive Fault
  | useAfterFree
  | doubleFree
  | diverges
  deriving DecidableEq, Repr

/-- The blocks that the timers allocate. -/
inductive Block
  | manager
  | node (pTmr : Addr)
  deriving DecidableEq, Repr

/-- `timer_manager` and the block that it points to. `freed` and `called` record
the calls of `free` and of the `timerFn`s; `env` is the rest of the program. -/
structure Manager (ε : Type) where
  pointer : Bool
  allocated : Bool
  uExitFlag : UInt32
  timers : TimerState
  freed : List Block
  called : List Addr
  env : ε

namespace Manager

variable {ε : Type}

/-- An access through `timer_manager`. -/
def touch (s : Manager ε) : Except Fault Unit :=
  if s.allocated then .ok () else .error .useAfterFree

def free (s : Manager ε) : Block → Except Fault (Manager ε)
  | .manager =>
    if s.allocated then .ok { s with allocated := false, freed := s.freed ++ [.manager] }
    else .error .doubleFree
  | .node pTmr =>
    if pTmr ∈ s.timers.heap then
      .ok { s with timers := freeNode s.timers pTmr, freed := s.freed ++ [.node pTmr] }
    else .error .doubleFree

/-- One round of `delete_array_list_timer`. -/
def deleteListTimer (s : Manager ε) (i : Slot) : Except Fault (Manager ε) :=
  (s.timers.arrListTimer i).foldlM (fun s pTmr => s.free (.node pTmr))
    { s with timers := listTimerReplaceInit s.timers i }

def deleteArrayListTimer (s : Manager ε) (arrListTimer : List Slot) : Except Fault (Manager ε) :=
  arrListTimer.foldlM deleteListTimer s

def arrListTimer1 : List Slot := (List.finRange 256).map .tv1
def arrListTimer2 : List Slot := (List.finRange 64).map .tv2
def arrListTimer3 : List Slot := (List.finRange 64).map .tv3
def arrListTimer4 : List Slot := (List.finRange 64).map .tv4
def arrListTimer5 : List Slot := (List.finRange 64).map .tv5

def destroyTimerManager (s : Manager ε) : Except Fault (Manager ε) :=
  if s.pointer = false then .ok s
  else do
    s.touch
    let s := { s with uExitFlag := 1 }
    let s ← s.deleteArrayListTimer arrListTimer1
    let s ← s.deleteArrayListTimer arrListTimer2
    let s ← s.deleteArrayListTimer arrListTimer3
    let s ← s.deleteArrayListTimer arrListTimer4
    let s ← s.deleteArrayListTimer arrListTimer5
    s.free .manager

/-- `create_timer`, with the answer of `malloc`. -/
def createTimer (s : Manager ε) (malloc : Option Addr) (timerFn : Option TimerFn) (pParam : ℕ)
    (uDueTime uPeriod : UInt32) : Except Fault (Manager ε × Option Addr) :=
  if timerFn = none ∨ s.pointer = false then .ok (s, none)
  else
    match malloc with
    | none => .ok (s, none)
    | some pTmr => do
      s.touch
      let r := Timer.createTimer s.timers (some pTmr) timerFn pParam uDueTime uPeriod
      return ({ s with timers := r.1 }, r.2)

/-- `delete_timer`; it reads the links of the node before it frees it. -/
def deleteTimer (s : Manager ε) (lpTimer : Option Addr) : Except Fault (Manager ε × Int32) :=
  match lpTimer with
  | none => .ok (s, -1)
  | some pTmr =>
    if s.pointer = false then .ok (s, -1)
    else do
      s.touch
      if pTmr ∉ s.timers.heap then throw .useAfterFree
      let s ← { s with timers := unlink s.timers pTmr }.free (.node pTmr)
      return (s, 0)

/-- The calls of `run_timer`, with a record of them. -/
def recorded (call : Callback ε) : Callback (List Addr × ε) := fun pTmr n c =>
  let r := call pTmr n (c.1, c.2.2)
  (r.1, c.2.1 ++ [pTmr], r.2)

def runTimer (call : Callback ε) (now : UInt32) (s : Manager ε) : Except Fault (Manager ε) :=
  if s.pointer = false then .ok s
  else do
    s.touch
    match runTimerLoop (recorded call) now (2 ^ 32) (s.timers, s.called, s.env) with
    | none => throw .diverges
    | some (timers, called, env) => return { s with timers := timers, called := called, env := env }

/-- What `interrupt_timer_handler` does with the timers. `sleeper` is the running
task with its duration, when it has asked for a sleep. -/
def interruptTimerHandler (call : Callback ε) (now : UInt32) (sleeper : Option (ℕ × UInt32))
    (malloc : Option Addr) (s : Manager ε) : Except Fault (Manager ε) := do
  let s ← if s.pointer then do
      s.touch
      if s.uExitFlag = 0 then s.runTimer call now else s.destroyTimerManager
    else pure s
  match sleeper with
  | none => return s
  | some (task, millisecond) => do
    let r ← s.createTimer malloc (some .collaborativeScheduleHelper) task millisecond 0
    return r.1

end Manager

/-- The entry points of the timers. -/
inductive TimerCall
  | tick (now : UInt32) (sleeper : Option (ℕ × UInt32)) (malloc : Option Addr)
  | createTimer (malloc : Option Addr) (timerFn : Option TimerFn) (pParam : ℕ)
      (uDueTime uPeriod : UInt32)
  | deleteTimer (lpTimer : Option Addr)
  | destroyTimerManager

/-- What they return. -/
inductive Answer
  | nothing
  | timer (lpTimer : Option Addr)
  | status (n : Int32)
  deriving DecidableEq, Repr

/-- NULL from `create_timer` and -1 from `delete_timer`. -/
def Answer.Refuses : Answer → Prop
  | .nothing => True
  | .timer lpTimer => lpTimer = none
  | .status n => n = -1

namespace Manager

variable {ε : Type}

def exec (call : Callback ε) (s : Manager ε) : TimerCall → Except Fault (Manager ε × Answer)
  | .tick now sleeper malloc => do
    let s ← s.interruptTimerHandler call now sleeper malloc
    return (s, .nothing)
  | .createTimer malloc timerFn pParam uDueTime uPeriod => do
    let r ← s.createTimer malloc timerFn pParam uDueTime uPeriod
    return (r.1, .timer r.2)
  | .deleteTimer lpTimer => do
    let r ← s.deleteTimer lpTimer
    return (r.1, .status r.2)
  | .destroyTimerManager => do
    let s ← s.destroyTimerManager
    return (s, .nothing)

def run (call : Callback ε) : List TimerCall → Manager ε → Except Fault (Manager ε × List Answer)
  | [], s => .ok (s, [])
  | op :: ops, s => do
    let (s, a) ← s.exec call op
    let (s, answers) ← run call ops s
    return (s, a :: answers)

/-- The timers, with every slot of `arr` empty and the nodes gone. -/
def cleared (timers : TimerState) (arr : List Slot) : TimerState :=
  { timers with
    arrListTimer := fun i => if i ∈ arr then [] else timers.arrListTimer i
    heap := timers.heap \ (arr.flatMap timers.arrListTimer).toFinset }

lemma foldlM_free {l : List Addr} {s : Manager ε} (hnodup : l.Nodup)
    (hheap : ∀ p ∈ l, p ∈ s.timers.heap) :
    l.foldlM (fun s p => s.free (.node p)) s = .ok { s with
      timers := { s.timers with heap := s.timers.heap \ l.toFinset }
      freed := s.freed ++ l.map .node } := by
  induction l generalizing s with
  | nil => simp [pure, Except.pure]
  | cons p l ih =>
    obtain ⟨hp, hl⟩ := List.nodup_cons.mp hnodup
    have hfree : s.free (.node p) = .ok { s with
        timers := freeNode s.timers p
        freed := s.freed ++ [.node p] } := if_pos (hheap p List.mem_cons_self)
    rw [List.foldlM_cons, hfree]
    refine (ih hl fun q hq => ?_).trans ?_
    · have hqp : q ≠ p := by
        rintro rfl
        exact hp hq
      exact Finset.mem_erase.mpr ⟨hqp, hheap q (List.mem_cons_of_mem p hq)⟩
    · have hsdiff : s.timers.heap.erase p \ l.toFinset = s.timers.heap \ (p :: l).toFinset := by
        ext q
        simp only [Finset.mem_sdiff, Finset.mem_erase, List.toFinset_cons, Finset.mem_insert]
        tauto
      simp only [freeNode, hsdiff, List.map_cons, List.append_assoc, List.singleton_append]

/-- One slot more. -/
lemma cleared_cons (timers : TimerState) {i : Slot} {arr : List Slot} (hi : i ∉ arr) :
    cleared { listTimerReplaceInit timers i with
      heap := timers.heap \ (timers.arrListTimer i).toFinset } arr = cleared timers (i :: arr) := by
  have hsame : arr.flatMap (Function.update timers.arrListTimer i []) =
      arr.flatMap timers.arrListTimer := by
    apply List.flatMap_congr
    intro j hj
    apply Function.update_of_ne
    rintro rfl
    exact hi hj
  simp only [cleared, listTimerReplaceInit, TimerState.mk.injEq, hsame, true_and, and_true]
  constructor
  · ext1 j
    by_cases hji : j = i
    · subst hji
      simp
    · simp [hji]
  · ext p
    simp only [Finset.mem_sdiff, List.mem_toFinset, List.flatMap_cons, List.mem_append]
    tauto

lemma deleteArrayListTimer_ok {arr : List Slot} {s : Manager ε} (harr : arr.Nodup)
    (hnodup : (arr.flatMap s.timers.arrListTimer).Nodup)
    (hheap : ∀ p ∈ arr.flatMap s.timers.arrListTimer, p ∈ s.timers.heap) :
    s.deleteArrayListTimer arr = .ok { s with
      timers := cleared s.timers arr
      freed := s.freed ++ (arr.flatMap s.timers.arrListTimer).map .node } := by
  induction arr generalizing s with
  | nil => simp [deleteArrayListTimer, cleared, pure, Except.pure]
  | cons i arr ih =>
    obtain ⟨hi, harr'⟩ := List.nodup_cons.mp harr
    rw [List.flatMap_cons] at hnodup hheap ⊢
    obtain ⟨hslot, hrest, hdisj⟩ := List.nodup_append.mp hnodup
    let s1 : Manager ε := { s with timers := listTimerReplaceInit s.timers i }
    have hround : s.deleteListTimer i = .ok { s1 with
        timers := { s1.timers with heap := s.timers.heap \ (s.timers.arrListTimer i).toFinset }
        freed := s.freed ++ (s.timers.arrListTimer i).map .node } :=
      foldlM_free (s := s1) hslot fun p hp => hheap p (List.mem_append_left _ hp)
    -- the other slots still have their nodes
    have hsame : arr.flatMap (Function.update s.timers.arrListTimer i []) =
        arr.flatMap s.timers.arrListTimer := by
      apply List.flatMap_congr
      intro j hj
      apply Function.update_of_ne
      rintro rfl
      exact hi hj
    rw [deleteArrayListTimer, List.foldlM_cons, hround]
    refine (ih harr' ?_ ?_).trans ?_
    · show (arr.flatMap (Function.update s.timers.arrListTimer i [])).Nodup
      rwa [hsame]
    · show ∀ p ∈ arr.flatMap (Function.update s.timers.arrListTimer i []), _
      rw [hsame]
      intro p hp
      refine Finset.mem_sdiff.mpr ⟨hheap p (List.mem_append_right _ hp), fun hslot' => ?_⟩
      exact hdisj p (List.mem_toFinset.mp hslot') p hp rfl
    · have hcleared := cleared_cons s.timers hi
      simp only [s1, listTimerReplaceInit, hsame] at hcleared ⊢
      simp only [hcleared, List.map_append, List.append_assoc]

/-- The slots in the order in which `destroy_timer_manager` empties them. -/
def slots : List Slot :=
  arrListTimer1 ++ (arrListTimer2 ++ (arrListTimer3 ++ (arrListTimer4 ++ arrListTimer5)))

lemma mem_slots (i : Slot) : i ∈ slots := by
  cases i <;>
    simp [slots, arrListTimer1, arrListTimer2, arrListTimer3, arrListTimer4, arrListTimer5]

lemma nodup_slots : slots.Nodup := by
  have hmap : ∀ {n : ℕ} {f : Fin n → Slot}, f.Injective → ((List.finRange n).map f).Nodup :=
    fun hf => (List.nodup_finRange _).map hf
  have h1 := hmap (fun i j h => Slot.tv1.inj h)
  have h2 := hmap (fun i j h => Slot.tv2.inj h)
  have h3 := hmap (fun i j h => Slot.tv3.inj h)
  have h4 := hmap (fun i j h => Slot.tv4.inj h)
  have h5 := hmap (fun i j h => Slot.tv5.inj h)
  simp only [slots, arrListTimer1, arrListTimer2, arrListTimer3, arrListTimer4, arrListTimer5,
    List.nodup_append, h1, h2, h3, h4, h5, true_and]
  grind

/-- The manager is live; every node is in one slot. -/
structure Running (s : Manager ε) : Prop where
  pointer : s.pointer = true
  allocated : s.allocated = true
  linked : Linked [] s.timers

/-- All nodes, in the order of the slots. -/
def nodes (s : Manager ε) : List Addr := slots.flatMap s.timers.arrListTimer

lemma Running.count_nodes {s : Manager ε} (h : s.Running) (p : Addr) :
    s.nodes.count p = if p ∈ s.timers.heap then 1 else 0 := by
  have hp := h.linked p
  rw [List.count_nil, zero_add] at hp
  rw [← hp, nodes, occupancy_eq_count_flatMap nodup_slots mem_slots]

lemma Running.nodup_nodes {s : Manager ε} (h : s.Running) : s.nodes.Nodup := by
  apply List.nodup_iff_count_le_one.mpr
  intro p
  rw [h.count_nodes]
  split_ifs <;> omega

lemma Running.mem_nodes {s : Manager ε} (h : s.Running) (p : Addr) :
    p ∈ s.nodes ↔ p ∈ s.timers.heap := by
  rw [← List.count_pos_iff, h.count_nodes]
  split_ifs with hp <;> simp [hp]

/-- The state after the shutdown: the pointer is not cleared. -/
def destroyed (s : Manager ε) : Manager ε :=
  { s with
    allocated := false
    uExitFlag := 1
    timers := cleared s.timers slots
    freed := s.freed ++ s.nodes.map .node ++ [.manager] }

theorem Running.destroyTimerManager {s : Manager ε} (h : s.Running) :
    s.destroyTimerManager = .ok s.destroyed := by
  let s1 : Manager ε := { s with uExitFlag := 1 }
  have hdelete : s1.deleteArrayListTimer slots = .ok { s1 with
      timers := cleared s.timers slots
      freed := s.freed ++ s.nodes.map .node } :=
    deleteArrayListTimer_ok nodup_slots h.nodup_nodes fun p => (h.mem_nodes p).mp
  have hloops : s.destroyTimerManager =
      s1.deleteArrayListTimer slots >>= fun s2 => s2.free .manager := by
    rw [Manager.destroyTimerManager, if_neg (by simp [h.pointer]), touch, if_pos h.allocated]
    simp only [deleteArrayListTimer, slots, List.foldlM_append, bind_assoc]
    rfl
  rw [hloops, hdelete]
  show Manager.free _ .manager = _
  rw [Manager.free, if_pos h.allocated]
  rfl

/-- Calls that return before they use the manager. -/
def Harmless : TimerCall → Prop
  | .createTimer malloc timerFn _ _ _ => timerFn = none ∨ malloc = none
  | .deleteTimer lpTimer => lpTimer = none
  | _ => False

/-- The pointer is set and the block behind it is freed. -/
def Dangling (s : Manager ε) : Prop := s.pointer = true ∧ s.allocated = false

variable {call : Callback ε} {s : Manager ε}

lemma Dangling.touch (h : s.Dangling) : s.touch = .error .useAfterFree := by
  simp [Manager.touch, h.2]

variable (call s) in
lemma exec_of_harmless {op : TimerCall} (hop : Harmless op) :
    ∃ a : Answer, s.exec call op = .ok (s, a) ∧ a.Refuses := by
  cases op with
  | tick => exact hop.elim
  | createTimer malloc timerFn pParam due period =>
    refine ⟨.timer none, ?_, rfl⟩
    have hnull : s.createTimer malloc timerFn pParam due period = .ok (s, none) := by
      rcases hop with rfl | rfl
      · simp [Manager.createTimer]
      · by_cases hfn : timerFn = none <;> simp [Manager.createTimer]
    rw [exec, hnull]
    rfl
  | deleteTimer lpTimer =>
    obtain rfl : lpTimer = none := hop
    exact ⟨.status (-1), rfl, rfl⟩
  | destroyTimerManager => exact hop.elim

/-- Every other call reads the freed manager. -/
lemma Dangling.exec_of_not_harmless (h : s.Dangling) {op : TimerCall} (hop : ¬ Harmless op) :
    s.exec call op = .error .useAfterFree := by
  have hptr : ¬ s.pointer = false := by simp [h.1]
  cases op with
  | tick now sleeper malloc =>
    simp [exec, interruptTimerHandler, h.1, h.touch, bind, Except.bind]
  | createTimer malloc timerFn pParam due period =>
    obtain ⟨hfn, hmalloc⟩ := not_or.mp hop
    obtain ⟨p, rfl⟩ := Option.ne_none_iff_exists'.mp hmalloc
    simp [exec, Manager.createTimer, hfn, h.1, h.touch, bind, Except.bind]
  | deleteTimer lpTimer =>
    obtain ⟨p, rfl⟩ := Option.ne_none_iff_exists'.mp hop
    simp [exec, Manager.deleteTimer, h.1, h.touch, bind, Except.bind]
  | destroyTimerManager =>
    simp [exec, Manager.destroyTimerManager, h.1, h.touch, bind, Except.bind]

variable (call s) in
lemma run_of_harmless {ops : List TimerCall}
    (hops : ∀ op ∈ ops, Harmless op) :
    ∃ answers, run call ops s = .ok (s, answers) ∧ ∀ a ∈ answers, a.Refuses := by
  induction ops with
  | nil => exact ⟨[], rfl, by simp⟩
  | cons op ops ih =>
    obtain ⟨a, hexec, ha⟩ := exec_of_harmless call s (hops op List.mem_cons_self)
    obtain ⟨answers, hrun, hall⟩ := ih fun op' hop' => hops op' (List.mem_cons_of_mem op hop')
    refine ⟨a :: answers, ?_, List.forall_mem_cons.mpr ⟨ha, hall⟩⟩
    rw [run, hexec]
    show (do
      let r ← run call ops s
      return (r.1, a :: r.2)) = _
    rw [hrun]
    rfl

lemma Dangling.harmless_of_run (h : s.Dangling) {ops : List TimerCall}
    {r : Manager ε × List Answer} (hrun : run call ops s = .ok r) : ∀ op ∈ ops, Harmless op := by
  induction ops generalizing r with
  | nil => simp
  | cons op ops ih =>
    have hop : Harmless op := by
      by_contra hop
      rw [run, h.exec_of_not_harmless hop] at hrun
      cases hrun
    obtain ⟨a, hexec, -⟩ := exec_of_harmless call s hop
    rw [run, hexec] at hrun
    change (do
      let r ← run call ops s
      return (r.1, a :: r.2)) = _ at hrun
    cases hrest : run call ops s with
    | error e =>
      rw [hrest] at hrun
      cases hrun
    | ok r' => exact List.forall_mem_cons.mpr ⟨hop, ih hrest⟩

/-- The nodes and the manager are freed once each, and the later calls do nothing. -/
def ShutsDown (call : Callback ε) (s : Manager ε) (ops : List TimerCall) : Prop :=
  ∃ (s1 s2 : Manager ε) (pending : List Addr) (answers : List Answer),
    s.destroyTimerManager = .ok s1 ∧
    s1.freed = s.freed ++ pending.map .node ++ [.manager] ∧ pending.Nodup ∧
    (∀ p, p ∈ pending ↔ p ∈ s.timers.heap) ∧
    run call ops s1 = .ok (s2, answers) ∧ s2.freed = s1.freed ∧ s2.called = s.called ∧
    s2.env = s.env ∧ ∀ a ∈ answers, a.Refuses

/-- The shutdown is final exactly when no later call gets as far as the manager. -/
theorem shutsDown_iff (h : s.Running) (ops : List TimerCall) :
    ShutsDown call s ops ↔ ∀ op ∈ ops, Harmless op := by
  have hdangling : s.destroyed.Dangling := ⟨h.pointer, rfl⟩
  constructor
  · intro hshut
    obtain ⟨s1, s2, pending, answers, hdestroy, -, -, -, hrun, -⟩ := hshut
    obtain rfl : s.destroyed = s1 := Except.ok.inj (h.destroyTimerManager.symm.trans hdestroy)
    exact hdangling.harmless_of_run hrun
  · intro hops
    obtain ⟨answers, hrun, hall⟩ := run_of_harmless call s.destroyed hops
    exact ⟨s.destroyed, s.destroyed, s.nodes, answers, h.destroyTimerManager, rfl, h.nodup_nodes,
      h.mem_nodes, hrun, rfl, rfl, rfl, hall⟩

/-- What `timer_init` leaves. -/
def initial (uJiffies : UInt32) : Manager Unit where
  pointer := true
  allocated := true
  uExitFlag := 0
  timers := timerInit uJiffies
  freed := []
  called := []
  env := ()

lemma initial_running (b : UInt32) : (initial b).Running :=
  ⟨rfl, rfl, (wheelInv_of_reachable (.init ⟨b, rfl⟩)).linked⟩

/-- Two timers in different wheels beside the one of `timer_init`, and a tick. -/
def armedRun : WheelRun :=
  applyOp (applyOp (applyOp (wheelStart 1) (.createTimer (some 1) (some (.user 0)) 0 5 0))
    (.createTimer (some 2) (some (.user 0)) 0 100000 7)) .tick

lemma armedRun_reachable : wheelSystem.Reachable armedRun := by
  have h0 : wheelSystem.Reachable (wheelStart 1) := .init ⟨1, rfl⟩
  have h1 := h0.step (a := .createTimer (some 1) (some (.user 0)) 0 5 0) trivial ⟨by decide, rfl⟩
  have h2 := h1.step (a := .createTimer (some 2) (some (.user 0)) 0 100000 7) trivial
    ⟨by decide, rfl⟩
  exact h2.step (a := .tick) trivial ⟨trivial, rfl⟩

def armed : Manager Unit := { initial 1 with timers := armedRun.timers }

lemma armed_running : armed.Running :=
  ⟨rfl, rfl, (wheelInv_of_reachable armedRun_reachable).linked⟩

/-- Three nodes are freed. The calls that follow return at once, or read the freed manager. -/
theorem shutsDown_armed : armed.timers.heap = {2, 1, 0} ∧
    ShutsDown (fun _ _ c => c) armed
      [.deleteTimer none, .createTimer none (some (.user 0)) 0 5 0] ∧
    ¬ ShutsDown (fun _ _ c => c) armed [.deleteTimer none, .deleteTimer (some 1)] := by
  refine ⟨rfl, (shutsDown_iff armed_running _).mpr ?_, fun hshut => ?_⟩
  · simp [Harmless]
  · have hop := (shutsDown_iff armed_running _).mp hshut (.deleteTimer (some 1)) (by simp)
    cases hop

/-- The next tick reads the exit flag of the freed manager. -/
theorem not_shutsDown : ¬ ∀ s : Manager Unit, s.Running → ∀ ops,
    ShutsDown (fun _ _ c => c) s ops := by
  intro hall
  have hshut := hall (initial 0) (initial_running 0) [.tick 0 none none]
  exact (shutsDown_iff (initial_running 0) _).mp hshut _ List.mem_cons_self

end Manager

end Libtask.Timer
