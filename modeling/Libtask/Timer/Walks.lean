import Libtask.Timer.Links

/-!
# Walks over detached rings

`cascade_timer`, `run_timer` and `delete_array_list_timer` move a ring to a head
on the stack and walk along it, while the nodes that they pass go back to the
wheels or are freed. The cells still ahead keep their pointers, so each walk is
the one over the list of the slot.
-/
namespace Libtask.TimerRing
open Links Timer

/-- The heads of the five arrays, the head that a walk has on its stack, and the
`ltTimer` of a node. -/
inductive RingCell
  | head (i : Slot)
  | listTmr
  | node (pTmr : Addr)
  deriving DecidableEq

/-- A callback, with what it does to the pointers. -/
abbrev RingCallback (σ ε : Type) := Addr → TimerNode → σ × ε → σ × ε

/-- `*timer_manager` and the nodes, with pointers in the place of lists. -/
structure RingState where
  uJiffies : UInt32
  links : Heap RingCell
  heap : Finset Addr
  node : Addr → TimerNode

namespace RingState

def addTimer (c : RingState) (pTmr : Addr) : Option RingState := do
  let pHead := addTimerSlot c.uJiffies (c.node pTmr).uExpires
  let links ← listTimerInsertTail c.links (.node pTmr) (.head pHead)
  return { c with links := links }

/-- `free(pTmr)`, without a result when it is free already. The pointers of a
freed node hold anything. -/
def freeNode (junk : Addr → Link RingCell) (c : RingState) (pTmr : Addr) : Option RingState :=
  if pTmr ∈ c.heap then
    some { c with
      heap := c.heap.erase pTmr
      links := Function.update c.links (.node pTmr) (junk pTmr) }
  else none

def rearmOrFree (junk : Addr → Link RingCell) (c : RingState) (pTmr : Addr) :
    Option RingState :=
  let n := c.node pTmr
  if n.uPeriod ≠ 0 then
    let n' := { n with uExpires := c.uJiffies + n.uPeriod }
    addTimer { c with node := Function.update c.node pTmr n' } pTmr
  else freeNode junk c pTmr

/-- `create_timer`, as for the wheels of lists. -/
def createTimer (c : RingState) (malloc : Option Addr) (timerFn : Option TimerFn) (pParam : ℕ)
    (uDueTime uPeriod : UInt32) : Option (RingState × Option Addr) :=
  match timerFn, malloc with
  | some f, some pTmr =>
    let n : TimerNode := ⟨c.uJiffies + uDueTime, uPeriod, f, pParam⟩
    (addTimer { c with heap := insert pTmr c.heap, node := Function.update c.node pTmr n }
      pTmr).map fun c => (c, some pTmr)
  | _, _ => some (c, none)

/-- `delete_timer` of a node that is linked. -/
def deleteTimer (junk : Addr → Link RingCell) (c : RingState) (lpTimer : Addr) :
    Option RingState := do
  let links ← listTimerUnlink c.links (.node lpTimer)
  freeNode junk { c with links := links } lpTimer

/-- `init_array_list_timer`. -/
def initArrayListTimer (h : Heap RingCell) (arrListTimer : List Slot) : Heap RingCell :=
  arrListTimer.foldl
    (fun h i => setNext (setPrev h (.head i) (some (.head i))) (.head i) (some (.head i))) h

/-- `list_timer_replace_init` of a head into the one on the stack. -/
def detach (c : RingState) (pHead : Slot) : Option RingState := do
  let links ← listTimerReplaceInit c.links (.head pHead) .listTmr
  return { c with links := links }

/-- `offsetof`: the node of a cell that is not the head on the stack. -/
def atNode {σ : Type} (body : Addr → σ → Option σ) : RingCell → σ → Option σ
  | .node pTmr, s => body pTmr s
  | _, _ => none

/-- The walk of `cascade_timer`, with the cells that it visits. -/
def cascadeTimer (fuel : ℕ) (c : RingState) (pHead : Slot) :
    Option (List RingCell × RingState) := do
  let c ← c.detach pHead
  walkBody links (atNode fun pTmr c => c.addTimer pTmr) .listTmr fuel (c.links .listTmr).next c

/-- One round of `delete_array_list_timer`. -/
def deleteListTimer (junk : Addr → Link RingCell) (fuel : ℕ) (c : RingState) (pHead : Slot) :
    Option (List RingCell × RingState) := do
  let c ← c.detach pHead
  walkBody links (atNode fun pTmr c => c.freeNode junk pTmr) .listTmr fuel
    (c.links .listTmr).next c

/-- The walk of `run_timer`. -/
def expireTimer {ε : Type} (junk : Addr → Link RingCell) (call : RingCallback RingState ε)
    (fuel : ℕ) (c : RingState) (env : ε) (pHead : Slot) :
    Option (List RingCell × RingState × ε) := do
  let c ← c.detach pHead
  walkBody (fun r : RingState × ε => r.1.links)
    (atNode fun pTmr r =>
      let r := call pTmr (r.1.node pTmr) r
      (r.1.rearmOrFree junk pTmr).map fun c => (c, r.2))
    .listTmr fuel (c.links .listTmr).next (c, env)

/-- The rings that wheels of lists stand for. -/
def wheelRings (s : TimerState) : RingCell → Option (List RingCell)
  | .head i => some ((s.arrListTimer i).map .node)
  | _ => none

/-- The pointers of `c` are the lists of `s`, and linked nodes are allocated. -/
structure Represents (c : RingState) (s : TimerState) : Prop where
  uJiffies : c.uJiffies = s.uJiffies
  heap : c.heap = s.heap
  node : c.node = s.node
  rings : Rings c.links (wheelRings s)
  live : ∀ i, ∀ p ∈ s.arrListTimer i, p ∈ s.heap

/-- A walk that has the nodes `rest` of a detached ring ahead. They are on no
other ring. -/
structure Walking (rest : List Addr) (c : RingState) (s : TimerState) : Prop where
  represents : Represents c s
  ahead : Ahead c.links .listTmr (rest.map .node)
  nodup : rest.Nodup
  off : ∀ p ∈ rest, p ∈ s.heap ∧ ∀ i, p ∉ s.arrListTimer i

variable {c : RingState} {s : TimerState} {p : Addr} {rest : List Addr}

lemma free_node (h : ∀ i, p ∉ s.arrListTimer i) : Free (wheelRings s) (.node p) := by
  rintro a ⟨l, hq, hc⟩
  cases a with
  | head i =>
    obtain rfl := Option.some.inj hq
    simp only [List.mem_cons, reduceCtorEq, false_or, List.mem_map, RingCell.node.injEq,
      exists_eq_right] at hc
    exact h i hc
  | listTmr => cases hq
  | node => cases hq

lemma free_listTmr (s : TimerState) : Free (wheelRings s) .listTmr := by
  rintro a ⟨l, hq, hc⟩
  cases a with
  | head i =>
    obtain rfl := Option.some.inj hq
    simp at hc
  | listTmr => cases hq
  | node => cases hq

lemma wheelRings_update (s : TimerState) (i : Slot) (l : List Addr) :
    Function.update (wheelRings s) (.head i) (some (l.map .node)) =
      wheelRings { s with arrListTimer := Function.update s.arrListTimer i l } := by
  funext a
  cases a with
  | head j =>
    by_cases hj : j = i
    · subst hj
      simp [wheelRings]
    · simp [wheelRings, hj]
  | listTmr => rfl
  | node => rfl

lemma Represents.nodup (h : Represents c s) (i : Slot) : (s.arrListTimer i).Nodup :=
  List.Nodup.of_map _ (List.nodup_cons.mp (h.rings.nodup (rfl : wheelRings s (.head i) = _))).2

/-- Heads that link to themselves stand for empty slots. -/
lemma represents_of_self (hjiffies : c.uJiffies = s.uJiffies) (hheap : c.heap = s.heap)
    (hnode : c.node = s.node) (hself : ∀ i, c.links (.head i) = ⟨some (.head i), some (.head i)⟩)
    (hempty : ∀ i, s.arrListTimer i = []) : Represents c s := by
  have hheads : ∀ a l, wheelRings s a = some l → l = [] ∧ c.links a = ⟨some a, some a⟩ := by
    intro a l hq
    cases a with
    | head i =>
      rw [wheelRings, hempty i] at hq
      exact ⟨(Option.some.inj hq).symm, hself i⟩
    | listTmr => cases hq
    | node => cases hq
  constructor
  case uJiffies => exact hjiffies
  case heap => exact hheap
  case node => exact hnode
  case rings =>
    constructor
    case seg =>
      intro a l hq
      obtain ⟨rfl, hlinks⟩ := hheads a l hq
      exact ⟨congrArg Link.next hlinks, congrArg Link.prev hlinks⟩
    case nodup =>
      intro a l hq
      rw [(hheads a l hq).1]
      exact List.nodup_singleton a
    case unique =>
      rintro a b c ⟨l, hq, hc⟩ ⟨m, hq', hc'⟩
      rw [(hheads a l hq).1, List.mem_singleton] at hc
      rw [(hheads b m hq').1, List.mem_singleton] at hc'
      exact hc.symm.trans hc'
  case live =>
    intro i p hp
    rw [hempty i] at hp
    exact absurd hp List.not_mem_nil

/-- The loops of `timer_init` make such heads of the slots they go over. -/
lemma initArrayListTimer_head (h : Heap RingCell) (arr : List Slot) {i : Slot}
    (hi : i ∈ arr ∨ h (.head i) = ⟨some (.head i), some (.head i)⟩) :
    initArrayListTimer h arr (.head i) = ⟨some (.head i), some (.head i)⟩ := by
  induction arr generalizing h with
  | nil => exact hi.resolve_left List.not_mem_nil
  | cons j arr ih =>
    apply ih
    by_cases hij : i = j
    · subst hij
      right
      simp [setNext, setPrev]
    · rcases hi with hi | hi
      · exact .inl ((List.mem_cons.mp hi).resolve_left hij)
      · right
        simpa [setNext, setPrev, hij] using hi

/-- `timer_init` before its `create_timer`. -/
lemma represents_timerInit (h : Heap RingCell) {arr : List Slot} (harr : ∀ i, i ∈ arr)
    (uJiffies : UInt32) :
    Represents ⟨uJiffies, initArrayListTimer h arr, ∅, fun _ => ⟨0, 0, .cleanDeadTask, 0⟩⟩
      (emptyManager uJiffies) :=
  represents_of_self rfl rfl rfl (fun i => initArrayListTimer_head h arr (.inl (harr i)))
    fun _ => rfl

/-- `add_timer` of a node on no ring. -/
lemma Represents.addTimer (h : Represents c s) (hp : p ∈ s.heap)
    (hoff : ∀ i, p ∉ s.arrListTimer i) :
    ∃ c', c.addTimer p = some c' ∧ Represents c' (Timer.addTimer s p) ∧
      ∀ d, d ≠ p → (∀ i, d ∉ s.arrListTimer i) → c'.links (.node d) = c.links (.node d) := by
  let i := addTimerSlot s.uJiffies (s.node p).uExpires
  have hslot : addTimerSlot c.uJiffies (c.node p).uExpires = i := by rw [h.uJiffies, h.node]
  obtain ⟨links, htail, hrings, hframe⟩ := rings_listTimerInsertTail h.rings
    (rfl : wheelRings s (.head i) = _) (free_node hoff)
  refine ⟨{ c with links := links }, ?_, ?_, ?_⟩
  · simp only [RingState.addTimer, hslot, htail]
    rfl
  · constructor
    case uJiffies => exact h.uJiffies
    case heap => exact h.heap
    case node => exact h.node
    case rings =>
      have hmap : (s.arrListTimer i).map RingCell.node ++ [.node p] =
          (s.arrListTimer i ++ [p]).map .node := by simp
      rw [hmap, wheelRings_update] at hrings
      exact hrings
    case live =>
      intro j q hq
      rcases mem_addTimer hq with hq | ⟨rfl, -⟩
      · exact h.live j q hq
      · exact hp
  · intro d hdp hd
    apply hframe
    · simpa using hdp
    · simpa using hd i

/-- The nodes of a head go to the head on the stack, from which they are read. -/
lemma Represents.detach (h : Represents c s) (i : Slot) :
    ∃ c', c.detach i = some c' ∧
      (c'.links .listTmr).next =
        ((s.arrListTimer i).map RingCell.node ++ [RingCell.listTmr]).head? ∧
      Walking (s.arrListTimer i) c' (Timer.listTimerReplaceInit s i) := by
  obtain ⟨links, hinit, hrings, -⟩ := rings_listTimerReplaceInit h.rings
    (rfl : wheelRings s (.head i) = _) (free_listTmr s)
  have hself : Function.update (Function.update (wheelRings s) (.head i) (some [])) .listTmr
      (some ((s.arrListTimer i).map .node)) .listTmr = _ := Function.update_self ..
  obtain ⟨hnext, hahead⟩ := (hrings.seg hself).ahead (hrings.head_notMem hself)
  have hsub : ∀ a l, wheelRings (Timer.listTimerReplaceInit s i) a = some l →
      Function.update (Function.update (wheelRings s) (.head i) (some [])) .listTmr
        (some ((s.arrListTimer i).map .node)) a = some l := by
    intro a l hq
    have hupdate := congrFun (wheelRings_update s i []) a
    have ha : a ≠ .listTmr := by
      rintro rfl
      cases hq
    rw [Function.update_of_ne ha]
    exact hupdate.trans hq
  refine ⟨{ c with links := links }, ?_, hnext, ?_⟩
  · simp only [RingState.detach, hinit]
    rfl
  have hmem : ∀ j, ∀ p ∈ (Timer.listTimerReplaceInit s i).arrListTimer j, p ∈ s.arrListTimer j := by
    intro j p hp
    by_cases hj : j = i
    · subst hj
      simp [Timer.listTimerReplaceInit] at hp
    · simpa [Timer.listTimerReplaceInit, hj] using hp
  constructor
  case represents =>
    constructor
    case uJiffies => exact h.uJiffies
    case heap => exact h.heap
    case node => exact h.node
    case rings => exact hrings.mono hsub
    case live => exact fun j p hp => h.live j p (hmem j p hp)
  case ahead => exact hahead
  case nodup =>
    exact List.Nodup.of_map _ (List.nodup_cons.mp (hrings.nodup hself)).2
  case off =>
    intro p hp
    refine ⟨h.live i p hp, ?_⟩
    intro j hj
    have hlist : On (Function.update (Function.update (wheelRings s) (.head i) (some [])) .listTmr
        (some ((s.arrListTimer i).map .node))) .listTmr (.node p) :=
      ⟨_, hself, List.mem_cons_of_mem _ (List.mem_map_of_mem hp)⟩
    have hhead := hsub (.head j) _ rfl
    exact absurd (hrings.unique hlist ⟨_, hhead, List.mem_cons_of_mem _ (List.mem_map_of_mem hj)⟩)
      (by simp)

lemma Walking.tail (h : Walking (p :: rest) c s) : Walking rest c s where
  represents := h.represents
  ahead := h.ahead.2.2
  nodup := (List.nodup_cons.mp h.nodup).2
  off := fun q hq => h.off q (List.mem_cons_of_mem p hq)

/-- A node that the walk does not have ahead goes to a slot. -/
lemma Walking.added (h : Walking rest c s) (hlive : p ∈ s.heap) (hoff : ∀ i, p ∉ s.arrListTimer i)
    (hp : p ∉ rest) : ∃ c', c.addTimer p = some c' ∧ Walking rest c' (Timer.addTimer s p) := by
  obtain ⟨c', hadd, hrep, hframe⟩ := h.represents.addTimer hlive hoff
  refine ⟨c', hadd, ?_⟩
  constructor
  case represents => exact hrep
  case ahead =>
    apply h.ahead.congr
    intro d hd
    obtain ⟨q, hq, rfl⟩ := List.mem_map.mp hd
    rw [hframe q (fun hqp => hp (hqp ▸ hq)) (h.off q hq).2]
  case nodup => exact h.nodup
  case off =>
    intro q hq
    obtain ⟨hqlive, hqoff⟩ := h.off q hq
    refine ⟨hqlive, ?_⟩
    intro i hi
    rcases mem_addTimer hi with hi | ⟨rfl, -⟩
    · exact hqoff i hi
    · exact hp hq

lemma Walking.addTimer (h : Walking (p :: rest) c s) :
    ∃ c', c.addTimer p = some c' ∧ Walking rest c' (Timer.addTimer s p) := by
  obtain ⟨hlive, hoff⟩ := h.off p List.mem_cons_self
  exact h.tail.added hlive hoff (List.nodup_cons.mp h.nodup).1

/-- `free` of a node on no ring. -/
lemma Represents.freeNode (h : Represents c s) (hlive : p ∈ s.heap)
    (hoff : ∀ i, p ∉ s.arrListTimer i) (junk : Addr → Link RingCell) :
    ∃ c', c.freeNode junk p = some c' ∧ Represents c' (Timer.freeNode s p) ∧
      ∀ d, d ≠ .node p → c'.links d = c.links d := by
  refine ⟨_, if_pos (h.heap ▸ hlive), ?_, fun d hd => Function.update_of_ne hd ..⟩
  constructor
  case uJiffies => exact h.uJiffies
  case heap => exact congrArg (·.erase p) h.heap
  case node => exact h.node
  case rings =>
    apply h.rings.congr_free
    intro d hd
    apply Function.update_of_ne
    rintro rfl
    exact hd (free_node hoff)
  case live =>
    intro i q hq
    exact Finset.mem_erase.mpr ⟨fun hqp => hoff i (hqp ▸ hq), h.live i q hq⟩

lemma Walking.freeNode (h : Walking (p :: rest) c s) (junk : Addr → Link RingCell) :
    ∃ c', c.freeNode junk p = some c' ∧ Walking rest c' (Timer.freeNode s p) := by
  have hp := (List.nodup_cons.mp h.nodup).1
  obtain ⟨hlive, hoff⟩ := h.off p List.mem_cons_self
  obtain ⟨c', hfree, hrep, hframe⟩ := h.represents.freeNode hlive hoff junk
  refine ⟨c', hfree, ?_⟩
  constructor
  case represents => exact hrep
  case ahead =>
    apply h.tail.ahead.congr
    intro d hd
    obtain ⟨q, hq, rfl⟩ := List.mem_map.mp hd
    rw [hframe _ fun hqp => hp (RingCell.node.inj hqp ▸ hq)]
  case nodup => exact h.tail.nodup
  case off =>
    intro q hq
    obtain ⟨hqlive, hqoff⟩ := h.tail.off q hq
    exact ⟨Finset.mem_erase.mpr ⟨fun hqp => hp (hqp ▸ hq), hqlive⟩, hqoff⟩

/-- `delete_timer` takes the node off whichever ring it is on. -/
lemma Represents.deleteTimer (h : Represents c s) {i : Slot} (hp : p ∈ s.arrListTimer i)
    (junk : Addr → Link RingCell) :
    ∃ c', c.deleteTimer junk p = some c' ∧ Represents c' (Timer.deleteTimer s p) := by
  have hon : ∀ {j}, p ∈ s.arrListTimer j → On (wheelRings s) (.head j) (.node p) :=
    fun hj => ⟨_, rfl, List.mem_cons_of_mem _ (List.mem_map_of_mem hj)⟩
  have hnodup := h.nodup i
  obtain ⟨l, m, hl⟩ := List.append_of_mem hp
  have hq : wheelRings s (.head i) = some (l.map .node ++ .node p :: m.map .node) := by
    rw [wheelRings, hl]
    simp
  obtain ⟨links, hunlink, hrings, -⟩ := rings_listTimerUnlink h.rings hq
  have hslots : Function.update s.arrListTimer i (l ++ m) = (Timer.unlink s p).arrListTimer := by
    funext j
    have herase : (Timer.unlink s p).arrListTimer j = (s.arrListTimer j).erase p := rfl
    rw [herase]
    by_cases hj : j = i
    · subst hj
      rw [hl] at hnodup
      have hpl : p ∉ l := fun hmem =>
        (List.nodup_append.mp hnodup).2.2 p hmem p List.mem_cons_self rfl
      rw [Function.update_self, hl, List.erase_append_right _ hpl, List.erase_cons_head]
    · have hpj : p ∉ s.arrListTimer j :=
        fun hmem => hj (RingCell.head.inj (h.rings.unique (hon hmem) (hon hp)))
      rw [Function.update_of_ne hj, List.erase_of_not_mem hpj]
  have hunlinked : Represents { c with links := links } (Timer.unlink s p) := by
    constructor
    case uJiffies => exact h.uJiffies
    case heap => exact h.heap
    case node => exact h.node
    case rings =>
      rw [← List.map_append, wheelRings_update, hslots] at hrings
      exact hrings
    case live => exact fun j q hmem => h.live j q (List.mem_of_mem_erase hmem)
  have hoff : ∀ j, p ∉ (Timer.unlink s p).arrListTimer j :=
    fun j hj => (h.nodup j).not_mem_erase hj
  obtain ⟨c', hfree, hrep, -⟩ := hunlinked.freeNode (h.live i p hp) hoff junk
  refine ⟨c', ?_, hrep⟩
  simp only [RingState.deleteTimer, hunlink, Option.bind_eq_bind, Option.bind_some, hfree]

/-- New contents of a node. -/
lemma Walking.setNode (h : Walking rest c s) (p : Addr) (n : TimerNode) :
    Walking rest { c with node := Function.update c.node p n }
      { s with node := Function.update s.node p n } := by
  constructor
  case represents =>
    constructor
    case uJiffies => exact h.represents.uJiffies
    case heap => exact h.represents.heap
    case node => exact congrArg (Function.update · p n) h.represents.node
    case rings => exact h.represents.rings
    case live => exact h.represents.live
  case ahead => exact h.ahead
  case nodup => exact h.nodup
  case off => exact h.off

/-- `create_timer` in the middle of a walk, with a block that was not allocated. -/
lemma Walking.createTimer (h : Walking rest c s) (hp : p ∉ s.heap) (f : TimerFn) (pParam : ℕ)
    (uDueTime uPeriod : UInt32) :
    ∃ c', c.createTimer (some p) (some f) pParam uDueTime uPeriod = some (c', some p) ∧
      Walking rest c' (Timer.createTimer s (some p) (some f) pParam uDueTime uPeriod).1 := by
  let n : TimerNode := ⟨s.uJiffies + uDueTime, uPeriod, f, pParam⟩
  have hfilled := h.setNode p n
  have hgrown : Walking rest
      { c with heap := insert p c.heap, node := Function.update c.node p n }
      { s with heap := insert p s.heap, node := Function.update s.node p n } := by
    constructor
    case represents =>
      constructor
      case uJiffies => exact h.represents.uJiffies
      case heap => exact congrArg (Insert.insert p) h.represents.heap
      case node => exact hfilled.represents.node
      case rings => exact h.represents.rings
      case live => exact fun i q hq => Finset.mem_insert_of_mem (h.represents.live i q hq)
    case ahead => exact h.ahead
    case nodup => exact h.nodup
    case off => exact fun q hq => ⟨Finset.mem_insert_of_mem (h.off q hq).1, (h.off q hq).2⟩
  obtain ⟨c', hadd, hwalking⟩ := hgrown.added (Finset.mem_insert_self p s.heap)
    (fun i hi => hp (h.represents.live i p hi)) fun hrest => hp (h.off p hrest).1
  have hcreate : c.createTimer (some p) (some f) pParam uDueTime uPeriod =
      (RingState.addTimer { c with
        heap := Insert.insert p c.heap
        node := Function.update c.node p n } p).map fun c => (c, some p) := by
    simp only [RingState.createTimer, h.represents.uJiffies, n]
  rw [hcreate, hadd]
  exact ⟨c', rfl, hwalking⟩

lemma Walking.rearmOrFree (h : Walking (p :: rest) c s) (junk : Addr → Link RingCell) :
    ∃ c', c.rearmOrFree junk p = some c' ∧ Walking rest c' (Timer.rearmOrFree s p) := by
  have hnode : c.node p = s.node p := congrFun h.represents.node p
  by_cases hperiod : (s.node p).uPeriod ≠ 0
  · let n' := { s.node p with uExpires := s.uJiffies + (s.node p).uPeriod }
    have hc : c.rearmOrFree junk p =
        RingState.addTimer { c with node := Function.update c.node p n' } p := by
      simp only [RingState.rearmOrFree, hnode, h.represents.uJiffies, if_pos hperiod, n']
    have hs : Timer.rearmOrFree s p =
        Timer.addTimer { s with node := Function.update s.node p n' } p := if_pos hperiod
    rw [hc, hs]
    exact (h.setNode p n').addTimer
  · have hc : c.rearmOrFree junk p = RingState.freeNode junk c p := by
      simp only [RingState.rearmOrFree, hnode, if_neg hperiod]
    have hs : Timer.rearmOrFree s p = Timer.freeNode s p := if_neg hperiod
    rw [hc, hs]
    exact h.freeNode junk

/-- A walk over the nodes of a detached ring. -/
lemma walkNodes {σ : Type} (links : σ → Heap RingCell) (body : Addr → σ → Option σ)
    (inv : List Addr → σ → Prop)
    (hahead : ∀ rest r, inv rest r → Ahead (links r) .listTmr (rest.map .node))
    (hbody : ∀ p rest r, inv (p :: rest) r → ∃ r', body p r = some r' ∧ inv rest r')
    {rest : List Addr} {r : σ} (hinv : inv rest r) {fuel : ℕ} (hfuel : rest.length < fuel) :
    ∃ r', walkBody links (atNode body) .listTmr fuel
        (rest.map RingCell.node ++ [RingCell.listTmr]).head? r = some (rest.map .node, r') ∧
      inv [] r' := by
  have hcells : ∀ cells r, (∃ nodes, cells = nodes.map RingCell.node ∧ inv nodes r) →
      Ahead (links r) .listTmr cells := by
    rintro cells r ⟨nodes, rfl, h⟩
    exact hahead nodes r h
  have hstep : ∀ x cells r, (∃ nodes, x :: cells = nodes.map RingCell.node ∧ inv nodes r) →
      ∃ r', atNode body x r = some r' ∧
        ∃ nodes, cells = nodes.map RingCell.node ∧ inv nodes r' := by
    rintro x cells r ⟨nodes, hcells, h⟩
    obtain ⟨p, rest, rfl, rfl, rfl⟩ := List.map_eq_cons_iff.mp hcells.symm
    obtain ⟨r', hr', h'⟩ := hbody p rest r h
    exact ⟨r', hr', rest, rfl, h'⟩
  have hlength : (rest.map RingCell.node).length < fuel := by simpa using hfuel
  obtain ⟨r', hwalk, nodes, hnodes, hend⟩ := walkBody_eq _ hcells hstep ⟨rest, rfl, hinv⟩ hlength
  obtain rfl := List.map_eq_nil_iff.mp hnodes.symm
  exact ⟨r', hwalk, hend⟩

/-- What a callback does to the pointers is what it does to the lists, and it
leaves the nodes alone that the walk has in hand and ahead. -/
def Simulates {ε : Type} (call : RingCallback RingState ε) (call' : Callback ε) : Prop :=
  ∀ p rest c s env, Walking (p :: rest) c s →
    Walking (p :: rest) (call p (c.node p) (c, env)).1 (call' p (s.node p) (s, env)).1 ∧
      (call p (c.node p) (c, env)).2 = (call' p (s.node p) (s, env)).2

variable {ε : Type} {call : RingCallback RingState ε} {call' : Callback ε}

/-- `cascade_timer` visits the nodes of its slot and puts them back as lists are. -/
lemma Represents.cascadeTimer (h : Represents c s) (i : Slot) {fuel : ℕ}
    (hfuel : (s.arrListTimer i).length < fuel) :
    ∃ c', c.cascadeTimer fuel i = some ((s.arrListTimer i).map .node, c') ∧
      Represents c' (Timer.cascadeTimer s i) := by
  obtain ⟨c0, hdetach, hnext, hwalking⟩ := h.detach i
  let inv : List Addr → RingState → Prop := fun rest c =>
    ∃ s', Walking rest c s' ∧ rest.foldl Timer.addTimer s' = Timer.cascadeTimer s i
  have hbody : ∀ p rest c, inv (p :: rest) c → ∃ c', c.addTimer p = some c' ∧ inv rest c' := by
    rintro p rest c ⟨s', hs', hfold⟩
    obtain ⟨c', hadd, hrest⟩ := hs'.addTimer
    exact ⟨c', hadd, _, hrest, hfold⟩
  obtain ⟨c', hwalk, s', hend, hfold⟩ := walkNodes RingState.links (fun p c => c.addTimer p) inv
    (fun rest c ⟨_, hs', _⟩ => hs'.ahead) hbody ⟨_, hwalking, rfl⟩ hfuel
  obtain rfl : s' = _ := hfold
  refine ⟨c', ?_, hend.represents⟩
  simp only [RingState.cascadeTimer, hdetach, Option.bind_eq_bind, Option.bind_some, hnext, hwalk]

/-- The walk of `run_timer`. -/
lemma Represents.expireTimer (h : Represents c s) (hcall : Simulates call call')
    (junk : Addr → Link RingCell) (env : ε) (i : Slot) {fuel : ℕ}
    (hfuel : (s.arrListTimer i).length < fuel) :
    ∃ c', c.expireTimer junk call fuel env i = some ((s.arrListTimer i).map .node, c',
        (expireWalk call' (s.arrListTimer i) (Timer.listTimerReplaceInit s i, env)).2) ∧
      Represents c'
        (expireWalk call' (s.arrListTimer i) (Timer.listTimerReplaceInit s i, env)).1 := by
  obtain ⟨c0, hdetach, hnext, hwalking⟩ := h.detach i
  let inv : List Addr → RingState × ε → Prop := fun rest r =>
    ∃ s', Walking rest r.1 s' ∧ expireWalk call' rest (s', r.2) =
      expireWalk call' (s.arrListTimer i) (Timer.listTimerReplaceInit s i, env)
  let body : Addr → RingState × ε → Option (RingState × ε) := fun p r =>
    let r := call p (r.1.node p) r
    (r.1.rearmOrFree junk p).map fun c => (c, r.2)
  have hbody : ∀ p rest r, inv (p :: rest) r → ∃ r', body p r = some r' ∧ inv rest r' := by
    rintro p rest ⟨c, env⟩ ⟨s', hs', hfold⟩
    obtain ⟨hcalled, henv⟩ := hcall p rest c s' env hs'
    obtain ⟨c', hrearm, hrest⟩ := hcalled.rearmOrFree junk
    refine ⟨_, congrArg (Option.map _) hrearm, _, hrest, ?_⟩
    rw [← hfold, expireWalk]
    simp only [henv]
  have hstart : inv (s.arrListTimer i) (c0, env) := ⟨_, hwalking, rfl⟩
  obtain ⟨⟨c', env'⟩, hwalk, s', hend, hfold⟩ := walkNodes (fun r : RingState × ε => r.1.links)
    body inv (fun rest c ⟨_, hs', _⟩ => hs'.ahead) hbody hstart hfuel
  have hlast : (s', env') = _ := hfold
  rw [← hlast]
  refine ⟨c', ?_, hend.represents⟩
  simp only [RingState.expireTimer, hdetach, Option.bind_eq_bind, Option.bind_some, hnext]
  exact hwalk

/-- A round of `delete_array_list_timer` frees the nodes of its slot, each once. -/
lemma Represents.deleteListTimer (h : Represents c s) (junk : Addr → Link RingCell) (i : Slot)
    {fuel : ℕ} (hfuel : (s.arrListTimer i).length < fuel) :
    ∃ c', c.deleteListTimer junk fuel i = some ((s.arrListTimer i).map .node, c') ∧
      Represents c'
        ((s.arrListTimer i).foldl Timer.freeNode (Timer.listTimerReplaceInit s i)) := by
  obtain ⟨c0, hdetach, hnext, hwalking⟩ := h.detach i
  let inv : List Addr → RingState → Prop := fun rest c =>
    ∃ s', Walking rest c s' ∧ rest.foldl Timer.freeNode s' =
      (s.arrListTimer i).foldl Timer.freeNode (Timer.listTimerReplaceInit s i)
  have hbody : ∀ p rest c, inv (p :: rest) c →
      ∃ c', c.freeNode junk p = some c' ∧ inv rest c' := by
    rintro p rest c ⟨s', hs', hfold⟩
    obtain ⟨c', hfree, hrest⟩ := hs'.freeNode junk
    exact ⟨c', hfree, _, hrest, hfold⟩
  obtain ⟨c', hwalk, s', hend, hfold⟩ := walkNodes RingState.links
    (fun p c => c.freeNode junk p) inv (fun rest c ⟨_, hs', _⟩ => hs'.ahead) hbody
    ⟨_, hwalking, rfl⟩ hfuel
  obtain rfl : s' = _ := hfold
  refine ⟨c', ?_, hend.represents⟩
  simp only [RingState.deleteListTimer, hdetach, Option.bind_eq_bind, Option.bind_some, hnext,
    hwalk]

/-- The operations keep the nodes of a family of rings: what they do to one ring
is what a list says, and the other rings stay. -/
structure RingsKept {α : Type} [DecidableEq α] (h : Heap α) (q : α → Option (List α)) : Prop where
  insert : ∀ a l m x y, q a = some (l ++ m) → (m ++ [a]).head? = some y → Free q x →
    ∃ p ∈ a :: l, (h y).prev = some p ∧
      Rings (listTimerInsert h x p y) (Function.update q a (some (l ++ x :: m)))
  insertTail : ∀ a l x, q a = some l → Free q x →
    ∃ h', listTimerInsertTail h x a = some h' ∧
      Rings h' (Function.update q a (some (l ++ [x]))) ∧ ∀ c, c ≠ x → c ∉ a :: l → h' c = h c
  /-- The head `t` gets the nodes of `a` in their order, and `a` none. -/
  replaceInit : ∀ a l t, q a = some l → Free q t →
    ∃ h', listTimerReplaceInit h a t = some h' ∧
      Rings h' (Function.update (Function.update q a (some [])) t (some l)) ∧
      ∀ c, c ≠ t → c ∉ a :: l → h' c = h c
  unlink : ∀ a l x m, q a = some (l ++ x :: m) →
    ∃ h', listTimerUnlink h x = some h' ∧ Rings h' (Function.update q a (some (l ++ m))) ∧
      ∀ c, c ∉ a :: (l ++ m) → h' c = h c

/-- The walks visit the nodes that the slot had, each once, and end in the state
of the walk over its list. -/
structure WalksKept (junk : Addr → Link RingCell) (call : RingCallback RingState ε)
    (call' : Callback ε) (env : ε) (c : RingState) (s : TimerState) : Prop where
  once : ∀ i, (s.arrListTimer i).Nodup
  cascade : ∀ i fuel, (s.arrListTimer i).length < fuel →
    ∃ c', c.cascadeTimer fuel i = some ((s.arrListTimer i).map .node, c') ∧
      Represents c' (Timer.cascadeTimer s i)
  expire : ∀ i fuel, (s.arrListTimer i).length < fuel →
    ∃ c', c.expireTimer junk call fuel env i = some ((s.arrListTimer i).map .node, c',
        (expireWalk call' (s.arrListTimer i) (Timer.listTimerReplaceInit s i, env)).2) ∧
      Represents c'
        (expireWalk call' (s.arrListTimer i) (Timer.listTimerReplaceInit s i, env)).1
  delete : ∀ i fuel, (s.arrListTimer i).length < fuel →
    ∃ c', c.deleteListTimer junk fuel i = some ((s.arrListTimer i).map .node, c') ∧
      Represents c'
        ((s.arrListTimer i).foldl Timer.freeNode (Timer.listTimerReplaceInit s i))

/-- Every family of rings is kept, and every walk over a slot of the manager is
the one over its list, whatever freed nodes hold. -/
theorem rings_and_walks_kept {α : Type} [DecidableEq α] {h : Heap α} {q : α → Option (List α)}
    (hr : Rings h q) (hrep : Represents c s) (hcall : Simulates call call')
    (junk : Addr → Link RingCell) (env : ε) :
    RingsKept h q ∧ WalksKept junk call call' env c s := by
  constructor
  · constructor
    case insert => exact fun a l m x y hq hy hx => rings_listTimerInsert hr hq hy hx
    case insertTail => exact fun a l x hq hx => rings_listTimerInsertTail hr hq hx
    case replaceInit => exact fun a l t hq ht => rings_listTimerReplaceInit hr hq ht
    case unlink => exact fun a l x m hq => rings_listTimerUnlink hr hq
  · constructor
    case once => exact hrep.nodup
    case cascade => exact fun i fuel hfuel => hrep.cascadeTimer i hfuel
    case expire => exact fun i fuel hfuel => hrep.expireTimer hcall junk env i hfuel
    case delete => exact fun i fuel hfuel => hrep.deleteListTimer junk i hfuel

/-- Every head links to itself; node 0 is allocated and on no ring. -/
def emptyRings : RingState where
  uJiffies := 0
  links := fun a => ⟨some a, some a⟩
  heap := {0}
  node := fun _ => ⟨5, 10, .user 0, 0⟩

def emptyWheels : TimerState where
  uJiffies := 0
  arrListTimer := fun _ => []
  heap := {0}
  node := fun _ => ⟨5, 10, .user 0, 0⟩

lemma represents_emptyRings : Represents emptyRings emptyWheels :=
  represents_of_self rfl rfl rfl (fun _ => rfl) fun _ => rfl

/-- Node 0, due at 5, is alone on its ring. -/
def oneRing : RingState :=
  { emptyRings with links :=
      listTimerInsert emptyRings.links (.node 0) (.head (.tv1 5)) (.head (.tv1 5)) }

def oneWheel : TimerState := Timer.addTimer emptyWheels 0

lemma represents_oneRing : Represents oneRing oneWheel := by
  obtain ⟨c', hadd, hrep, -⟩ := represents_emptyRings.addTimer (p := 0) (by decide)
    fun _ => List.not_mem_nil
  have hone : emptyRings.addTimer 0 = some oneRing := rfl
  obtain rfl := Option.some.inj (hadd.symm.trans hone)
  exact hrep

theorem rings_and_walks_kept_oneRing :
    RingsKept oneRing.links (wheelRings oneWheel) ∧
      WalksKept (fun _ => ⟨none, none⟩) (fun _ _ r => r) (fun _ _ r => r) () oneRing oneWheel :=
  rings_and_walks_kept represents_oneRing.rings represents_oneRing
    (fun _ _ _ _ _ h => ⟨h, rfl⟩) (fun _ => ⟨none, none⟩) ()

end RingState
end Libtask.TimerRing
