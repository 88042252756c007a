import Libtask.X86
import Libtask.Task.Scheduler

/-!
# The two routines of a voluntary switch

`context_swap` saves the registers of its caller in one `struct sigcontext` and goes
on with another; `context_set` only goes on with one. Both take a fresh copy of the
address to go on at, put it on the stack they switch to and return into it. The
registers saved by a first call are those a second call goes on with.
-/
namespace Libtask.Context
open X86

/-- `context_swap(c_context, n_context)`: `rdi` is the first, `rsi` the second. -/
def contextSwap : List Instr :=
  [.store .rdi 0 .r8, .store .rdi (8 * 1) .r9, .store .rdi (8 * 2) .r10,
    .store .rdi (8 * 3) .r11, .store .rdi (8 * 4) .r12, .store .rdi (8 * 5) .r13,
    .store .rdi (8 * 6) .r14, .store .rdi (8 * 7) .r15, .store .rdi (8 * 8) .rdi,
    .store .rdi (8 * 9) .rsi, .store .rdi (8 * 10) .rbp, .store .rdi (8 * 11) .rbx,
    .store .rdi (8 * 12) .rdx, .store .rdi (8 * 13) .rax, .store .rdi (8 * 14) .rcx,
    .load .rcx .rsp 0, .store .rdi (8 * 16) .rcx,
    .lea .rcx .rsp 8, .store .rdi (8 * 15) .rcx,
    -- from here on with the registers of the next context
    .load .r8 .rsi 0, .load .r9 .rsi (8 * 1), .load .r10 .rsi (8 * 2),
    .load .r11 .rsi (8 * 3), .load .r12 .rsi (8 * 4), .load .r13 .rsi (8 * 5),
    .load .r14 .rsi (8 * 6), .load .r15 .rsi (8 * 7), .load .rdi .rsi (8 * 8),
    .load .rbp .rsi (8 * 10), .load .rbx .rsi (8 * 11), .load .rdx .rsi (8 * 12),
    .load .rax .rsi (8 * 13), .load .rsp .rsi (8 * 15),
    .load .rcx .rsi (8 * 16), .push .rcx,
    .load .rcx .rsi (8 * 14), .load .rsi .rsi (8 * 9),
    .ret]

/-- `context_set(&next_context)`: `rdi` is the context. -/
def contextSet : List Instr :=
  [.load .r8 .rdi 0, .load .r9 .rdi (8 * 1), .load .r10 .rdi (8 * 2),
    .load .r11 .rdi (8 * 3), .load .r12 .rdi (8 * 4), .load .r13 .rdi (8 * 5),
    .load .r14 .rdi (8 * 6), .load .r15 .rdi (8 * 7), .load .rsi .rdi (8 * 9),
    .load .rbp .rdi (8 * 10), .load .rbx .rdi (8 * 11), .load .rdx .rdi (8 * 12),
    .load .rax .rdi (8 * 13), .load .rcx .rdi (8 * 14), .load .rsp .rdi (8 * 15),
    .load .rcx .rdi (8 * 16), .push .rcx,
    .load .rcx .rdi (8 * 14), .load .rdi .rdi (8 * 8),
    .ret]

/-- The place of a register in a `struct sigcontext`. -/
def offset : Reg → ℕ
  | .r8 => 8 * 0 | .r9 => 8 * 1 | .r10 => 8 * 2 | .r11 => 8 * 3
  | .r12 => 8 * 4 | .r13 => 8 * 5 | .r14 => 8 * 6 | .r15 => 8 * 7
  | .rdi => 8 * 8 | .rsi => 8 * 9 | .rbp => 8 * 10 | .rbx => 8 * 11
  | .rdx => 8 * 12 | .rax => 8 * 13 | .rcx => 8 * 14 | .rsp => 8 * 15

def ripOffset : ℕ := 8 * 16

/-- The words up to `rip`, in bytes. -/
def wordsLength : ℕ := 8 * 17

/-- The registers and the address a context keeps. -/
def contextAt (mem : Memory) (a : Word) : Cpu where
  regs r := load64 mem (a + BitVec.ofNat 64 (offset r))
  rip := load64 mem (a + BitVec.ofNat 64 ripOffset)

/-- What the caller goes on with: its registers, the stack without the return
address, and that address. -/
def suspended (s : State) : Cpu where
  regs := Function.update s.regs .rsp (s.regs .rsp + 8)
  rip := load64 s.mem (s.regs .rsp)

lemma offset_le (r : Reg) : offset r + 8 ≤ wordsLength := by
  cases r <;> decide

lemma ripOffset_le : ripOffset + 8 ≤ wordsLength := by decide

variable {mem mem' : Memory} {a b v : Word} {d : ℕ} {s : State}

lemma load64_congr_of_le (h : ∀ x, InRange a wordsLength x → mem' x = mem x)
    (hd : d + 8 ≤ wordsLength) :
    load64 mem' (a + BitVec.ofNat 64 d) = load64 mem (a + BitVec.ofNat 64 d) :=
  load64_congr fun x hx => h x (hx.mono hd (by decide))

lemma contextAt_congr (h : ∀ x, InRange a wordsLength x → mem' x = mem x) :
    contextAt mem' a = contextAt mem a := by
  apply Cpu.ext
  · funext r
    exact load64_congr_of_le h (offset_le r)
  · exact load64_congr_of_le h ripOffset_le

/-- The registers saved before `rcx` is used for the return address. -/
def saved : List Reg :=
  [.r8, .r9, .r10, .r11, .r12, .r13, .r14, .r15, .rdi, .rsi, .rbp, .rbx, .rdx, .rax, .rcx]

def save : List Instr :=
  stores .rdi offset saved ++
    [.load .rcx .rsp 0, .store .rdi ripOffset .rcx,
      .lea .rcx .rsp 8, .store .rdi (offset .rsp) .rcx]

/-- The words `save` stores, with `rip` the address found on the stack. -/
def savedWords (s : State) (rip : Word) : List (ℕ × Word) :=
  saved.map (fun r => (offset r, s.regs r)) ++
    [(ripOffset, rip), (offset .rsp, s.regs .rsp + 8)]

lemma offset_savedWords (s : State) (rip : Word) :
    (savedWords s rip).map Prod.fst = saved.map offset ++ [ripOffset, offset .rsp] := rfl

lemma savedWords_le (s : State) (rip : Word) : ∀ p ∈ savedWords s rip, p.1 + 8 ≤ wordsLength := by
  have hoffsets : ∀ d ∈ saved.map offset ++ [ripOffset, offset .rsp], d + 8 ≤ wordsLength := by
    decide
  intro p hp
  apply hoffsets
  rw [← offset_savedWords s rip]
  exact List.mem_map_of_mem hp

/-- Each place is written once. -/
lemma savedWords_disjoint (s : State) (rip : Word) :
    ((savedWords s rip).map Prod.fst).Pairwise Disjoint8 := by
  rw [offset_savedWords]
  decide

lemma mem_savedWords (s : State) (rip : Word) (r : Reg) :
    (offset r, (Function.update s.regs .rsp (s.regs .rsp + 8)) r) ∈ savedWords s rip := by
  cases r <;> simp [savedWords, saved]

/-- `rsp` is read before and after the context is written, and stays as it is. -/
lemma run_save (s : State) :
    run s save = { s with
      regs := Function.update s.regs .rcx (s.regs .rsp + 8)
      mem := storeAll s.mem (s.regs .rdi) (savedWords s
        (load64 (storeAll s.mem (s.regs .rdi) (saved.map fun r => (offset r, s.regs r)))
          (s.regs .rsp))) } := by
  rw [save, run_append, run_stores, savedWords, storeAll_append]
  simp [run, exec, State.setReg, State.address, storeAll]

/-- The return address is read after the first stores; the stack is not in the context. -/
lemma load64_saved (hstack : Apart (s.regs .rdi) wordsLength (s.regs .rsp) 8) :
    load64 (storeAll s.mem (s.regs .rdi) (saved.map fun r => (offset r, s.regs r)))
      (s.regs .rsp) = load64 s.mem (s.regs .rsp) := by
  apply load64_congr
  intro x hx
  apply storeAll_of_not_inRange_of_le _ (by decide) fun hc => hstack x hc hx
  intro p hp
  exact savedWords_le s 0 p (List.mem_append_left _ hp)

lemma contextAt_storeAll (rip : Word) :
    contextAt (storeAll mem a (savedWords s rip)) a =
      ⟨Function.update s.regs .rsp (s.regs .rsp + 8), rip⟩ := by
  have hlt : ∀ p ∈ savedWords s rip, p.1 < 2 ^ 32 := by
    intro p hp
    have hle := savedWords_le s rip p hp
    have hlen : wordsLength < 2 ^ 32 := by decide
    omega
  apply Cpu.ext
  · funext r
    exact load64_storeAll (savedWords_disjoint s rip) hlt (mem_savedWords s rip r)
  · apply load64_storeAll (savedWords_disjoint s rip) hlt
    simp [savedWords]

/-- Go on at the address a context keeps, on the stack it keeps. -/
def reenter (base : Reg) : List Instr :=
  [.load .rsp base (offset .rsp), .load .rcx base ripOffset, .push .rcx,
    .load .rcx base (offset .rcx), .load base base (offset base), .ret]

/-- The loads of both routines, `base` the register that points to the context. -/
def restore (base : Reg) (rs : List Reg) : List Instr :=
  loads base offset rs ++ reenter base

lemma contextSwap_eq : contextSwap = save ++ restore .rsi
    [.r8, .r9, .r10, .r11, .r12, .r13, .r14, .r15, .rdi, .rbp, .rbx, .rdx, .rax] := rfl

lemma contextSet_eq : contextSet = restore .rdi
    [.r8, .r9, .r10, .r11, .r12, .r13, .r14, .r15, .rsi, .rbp, .rbx, .rdx, .rax, .rcx] := rfl

/-- The word the return address is pushed to. -/
def pushSlot (mem : Memory) (a : Word) : Word := (contextAt mem a).regs .rsp - 8

/-- The memory after the push. -/
def pushed (mem : Memory) (a : Word) : Memory :=
  store64 mem (pushSlot mem a) (contextAt mem a).rip

/-- `ret` takes the pushed word off again; `rcx` and the base are loaded after the push. -/
lemma run_reenter {base : Reg} (hrsp : base ≠ .rsp) (hrcx : base ≠ .rcx) (s : State) :
    run s (reenter base) =
      { regs := fun r =>
          if r = .rsp then (contextAt s.mem (s.regs base)).regs .rsp
          else if r = base ∨ r = .rcx then
            (contextAt (pushed s.mem (s.regs base)) (s.regs base)).regs r
          else s.regs r
        rip := (contextAt s.mem (s.regs base)).rip
        mem := pushed s.mem (s.regs base) } := by
  have hrip : load64 (pushed s.mem (s.regs base)) (pushSlot s.mem (s.regs base)) =
      (contextAt s.mem (s.regs base)).rip := load64_store64_self
  rw [← hrip]
  simp only [run, reenter, List.foldl_cons, List.foldl_nil, exec, State.setReg, State.address,
    Function.update_apply, hrsp, hrcx, hrsp.symm, if_true, if_false, reduceCtorEq]
  apply congrArg fun f => (⟨⟨f, _⟩, _⟩ : State)
  funext r
  by_cases hr : r = .rsp
  · subst hr
    simp [contextAt]
  · by_cases hb : r = base
    · subst hb
      simp [hr, Function.update_of_ne, contextAt, pushed, pushSlot]
    · by_cases hc : r = .rcx
      · subst hc
        simp [hb, Function.update_of_ne, contextAt, pushed, pushSlot]
      · simp [hr, hb, hc, Function.update_of_ne]

lemma contextAt_pushed (h : Apart a wordsLength (pushSlot mem a) 8) :
    contextAt (pushed mem a) a = contextAt mem a :=
  contextAt_congr fun x hx => store64_of_not_inRange (h x hx)

section Restore

variable {base : Reg} {rs : List Reg}

lemma run_restore_mem (hbase : base ∉ rs) (hrsp : base ≠ .rsp) (hrcx : base ≠ .rcx) (s : State) :
    (run s (restore base rs)).mem = pushed s.mem (s.regs base) := by
  rw [restore, run_append, run_loads s hbase, run_reenter hrsp hrcx]
  simp only [hbase, if_false]

/-- Every register is one of those loaded first, the base, `rcx` or `rsp`. -/
lemma run_restore_cpu (hbase : base ∉ rs) (hrsp : base ≠ .rsp) (hrcx : base ≠ .rcx)
    (hall : ∀ r, r ∉ rs → r = base ∨ r = .rcx ∨ r = .rsp)
    (hslot : Apart (s.regs base) wordsLength (pushSlot s.mem (s.regs base)) 8) :
    (run s (restore base rs)).toCpu = contextAt s.mem (s.regs base) := by
  rw [restore, run_append, run_loads s hbase, run_reenter hrsp hrcx]
  simp only [hbase, if_false, contextAt_pushed hslot]
  apply Cpu.ext
  · funext r
    dsimp only
    by_cases hr : r = .rsp
    · rw [if_pos hr, hr]
    · by_cases hb : r = base ∨ r = .rcx
      · rw [if_neg hr, if_pos hb]
      · have hrs : r ∈ rs := by
          by_contra hnot
          rcases hall r hnot with h | h | h
          · exact hb (Or.inl h)
          · exact hb (Or.inr h)
          · exact hr h
        rw [if_neg hr, if_neg hb, if_pos hrs]
        rfl
  · rfl

end Restore

/-- `context_set` goes on with the context it is given. -/
theorem contextSet_cpu
    (hslot : Apart (s.regs .rdi) wordsLength (pushSlot s.mem (s.regs .rdi)) 8) :
    (run s contextSet).toCpu = contextAt s.mem (s.regs .rdi) := by
  rw [contextSet_eq]
  apply run_restore_cpu (by decide) (by decide) (by decide) _ hslot
  intro r hr
  cases r <;> simp_all

lemma contextSwap_mem (s : State) :
    (run s contextSwap).mem = pushed (run s save).mem (s.regs .rsi) := by
  rw [contextSwap_eq, run_append, run_restore_mem (by decide) (by decide) (by decide), run_save]
  rfl

lemma contextSwap_cpu
    (hslot : Apart (s.regs .rsi) wordsLength (pushSlot (run s save).mem (s.regs .rsi)) 8) :
    (run s contextSwap).toCpu = contextAt (run s save).mem (s.regs .rsi) := by
  have hrsi : (run s save).regs .rsi = s.regs .rsi := by
    rw [run_save]
    rfl
  rw [← hrsi] at hslot ⊢
  rw [contextSwap_eq, run_append]
  apply run_restore_cpu (by decide) (by decide) (by decide) _ hslot
  intro r hr
  cases r <;> simp_all

/-- The saving part writes the context and nothing else. -/
lemma save_frame {x : Word} (hx : ¬ InRange (s.regs .rdi) wordsLength x) :
    (run s save).mem x = s.mem x := by
  rw [run_save]
  exact storeAll_of_not_inRange_of_le (savedWords_le s _) (by decide) hx

lemma contextAt_save (h : Apart (s.regs .rdi) wordsLength b wordsLength) :
    contextAt (run s save).mem b = contextAt s.mem b :=
  contextAt_congr fun x hx => save_frame fun hc => h x hc hx

lemma pushSlot_save (h : Apart (s.regs .rdi) wordsLength b wordsLength) :
    pushSlot (run s save).mem b = pushSlot s.mem b := by
  rw [pushSlot, contextAt_save h, pushSlot]

/-- The context to be saved overlaps neither the one to go on with nor a stack in use. -/
structure Separate (s : State) : Prop where
  next : Apart (s.regs .rdi) wordsLength (s.regs .rsi) wordsLength
  stack : Apart (s.regs .rdi) wordsLength (s.regs .rsp) 8
  nextStack : Apart (s.regs .rdi) wordsLength (pushSlot s.mem (s.regs .rsi)) 8

namespace Separate

lemma frame (h : Separate s) {x : Word} (hc : ¬ InRange (s.regs .rdi) wordsLength x)
    (hslot : ¬ InRange (pushSlot s.mem (s.regs .rsi)) 8 x) :
    (run s contextSwap).mem x = s.mem x := by
  rw [contextSwap_mem, pushed, pushSlot_save h.next, store64_of_not_inRange hslot]
  exact save_frame hc

/-- The saved context is what the caller goes on with. -/
lemma contextAt_contextSwap (h : Separate s) :
    contextAt (run s contextSwap).mem (s.regs .rdi) = suspended s := by
  have hpush : contextAt (run s contextSwap).mem (s.regs .rdi) =
      contextAt (run s save).mem (s.regs .rdi) := by
    apply contextAt_congr
    intro x hx
    rw [contextSwap_mem, pushed, pushSlot_save h.next]
    exact store64_of_not_inRange (h.nextStack x hx)
  rw [hpush, run_save, contextAt_storeAll, load64_saved h.stack]
  rfl

end Separate

/-- A register file and a memory in which a saved context is as it was left. -/
def Kept (c : Word) (s s1 : State) : Prop :=
  ∀ x, InRange c wordsLength x → s1.mem x = (run s contextSwap).mem x

variable {s1 : State}

lemma Separate.contextAt_kept (h : Separate s) (hkept : Kept (s.regs .rdi) s s1) :
    contextAt s1.mem (s.regs .rdi) = suspended s := by
  rw [contextAt_congr hkept, h.contextAt_contextSwap]

/-- The word the return address is pushed to again is the one it was taken from. -/
lemma Separate.pushSlot_kept (h : Separate s) (hkept : Kept (s.regs .rdi) s s1) :
    pushSlot s1.mem (s.regs .rdi) = s.regs .rsp := by
  rw [pushSlot, h.contextAt_kept hkept, suspended]
  simp

/-- A task that gave up the processor goes on after its call, whichever of the two
routines brings it back. -/
theorem contextSwap_roundTrip (h : Separate s) :
    (∀ x, ¬ InRange (s.regs .rdi) wordsLength x →
      ¬ InRange (load64 s.mem (s.regs .rsi + BitVec.ofNat 64 (offset .rsp)) - 8) 8 x →
      (run s contextSwap).mem x = s.mem x) ∧
    ∀ s1 : State, Kept (s.regs .rdi) s s1 →
      (s1.regs .rsi = s.regs .rdi →
        Apart (s1.regs .rdi) wordsLength (s.regs .rdi) wordsLength →
        (run s1 contextSwap).toCpu = suspended s) ∧
      (s1.regs .rdi = s.regs .rdi → (run s1 contextSet).toCpu = suspended s) := by
  refine ⟨fun x => h.frame, fun s1 hkept => ⟨?swap, ?set⟩⟩
  case swap =>
    intro hrsi hsave
    rw [← hrsi] at hsave
    have hslot : pushSlot (run s1 save).mem (s1.regs .rsi) = s.regs .rsp := by
      rw [pushSlot_save hsave, hrsi, h.pushSlot_kept hkept]
    rw [contextSwap_cpu, contextAt_save hsave, hrsi, h.contextAt_kept hkept]
    rw [hslot, hrsi]
    exact h.stack
  case set =>
    intro hrdi
    rw [contextSet_cpu, hrdi, h.contextAt_kept hkept]
    rw [hrdi, h.pushSlot_kept hkept]
    exact h.stack

/-- A caller with its context at `0x1000`, the next one at `0x2000` and zeros elsewhere. -/
def caller : State where
  regs := fun | .rdi => 0x1000 | .rsi => 0x2000 | .rsp => 0x3000 | _ => 7
  rip := 0x400000
  mem := fun _ => 0

/-- The switch back from a third context, with the first one in `r`. -/
def switchBack (r : Reg) : State where
  regs q := if q = r then 0x1000 else 0x4000
  rip := 0x400000
  mem := (run caller contextSwap).mem

theorem contextSwap_roundTrip_caller :
    (run (switchBack .rsi) contextSwap).toCpu = suspended caller ∧
      (run (switchBack .rdi) contextSet).toCpu = suspended caller := by
  have hslot : pushSlot caller.mem (caller.regs .rsi) = 0 - 8 := by decide +kernel
  have h : Separate caller := by
    constructor
    case next => exact apart_of_le (by decide) (by decide)
    case stack => exact apart_of_le (by decide) (by decide)
    case nextStack => exact hslot ▸ apart_of_le (by decide) (by decide)
  have hapart : Apart ((switchBack .rsi).regs .rdi) wordsLength (caller.regs .rdi)
      wordsLength := (apart_of_le (by decide) (by decide)).symm
  constructor
  · exact ((contextSwap_roundTrip h).2 (switchBack .rsi) fun _ _ => rfl).1 rfl hapart
  · exact ((contextSwap_roundTrip h).2 (switchBack .rdi) fun _ _ => rfl).2 rfl

/-- The contexts of the tasks in `ts`, as they lie in memory. -/
def Represents (mem : Memory) (address : TaskAddr → Word) (ts : Set TaskAddr)
    (sched : Sched Cpu) : Prop :=
  ∀ t ∈ ts, contextAt mem (address t) = (sched.task t).context

/-- `context_swap(&temp->context, &next->context)` does to the registers and to the
contexts what the model's dispatch says. -/
theorem contextSwap_switchTo {address : TaskAddr → Word} {ts : Set TaskAddr}
    {sched : Sched Cpu} {next : TaskAddr} (hrep : Represents s.mem address ts sched)
    (hcurrent : sched.currentTask ∈ ts) (hnext : next ∈ ts) (hother : next ≠ sched.currentTask)
    (hrdi : s.regs .rdi = address sched.currentTask) (hrsi : s.regs .rsi = address next)
    (hctx : ∀ t ∈ ts, t ≠ sched.currentTask →
      Apart (address sched.currentTask) wordsLength (address t) wordsLength)
    (hstack : Apart (s.regs .rdi) wordsLength (s.regs .rsp) 8)
    (hslot : ∀ t ∈ ts, Apart (address t) wordsLength (pushSlot s.mem (s.regs .rsi)) 8) :
    Represents (run s contextSwap).mem address ts (sched.switchTo next (suspended s)).1 ∧
      (run s contextSwap).toCpu = (sched.switchTo next (suspended s)).2 := by
  have hapart : Apart (s.regs .rdi) wordsLength (s.regs .rsi) wordsLength := by
    rw [hrdi, hrsi]
    exact hctx next hnext hother
  have h : Separate s := ⟨hapart, hstack, by rw [hrdi]; exact hslot _ hcurrent⟩
  constructor
  · intro t ht
    rw [Sched.switchTo_context]
    by_cases hcur : t = sched.currentTask
    · rw [if_pos hcur, hcur, ← hrdi]
      exact h.contextAt_contextSwap
    · rw [if_neg hcur, ← hrep t ht]
      apply contextAt_congr
      intro x hx
      apply h.frame
      · rw [hrdi]
        exact fun hc => hctx t ht hcur x hc hx
      · exact hslot t ht x hx
  · have hload : Apart (s.regs .rsi) wordsLength
        (pushSlot (run s save).mem (s.regs .rsi)) 8 := by
      rw [pushSlot_save hapart]
      nth_rewrite 1 [hrsi]
      exact hslot next hnext
    rw [contextSwap_cpu hload, contextAt_save hapart, hrsi, hrep next hnext]
    change _ = ((sched.setTask sched.currentTask _).task next).context
    rw [Sched.setTask_task_of_ne _ _ hother]

end Libtask.Context
