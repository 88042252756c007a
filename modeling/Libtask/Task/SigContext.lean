import Libtask.Task.ContextSwap

/-!
# What is saved and what is loaded

A `struct sigcontext` with a time at each field: when the field was written. The
kernel fills the whole of it at a signal and loads a part of it at `sigreturn`;
`context_swap` writes the general registers and `rip`, and loads no more than these.
-/
namespace Libtask.Fidelity
open X86 Context

/-- The fields besides the general registers and `rip`; `ss` is `__pad0`. -/
inductive Special
  | eflags | cs | gs | fs | ss | err | trapno | oldmask | cr2 | fpstate
  deriving DecidableEq, Repr

inductive Field
  | reg (r : Reg)
  | rip
  | special (f : Special)
  deriving DecidableEq, Repr

structure Stamped where
  value : Word
  time : ℕ

/-- Memory that `init_task` has cleared. -/
instance : Inhabited Stamped := ⟨⟨0, 0⟩⟩

abbrev SigContext := Field → Stamped

/-- A processor with its memory. The values of `fpstate` and of the fields of a fault
are those that a signal frame would get. -/
structure Machine extends X86.State where
  special : Special → Word

def Machine.field (m : Machine) : Field → Word
  | .reg r => m.regs r
  | .rip => m.rip
  | .special f => m.special f

/-- The frame of a signal, which `schedule` and `collaborative_schedule` copy. -/
def Machine.frame (m : Machine) (time : ℕ) : SigContext := fun f => ⟨m.field f, time⟩

/-- A context after `context_swap` has saved the caller in it. -/
def Machine.swappedOut (m : Machine) (old : SigContext) (time : ℕ) : SigContext
  | .reg r => ⟨(suspended m.toState).regs r, time⟩
  | .rip => ⟨(suspended m.toState).rip, time⟩
  | .special f => old (.special f)

/-- `task_create`: the context is cleared, `get_reg` stores `cs` and `ss`. -/
def Machine.taskCreate (m : Machine) (taskStack taskEntrance function funcArg : Word)
    (time : ℕ) : SigContext
  | .reg .rsp | .reg .rbp => ⟨taskStack, time⟩
  | .reg .rdi => ⟨function, time⟩
  | .reg .rsi => ⟨funcArg, time⟩
  | .rip => ⟨taskEntrance, time⟩
  | .special .cs => ⟨m.special .cs, time⟩
  | .special .ss => ⟨m.special .ss, time⟩
  | _ => ⟨0, time⟩

inductive Path
  | sigreturn
  | switch
  deriving DecidableEq, Repr

/-- The fields that a resumption loads; `switch` stands for both assembler routines. -/
def Path.Loads : Path → Field → Prop
  | _, .reg _ | _, .rip => True
  | .sigreturn, .special f => f = .eflags ∨ f = .cs ∨ f = .ss ∨ f = .fpstate
  | .switch, .special _ => False

instance (f : Special) : Decidable (Path.sigreturn.Loads (.special f)) :=
  inferInstanceAs (Decidable (f = .eflags ∨ f = .cs ∨ f = .ss ∨ f = .fpstate))

/-- The general registers and `rip` of a context. -/
def words (k : SigContext) : Cpu where
  regs r := (k (.reg r)).value
  rip := (k .rip).value

def Machine.sigreturn (m : Machine) (k : SigContext) : Machine where
  toCpu := words k
  mem := m.mem
  special f := if Path.sigreturn.Loads (.special f) then (k (.special f)).value else m.special f

/-- The return address is put on the stack that is switched to. -/
def Machine.switch (m : Machine) (k : SigContext) : Machine where
  toCpu := words k
  mem := store64 m.mem ((words k).regs .rsp - 8) (words k).rip
  special := m.special

def Machine.resume (m : Machine) : Path → SigContext → Machine
  | .sigreturn, k => m.sigreturn k
  | .switch, k => m.switch k

lemma Machine.sigreturn_special (m : Machine) (k : SigContext) {f : Special}
    (hf : Path.sigreturn.Loads (.special f)) :
    (m.sigreturn k).special f = (k (.special f)).value := if_pos hf

variable {m : Machine} {k : SigContext}

/-- `context_swap` leaves the context of the model in memory. -/
theorem contextSwap_swappedOut (h : Separate m.toState) (old : SigContext) (time : ℕ) :
    contextAt (run m.toState contextSwap).mem (m.regs .rdi) = words (m.swappedOut old time) :=
  h.contextAt_contextSwap

/-- It goes on with the registers of the other one, and writes the return address. -/
theorem contextSwap_switch (h : Separate m.toState)
    (hk : contextAt m.mem (m.regs .rsi) = words k)
    (hslot : Apart (m.regs .rsi) wordsLength (pushSlot m.mem (m.regs .rsi)) 8) :
    (run m.toState contextSwap).toCpu = (m.switch k).toCpu ∧
      ∀ x, ¬ InRange (m.regs .rdi) wordsLength x →
        (run m.toState contextSwap).mem x = (m.switch k).mem x := by
  constructor
  · rw [contextSwap_cpu (by rwa [pushSlot_save h.next]), contextAt_save h.next, hk]
    rfl
  · intro x hx
    rw [contextSwap_mem, pushed, pushSlot_save h.next, contextAt_save h.next, pushSlot, hk]
    simp only [Machine.switch, store64, save_frame hx]

theorem contextSet_switch (hk : contextAt m.mem (m.regs .rdi) = words k)
    (hslot : Apart (m.regs .rdi) wordsLength (pushSlot m.mem (m.regs .rdi)) 8) :
    run m.toState contextSet = (m.switch k).toState := by
  have hcpu : (run m.toState contextSet).toCpu = words k := by rw [contextSet_cpu hslot, hk]
  have hmem : (run m.toState contextSet).mem = (m.switch k).mem := by
    rw [contextSet_eq, run_restore_mem (by decide) (by decide) (by decide), pushed, pushSlot, hk]
    rfl
  exact X86.State.ext (congrArg Cpu.regs hcpu) (congrArg Cpu.rip hcpu) hmem

end Libtask.Fidelity
