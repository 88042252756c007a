import Libtask.Transition
import Libtask.Task.SigContext

/-!
# The history of one task

A task gives up the CPU at a signal or through `context_swap`, and gets it back from
`sigreturn` or from one of the assembler routines, in any combination. Its context
keeps when each field was written, and what is resumed is compared with what was
suspended. Nothing is assumed of the scheduler: the task may be suspended at any
instruction, and each suspension may meet each resumption.
-/
namespace Libtask.Fidelity
open X86 Transition

/-- How a task was last suspended, or that it was only created. -/
inductive Left
  | created
  | swapped
  | preempted (m : Machine)

/-- The 128 bytes below the stack pointer. -/
def RedZone (m : Machine) (x : Word) : Prop := InRange (m.regs .rsp - 128) 128 x

/-- The interrupted instruction finds what it has left. -/
structure Restored (m m' : Machine) : Prop where
  cpu : m'.toCpu = m.toCpu
  eflags : m'.special .eflags = m.special .eflags
  below : ∀ x, RedZone m x → m'.mem x = m.mem x

/-- What is known when a task gets the CPU back: how and when it was suspended, the
path, its context, and the machine that loads it. -/
structure Resumption where
  left : Left
  since : ℕ
  path : Path
  context : SigContext
  before : Machine

namespace Resumption

def after (r : Resumption) : Machine := r.before.resume r.path r.context

/-- The fields that are loaded were written at the suspension, and a preempted task
is as it was. -/
structure Faithful (r : Resumption) : Prop where
  written : ∀ f, r.path.Loads f → (r.context f).time = r.since
  restored : ∀ m, r.left = .preempted m → Restored m r.after

/-- The path is the counterpart of the suspension. A switch to a preempted task does
no harm only if `eflags` and the word under its stack pointer happen to be right. -/
def Paired (r : Resumption) : Prop :=
  match r.path, r.left with
  | .sigreturn, .swapped => False
  | .switch, .preempted m =>
    r.before.special .eflags = m.special .eflags ∧
      load64 r.before.mem (m.regs .rsp - 8) = m.rip
  | _, _ => True

end Resumption

/-- What the context of a suspended task holds. -/
def Left.Records (since : ℕ) (k : SigContext) (mem : Memory) : Left → Prop
  | .created => ∀ f, (k f).time = since
  | .swapped =>
    (∀ f, Path.switch.Loads f → (k f).time = since) ∧ (k (.special .eflags)).time < since
  | .preempted m => k = m.frame since ∧ ∀ x, RedZone m x → mem x = m.mem x

section Resumption

variable {m m' : Machine} {since : ℕ}

/-- The pushed word lies in the red zone. -/
lemma redZone_of_slot {x : Word} (h : InRange (m.regs .rsp - 8) 8 x) : RedZone m x := by
  unfold RedZone InRange at *
  bv_omega

lemma restored_sigreturn (hbelow : ∀ x, RedZone m x → m'.mem x = m.mem x) :
    Restored m (m'.sigreturn (m.frame since)) := by
  constructor
  case cpu => rfl
  case eflags => exact m'.sigreturn_special _ (Or.inl rfl)
  case below => exact hbelow

lemma restored_switch_iff (hbelow : ∀ x, RedZone m x → m'.mem x = m.mem x) :
    Restored m (m'.switch (m.frame since)) ↔
      m'.special .eflags = m.special .eflags ∧ load64 m'.mem (m.regs .rsp - 8) = m.rip := by
  rw [← store64_eq_iff]
  constructor
  · intro h
    constructor
    · exact h.eflags
    · intro x hx
      rw [hbelow x (redZone_of_slot hx), ← h.below x (redZone_of_slot hx)]
      rfl
  · intro ⟨heflags, hslot⟩
    constructor
    case cpu => rfl
    case eflags => exact heflags
    case below =>
      intro x hx
      rw [← hbelow x hx]
      by_cases hin : InRange (m.regs .rsp - 8) 8 x
      · exact hslot x hin
      · exact store64_of_not_inRange hin

/-- A resumption is faithful exactly when it is the counterpart of the suspension. -/
theorem Left.Records.faithful_iff {left : Left} {k : SigContext}
    (h : left.Records since k m.mem) (path : Path) :
    (Resumption.mk left since path k m).Faithful ↔
      (Resumption.mk left since path k m).Paired := by
  cases left with
  | created =>
    have hpaired : (Resumption.mk .created since path k m).Paired := by cases path <;> trivial
    exact iff_of_true ⟨fun f _ => h f, nofun⟩ hpaired
  | swapped =>
    cases path with
    | sigreturn =>
      -- `eflags` is older than the suspension
      refine iff_of_false (fun hf => ?_) id
      have heflags : (k (.special .eflags)).time = since := hf.written _ (Or.inl rfl)
      exact absurd h.2 (by omega)
    | switch => exact iff_of_true ⟨h.1, nofun⟩ trivial
  | preempted m' =>
    obtain ⟨rfl, hbelow⟩ := h
    have hiff : (Resumption.mk (.preempted m') since path (m'.frame since) m).Faithful ↔
        Restored m' (m.resume path (m'.frame since)) := by
      constructor
      · exact fun hf => hf.restored m' rfl
      · intro hr
        constructor
        · exact fun f _ => rfl
        · intro m'' heq
          rw [← Left.preempted.inj heq]
          exact hr
    rw [hiff]
    cases path with
    | sigreturn => exact iff_of_true (restored_sigreturn hbelow) trivial
    | switch => exact restored_switch_iff hbelow

end Resumption

/-- `context_swap` writes the fields that it loads, and leaves `eflags` as it was. -/
lemma swappedOut_records {m : Machine} {old : SigContext} {time : ℕ}
    (hold : ∀ f, (old f).time < time) {mem : Memory} :
    Left.swapped.Records time (m.swappedOut old time) mem := by
  constructor
  · intro f hf
    cases f with
    | reg r => rfl
    | rip => rfl
    | special f => cases hf
  · exact hold (.special .eflags)

lemma swappedOut_stamps {m : Machine} {old : SigContext} {time : ℕ}
    (hold : ∀ f, (old f).time < time) (f : Field) : (m.swappedOut old time f).time ≤ time := by
  cases f with
  | reg r => exact le_refl _
  | rip => exact le_refl _
  | special f => exact (hold (.special f)).le

lemma taskCreate_time (m : Machine) (taskStack taskEntrance function funcArg : Word) (time : ℕ)
    (f : Field) : (m.taskCreate taskStack taskEntrance function funcArg time f).time = time := by
  cases f with
  | reg r => cases r <;> rfl
  | rip => rfl
  | special f => cases f <;> rfl

/-- A task and its context; `since` is when it was last suspended, or created. -/
structure History where
  running : Bool
  context : SigContext
  time : ℕ
  since : ℕ
  left : Left
  resumptions : List Resumption

inductive Event
  | tick (m : Machine) (time : ℕ)
  | contextSwap (m : Machine) (time : ℕ)
  | resume (path : Path) (before : Machine)

namespace History

/-- `task_create` has filled the context. -/
def created (m : Machine) (taskStack taskEntrance function funcArg : Word) (time : ℕ) : History :=
  ⟨false, m.taskCreate taskStack taskEntrance function funcArg time, time, time, .created, []⟩

/-- The main task runs from the start; its context is what the `memset` of `init_task` leaves. -/
def mainTask : History := ⟨true, default, 0, 0, .created, []⟩

def suspend (h : History) (left : Left) (context : SigContext) (time : ℕ) : History :=
  { h with
    running := false
    context := context
    time := time
    since := time
    left := left }

def resume (h : History) (path : Path) (before : Machine) : History :=
  { h with
    running := true
    resumptions := ⟨h.left, h.since, path, h.context, before⟩ :: h.resumptions }

/-- Memory in which nobody has written below the stack pointer of the task. -/
def Kept (h : History) (mem : Memory) : Prop :=
  ∀ m, h.left = .preempted m → ∀ x, RedZone m x → mem x = m.mem x

/-- `schedule` and `collaborative_schedule` save the frame of the signal. -/
inductive Step (h : History) : Event → History → Prop
  | tick {m : Machine} {time : ℕ} (hrunning : h.running = true) (hlater : h.time < time) :
      Step h (.tick m time) (h.suspend (.preempted m) (m.frame time) time)
  | contextSwap {m : Machine} {time : ℕ} (hrunning : h.running = true) (hlater : h.time < time) :
      Step h (.contextSwap m time) (h.suspend .swapped (m.swappedOut h.context time) time)
  | resume {path : Path} {before : Machine} (haway : h.running = false)
      (hkept : h.Kept before.mem) : Step h (.resume path before) (h.resume path before)

end History

/-- The tasks of `task_start`, from their creation on, and the main task. -/
def historySystem : System History Event where
  init h := h = .mainTask ∨ ∃ m taskStack taskEntrance function funcArg time,
    h = .created m taskStack taskEntrance function funcArg time
  step := History.Step

namespace History

/-- The context of a task that waits for the CPU records what it should, and so did every
context that was resumed. -/
structure Inv (h : History) : Prop where
  stamps : ∀ f, (h.context f).time ≤ h.time
  records : h.running = false → ∀ mem, h.Kept mem → h.left.Records h.since h.context mem
  resumed : ∀ r ∈ h.resumptions, r.left.Records r.since r.context r.before.mem

variable {h : History}

lemma inv_mainTask : Inv mainTask := by
  constructor
  case stamps => exact fun f => le_refl 0
  case records => exact nofun
  case resumed => exact fun r hr => absurd hr List.not_mem_nil

lemma inv_created (m : Machine) (taskStack taskEntrance function funcArg : Word) (time : ℕ) :
    Inv (created m taskStack taskEntrance function funcArg time) := by
  have htime := taskCreate_time m taskStack taskEntrance function funcArg time
  constructor
  case stamps => exact fun f => (htime f).le
  case records => exact fun _ _ _ => htime
  case resumed => exact fun r hr => absurd hr List.not_mem_nil

lemma Inv.suspend (hinv : Inv h) {left : Left} {context : SigContext} {time : ℕ}
    (hstamps : ∀ f, (context f).time ≤ time)
    (hrecords : ∀ mem, (h.suspend left context time).Kept mem → left.Records time context mem) :
    Inv (h.suspend left context time) := by
  constructor
  case stamps => exact hstamps
  case records => exact fun _ => hrecords
  case resumed => exact hinv.resumed

theorem Inv.step {h' : History} {e : Event} (hinv : Inv h) (hst : Step h e h') : Inv h' := by
  cases hst with
  | @tick m time =>
    apply hinv.suspend
    · exact fun f => le_refl _
    · exact fun mem hkept => ⟨rfl, hkept m rfl⟩
  | contextSwap hrunning hlater =>
    have hold := fun f => (hinv.stamps f).trans_lt hlater
    apply hinv.suspend
    · exact swappedOut_stamps hold
    · exact fun mem _ => swappedOut_records hold
  | @resume path before haway hkept =>
    constructor
    case stamps => exact hinv.stamps
    case records => exact nofun
    case resumed =>
      intro r hr
      rcases List.mem_cons.mp hr with rfl | hold
      · exact hinv.records haway before.mem hkept
      · exact hinv.resumed r hold

theorem inv_of_reachable (hh : historySystem.Reachable h) : Inv h := by
  refine hh.invariant ?_ fun _ _ _ hinv _ hst => hinv.step hst
  rintro _ (rfl | ⟨m, taskStack, taskEntrance, function, funcArg, time, rfl⟩)
  · exact inv_mainTask
  · exact inv_created m taskStack taskEntrance function funcArg time

end History

/-- Registers, flags and memory with nothing in them. -/
def blank : Machine where
  regs := fun _ => 0
  rip := 0
  mem := fun _ => 0
  special := fun _ => 0

end Libtask.Fidelity
