import Libtask.Hook

/-!
# `fcntl` over an arbitrary system

Here the `fcntl` of the system is any function of the descriptor, the command and
the argument over a state of its own, and its calls are recorded. The hook hands
a call on unchanged for the commands on locks and `F_DUPFD` only: it has no case
for commands that it does not know, drops the result of `F_SETFD`, masks that of
`F_GETFD`, and answers for negative descriptors itself.
-/
namespace Libtask.Hook

/-- What follows `cmd` in a call. -/
inductive Arg
  | none
  | int (param : BitVec 32)
  | pointer (param : ℕ)
  deriving DecidableEq, Repr

/-- A call of `fcntl`. -/
structure FcntlCall where
  fd : ℤ
  cmd : ℤ
  arg : Arg
  deriving DecidableEq, Repr

-- the commands of the `switch`, with the numbers of Linux

def fDupfd : ℤ := 0
def fGetfd : ℤ := 1
def fSetfd : ℤ := 2
def fGetfl : ℤ := 3
def fSetfl : ℤ := 4
def fGetlk : ℤ := 5
def fSetlk : ℤ := 6
def fSetlkw : ℤ := 7

/-- `va_arg(arg_list, int)`. -/
def Arg.vaInt : Arg → Option (BitVec 32)
  | .int param => some param
  | _ => Option.none

/-- `va_arg(arg_list, struct flock *)`. -/
def Arg.vaPointer : Arg → Option ℕ
  | .pointer param => some param
  | _ => Option.none

/-- Clearing the bit of `O_NONBLOCK` changes nothing if and only if it is clear. -/
lemma and_not_eq_self_iff (flags : BitVec 32) :
    flags &&& ~~~oNonblock = flags ↔ nonblocking flags = false := by
  rw [nonblocking_eq, oNonblock_eq]
  constructor
  · intro h
    rw [← h]
    simp
  · intro h
    ext i hi
    by_cases hbit : i = 11
    · subst hbit
      simpa using h
    · simp [BitVec.getElem_twoPow, hbit]

/-- What `F_GETFD` makes of the answer. -/
def hideNonblock (a : FdAttributes) (ret : BitVec 32) : BitVec 32 :=
  if a.fdFlag &&& oNonblock = 0 then ret &&& ~~~oNonblock else ret

lemma hideNonblock_eq_self_iff (a : FdAttributes) (ret : BitVec 32) :
    hideNonblock a ret = ret ↔ nonblocking a.fdFlag = true ∨ nonblocking ret = false := by
  unfold hideNonblock
  by_cases hflag : a.fdFlag &&& oNonblock = 0
  · have hclear : ¬ nonblocking a.fdFlag = true := by
      rw [nonblocking, decide_eq_true_iff]
      exact not_not_intro hflag
    rw [if_pos hflag, and_not_eq_self_iff, or_iff_right hclear]
  · have hset : nonblocking a.fdFlag = true := decide_eq_true hflag
    rw [if_neg hflag]
    exact iff_of_true rfl (.inl hset)

lemma Arg.vaInt_eq_some {arg : Arg} {param : BitVec 32} :
    arg.vaInt = some param ↔ arg = .int param := by
  cases arg <;> simp [vaInt]

lemma Arg.vaPointer_eq_some {arg : Arg} {param : ℕ} :
    arg.vaPointer = some param ↔ arg = .pointer param := by
  cases arg <;> simp [vaPointer]

lemma FcntlCall.with_arg_iff (call : FcntlCall) {arg : Arg} :
    ({ call with arg := arg } : FcntlCall) = call ↔ call.arg = arg := by
  obtain ⟨fd, cmd, arg'⟩ := call
  simp [eq_comm]

/-- The state of the system, its calls so far, and `fd_2_attributes`. -/
structure HookState (K : Type) where
  kernel : K
  calls : List FcntlCall
  fd2Attributes : ℤ → Option FdAttributes

namespace HookState

variable {K : Type} (system : K → FcntlCall → BitVec 32 × K)

/-- `Hook_fcntl_t`. -/
def hookFcntl (s : HookState K) (call : FcntlCall) : BitVec 32 × HookState K :=
  let (ret, kernel) := system s.kernel call
  (ret, { s with kernel := kernel, calls := s.calls ++ [call] })

def setAttributes (s : HookState K) (fd : ℤ) (attributes : FdAttributes) : HookState K :=
  { s with fd2Attributes := Function.update s.fd2Attributes fd (some attributes) }

/-- `create_fd_attributes`, without a result when the array is accessed out of its
bounds. -/
def createFdAttributes (s : HookState K) (fd : ℤ) :
    Option (Option FdAttributes × HookState K) :=
  if fd < 0 ∧ fd ≥ attributesLength then some (none, s)
  else if 0 ≤ fd ∧ fd < attributesLength then
    match s.fd2Attributes fd with
    | some attributes => some (some attributes, s)
    | none =>
      let attributes : FdAttributes := ⟨0, 0, 1000, 1000⟩
      some (some attributes, s.setAttributes fd attributes)
  else none

/-- The `switch` of `fcntl`, with the result of `current_is_hook`. An argument that
is not of the type read has no result. -/
def switchCmd (s : HookState K) (attributes : Option FdAttributes) (isHook : Bool)
    (call : FcntlCall) : Option (BitVec 32 × HookState K) :=
  if call.cmd = fGetfd then
    let (ret, s) := s.hookFcntl system { call with arg := .none }
    match attributes with
    | some a => some (if a.fdFlag &&& oNonblock = 0 then ret &&& ~~~oNonblock else ret, s)
    | none => some (ret, s)
  else if call.cmd = fSetfd then do
    let param ← call.arg.vaInt
    some (0, (s.hookFcntl system { call with arg := .int param }).2)
  else if call.cmd = fGetfl then some (s.hookFcntl system { call with arg := .none })
  else if call.cmd = fSetfl then do
    let param ← call.arg.vaInt
    let flag := if isHook ∧ attributes.isSome then param ||| oNonblock else param
    let (ret, s) := s.hookFcntl system { call with arg := .int flag }
    match attributes with
    | some a =>
      some (ret, if ret = 0 then s.setAttributes call.fd { a with fdFlag := param } else s)
    | none => some (ret, s)
  else if call.cmd = fGetlk ∨ call.cmd = fSetlk ∨ call.cmd = fSetlkw then do
    let param ← call.arg.vaPointer
    some (s.hookFcntl system { call with arg := .pointer param })
  else if call.cmd = fDupfd then do
    let param ← call.arg.vaInt
    some (s.hookFcntl system { call with arg := .int param })
  else some (0, s)

def fcntl (s : HookState K) (isHook : Bool) (call : FcntlCall) :
    Option (BitVec 32 × HookState K) :=
  if call.fd < 0 then some (119, s)
  else do
    let (attributes, s) ← s.createFdAttributes call.fd
    s.switchCmd system attributes isHook call

/-- The call is handed on once, as it is, and the answer is returned as it is. -/
def Transparent (s : HookState K) (isHook : Bool) (call : FcntlCall) : Prop :=
  ∃ s', s.fcntl system isHook call = some ((system s.kernel call).1, s') ∧
    s'.calls = s.calls ++ [call] ∧ s'.kernel = (system s.kernel call).2

/-- The flags that the attributes of `fd` record, 0 for new ones. -/
def fdFlag (s : HookState K) (fd : ℤ) : BitVec 32 :=
  match s.fd2Attributes fd with
  | some attributes => attributes.fdFlag
  | none => 0

/-- The calls that the hook does not touch: the descriptor has attributes, and
the command is one that is handed on with its argument, or one whose answer
happens to be what the hook makes of it. -/
def Untouched (s : HookState K) (call : FcntlCall) : Prop :=
  (0 ≤ call.fd ∧ call.fd < attributesLength) ∧
    ((call.cmd = fGetlk ∨ call.cmd = fSetlk ∨ call.cmd = fSetlkw) ∧ call.arg.vaPointer.isSome ∨
      call.cmd = fDupfd ∧ call.arg.vaInt.isSome ∨
      call.cmd = fGetfd ∧ call.arg = .none ∧ (nonblocking (s.fdFlag call.fd) = true ∨
        nonblocking (system s.kernel call).1 = false) ∨
      call.cmd = fSetfd ∧ call.arg.vaInt.isSome ∧ (system s.kernel call).1 = 0)

variable {system}

/-- Within the bounds the attributes exist afterwards, and nothing else changed. -/
lemma createFdAttributes_of_bounds {s : HookState K} {fd : ℤ}
    (h : 0 ≤ fd ∧ fd < attributesLength) :
    ∃ a s', s.createFdAttributes fd = some (some a, s') ∧ a.fdFlag = s.fdFlag fd ∧
      s'.kernel = s.kernel ∧ s'.calls = s.calls := by
  have hbad : ¬ (fd < 0 ∧ fd ≥ attributesLength) := by omega
  unfold createFdAttributes fdFlag
  rw [if_neg hbad, if_pos h]
  cases s.fd2Attributes fd with
  | some a => exact ⟨a, s, rfl, rfl, rfl, rfl⟩
  | none => exact ⟨_, _, rfl, rfl, rfl, rfl⟩

lemma createFdAttributes_outOfBounds {s : HookState K} {fd : ℤ} (hpos : 0 ≤ fd)
    (h : ¬ fd < attributesLength) : s.createFdAttributes fd = none := by
  unfold createFdAttributes
  rw [if_neg (by omega), if_neg (by omega)]

/-- What `Transparent` says after the attributes have been found. -/
def Handed (system : K → FcntlCall → BitVec 32 × K) (s : HookState K) (call : FcntlCall)
    (outcome : Option (BitVec 32 × HookState K)) : Prop :=
  ∃ s', outcome = some ((system s.kernel call).1, s') ∧
    s'.calls = s.calls ++ [call] ∧ s'.kernel = (system s.kernel call).2

section Switch

variable {s : HookState K} {a : FdAttributes} {isHook : Bool} {call : FcntlCall}

/-- A call handed on as it is, whose answer goes through `f`. -/
lemma handed_hookFcntl_iff (sent : FcntlCall) (f : BitVec 32 → BitVec 32) :
    Handed system s call (some (f (s.hookFcntl system sent).1, (s.hookFcntl system sent).2)) ↔
      sent = call ∧ f (system s.kernel call).1 = (system s.kernel call).1 := by
  constructor
  · rintro ⟨s', houtcome, hcalls, -⟩
    obtain ⟨hret, rfl⟩ := Prod.mk.inj (Option.some.inj houtcome)
    have hsent : s.calls ++ [sent] = s.calls ++ [call] := hcalls
    obtain rfl : sent = call := by simpa using hsent
    exact ⟨rfl, hret⟩
  · rintro ⟨rfl, hret⟩
    exact ⟨_, congrArg (fun ret => some (ret, (s.hookFcntl system sent).2)) hret, rfl, rfl⟩

/-- A call handed on whose answer is returned as it is. -/
lemma handed_of_sent {sent : FcntlCall} (hsent : sent = call) :
    Handed system s call (some (s.hookFcntl system sent)) :=
  (handed_hookFcntl_iff sent id).mpr ⟨hsent, rfl⟩

/-- The `int` taken off the argument list is the argument. -/
lemma with_int_eq {param : BitVec 32} (h : call.arg.vaInt = some param) :
    ({ call with arg := .int param } : FcntlCall) = call :=
  call.with_arg_iff.mpr (Arg.vaInt_eq_some.mp h)

lemma handed_none : ¬ Handed system s call none := by
  rintro ⟨s', houtcome, -⟩
  cases houtcome

lemma handed_getfd (hcmd : call.cmd = fGetfd) :
    Handed system s call (s.switchCmd system (some a) isHook call) ↔
      call.arg = .none ∧ (nonblocking a.fdFlag = true ∨
        nonblocking (system s.kernel call).1 = false) := by
  have hmask : s.switchCmd system (some a) isHook call =
      some (hideNonblock a (s.hookFcntl system { call with arg := .none }).1,
        (s.hookFcntl system { call with arg := .none }).2) := by
    rw [switchCmd, if_pos hcmd]
    rfl
  rw [hmask, handed_hookFcntl_iff, hideNonblock_eq_self_iff, call.with_arg_iff]

/-- The answer is dropped, and 0 returned. -/
lemma handed_setfd (hcmd : call.cmd = fSetfd) :
    Handed system s call (s.switchCmd system (some a) isHook call) ↔
      call.arg.vaInt.isSome ∧ (system s.kernel call).1 = 0 := by
  rw [switchCmd, if_neg (by rw [hcmd]; decide), if_pos hcmd]
  cases hint : call.arg.vaInt with
  | none => simp [handed_none]
  | some param =>
    rw [Option.bind_eq_bind, Option.bind_some, with_int_eq hint]
    have hdrop : Handed system s call (some (0, (s.hookFcntl system call).2)) ↔
        call = call ∧ 0 = (system s.kernel call).1 := handed_hookFcntl_iff call fun _ => 0
    rw [hdrop, and_iff_right rfl]
    constructor
    · exact fun h => ⟨rfl, h.symm⟩
    · exact fun h => h.2.symm

lemma handed_lock (hcmd : call.cmd = fGetlk ∨ call.cmd = fSetlk ∨ call.cmd = fSetlkw) :
    Handed system s call (s.switchCmd system (some a) isHook call) ↔
      call.arg.vaPointer.isSome := by
  have hne : ∀ c ∈ [fGetfd, fSetfd, fGetfl, fSetfl], call.cmd ≠ c := by
    intro c hc
    rcases hcmd with h | h | h <;> rw [h] <;> revert c <;> decide
  rw [switchCmd, if_neg (hne _ (by simp)), if_neg (hne _ (by simp)), if_neg (hne _ (by simp)),
    if_neg (hne _ (by simp)), if_pos hcmd]
  cases hpointer : call.arg.vaPointer with
  | none => simp [handed_none]
  | some param =>
    have hsent : ({ call with arg := .pointer param } : FcntlCall) = call :=
      call.with_arg_iff.mpr (Arg.vaPointer_eq_some.mp hpointer)
    exact iff_of_true (handed_of_sent hsent) rfl

lemma handed_dupfd (hcmd : call.cmd = fDupfd) :
    Handed system s call (s.switchCmd system (some a) isHook call) ↔ call.arg.vaInt.isSome := by
  have hne : ∀ c ∈ [fGetfd, fSetfd, fGetfl, fSetfl, fGetlk, fSetlk, fSetlkw], call.cmd ≠ c := by
    rw [hcmd]
    decide
  rw [switchCmd, if_neg (hne _ (by simp)), if_neg (hne _ (by simp)), if_neg (hne _ (by simp)),
    if_neg (hne _ (by simp)), if_neg (by simp [hne]), if_pos hcmd]
  cases hint : call.arg.vaInt with
  | none => simp [handed_none]
  | some param =>
    exact iff_of_true (handed_of_sent (with_int_eq hint)) rfl

/-- A command without a case is not handed on at all. -/
lemma not_handed_other (hne : ∀ c ∈ [fGetfd, fSetfd, fGetfl, fSetfl, fGetlk, fSetlk, fSetlkw,
    fDupfd], call.cmd ≠ c) : ¬ Handed system s call (s.switchCmd system (some a) isHook call) := by
  have hother : s.switchCmd system (some a) isHook call = some (0, s) := by
    simp [switchCmd, hne]
  rw [hother]
  rintro ⟨s', houtcome, hcalls, -⟩
  obtain ⟨-, rfl⟩ := Prod.mk.inj (Option.some.inj houtcome)
  simp at hcalls

lemma switchCmd_handed_iff (hgetfl : call.cmd ≠ fGetfl) (hsetfl : call.cmd ≠ fSetfl) :
    Handed system s call (s.switchCmd system (some a) isHook call) ↔
      (call.cmd = fGetlk ∨ call.cmd = fSetlk ∨ call.cmd = fSetlkw) ∧ call.arg.vaPointer.isSome ∨
      call.cmd = fDupfd ∧ call.arg.vaInt.isSome ∨
      call.cmd = fGetfd ∧ call.arg = .none ∧ (nonblocking a.fdFlag = true ∨
        nonblocking (system s.kernel call).1 = false) ∨
      call.cmd = fSetfd ∧ call.arg.vaInt.isSome ∧ (system s.kernel call).1 = 0 := by
  by_cases hlock : call.cmd = fGetlk ∨ call.cmd = fSetlk ∨ call.cmd = fSetlkw
  · have hne : call.cmd ≠ fDupfd ∧ call.cmd ≠ fGetfd ∧ call.cmd ≠ fSetfd := by
      rcases hlock with h | h | h <;> rw [h] <;> decide
    rw [handed_lock hlock]
    simp [hlock, hne]
  by_cases hdupfd : call.cmd = fDupfd
  · have hne : fDupfd ≠ fGetfd ∧ fDupfd ≠ fSetfd := by decide
    rw [handed_dupfd hdupfd]
    rw [hdupfd] at hlock ⊢
    simp [hlock, hne]
  by_cases hgetfd : call.cmd = fGetfd
  · have hne : fGetfd ≠ fSetfd ∧ fGetfd ≠ fDupfd := by decide
    rw [handed_getfd hgetfd]
    rw [hgetfd] at hlock ⊢
    simp [hlock, hne]
  by_cases hsetfd : call.cmd = fSetfd
  · have hne : fSetfd ≠ fGetfd ∧ fSetfd ≠ fDupfd := by decide
    rw [handed_setfd hsetfd]
    rw [hsetfd] at hlock ⊢
    simp [hlock, hne]
  · apply iff_of_false
    · apply not_handed_other
      simp only [not_or] at hlock
      simp [hlock, hdupfd, hgetfd, hsetfd, hgetfl, hsetfl]
    · simp [hlock, hdupfd, hgetfd, hsetfd]

end Switch

/-- The hook is transparent for exactly the calls that it leaves untouched. -/
theorem transparent_iff_untouched (s : HookState K) (isHook : Bool) {call : FcntlCall}
    (hgetfl : call.cmd ≠ fGetfl) (hsetfl : call.cmd ≠ fSetfl) :
    Transparent system s isHook call ↔ Untouched system s call := by
  by_cases hneg : call.fd < 0
  · apply iff_of_false
    · rintro ⟨s', houtcome, hcalls, -⟩
      rw [fcntl, if_pos hneg] at houtcome
      obtain ⟨-, rfl⟩ := Prod.mk.inj (Option.some.inj houtcome)
      simp at hcalls
    · rintro ⟨⟨hpos, -⟩, -⟩
      omega
  by_cases hlt : call.fd < attributesLength
  · have hbounds : 0 ≤ call.fd ∧ call.fd < attributesLength := ⟨by omega, hlt⟩
    obtain ⟨a, s', hcreate, hflag, hkernel, hcalls⟩ := createFdAttributes_of_bounds (s := s) hbounds
    have hfcntl : s.fcntl system isHook call = s'.switchCmd system (some a) isHook call := by
      rw [fcntl, if_neg hneg, hcreate]
      rfl
    have hhanded : Transparent system s isHook call ↔
        Handed system s' call (s'.switchCmd system (some a) isHook call) := by
      rw [Transparent, Handed, hfcntl, hkernel, hcalls]
    rw [hhanded, switchCmd_handed_iff hgetfl hsetfl, Untouched, hflag, hkernel,
      and_iff_right hbounds]
  · apply iff_of_false
    · rintro ⟨s', houtcome, -⟩
      rw [fcntl, if_neg hneg, createFdAttributes_outOfBounds (by omega) hlt] at houtcome
      cases houtcome
    · rintro ⟨⟨-, hbound⟩, -⟩
      exact hlt hbound

/-- A system that always fails. -/
def failing (k : Unit) (_ : FcntlCall) : BitVec 32 × Unit := (-1, k)

/-- A process without any attributes. -/
def fresh : HookState Unit := ⟨(), [], fun _ => none⟩

theorem transparent_dupfd : Transparent failing fresh true ⟨5, fDupfd, .int 10⟩ :=
  (transparent_iff_untouched fresh true (by decide) (by decide)).mpr
    ⟨⟨by decide, by decide⟩, .inr (.inl ⟨rfl, rfl⟩)⟩

/-- The failure of `F_SETFD` is returned as 0. -/
theorem not_fcntl_transparent : ¬ ∀ (system : Unit → FcntlCall → BitVec 32 × Unit)
    (s : HookState Unit) (isHook : Bool) (call : FcntlCall), call.cmd ≠ fGetfl →
      call.cmd ≠ fSetfl → Transparent system s isHook call := by
  intro hall
  obtain ⟨s', houtcome, -⟩ := hall failing fresh true ⟨5, fSetfd, .int 1⟩ (by decide) (by decide)
  have hret : (fresh.fcntl failing true ⟨5, fSetfd, .int 1⟩).map Prod.fst = some 0 := by decide
  rw [houtcome] at hret
  have hanswer : (-1 : BitVec 32) = 0 := Option.some.inj hret
  exact absurd hanswer (by decide)

end HookState

/-- The call that a command stands for. -/
def Cmd.call (fd : ℤ) : Cmd → FcntlCall
  | .getfd => ⟨fd, fGetfd, .none⟩
  | .setfd param => ⟨fd, fSetfd, .int param⟩
  | .getfl => ⟨fd, fGetfl, .none⟩
  | .setfl param => ⟨fd, fSetfl, .int param⟩
  | .getlk => ⟨fd, fGetlk, .pointer 0⟩
  | .setlk => ⟨fd, fSetlk, .pointer 0⟩
  | .setlkw => ⟨fd, fSetlkw, .pointer 0⟩
  | .dupfd param => ⟨fd, fDupfd, .int (BitVec.ofInt 32 param)⟩
  | .other => ⟨fd, 8, .none⟩

/-- The system of `FdTable`: the flags that `F_SETFL` sets, and `answer`. -/
def flagSystem (answer : BitVec 32) (kernel : ℤ → BitVec 32) (call : FcntlCall) :
    BitVec 32 × (ℤ → BitVec 32) :=
  if call.cmd = fGetfl then (kernel call.fd, kernel)
  else if call.cmd = fSetfl ∧ answer = 0 then
    match call.arg.vaInt with
    | some flag => (answer, Function.update kernel call.fd flag)
    | none => (answer, kernel)
  else (answer, kernel)

/-- Forget the calls. -/
def HookState.table (s : HookState (ℤ → BitVec 32)) : FdTable := ⟨s.kernel, s.fd2Attributes⟩

lemma createFdAttributes_table (s : HookState (ℤ → BitVec 32)) (fd : ℤ) :
    s.table.createFdAttributes fd =
      (s.createFdAttributes fd).map fun r => (r.1, r.2.table) := by
  unfold FdTable.createFdAttributes HookState.createFdAttributes
  split_ifs
  · rfl
  · have hsame : s.table.fd2Attributes fd = s.fd2Attributes fd := rfl
    rw [hsame]
    cases s.fd2Attributes fd <;> rfl
  · rfl

lemma hookFcntl_table (s : HookState (ℤ → BitVec 32)) (fd : ℤ) (cmd : Cmd) (answer : BitVec 32) :
    s.table.hookFcntl fd cmd answer =
      ((s.hookFcntl (flagSystem answer) (cmd.call fd)).1,
        (s.hookFcntl (flagSystem answer) (cmd.call fd)).2.table) := by
  cases cmd with
  | setfl param =>
    by_cases h : answer = 0#32
    · simp [FdTable.hookFcntl, HookState.hookFcntl, flagSystem, Cmd.call, HookState.table, h,
        Arg.vaInt, show fSetfl ≠ fGetfl by decide]
    · simp [FdTable.hookFcntl, HookState.hookFcntl, flagSystem, Cmd.call, HookState.table, h,
        show fSetfl ≠ fGetfl by decide]
  | _ => rfl

/-- The model of `FdTable` is this one over its system. -/
theorem fcntl_table (s : HookState (ℤ → BitVec 32)) (isHook : Bool) (fd : ℤ) (cmd : Cmd)
    (answer : BitVec 32) :
    s.table.fcntl isHook fd cmd answer =
      (s.fcntl (flagSystem answer) isHook (cmd.call fd)).map fun r => (r.1, r.2.table) := by
  have hfd : (cmd.call fd).fd = fd := by cases cmd <;> rfl
  unfold FdTable.fcntl HookState.fcntl
  rw [hfd, createFdAttributes_table]
  by_cases hneg : fd < 0
  · rw [if_pos hneg, if_pos hneg]
    rfl
  rw [if_neg hneg, if_neg hneg]
  cases s.createFdAttributes fd with
  | none => rfl
  | some r =>
    obtain ⟨attributes, s'⟩ := r
    have hcall := hookFcntl_table s' fd cmd answer
    cases cmd with
    | getfd =>
      simp only [Option.map_some, hcall]
      cases attributes <;> rfl
    | setfl param =>
      let flag := if isHook ∧ attributes.isSome then param ||| oNonblock else param
      have hflag := hookFcntl_table s' fd (.setfl flag) answer
      simp only [flag] at hflag
      simp only [Option.map_some, hflag]
      cases attributes with
      | none => rfl
      | some a =>
        generalize hr : s'.hookFcntl (flagSystem answer) _ = r
        have hswitch : s'.switchCmd (flagSystem answer) (some a) isHook
            (Cmd.call fd (.setfl param)) = some (r.1,
              if r.1 = 0 then r.2.setAttributes fd { a with fdFlag := param } else r.2) := by
          rw [← hr]
          rfl
        simp only [Option.bind_eq_bind, Option.bind_some, hswitch, Option.map_some]
        by_cases hret : r.1 = 0
        · rw [if_pos hret, if_pos hret]
          rfl
        · rw [if_neg hret, if_neg hret]
    | other => rfl
    | _ =>
      simp only [Option.map_some, hcall]
      rfl

end Libtask.Hook
