import Mathlib
import Libtask.Transition

/-!
# `fcntl` and `socket` of `hook.c`

The descriptors of a hooked task are made non-blocking behind its back, and
`fd_attributes` records the flags that the task believes in. The code that hides
the added bit stands under `F_GETFD`, where the kernel returns other flags, and
not under `F_GETFL`. Hence a task sees the bit it asked for exactly when it asked
for `O_NONBLOCK` itself.
-/
namespace Libtask.Hook
open Transition

/-- `O_NONBLOCK`, which is also `SOCK_NONBLOCK`. -/
def oNonblock : BitVec 32 := 0o4000#32

/-- The bit of `O_NONBLOCK` in a word of flags. -/
def nonblocking (flags : BitVec 32) : Bool := flags &&& oNonblock ≠ 0

/-- `struct fd_attributes`. -/
structure FdAttributes where
  domain : ℤ
  fdFlag : BitVec 32
  readTimeout : ℤ
  wirteTimeout : ℤ
  deriving DecidableEq, Repr

def attributesLength : ℤ := 125100 * 8

/-- The commands of `fcntl` with their arguments. -/
inductive Cmd
  | getfd
  | setfd (param : BitVec 32)
  | getfl
  | setfl (param : BitVec 32)
  | getlk
  | setlk
  | setlkw
  | dupfd (param : ℤ)
  | other
  deriving DecidableEq, Repr

/-- The flags that the kernel keeps for each descriptor, and `fd_2_attributes`. -/
structure FdTable where
  kernel : ℤ → BitVec 32
  fd2Attributes : ℤ → Option FdAttributes

namespace FdTable

/-- `Hook_fcntl_t`. The kernel returns the flags last given to a successful
`F_SETFL`; `answer` is what it returns otherwise, 0 for success. -/
def hookFcntl (s : FdTable) (fd : ℤ) (cmd : Cmd) (answer : BitVec 32) : BitVec 32 × FdTable :=
  match cmd with
  | .getfl => (s.kernel fd, s)
  | .setfl flag =>
    (answer, if answer = 0 then { s with kernel := Function.update s.kernel fd flag } else s)
  | _ => (answer, s)

/-- `Hook_socket_t`: the kernel answers with a descriptor that has these flags. -/
def hookSocket (s : FdTable) (fd : ℤ) (flags : BitVec 32) : FdTable :=
  if fd < 0 then s else { s with kernel := Function.update s.kernel fd flags }

/-- Write through a pointer to the attributes of `fd`. -/
def setAttributes (s : FdTable) (fd : ℤ) (attributes : FdAttributes) : FdTable :=
  { s with fd2Attributes := Function.update s.fd2Attributes fd (some attributes) }

/-- `create_fd_attributes`: the attributes of `fd`, `none` for the null pointer.
There is no result when the array is accessed out of its bounds, which the first
test does not prevent. -/
def createFdAttributes (s : FdTable) (fd : ℤ) : Option (Option FdAttributes × FdTable) :=
  if fd < 0 ∧ fd ≥ attributesLength then some (none, s)
  else if 0 ≤ fd ∧ fd < attributesLength then
    match s.fd2Attributes fd with
    | some attributes => some (some attributes, s)
    | none =>
      let attributes : FdAttributes := ⟨0, 0, 1000, 1000⟩
      some (some attributes, s.setAttributes fd attributes)
  else none

/-- `fcntl`, with the result of `current_is_hook`. -/
def fcntl (s : FdTable) (isHook : Bool) (fd : ℤ) (cmd : Cmd) (answer : BitVec 32) :
    Option (BitVec 32 × FdTable) :=
  if fd < 0 then some (119, s)
  else
    match s.createFdAttributes fd with
    | none => none
    | some (attributes, s) =>
      match cmd with
      | .getfd =>
        let (ret, s) := s.hookFcntl fd cmd answer
        match attributes with
        | some a => some (if a.fdFlag &&& oNonblock = 0 then ret &&& ~~~oNonblock else ret, s)
        | none => some (ret, s)
      | .setfd _ => some (0, (s.hookFcntl fd cmd answer).2)
      | .getfl | .getlk | .setlk | .setlkw | .dupfd _ => some (s.hookFcntl fd cmd answer)
      | .setfl param =>
        let flag := if isHook ∧ attributes.isSome then param ||| oNonblock else param
        let (ret, s) := s.hookFcntl fd (.setfl flag) answer
        match attributes with
        | some a => some (ret, if ret = 0 then s.setAttributes fd { a with fdFlag := param } else s)
        | none => some (ret, s)
      | .other => some (0, s)

/-- `socket`; the kernel answers with `fd` and `flags`, and with `answer` to
`F_SETFL`. The protocol is passed on to the kernel only. -/
def socket (s : FdTable) (isHook : Bool) (domain : ℤ) (fd : ℤ) (flags answer : BitVec 32) :
    Option (ℤ × FdTable) :=
  let s := s.hookSocket fd flags
  if ¬ isHook ∨ fd < 0 then some (fd, s)
  else
    match s.createFdAttributes fd with
    | none | some (none, _) => none
    | some (some attributes, s) =>
      let s := s.setAttributes fd { attributes with domain := domain }
      match s.fcntl isHook fd (.setfl (s.hookFcntl fd .getfl 0).1) answer with
      | none => none
      | some (_, s) => some (fd, s)

/-- The recorded `fd_flag`. -/
def recorded (s : FdTable) (fd : ℤ) : Option (BitVec 32) := (s.fd2Attributes fd).map (·.fdFlag)

end FdTable

/-- `wants` is the bit that the task last asked for, on the descriptors that the
hooked `socket` has returned. -/
structure HookRun where
  table : FdTable
  wants : ℤ → Option Bool

/-- The calls of hooked tasks, with what the kernel answers. -/
inductive Op
  | socket (domain : ℤ) (type : BitVec 32) (fd : ℤ) (flags answer : BitVec 32)
  | setfl (fd : ℤ) (param answer : BitVec 32)
  | getfl (fd : ℤ)

inductive Step (s : HookRun) : Op → HookRun → Prop
  | socket {domain fd : ℤ} {type flags answer : BitVec 32} {ret : ℤ} {table : FdTable}
      (h : s.table.socket true domain fd flags answer = some (ret, table)) :
      Step s (.socket domain type fd flags answer) ⟨table,
        if fd < 0 then s.wants else Function.update s.wants fd (some (nonblocking type))⟩
  | setfl {fd : ℤ} {param answer ret : BitVec 32} {table : FdTable}
      (h : s.table.fcntl true fd (.setfl param) answer = some (ret, table)) :
      Step s (.setfl fd param answer) ⟨table,
        if ret = 0 ∧ s.wants fd ≠ none then
          Function.update s.wants fd (some (nonblocking param)) else s.wants⟩
  | getfl {fd : ℤ} {ret : BitVec 32} {table : FdTable}
      (h : s.table.fcntl true fd .getfl 0 = some (ret, table)) :
      Step s (.getfl fd) ⟨table, s.wants⟩

def hookSystem : System HookRun Op where
  init s := s.table.fd2Attributes = (fun _ => none) ∧ s.wants = fun _ => none
  step := Step

/-- What the manual pages say: a new descriptor is non-blocking if and only if
`SOCK_NONBLOCK` was given, and its flags can be set to those it has and
`O_NONBLOCK`. -/
def Documented (_ : HookRun) : Op → Prop
  | .socket _ type fd flags answer => 0 ≤ fd → nonblocking flags = nonblocking type ∧ answer = 0
  | _ => True

/-- The mode that the library needs is in the kernel and hidden from the task. -/
structure Hidden (s : FdTable) (fd : ℤ) (wants : Bool) : Prop where
  kernel : nonblocking (s.kernel fd) = true
  getfl : ∃ ret s', s.fcntl true fd .getfl 0 = some (ret, s') ∧ nonblocking ret = wants
  writeBack : ∀ answer, ∃ ret s' ret' s'', s.fcntl true fd .getfl 0 = some (ret, s') ∧
    s'.fcntl true fd (.setfl ret) answer = some (ret', s'') ∧ s''.recorded fd = s.recorded fd

lemma oNonblock_eq : oNonblock = BitVec.twoPow 32 11 := by decide

lemma nonblocking_eq (flags : BitVec 32) : nonblocking flags = flags.getLsbD 11 := by
  rw [nonblocking, oNonblock_eq, BitVec.and_twoPow]
  cases flags.getLsbD 11 <;> decide

@[simp] lemma nonblocking_or (flags : BitVec 32) : nonblocking (flags ||| oNonblock) = true := by
  rw [nonblocking_eq, BitVec.getLsbD_or, oNonblock_eq]
  simp

lemma or_of_nonblocking {flags : BitVec 32} (h : nonblocking flags = true) :
    flags ||| oNonblock = flags := by
  rw [nonblocking_eq] at h
  rw [oNonblock_eq]
  ext i hi
  by_cases hbit : i = 11
  · subst hbit
    simpa using h
  · simp [BitVec.getElem_twoPow, hbit]

section Calls

variable {s s' : FdTable} {fd : ℤ} {attributes : Option FdAttributes}

/-- The attributes of a descriptor within the bounds are in the array afterwards. -/
lemma createFdAttributes_spec (h : s.createFdAttributes fd = some (attributes, s')) :
    (0 ≤ fd ∧ fd < attributesLength) ∧ s'.kernel = s.kernel ∧ ∃ a, attributes = some a ∧
      s'.fd2Attributes = Function.update s.fd2Attributes fd (some a) := by
  unfold FdTable.createFdAttributes at h
  split_ifs at h with hboth hrange
  · have hlen : attributesLength = 1000800 := rfl
    omega
  · refine ⟨hrange, ?_⟩
    cases hfd : s.fd2Attributes fd with
    | none =>
      rw [hfd] at h
      obtain ⟨rfl, rfl⟩ := Prod.mk.inj (Option.some.inj h)
      exact ⟨rfl, _, rfl, rfl⟩
    | some a =>
      rw [hfd] at h
      obtain ⟨rfl, rfl⟩ := Prod.mk.inj (Option.some.inj h)
      refine ⟨rfl, a, rfl, ?_⟩
      rw [← hfd, Function.update_eq_self]

lemma createFdAttributes_of_some (hrange : 0 ≤ fd ∧ fd < attributesLength) {a : FdAttributes}
    (ha : s.fd2Attributes fd = some a) : s.createFdAttributes fd = some (some a, s) := by
  unfold FdTable.createFdAttributes
  rw [if_neg (by omega), if_pos hrange, ha]

lemma fcntl_getfl (hrange : 0 ≤ fd ∧ fd < attributesLength) {a : FdAttributes}
    (ha : s.fd2Attributes fd = some a) (isHook : Bool) (answer : BitVec 32) :
    s.fcntl isHook fd .getfl answer = some (s.kernel fd, s) := by
  unfold FdTable.fcntl
  rw [if_neg (by omega), createFdAttributes_of_some hrange ha]
  rfl

/-- After `F_SETFL` of a hooked task. -/
def setflAfter (s : FdTable) (fd : ℤ) (param : BitVec 32) (a : FdAttributes) : FdTable :=
  ⟨Function.update s.kernel fd (param ||| oNonblock),
    Function.update s.fd2Attributes fd (some { a with fdFlag := param })⟩

lemma fcntl_setfl {param answer : BitVec 32} (hfd : 0 ≤ fd) {a : FdAttributes}
    (ha : s.createFdAttributes fd = some (some a, s')) :
    s.fcntl true fd (.setfl param) answer =
      some (answer, if answer = 0 then setflAfter s' fd param a else s') := by
  unfold FdTable.fcntl
  rw [if_neg (by omega), ha]
  by_cases hanswer : answer = 0#32 <;>
    simp [FdTable.hookFcntl, FdTable.setAttributes, setflAfter, hanswer]

end Calls

/-- The attributes hold the flags of the task, and the kernel the same flags and
`O_NONBLOCK`. -/
def Recorded (s : FdTable) (fd : ℤ) (wants : Bool) : Prop :=
  (0 ≤ fd ∧ fd < attributesLength) ∧ ∃ a, s.fd2Attributes fd = some a ∧
    nonblocking a.fdFlag = wants ∧ s.kernel fd = a.fdFlag ||| oNonblock

def RunInv (s : HookRun) : Prop := ∀ fd wants, s.wants fd = some wants → Recorded s.table fd wants

section Steps

variable {s : HookRun} {fd : ℤ}

/-- A call that leaves the other descriptors as they are. -/
lemma RunInv.update (h : RunInv s) {table : FdTable} {w : ℤ → Option Bool}
    (hwants : ∀ fd', fd' ≠ fd → w fd' = s.wants fd')
    (hkernel : ∀ fd', fd' ≠ fd → table.kernel fd' = s.table.kernel fd')
    (hattr : ∀ fd', fd' ≠ fd → table.fd2Attributes fd' = s.table.fd2Attributes fd')
    (hfd : ∀ wants, w fd = some wants → Recorded table fd wants) : RunInv ⟨table, w⟩ := by
  intro fd' wants hw
  by_cases heq : fd' = fd
  · subst heq
    exact hfd wants hw
  · obtain ⟨hrange, a, ha, hbit, hflags⟩ := h fd' wants (by rw [← hwants fd' heq]; exact hw)
    exact ⟨hrange, a, by rw [hattr fd' heq, ha], hbit, by rw [hkernel fd' heq, hflags]⟩

lemma recorded_setfl {t : FdTable} {a : FdAttributes} (hrange : 0 ≤ fd ∧ fd < attributesLength)
    (param : BitVec 32) : Recorded (setflAfter t fd param a) fd (nonblocking param) :=
  ⟨hrange, _, Function.update_self .., rfl, Function.update_self ..⟩

/-- A record that exists stays, and a new one belongs to no socket yet. -/
lemma RunInv.create (h : RunInv s) {attributes : Option FdAttributes} {t : FdTable}
    (hcreate : s.table.createFdAttributes fd = some (attributes, t)) : RunInv ⟨t, s.wants⟩ := by
  obtain ⟨-, hkernel, a, -, hattr⟩ := createFdAttributes_spec hcreate
  apply h.update (fun fd' (_ : fd' ≠ fd) => rfl)
  · intro fd' _
    rw [hkernel]
  · intro fd' hne
    rw [hattr, Function.update_of_ne hne]
  · intro wants hw
    obtain ⟨hrange, a', ha', hrest⟩ := h fd wants hw
    rw [createFdAttributes_of_some hrange ha'] at hcreate
    obtain ⟨-, rfl⟩ := Prod.mk.inj (Option.some.inj hcreate)
    exact ⟨hrange, a', ha', hrest⟩

/-- A successful `F_SETFL`. -/
lemma RunInv.setflAfter (h : RunInv s) (hrange : 0 ≤ fd ∧ fd < attributesLength)
    (param : BitVec 32) (a : FdAttributes) {w : ℤ → Option Bool}
    (hwants : ∀ fd', fd' ≠ fd → w fd' = s.wants fd')
    (hfd : ∀ wants, w fd = some wants → wants = nonblocking param) :
    RunInv ⟨Hook.setflAfter s.table fd param a, w⟩ := by
  apply h.update hwants
  · exact fun fd' hne => Function.update_of_ne hne ..
  · exact fun fd' hne => Function.update_of_ne hne ..
  · intro wants hw
    rw [hfd wants hw]
    exact recorded_setfl hrange param

lemma RunInv.setfl (h : RunInv s) {param answer ret : BitVec 32} {table : FdTable}
    (hcall : s.table.fcntl true fd (.setfl param) answer = some (ret, table)) :
    RunInv ⟨table, if ret = 0 ∧ s.wants fd ≠ none then
      Function.update s.wants fd (some (nonblocking param)) else s.wants⟩ := by
  by_cases hfd : fd < 0
  · unfold FdTable.fcntl at hcall
    rw [if_pos hfd] at hcall
    obtain ⟨rfl, rfl⟩ := Prod.mk.inj (Option.some.inj hcall)
    rw [if_neg (by simp)]
    exact h
  · cases hcreate : s.table.createFdAttributes fd with
    | none =>
      unfold FdTable.fcntl at hcall
      rw [if_neg hfd, hcreate] at hcall
      cases hcall
    | some r =>
      obtain ⟨attributes, t⟩ := r
      have ht := h.create hcreate
      obtain ⟨hrange, -, a, rfl, -⟩ := createFdAttributes_spec hcreate
      rw [fcntl_setfl hrange.1 hcreate] at hcall
      obtain ⟨rfl, rfl⟩ := Prod.mk.inj (Option.some.inj hcall)
      by_cases hanswer : answer = 0
      · rw [if_pos hanswer]
        apply ht.setflAfter hrange
        · intro fd' hne
          split_ifs
          · exact Function.update_of_ne hne ..
          · rfl
        · intro wants hw
          split_ifs at hw with hcond
          · rw [Function.update_self] at hw
            exact (Option.some.inj hw).symm
          · rw [not_and_not_right] at hcond
            rw [hcond hanswer] at hw
            cases hw
      · rw [if_neg hanswer, if_neg fun hcond => hanswer hcond.1]
        exact ht

lemma RunInv.getfl (h : RunInv s) {ret : BitVec 32} {table : FdTable}
    (hcall : s.table.fcntl true fd .getfl 0 = some (ret, table)) : RunInv ⟨table, s.wants⟩ := by
  unfold FdTable.fcntl at hcall
  split_ifs at hcall with hfd
  · obtain ⟨-, rfl⟩ := Prod.mk.inj (Option.some.inj hcall)
    exact h
  · cases hcreate : s.table.createFdAttributes fd with
    | none =>
      rw [hcreate] at hcall
      cases hcall
    | some r =>
      rw [hcreate] at hcall
      obtain ⟨-, rfl⟩ := Prod.mk.inj (Option.some.inj hcall)
      exact h.create hcreate

/-- `socket` records the flags of the new descriptor, and makes it non-blocking. -/
lemma RunInv.socket (h : RunInv s) {domain ret : ℤ} {type flags answer : BitVec 32}
    {table : FdTable} (hdoc : Documented s (.socket domain type fd flags answer))
    (hcall : s.table.socket true domain fd flags answer = some (ret, table)) :
    RunInv ⟨table, if fd < 0 then s.wants
      else Function.update s.wants fd (some (nonblocking type))⟩ := by
  unfold FdTable.socket at hcall
  by_cases hfd : fd < 0
  · rw [if_pos (.inr hfd)] at hcall
    obtain ⟨-, rfl⟩ := Prod.mk.inj (Option.some.inj hcall)
    rw [if_pos hfd, FdTable.hookSocket, if_pos hfd]
    exact h
  · rw [if_neg (by simpa using hfd), FdTable.hookSocket, if_neg hfd] at hcall
    rw [if_neg hfd]
    obtain ⟨hflags, rfl⟩ := hdoc (by omega)
    cases hcreate : FdTable.createFdAttributes
        ⟨Function.update s.table.kernel fd flags, s.table.fd2Attributes⟩ fd with
    | none =>
      rw [hcreate] at hcall
      cases hcall
    | some r =>
      obtain ⟨attributes, t⟩ := r
      obtain ⟨hrange, hkernel, a, rfl, hattr⟩ := createFdAttributes_spec hcreate
      change t.kernel = Function.update s.table.kernel fd flags at hkernel
      have hfl : (t.setAttributes fd { a with domain := domain }).kernel fd = flags := by
        show t.kernel fd = flags
        rw [hkernel, Function.update_self]
      have hagain := createFdAttributes_of_some
        (s := t.setAttributes fd { a with domain := domain }) hrange (Function.update_self ..)
      rw [hcreate] at hcall
      simp only [FdTable.hookFcntl, hfl, fcntl_setfl hrange.1 hagain, if_true] at hcall
      obtain ⟨-, rfl⟩ := Prod.mk.inj (Option.some.inj hcall)
      -- the descriptor belongs to nobody until its flags are set
      have hnew : RunInv ⟨t.setAttributes fd { a with domain := domain },
          Function.update s.wants fd none⟩ := by
        apply h.update (fun fd' (hne : fd' ≠ fd) => Function.update_of_ne hne ..)
        · intro fd' hne
          show t.kernel fd' = _
          rw [hkernel, Function.update_of_ne hne]
        · intro fd' hne
          show Function.update t.fd2Attributes fd _ fd' = _
          rw [Function.update_of_ne hne, hattr, Function.update_of_ne hne]
        · intro wants hw
          rw [Function.update_self] at hw
          cases hw
      apply hnew.setflAfter hrange
      · intro fd' hne
        show _ = Function.update s.wants fd none fd'
        rw [Function.update_of_ne hne, Function.update_of_ne hne]
      · intro wants hw
        rw [Function.update_self] at hw
        rw [hflags]
        exact (Option.some.inj hw).symm

theorem RunInv.step (h : RunInv s) {op : Op} {s' : HookRun} (hdoc : Documented s op)
    (hst : Step s op s') : RunInv s' := by
  cases hst with
  | socket hcall => exact h.socket hdoc hcall
  | setfl hcall => exact h.setfl hcall
  | getfl hcall => exact h.getfl hcall

end Steps

theorem runInv_of_documented {s : HookRun} (hs : hookSystem.Reach Documented s) : RunInv s := by
  refine hs.invariant ?_ fun s op s' h hdoc hst => h.step hdoc hst
  intro s hs fd wants hw
  rw [hs.2] at hw
  cases hw

/-- The record says that the mode is hidden if and only if the task asked for it. -/
lemma Recorded.hidden_iff {s : FdTable} {fd : ℤ} {wants : Bool} (h : Recorded s fd wants) :
    Hidden s fd wants ↔ wants = true := by
  obtain ⟨hrange, a, ha, hbit, hflags⟩ := h
  have hget := fcntl_getfl hrange ha true 0
  have hset : nonblocking (s.kernel fd) = true := by rw [hflags, nonblocking_or]
  constructor
  · intro hidden
    obtain ⟨ret, s', hcall, hret⟩ := hidden.getfl
    rw [hget] at hcall
    obtain ⟨rfl, -⟩ := Prod.mk.inj (Option.some.inj hcall)
    rw [← hret, hset]
  · intro hwants
    rw [hwants] at hbit
    refine ⟨hset, ⟨_, s, hget, by rw [hset, hwants]⟩, fun answer => ?_⟩
    have hput : s.fcntl true fd (.setfl (s.kernel fd)) answer = _ :=
      fcntl_setfl hrange.1 (createFdAttributes_of_some hrange ha)
    refine ⟨_, s, _, _, hget, hput, ?_⟩
    -- the flags of the kernel are those of the task
    rw [hflags, or_of_nonblocking hbit]
    split_ifs
    · simp [FdTable.recorded, setflAfter, ha]
    · rfl

/-- `O_NONBLOCK` is always in the kernel; it is hidden from the task just when the
task asked for it itself. -/
theorem hidden_iff_wants {s : HookRun} (hs : hookSystem.Reach Documented s) {fd : ℤ}
    {wants : Bool} (hfd : s.wants fd = some wants) :
    nonblocking (s.table.kernel fd) = true ∧ (Hidden s.table fd wants ↔ wants = true) := by
  have h := runInv_of_documented hs fd wants hfd
  refine ⟨?_, h.hidden_iff⟩
  obtain ⟨-, a, -, -, hflags⟩ := h
  rw [hflags, nonblocking_or]

/-- Nothing is open. -/
def hookStart : HookRun := ⟨⟨fun _ => 0, fun _ => none⟩, fun _ => none⟩

/-- After `socket(AF_INET, type, 0)` has returned 3. -/
def opened (type flags : BitVec 32) : HookRun :=
  ⟨setflAfter ⟨Function.update (fun _ => 0) 3 flags, fun _ => none⟩ 3 flags ⟨2, 0, 1000, 1000⟩,
    Function.update (fun _ => none) 3 (some (nonblocking type))⟩

lemma opened_reach {type flags : BitVec 32} (h : nonblocking flags = nonblocking type) :
    hookSystem.Reach Documented (opened type flags) := by
  have hstart : hookSystem.Reach Documented hookStart := .init ⟨rfl, rfl⟩
  have hcall : hookStart.table.socket true 2 3 flags 0 = some (3, (opened type flags).table) := by
    simp [hookStart, opened, FdTable.socket, FdTable.hookSocket, FdTable.createFdAttributes,
      attributesLength, FdTable.setAttributes, FdTable.hookFcntl, FdTable.fcntl, setflAfter]
  exact .step hstart (a := .socket 2 type 3 flags 0) (fun _ => ⟨h, rfl⟩) (.socket hcall)

theorem hidden_opened : Hidden (opened 0x801 0x802).table 3 true :=
  (hidden_iff_wants (opened_reach (by decide)) rfl).2.mpr rfl

/-- A task that opens a blocking socket reads `O_NONBLOCK`. -/
theorem not_hidden : ¬ ∀ s fd wants, hookSystem.Reach Documented s → s.wants fd = some wants →
    Hidden s.table fd wants := by
  intro hall
  have hreach : hookSystem.Reach Documented (opened 1 2) := opened_reach (by decide)
  have hfalse := (runInv_of_documented hreach 3 false rfl).hidden_iff.mp (hall _ 3 false hreach rfl)
  cases hfalse

end Libtask.Hook
