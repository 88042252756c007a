import Libtask.Task.Handler

/-!
# `sleep`, `usleep` and `nanosleep` of `hook.c`

Requests in three units become one number of milliseconds, in 32 bits. What is
stored is the request in whole milliseconds modulo 2^32, so the task is promised
the time it asked for exactly when it asked for whole milliseconds and for less
than 2^32 of them.
-/
namespace Libtask.Sched

/-- `struct timespec` with a valid number of nanoseconds. -/
structure Timespec where
  tvSec : Int64
  tvNsec : Int64
  nsec_nonneg : 0 ≤ tvNsec.toInt
  nsec_lt : tvNsec.toInt < 10 ^ 9

/-- The calls that put a task to sleep. -/
inductive SleepCall
  | sleep (seconds : UInt32)
  | usleep (usec : UInt32)
  | nanosleep (req : Timespec)

namespace SleepCall

/-- The requested duration in nanoseconds. -/
def requested : SleepCall → ℤ
  | .sleep seconds => seconds.toNat * 10 ^ 9
  | .usleep usec => usec.toNat * 1000
  | .nanosleep req => req.tvSec.toInt * 10 ^ 9 + req.tvNsec.toInt

/-- The expression that the hook stores, in unbounded integers. -/
def milliseconds : SleepCall → ℤ
  | .sleep seconds => seconds.toNat * 1000
  | .usleep usec => usec.toNat / 1000
  | .nanosleep req => req.tvSec.toInt * 1000 + req.tvNsec.toInt / 1000000

/-- What the hook stores. -/
def duration : SleepCall → UInt32
  | .sleep seconds => sleepDuration seconds
  | .usleep usec => usleepDuration usec
  | .nanosleep req => nanosleepDuration req.tvSec req.tvNsec

/-- The stored value keeps the request: it is no shorter, no product or sum was
reduced and no part of a millisecond dropped. -/
structure Kept (call : SleepCall) (stored : UInt32) : Prop where
  atLeast : call.requested ≤ stored.toNat * 10 ^ 6
  unreduced : (stored.toNat : ℤ) = call.milliseconds
  noRemainder : call.milliseconds * 10 ^ 6 = call.requested

end SleepCall

variable {κ : Type}

/-- A hook up to its busy waiting. `none` when the request is passed on to the
system. -/
def hookSleep (s : Sched κ) (millisecond : UInt32) : Option (Sched κ) :=
  if s.current.isHook then some (s.requestSleep millisecond) else none

def sleep (s : Sched κ) (seconds : UInt32) : Option (Sched κ) :=
  s.hookSleep (sleepDuration seconds)

def usleep (s : Sched κ) (usec : UInt32) : Option (Sched κ) := s.hookSleep (usleepDuration usec)

def nanosleep (s : Sched κ) (req : Timespec) : Option (Sched κ) :=
  s.hookSleep (nanosleepDuration req.tvSec req.tvNsec)

/-- The call of a task. -/
def sleepCall (s : Sched κ) : SleepCall → Option (Sched κ)
  | .sleep seconds => s.sleep seconds
  | .usleep usec => s.usleep usec
  | .nanosleep req => s.nanosleep req

lemma int64_toNat_toUInt32 (x : Int64) : (x.toUInt64.toUInt32.toNat : ℤ) = x.toInt % 2 ^ 32 := by
  have hmod : x.toInt % 2 ^ 64 = x.toUInt64.toNat := by
    have hbmod : x.toInt = Int.bmod x.toUInt64.toNat (2 ^ 64) := BitVec.toInt_eq_toNat_bmod _
    have hlt : x.toUInt64.toNat < 2 ^ 64 := x.toUInt64.toNat_lt
    have hemod : Int.bmod x.toUInt64.toNat (2 ^ 64) % (2 ^ 64 : ℕ) =
        (x.toUInt64.toNat : ℤ) % (2 ^ 64 : ℕ) := Int.bmod_emod
    rw [← hbmod] at hemod
    omega
  rw [UInt64.toNat_toUInt32]
  omega

lemma sleepDuration_toNat (seconds : UInt32) :
    ((sleepDuration seconds).toNat : ℤ) = (seconds.toNat * 1000 : ℤ) % 2 ^ 32 := by
  have hmul : (seconds * 1000).toNat = seconds.toNat * 1000 % 2 ^ 32 := UInt32.toNat_mul ..
  rw [sleepDuration, hmul]
  omega

lemma usleepDuration_toNat (usec : UInt32) :
    ((usleepDuration usec).toNat : ℤ) = (usec.toNat / 1000 : ℤ) % 2 ^ 32 := by
  have hdiv : (usec / 1000).toNat = usec.toNat / 1000 := UInt32.toNat_div ..
  have hlt := usec.toNat_lt
  rw [usleepDuration, hdiv]
  omega

/-- The product is reduced modulo 2^64 first, which the reduction to 32 bits hides. -/
lemma nanosleepDuration_toNat (req : Timespec) :
    ((nanosleepDuration req.tvSec req.tvNsec).toNat : ℤ) =
      (req.tvSec.toInt * 1000 + req.tvNsec.toInt / 1000000) % 2 ^ 32 := by
  have hmul : (req.tvSec * 1000).toInt = (req.tvSec.toInt * 1000).bmod (2 ^ 64) :=
    Int64.toInt_mul ..
  have hemod : (req.tvSec.toInt * 1000).bmod (2 ^ 64) % (2 ^ 64 : ℕ) =
      (req.tvSec.toInt * 1000) % (2 ^ 64 : ℕ) := Int.bmod_emod
  have hdiv : (req.tvNsec / 1000000).toInt = req.tvNsec.toInt / 1000000 := by
    rw [Int64.toInt_div_of_ne_right _ _ (by decide)]
    exact Int.tdiv_eq_ediv_of_nonneg req.nsec_nonneg
  have hsec := int64_toNat_toUInt32 (req.tvSec * 1000)
  have hnsec := int64_toNat_toUInt32 (req.tvNsec / 1000000)
  rw [hmul] at hsec
  rw [hdiv] at hnsec
  rw [nanosleepDuration, UInt32.toNat_add]
  omega

/-- Each hook stores the whole milliseconds of the request, modulo 2^32. -/
lemma SleepCall.duration_toNat (call : SleepCall) :
    (call.duration.toNat : ℤ) = call.milliseconds % 2 ^ 32 := by
  cases call with
  | sleep seconds => exact sleepDuration_toNat seconds
  | usleep usec => exact usleepDuration_toNat usec
  | nanosleep req => exact nanosleepDuration_toNat req

lemma SleepCall.milliseconds_eq (call : SleepCall) :
    call.milliseconds = call.requested / 10 ^ 6 := by
  cases call with
  | sleep seconds =>
    simp only [milliseconds, requested]
    omega
  | usleep usec =>
    simp only [milliseconds, requested]
    omega
  | nanosleep req =>
    simp only [milliseconds, requested]
    omega

/-- The exact arguments for which the stored value keeps the request. -/
lemma SleepCall.kept_iff (call : SleepCall) :
    call.Kept call.duration ↔
      10 ^ 6 ∣ call.requested ∧ 0 ≤ call.requested ∧ call.requested < 2 ^ 32 * 10 ^ 6 := by
  have hstored := call.duration_toNat
  have hwhole := call.milliseconds_eq
  constructor
  · intro h
    have hunreduced := h.unreduced
    have hexact := h.noRemainder
    exact ⟨Dvd.intro_left _ hexact, by omega, by omega⟩
  · rintro ⟨⟨k, hk⟩, hnonneg, hlt⟩
    have hms : call.milliseconds = k := by omega
    constructor
    · omega
    · omega
    · omega

/-- The hook of a task that asked for hooks stores the duration in its `task_struct`. -/
lemma sleepCall_of_hook {s : Sched κ} (hhook : s.current.isHook = true) (call : SleepCall) :
    s.sleepCall call = some (s.requestSleep call.duration) := by
  cases call with
  | sleep => exact if_pos hhook
  | usleep => exact if_pos hhook
  | nanosleep => exact if_pos hhook

lemma requestSleep_sleepMillisecond (s : Sched κ) (millisecond : UInt32) :
    (s.requestSleep millisecond).current.sleepMillisecond = millisecond := by
  have hcurrent : (s.requestSleep millisecond).current = { s.current with
      isCollaborativeSchedule := true
      sleepMillisecond := millisecond } := setTask_task_self ..
  rw [hcurrent]

/-- A hooked task is never refused, and gets at least the time it asked for
exactly when that is a whole number of milliseconds below 2^32. -/
theorem sleepCall_kept_iff (s : Sched κ) (hhook : s.current.isHook = true) (call : SleepCall) :
    (∃ s', s.sleepCall call = some s' ∧ call.Kept s'.current.sleepMillisecond) ↔
      10 ^ 6 ∣ call.requested ∧ 0 ≤ call.requested ∧ call.requested < 2 ^ 32 * 10 ^ 6 := by
  rw [← call.kept_iff]
  constructor
  · rintro ⟨s', hcall, hkept⟩
    rw [sleepCall_of_hook hhook] at hcall
    obtain rfl := Option.some.inj hcall
    rwa [requestSleep_sleepMillisecond] at hkept
  · intro hkept
    exact ⟨_, sleepCall_of_hook hhook call, by rwa [requestSleep_sleepMillisecond]⟩

/-- A task that asked for hooks before any other is created. -/
def hookedBoot : Sched Unit := (boot fun _ => 0).coEnableHookSys

lemma hookedBoot_isHook : hookedBoot.current.isHook = true := rfl

theorem sleepCall_kept_thousand :
    ∃ s', hookedBoot.sleepCall (.sleep 1000) = some s' ∧
      SleepCall.Kept (.sleep 1000) s'.current.sleepMillisecond :=
  (sleepCall_kept_iff hookedBoot hookedBoot_isHook (.sleep 1000)).mpr (by decide)

/-- 999 microseconds are stored as no time at all. -/
theorem not_sleepCall_kept : ¬ ∀ (s : Sched Unit) (call : SleepCall), s.current.isHook = true →
    ∃ s', s.sleepCall call = some s' ∧ call.Kept s'.current.sleepMillisecond := by
  intro hall
  obtain ⟨s', hcall, hkept⟩ := hall hookedBoot (.usleep 999) hookedBoot_isHook
  have hstored : s'.current.sleepMillisecond = 0 := by
    rw [sleepCall_of_hook hookedBoot_isHook] at hcall
    obtain rfl := Option.some.inj hcall
    rfl
  have hshort := hkept.atLeast
  rw [hstored] at hshort
  exact absurd hshort (by decide)

end Libtask.Sched
