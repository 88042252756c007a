import Libtask.Ioqueue.Window
import Libtask.Task.Locking

/-!
# The ring of `device/ioqueue.c`

The indices are `int32_t`; an index outside `buf` names no cell. The lock of a
`struct ioqueue` is modelled with the tasks that use it.
-/
namespace Libtask.Ioq
open Window

def bufsize : Int32 := 64

scoped instance neZero_bufsize : NeZero 64 := ⟨by decide⟩

/-- The two kinds of callers, each with its own waiter slot. -/
inductive Side
  /-- `ioq_getchar` and `ioq->consumer` -/
  | consumer
  /-- `ioq_putchar` and `ioq->producer` -/
  | producer
  deriving DecidableEq, Repr

def Side.other : Side → Side
  | .consumer => .producer
  | .producer => .consumer

@[simp] lemma Side.other_other (side : Side) : side.other.other = side := by cases side <;> rfl

lemma Side.ne_other (side : Side) : side ≠ side.other := by cases side <;> simp [Side.other]

lemma Side.eq_or_other (a b : Side) : a = b ∨ a = b.other := by
  cases a <;> cases b <;> simp [Side.other]

/-- `struct ioqueue` without its lock. -/
structure Ioqueue where
  waiter : Side → Option TaskAddr
  buf : Fin 64 → UInt8
  head : Int32
  tail : Int32

/-- `ioqueue_init`; it leaves `buf` as it is. -/
def ioqueueInit (buf : Fin 64 → UInt8) : Ioqueue := ⟨fun _ => none, buf, 0, 0⟩

def nextPos (pos : Int32) : Int32 := (pos + 1) % bufsize

def ioqFull (q : Ioqueue) : Bool := nextPos q.head = q.tail

def ioqEmpty (q : Ioqueue) : Bool := q.head = q.tail

def ioqLength (q : Ioqueue) : UInt32 :=
  if q.head ≥ q.tail then (q.head - q.tail).toUInt32
  else (bufsize - (q.tail - q.head)).toUInt32

/-- The cell that an index names. -/
def cell (pos : Int32) : Option (Fin 64) :=
  if h : 0 ≤ pos.toInt ∧ pos.toInt < 64 then some ⟨pos.toInt.toNat, by omega⟩ else none

/-- The bytes from an index to `head`. -/
def bytesFrom (q : Ioqueue) : ℕ → Int32 → List UInt8
  | 0, _ => []
  | fuel + 1, pos =>
    if pos = q.head then []
    else ((cell pos).toList.map q.buf) ++ bytesFrom q fuel (nextPos pos)

/-- The bytes from `tail` to `head`. -/
def ringBytes (q : Ioqueue) : List UInt8 := bytesFrom q 64 q.tail

/-- The index of a cell. -/
def position (i : Fin 64) : Int32 := Int32.ofNat i.val

@[simp] lemma cell_position (i : Fin 64) : cell (position i) = some i := by
  revert i
  decide

@[simp] lemma nextPos_position (i : Fin 64) : nextPos (position i) = position (place i 1) := by
  revert i
  decide

lemma position_inj {i j : Fin 64} : position i = position j ↔ i = j := by
  constructor
  · intro h
    have hcell := congrArg cell h
    rw [cell_position, cell_position] at hcell
    exact Option.some.inj hcell
  · rintro rfl
    rfl

lemma position_range (i : Fin 64) : 0 ≤ position i ∧ position i < bufsize := by
  revert i
  decide

lemma length_position (tail len : Fin 64) :
    (if position (place tail len) ≥ position tail then
      (position (place tail len) - position tail).toUInt32
    else (bufsize - (position tail - position (place tail len))).toUInt32).toNat = len := by
  revert tail len
  decide +kernel

/-- `len` bytes stand in the ring, from the cell `tail` on. -/
structure Holds (q : Ioqueue) (tail : Fin 64) (len : ℕ) : Prop where
  tail_eq : q.tail = position tail
  head_eq : q.head = position (place tail len)
  len_lt : len < 64

section Holds

variable {q : Ioqueue} {tail : Fin 64} {len : ℕ}

theorem Holds.empty (h : Holds q tail len) : ioqEmpty q = true ↔ len = 0 := by
  have hplace : tail = place tail 0 := (place_zero tail).symm
  rw [ioqEmpty, decide_eq_true_iff, h.head_eq, h.tail_eq, position_inj]
  nth_rewrite 2 [hplace]
  exact place_inj h.len_lt (by omega)

theorem Holds.full (h : Holds q tail len) : ioqFull q = true ↔ len = 63 := by
  rw [ioqFull, decide_eq_true_iff, h.head_eq, h.tail_eq, nextPos_position, position_inj,
    place_place]
  by_cases hlen : len = 63
  · subst hlen
    refine ⟨fun _ => rfl, fun _ => Fin.ext ?_⟩
    show (tail.val + 64) % 64 = tail.val
    have := tail.isLt
    omega
  · have hplace : tail = place tail 0 := (place_zero tail).symm
    nth_rewrite 2 [hplace]
    rw [place_inj (by have := h.len_lt; omega) (by omega)]
    omega

theorem Holds.length (h : Holds q tail len) : (ioqLength q).toNat = len := by
  rw [ioqLength, h.head_eq, h.tail_eq]
  exact length_position tail ⟨len, h.len_lt⟩

lemma bytesFrom_position (hhead : q.head = position (place tail len)) {fuel : ℕ} :
    ∀ k ≤ len, len - k ≤ fuel → len < 64 →
      bytesFrom q fuel (position (place tail k)) = window q.buf (place tail k) (len - k) := by
  induction fuel with
  | zero =>
    intro k hk hfuel hlen
    have hzero : len - k = 0 := by omega
    rw [hzero]
    rfl
  | succ fuel ih =>
    intro k hk hfuel hlen
    have hstop : position (place tail k) = position (place tail len) ↔ k = len := by
      rw [position_inj, place_inj (by omega) hlen]
    rw [bytesFrom, hhead]
    by_cases hend : k = len
    · rw [if_pos (hstop.mpr hend), hend, Nat.sub_self]
      rfl
    · obtain ⟨m, hm⟩ : ∃ m, len - k = m + 1 := ⟨len - k - 1, by omega⟩
      have hrest := ih (k + 1) (by omega) (by omega) hlen
      have hm' : len - (k + 1) = m := by omega
      rw [if_neg fun heq => hend (hstop.mp heq), cell_position, nextPos_position, place_place,
        hrest, hm, hm', window_cons, place_place]
      rfl

/-- The bytes in the ring are a window of its buffer. -/
theorem Holds.ringBytes (h : Holds q tail len) : ringBytes q = window q.buf tail len := by
  have hlen := h.len_lt
  have hbytes : bytesFrom q 64 (position (place tail 0)) = _ :=
    bytesFrom_position h.head_eq 0 (by omega) (by omega) hlen
  rw [place_zero, Nat.sub_zero] at hbytes
  rw [Ioq.ringBytes, h.tail_eq, hbytes]

end Holds

end Libtask.Ioq
