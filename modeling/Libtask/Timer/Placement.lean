import Mathlib
import Libtask.Timer.Wheel

/-!
# Where `add_timer` puts a node

Times are unwrapped here: `t` is the tick about to be processed and `e` the
tick at which a node is due, both natural numbers of which `uJiffies` and
`uExpires` are the residues modulo 2^32. A level covers blocks of 2^8, 2^14,
2^20 and 2^26 ticks; its slots are cascaded at the first tick of a block.
-/
namespace Libtask.Timer

lemma tvrMask_toNat : tvrMask.toNat = 2 ^ 8 - 1 := by decide
lemma tvnMask_toNat : tvnMask.toNat = 2 ^ 6 - 1 := by decide

@[simp] lemma tvrIndex_val (u : UInt32) : (tvrIndex u).val = u.toNat % 256 := by
  simp only [tvrIndex, Fin.val_ofNat, UInt32.toNat_and, tvrMask_toNat,
    Nat.and_two_pow_sub_one_eq_mod]
  omega

lemma tvnIndex_val_of_shift (n u : UInt32) (k : ℕ)
    (hk : (tvrBits + n * tvnBits).toNat % 32 = k) :
    (tvnIndex n u).val = u.toNat / 2 ^ k % 64 := by
  simp only [tvnIndex, Fin.val_ofNat, UInt32.toNat_and, UInt32.toNat_shiftRight, hk,
    tvnMask_toNat, Nat.and_two_pow_sub_one_eq_mod, Nat.shiftRight_eq_div_pow]
  omega

@[simp] lemma tvnIndex_zero_val (u : UInt32) : (tvnIndex 0 u).val = u.toNat / 256 % 64 :=
  tvnIndex_val_of_shift 0 u 8 (by decide)

@[simp] lemma tvnIndex_one_val (u : UInt32) : (tvnIndex 1 u).val = u.toNat / 16384 % 64 :=
  tvnIndex_val_of_shift 1 u 14 (by decide)

@[simp] lemma tvnIndex_two_val (u : UInt32) : (tvnIndex 2 u).val = u.toNat / 1048576 % 64 :=
  tvnIndex_val_of_shift 2 u 20 (by decide)

@[simp] lemma tvnIndex_three_val (u : UInt32) : (tvnIndex 3 u).val = u.toNat / 67108864 % 64 :=
  tvnIndex_val_of_shift 3 u 26 (by decide)

/-- The level in terms of the distance in milliseconds: each threshold of the
code is ten times the span that the slots of the level resolve. -/
theorem addTimerSlot_eq (u e : UInt32) :
    addTimerSlot u e =
      if (e - u).toNat < 2560 then .tv1 (tvrIndex e)
      else if (e - u).toNat < 163840 then .tv2 (tvnIndex 0 e)
      else if (e - u).toNat < 10485760 then .tv3 (tvnIndex 1 e)
      else if (e - u).toNat < 671088640 then .tv4 (tvnIndex 2 e)
      else .tv5 (tvnIndex 3 e) := by
  have hlt := (e - u).toNat_lt
  have hd : ((e - u) / clockGranularity).toNat = (e - u).toNat / 10 := UInt32.toNat_div _ _
  have h1 : tvrSize.toNat = 256 := by decide
  have h2 : ((1 : UInt32) <<< (tvrBits + tvnBits)).toNat = 16384 := by decide
  have h3 : ((1 : UInt32) <<< (tvrBits + 2 * tvnBits)).toNat = 1048576 := by decide
  have h4 : ((1 : UInt32) <<< (tvrBits + 3 * tvnBits)).toNat = 67108864 := by decide
  simp only [addTimerSlot, UInt32.lt_iff_toNat_lt, hd, h1, h2, h3, h4]
  split_ifs <;> first | rfl | omega

/-- The distance survives the wrap of the 32-bit counters. -/
lemma toNat_sub_of_unwrapped {u x : UInt32} {t e : ℕ} (hu : u.toNat = t % 2 ^ 32)
    (hx : x.toNat = e % 2 ^ 32) (hte : t ≤ e) (hwrap : e < t + 2 ^ 32) :
    (x - u).toNat = e - t := by
  rw [UInt32.toNat_sub, hu, hx]
  omega

/-- A node due at `e` stands in a slot whose next turn, counted from tick `t`
on, does not come after `e`. Below the first level the turn is the start of the
block of `e`, and that start is not over yet. -/
def TurnAhead (t e : ℕ) : Slot → Prop
  | .tv1 i => i.val = e % 256
  | .tv2 i => i.val = e / 256 % 64 ∧ t ≤ e / 256 * 256
  | .tv3 i => i.val = e / 16384 % 64 ∧ t ≤ e / 16384 * 16384
  | .tv4 i => i.val = e / 1048576 % 64 ∧ t ≤ e / 1048576 * 1048576
  | .tv5 i => i.val = e / 67108864 % 64 ∧ t ≤ e / 67108864 * 67108864

/-- The distance from `t` to `e` is one that `add_timer` gives to this level or
to a lower one. -/
def InSpan (t e : ℕ) : Slot → Prop
  | .tv1 _ => e < t + 2560
  | .tv2 _ => e < t + 163840
  | .tv3 _ => e < t + 10485760
  | .tv4 _ => e < t + 671088640
  | .tv5 _ => e < t + 2 ^ 32

/-- The residues at which the cascades down from a level meet no distance
between 256 and 2560, which the first level cannot resolve. -/
def Clear3 (e : ℕ) : Prop := e % 16384 < 256 ∨ 2560 ≤ e % 16384

def Clear4 (e : ℕ) : Prop :=
  e % 1048576 < 256 ∨ 2560 ≤ e % 1048576 ∧ (163840 ≤ e % 1048576 → Clear3 e)

def Clear5 (e : ℕ) : Prop :=
  e % 67108864 < 256 ∨ 2560 ≤ e % 67108864 ∧
    (163840 ≤ e % 67108864 → e % 67108864 < 10485760 → Clear3 e) ∧
    (10485760 ≤ e % 67108864 → Clear4 e)

instance (e : ℕ) : Decidable (Clear3 e) := inferInstanceAs (Decidable (_ ∨ _))
instance (e : ℕ) : Decidable (Clear4 e) := inferInstanceAs (Decidable (_ ∨ _ ∧ (_ → _)))
instance (e : ℕ) : Decidable (Clear5 e) :=
  inferInstanceAs (Decidable (_ ∨ _ ∧ (_ → _ → _) ∧ (_ → _)))

/-- The node in this slot will be called at `e` and not before it. -/
def Punctual (t e : ℕ) : Slot → Prop
  | .tv1 _ => e < t + 256
  | .tv2 _ => True
  | .tv3 _ => Clear3 e
  | .tv4 _ => Clear4 e
  | .tv5 _ => Clear5 e

/-- A node is put with a whole tick to spare on every level but the first. -/
theorem addTimerSlot_turnAhead {u x : UInt32} {t e : ℕ} (hu : u.toNat = t % 2 ^ 32)
    (hx : x.toNat = e % 2 ^ 32) (hte : t ≤ e) (hwrap : e < t + 2 ^ 32) :
    TurnAhead (t + 1) e (addTimerSlot u x) := by
  rw [addTimerSlot_eq, toNat_sub_of_unwrapped hu hx hte hwrap]
  split_ifs <;> simp only [TurnAhead, tvrIndex_val, tvnIndex_zero_val, tvnIndex_one_val,
    tvnIndex_two_val, tvnIndex_three_val, hx] <;> omega

theorem addTimerSlot_inSpan {u x : UInt32} {t e : ℕ} (hu : u.toNat = t % 2 ^ 32)
    (hx : x.toNat = e % 2 ^ 32) (hte : t ≤ e) (hwrap : e < t + 2 ^ 32) :
    InSpan t e (addTimerSlot u x) := by
  rw [addTimerSlot_eq, toNat_sub_of_unwrapped hu hx hte hwrap]
  split_ifs <;> simp only [InSpan] <;> omega

lemma TurnAhead.of_succ {t e : ℕ} {i : Slot} (h : TurnAhead (t + 1) e i) : TurnAhead t e i := by
  cases i <;> simp only [TurnAhead] at h ⊢ <;> omega

lemma InSpan.succ {t e : ℕ} {i : Slot} (h : InSpan t e i) : InSpan (t + 1) e i := by
  cases i <;> simp only [InSpan] at h ⊢ <;> omega

/-- The slots that the tick `u` cascades. -/
def Cascaded (u : UInt32) : Slot → Prop
  | .tv1 _ => False
  | .tv2 i => tvrIndex u = 0 ∧ i = tvnIndex 0 u
  | .tv3 i => tvrIndex u = 0 ∧ tvnIndex 0 u = 0 ∧ i = tvnIndex 1 u
  | .tv4 i => tvrIndex u = 0 ∧ tvnIndex 0 u = 0 ∧ tvnIndex 1 u = 0 ∧ i = tvnIndex 2 u
  | .tv5 i => tvrIndex u = 0 ∧ tvnIndex 0 u = 0 ∧ tvnIndex 1 u = 0 ∧ tvnIndex 2 u = 0 ∧
      i = tvnIndex 3 u

/-- A block that starts at this very tick is in the slot that the tick cascades:
wherever else a node stands, its turn is still to come. -/
theorem TurnAhead.succ_of_not_cascaded {u : UInt32} {t e : ℕ} {i : Slot}
    (hu : u.toNat = t % 2 ^ 32) (h : TurnAhead t e i) (hc : ¬ Cascaded u i) :
    TurnAhead (t + 1) e i := by
  cases i <;> simp only [TurnAhead, Cascaded, Fin.ext_iff, tvrIndex_val, tvnIndex_zero_val,
    tvnIndex_one_val, tvnIndex_two_val, tvnIndex_three_val, hu, Fin.val_zero] at h hc ⊢ <;> omega

/-- At a turn of its slot a node is either in the block that starts now or a
whole number of revolutions ahead. -/
lemma distance_at_turn {k t e : ℕ} (hk : 0 < k) (ht : t % k = 0)
    (hslot : t / k % 64 = e / k % 64) (hle : t ≤ e / k * k) :
    e - t = e % k ∨ 64 * k ≤ e - t := by
  have hte : t / k ≤ e / k := (Nat.div_le_iff_le_mul_add_pred hk).mpr (by
    rw [Nat.mul_comm]; exact Nat.le_add_right_of_le hle)
  obtain ⟨m, hm⟩ : ∃ m, e / k = t / k + 64 * m := ⟨(e / k - t / k) / 64, by omega⟩
  have he := Nat.div_add_mod e k
  have ht' := Nat.div_add_mod t k
  have hmul : k * (e / k) = k * (t / k) + k * (64 * m) := by rw [hm, Nat.mul_add]
  rcases Nat.eq_zero_or_pos m with hz | hpos
  · left
    rw [hz] at hmul
    omega
  · right
    have hk64 : k * 64 ≤ k * (64 * m) := Nat.mul_le_mul_left k (by omega)
    omega

/-- Putting a cascaded node back does not change whether it will be punctual. -/
theorem punctual_addTimerSlot_of_cascaded {u x : UInt32} {t e : ℕ} {i : Slot}
    (hu : u.toNat = t % 2 ^ 32) (hx : x.toNat = e % 2 ^ 32) (hte : t ≤ e)
    (hturn : TurnAhead t e i) (hspan : InSpan t e i) (hc : Cascaded u i) :
    Punctual t e (addTimerSlot u x) ↔ Punctual t e i := by
  have hwrap : e < t + 2 ^ 32 := by cases i <;> simp only [InSpan] at hspan <;> omega
  rw [addTimerSlot_eq, toNat_sub_of_unwrapped hu hx hte hwrap]
  clear hwrap hx
  obtain ⟨d, rfl⟩ := Nat.exists_eq_add_of_le hte
  rw [Nat.add_sub_cancel_left]
  cases i with
  | tv1 i => exact hc.elim
  | tv2 i =>
    have hd : d = (t + d) % 256 ∨ 64 * 256 ≤ d := by
      simp only [TurnAhead, Cascaded, Fin.ext_iff, tvrIndex_val, tvnIndex_zero_val, hu,
        Fin.val_zero] at hturn hc
      simpa using distance_at_turn (k := 256) (t := t) (e := t + d) (by decide) (by omega)
        (by omega) (by omega)
    clear hturn hc hu
    simp only [InSpan] at hspan
    split_ifs <;> simp only [Punctual, iff_true] <;> omega
  | tv3 i =>
    have hd : d = (t + d) % 16384 ∨ 64 * 16384 ≤ d := by
      simp only [TurnAhead, Cascaded, Fin.ext_iff, tvrIndex_val, tvnIndex_zero_val,
        tvnIndex_one_val, hu, Fin.val_zero] at hturn hc
      simpa using distance_at_turn (k := 16384) (t := t) (e := t + d) (by decide) (by omega)
        (by omega) (by omega)
    clear hturn hc hu
    simp only [InSpan] at hspan
    split_ifs <;> simp only [Punctual, Clear3, true_iff] <;> omega
  | tv4 i =>
    have hd : d = (t + d) % 1048576 ∨ 64 * 1048576 ≤ d := by
      simp only [TurnAhead, Cascaded, Fin.ext_iff, tvrIndex_val, tvnIndex_zero_val,
        tvnIndex_one_val, tvnIndex_two_val, hu, Fin.val_zero] at hturn hc
      simpa using distance_at_turn (k := 1048576) (t := t) (e := t + d) (by decide) (by omega)
        (by omega) (by omega)
    clear hturn hc hu
    simp only [InSpan] at hspan
    split_ifs <;> simp only [Punctual, Clear4, Clear3, true_iff] <;> omega
  | tv5 i =>
    have hd : d = (t + d) % 67108864 ∨ 64 * 67108864 ≤ d := by
      simp only [TurnAhead, Cascaded, Fin.ext_iff, tvrIndex_val, tvnIndex_zero_val,
        tvnIndex_one_val, tvnIndex_two_val, tvnIndex_three_val, hu, Fin.val_zero] at hturn hc
      simpa using distance_at_turn (k := 67108864) (t := t) (e := t + d) (by decide) (by omega)
        (by omega) (by omega)
    clear hturn hc hu
    simp only [InSpan] at hspan
    split_ifs <;> simp only [Punctual, Clear5, Clear4, Clear3, true_iff] <;> omega

end Libtask.Timer
