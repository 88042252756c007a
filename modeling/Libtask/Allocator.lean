import Libtask.FirstFit
import Libtask.Transition

/-!
# The bitmap as an allocator

`allocate_tid` and `release_tid` use a bitmap as a set of indices from which the
least one is taken. An index is an `int` on its way from `bitmap_scan` to
`bitmap_set`, so all runs are right exactly for the maps of at most 2^31 bits.
-/
namespace Libtask.Bitmap
open Transition

/-- `i = bitmap_scan(btmp, 1)` and `bitmap_set(btmp, i, 1)`. -/
def allocate (btmp : Bitmap) : Except Stop (Bitmap × Int32) := do
  let i ← btmp.bitmapScan 1
  let btmp ← btmp.bitmapSet i.toUInt32 1
  return (btmp, i)

/-- `bitmap_set(btmp, i, 0)`. -/
def release (btmp : Bitmap) (i : Int32) : Except Stop Bitmap := btmp.bitmapSet i.toUInt32 0

/-- A bitmap beside the indices allocated and not released. -/
structure IndexPool where
  btmp : Bitmap
  inUse : Finset Int32

inductive PoolOp
  | allocate
  | release (i : Int32)

/-- Some bit of the map is 0. -/
def HasClear (btmp : Bitmap) : Prop := ∃ j < btmp.size, btmp.bit j = false

/-- Allocations while some bit is 0 and releases of allocated indices. -/
inductive PoolStep : IndexPool → PoolOp → IndexPool → Prop
  | allocate {p : IndexPool} {btmp : Bitmap} {i : Int32} (hclear : p.btmp.HasClear)
      (h : p.btmp.allocate = .ok (btmp, i)) : PoolStep p .allocate ⟨btmp, insert i p.inUse⟩
  | release {p : IndexPool} {btmp : Bitmap} {i : Int32} (hi : i ∈ p.inUse)
      (h : p.btmp.release i = .ok btmp) : PoolStep p (.release i) ⟨btmp, p.inUse.erase i⟩

/-- The runs from `bitmap_init` of a map of `len` bytes. -/
def poolSystem (len : UInt32) : System IndexPool PoolOp where
  init p := (∃ bits, p.btmp = bitmapInit ⟨len, bits⟩) ∧ p.inUse = ∅
  step := PoolStep

namespace IndexPool

/-- The index `j` is allocated and not released. -/
def Holds (p : IndexPool) (j : ℕ) : Prop := ∃ i ∈ p.inUse, i.toInt = j

/-- `btmp'` is `btmp` but for the bit `i`, which is `v`. -/
def ChangesOnly (btmp btmp' : Bitmap) (i : Int32) (v : Bool) : Prop :=
  ∀ j : ℕ, btmp'.bit j = if (j : ℤ) = i.toInt then v else btmp.bit j

/-- What the allocator is for, in one state. -/
structure Correct (p : IndexPool) : Prop where
  reads : ∀ j : UInt32, j.toNat < p.btmp.size →
    ∃ b, p.btmp.bitmapScanTest j = .ok b ∧ (b = true ↔ p.Holds j.toNat)
  /-- An allocation returns the smallest index that is not in use. -/
  allocates : p.btmp.HasClear → ∃ btmp' i, p.btmp.allocate = .ok (btmp', i) ∧
    (∃ n : ℕ, i.toInt = n ∧ n < p.btmp.size ∧ ¬ p.Holds n ∧ ∀ m < n, p.Holds m) ∧
    ChangesOnly p.btmp btmp' i true
  releases : ∀ i ∈ p.inUse, ∃ btmp', p.btmp.release i = .ok btmp' ∧
    ChangesOnly p.btmp btmp' i false

/-- The bits are the indices in use, and these lie inside a map of `n` bits. -/
structure Inv (n : ℕ) (p : IndexPool) : Prop where
  size : p.btmp.size = n
  bit : ∀ j, p.btmp.bit j = true ↔ p.Holds j
  nonneg : ∀ i ∈ p.inUse, 0 ≤ i.toInt

end IndexPool
open IndexPool

lemma toInt_toInt32 {n : ℕ} (h : n < 2 ^ 31) : (UInt32.ofNat n).toInt32.toInt = n :=
  (toInt_ofNat_iff n).mpr h

lemma toUInt32_toNat {i : Int32} (h : 0 ≤ i.toInt) : (i.toUInt32.toNat : ℤ) = i.toInt := by
  have hle : 0 ≤ i := Int32.le_iff_toInt_le.mpr h
  rw [Int32.toNat_toUInt32_of_le hle]
  exact Int.toNat_of_nonneg h

/-- The least clear bit is set, and its index returned as an `int`. -/
lemma allocate_spec {btmp : Bitmap} (h : btmp.HasClear) :
    ∃ n < btmp.size, btmp.bit n = false ∧ (∀ j < n, btmp.bit j = true) ∧ (n < 2 ^ 32 →
      ∃ btmp', btmp.allocate = .ok (btmp', (UInt32.ofNat n).toInt32) ∧ btmp'.size = btmp.size ∧
        ∀ j, btmp'.bit j = if j = n then true else btmp.bit j) := by
  obtain ⟨n, hn, hclear, hleast, hscan⟩ := bitmapScan_one h
  refine ⟨n, hn, hclear, hleast, ?_⟩
  intro hlt
  have hnat : (UInt32.ofNat n).toNat = n := ofNat_toNat hlt
  obtain ⟨btmp', hset, hsize, hbit⟩ := bitmapSet_spec (hnat.symm ▸ hn) true
  refine ⟨btmp', ?_, hsize, by rwa [hnat] at hbit⟩
  have hconv : (UInt32.ofNat n).toInt32.toUInt32 = UInt32.ofNat n := by simp
  rw [if_pos rfl] at hset
  unfold allocate
  rw [hscan]
  simp only [bind, Except.bind, hconv, hset]
  rfl

lemma release_spec {btmp : Bitmap} {i : Int32} (hi : 0 ≤ i.toInt) (hlt : i.toInt < btmp.size) :
    ∃ btmp', btmp.release i = .ok btmp' ∧ btmp'.size = btmp.size ∧
      ChangesOnly btmp btmp' i false := by
  have hnat := toUInt32_toNat hi
  obtain ⟨btmp', hset, hsize, hbit⟩ := @bitmapSet_spec btmp i.toUInt32 (by omega) false
  refine ⟨btmp', hset, hsize, ?_⟩
  intro j
  have hiff : j = i.toUInt32.toNat ↔ (j : ℤ) = i.toInt := by omega
  rw [hbit j]
  simp only [hiff]

lemma bit_bitmapInit (btmp : Bitmap) (j : ℕ) : btmp.bitmapInit.bit j = false := by
  unfold bit bitmapInit
  split
  · next byte hbyte =>
    obtain ⟨hlt, heq⟩ := Vector.getElem?_eq_some_iff.mp hbyte
    rw [← heq, Vector.getElem_replicate]
    exact BitVec.getLsbD_zero
  · rfl

lemma inv_init {len : UInt32} {p : IndexPool} (h : (poolSystem len).init p) :
    Inv (8 * len.toNat) p := by
  obtain ⟨⟨bits, hbtmp⟩, hinUse⟩ := h
  constructor
  case size => rw [hbtmp]; rfl
  case bit =>
    intro j
    rw [hbtmp, bit_bitmapInit, Holds, hinUse]
    simp
  case nonneg =>
    intro i hi
    rw [hinUse] at hi
    exact absurd hi (Finset.notMem_empty i)

section Step

variable {n : ℕ} {p : IndexPool}

lemma IndexPool.Inv.lt_size (h : Inv n p) {i : Int32} (hi : i ∈ p.inUse) : i.toInt < n := by
  have hnonneg := h.nonneg i hi
  by_contra hge
  have hfalse : p.btmp.bit i.toInt.toNat = false := bit_of_ge (by rw [h.size]; omega)
  have htrue := (h.bit i.toInt.toNat).mpr ⟨i, hi, by omega⟩
  rw [hfalse] at htrue
  cases htrue

/-- The index allocated in a map of at most 2^31 bits is the least free one. -/
lemma IndexPool.Inv.allocates (h : Inv n p) (hn : n ≤ 2 ^ 31) (hclear : p.btmp.HasClear) :
    ∃ btmp' i, p.btmp.allocate = .ok (btmp', i) ∧ btmp'.size = p.btmp.size ∧
      (∃ m : ℕ, i.toInt = m ∧ m < p.btmp.size ∧ ¬ p.Holds m ∧ ∀ k < m, p.Holds k) ∧
      ChangesOnly p.btmp btmp' i true := by
  obtain ⟨m, hm, hbit, hleast, halloc⟩ := allocate_spec hclear
  have hm31 : m < 2 ^ 31 := by
    have hsize := h.size
    omega
  obtain ⟨btmp', heq, hsize, hchange⟩ := halloc (by omega)
  have hint := toInt_toInt32 hm31
  refine ⟨btmp', _, heq, hsize, ⟨m, hint, hm, ?_, ?_⟩, ?_⟩
  · rw [← h.bit m, hbit]
    simp
  · intro k hk
    exact (h.bit k).mp (hleast k hk)
  · intro j
    rw [hchange j, hint]
    simp only [Nat.cast_inj]

/-- An index is in use at most once. -/
lemma holds_erase {i : Int32} {j : ℕ} :
    (∃ u ∈ p.inUse.erase i, u.toInt = j) ↔ (j : ℤ) ≠ i.toInt ∧ p.Holds j := by
  constructor
  · rintro ⟨u, hu, hj⟩
    obtain ⟨hne, hmem⟩ := Finset.mem_erase.mp hu
    exact ⟨fun heq => hne (Int32.toInt_inj.mp (hj.trans heq)), u, hmem, hj⟩
  · rintro ⟨hne, u, hu, hj⟩
    refine ⟨u, Finset.mem_erase.mpr ⟨?_, hu⟩, hj⟩
    rintro rfl
    exact hne hj.symm

lemma IndexPool.Inv.step (h : Inv n p) (hn : n ≤ 2 ^ 31) {op : PoolOp} {p' : IndexPool}
    (hst : PoolStep p op p') : Inv n p' := by
  cases hst with
  | @allocate btmp i hclear halloc =>
    obtain ⟨btmp', i', heq, hsize, ⟨m, hint, -, -, -⟩, hchange⟩ := h.allocates hn hclear
    obtain ⟨rfl, rfl⟩ := Prod.mk.inj (Except.ok.inj (heq.symm.trans halloc))
    constructor
    case size => exact hsize.trans h.size
    case bit =>
      intro j
      rw [hchange j]
      by_cases hj : (j : ℤ) = i'.toInt
      · rw [if_pos hj]
        exact iff_of_true rfl ⟨i', Finset.mem_insert_self i' _, hj.symm⟩
      · rw [if_neg hj, h.bit j]
        constructor
        · rintro ⟨u, hu, huj⟩
          exact ⟨u, Finset.mem_insert_of_mem hu, huj⟩
        · rintro ⟨u, hu, huj⟩
          rcases Finset.mem_insert.mp hu with rfl | hu
          · exact absurd huj.symm hj
          · exact ⟨u, hu, huj⟩
    case nonneg =>
      intro u hu
      rcases Finset.mem_insert.mp hu with rfl | hu
      · omega
      · exact h.nonneg u hu
  | @release btmp i hi hrel =>
    have hlt := h.lt_size hi
    rw [← h.size] at hlt
    obtain ⟨btmp', heq, hsize, hchange⟩ := release_spec (h.nonneg i hi) hlt
    obtain rfl := Except.ok.inj (heq.symm.trans hrel)
    constructor
    case size => exact hsize.trans h.size
    case bit =>
      intro j
      rw [hchange j, Holds, holds_erase]
      by_cases hj : (j : ℤ) = i.toInt
      · simp [hj]
      · rw [if_neg hj, h.bit j]
        exact (and_iff_right hj).symm
    case nonneg => exact fun u hu => h.nonneg u (Finset.mem_of_mem_erase hu)

lemma IndexPool.Inv.correct (h : Inv n p) (hn : n ≤ 2 ^ 31) : Correct p := by
  constructor
  case reads =>
    intro j hj
    exact ⟨_, bitmapScanTest_eq hj, h.bit j.toNat⟩
  case allocates =>
    intro hclear
    obtain ⟨btmp', i, heq, -, hleast, hchange⟩ := h.allocates hn hclear
    exact ⟨btmp', i, heq, hleast, hchange⟩
  case releases =>
    intro i hi
    have hlt := h.lt_size hi
    rw [← h.size] at hlt
    obtain ⟨btmp', heq, -, hchange⟩ := release_spec (h.nonneg i hi) hlt
    exact ⟨btmp', heq, hchange⟩

end Step

/-- The least clear bit after a block of set bits. -/
lemma least_eq_of_filled {btmp : Bitmap} {k n : ℕ} (hbit : ∀ j, btmp.bit j = decide (j < k))
    (hn : btmp.bit n = false) (hleast : ∀ j < n, btmp.bit j = true) : n = k := by
  rw [hbit, decide_eq_false_iff_not] at hn
  by_contra hne
  have hset := hleast k (by omega)
  rw [hbit] at hset
  simp at hset

/-- Allocations alone fill the map from the bottom. -/
lemma exists_filled {len : UInt32} (k : ℕ) (hk : k ≤ 2 ^ 31) (hlen : k ≤ 8 * len.toNat) :
    ∃ p, (poolSystem len).Reachable p ∧ p.btmp.size = 8 * len.toNat ∧
      ∀ j, p.btmp.bit j = decide (j < k) := by
  induction k with
  | zero =>
    refine ⟨⟨bitmapInit ⟨len, Vector.replicate _ 0⟩, ∅⟩, .init ⟨⟨_, rfl⟩, rfl⟩, rfl, ?_⟩
    intro j
    rw [bit_bitmapInit]
    simp
  | succ k ih =>
    obtain ⟨p, hreach, hsize, hbit⟩ := ih (by omega) (by omega)
    have hclear : p.btmp.HasClear := ⟨k, by omega, by simp [hbit]⟩
    obtain ⟨n, -, hn, hleast, halloc⟩ := allocate_spec hclear
    obtain rfl := least_eq_of_filled hbit hn hleast
    obtain ⟨btmp', heq, hsize', hbit'⟩ := halloc (by omega)
    refine ⟨_, hreach.step trivial (.allocate hclear heq), hsize'.trans hsize, ?_⟩
    intro j
    rw [hbit' j, hbit j]
    by_cases hj : j = n
    · simp [hj]
    · rw [if_neg hj, decide_eq_decide]
      omega

/-- After 2^31 allocations the next one returns a negative number. -/
lemma exists_not_correct {len : UInt32} (hlen : 2 ^ 28 < len.toNat) :
    ∃ p, (poolSystem len).Reachable p ∧ ¬ Correct p := by
  obtain ⟨p, hreach, hsize, hbit⟩ := @exists_filled len (2 ^ 31) le_rfl (by omega)
  refine ⟨p, hreach, ?_⟩
  intro hcorrect
  have hclear : p.btmp.HasClear := ⟨2 ^ 31, by omega, by simp [hbit]⟩
  obtain ⟨btmp', i, heq, ⟨m, hint, -, -, -⟩, -⟩ := hcorrect.allocates hclear
  obtain ⟨n, -, hn, hleast, halloc⟩ := allocate_spec hclear
  have hn31 := least_eq_of_filled hbit hn hleast
  subst hn31
  obtain ⟨btmp'', heq', -, -⟩ := halloc (by omega)
  obtain ⟨-, rfl⟩ := Prod.mk.inj (Except.ok.inj (heq.symm.trans heq'))
  have hneg : (UInt32.ofNat (2 ^ 31)).toInt32.toInt = -2 ^ 31 := by decide
  omega

lemma poolSystem_correct {len : UInt32} (hlen : len.toNat ≤ 2 ^ 28) {p : IndexPool}
    (hreach : (poolSystem len).Reachable p) : Correct p := by
  have hinv : Inv (8 * len.toNat) p := hreach.invariant
    (fun _ hinit => inv_init hinit) fun _ _ _ h _ hst => h.step (by omega) hst
  exact hinv.correct (by omega)

/-- Every run of a map is right exactly when its indices fit into an `int`. -/
theorem poolSystem_correct_iff (len : UInt32) :
    (∀ p, (poolSystem len).Reachable p → Correct p) ↔ len.toNat ≤ 2 ^ 28 := by
  constructor
  · intro hall
    by_contra hlt
    obtain ⟨p, hreach, hnot⟩ := @exists_not_correct len (by omega)
    exact hnot (hall p hreach)
  · exact fun hlen p hreach => poolSystem_correct hlen hreach

/-- A map of 2^28 + 1 bytes, after 2^31 allocations. -/
theorem not_poolSystem_correct :
    ¬ ∀ (len : UInt32) (p : IndexPool), (poolSystem len).Reachable p → Correct p := by
  intro hall
  obtain ⟨p, hreach, hnot⟩ := @exists_not_correct 268435457 (by decide)
  exact hnot (hall 268435457 p hreach)

end Libtask.Bitmap
