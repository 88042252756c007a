import Mathlib
import Libtask.Stop

/-!
# The bitmap of `lib/bitmap.c`

The buffer has exactly `btmp_bytes_len` bytes; reading or writing past it stops.
`Bitmap.bit` is the meaning of the bytes, bit by bit.
-/
namespace Libtask

structure Bitmap where
  btmpBytesLen : UInt32
  bits : Vector UInt8 btmpBytesLen.toNat
  deriving DecidableEq, Repr

namespace Bitmap

def bitmapInit (btmp : Bitmap) : Bitmap :=
  { btmp with bits := Vector.replicate _ 0 }

/-- `btmp->bits[i]`. -/
def readByte (btmp : Bitmap) (i : UInt32) : Except Stop UInt8 :=
  match btmp.bits[i.toNat]? with
  | some byte => .ok byte
  | none => .error .outOfBounds

/-- `(uint8_t)(BITMAP_MASK << i)`. -/
def mask (i : ℕ) : UInt8 := UInt8.ofNat (1 <<< i)

def bitmapScanTest (btmp : Bitmap) (bitIdx : UInt32) : Except Stop Bool := do
  let byte ← btmp.readByte (bitIdx / 8)
  return byte &&& mask (bitIdx % 8).toNat ≠ 0

/-- The search for a byte that is not `0xff`. The byte is read before the index
is compared with the length. -/
def scanByte (btmp : Bitmap) : ℕ → UInt32 → Except Stop UInt32
  | 0, _ => .error .diverges
  | fuel + 1, idxByte => do
    let byte ← btmp.readByte idxByte
    if byte = 0xff ∧ idxByte < btmp.btmpBytesLen then btmp.scanByte fuel (idxByte + 1)
    else return idxByte

/-- The search for a clear bit of a byte; beyond bit 7 the mask is 0. -/
def scanBit (byte : UInt8) : ℕ → ℕ → ℕ
  | 0, idxBit => idxBit
  | fuel + 1, idxBit => if mask idxBit &&& byte ≠ 0 then scanBit byte fuel (idxBit + 1) else idxBit

/-- The search for `cnt` clear bits in a row, `bit_left` times at most. -/
def scanRun (btmp : Bitmap) (cnt : UInt32) : ℕ → UInt32 → UInt32 → Except Stop Int32
  | 0, _, _ => return -1
  | bitLeft + 1, nextBit, count => do
    let count := if ← btmp.bitmapScanTest nextBit then 0 else count + 1
    if count = cnt then return (nextBit - cnt + 1).toInt32
    else btmp.scanRun cnt bitLeft (nextBit + 1) count

def bitmapScan (btmp : Bitmap) (cnt : UInt32) : Except Stop Int32 := do
  let idxByte ← btmp.scanByte (btmp.btmpBytesLen.toNat + 1) 0
  assert (idxByte < btmp.btmpBytesLen)
  if idxByte = btmp.btmpBytesLen then return -1
  let byte ← btmp.readByte idxByte
  let idxBit := scanBit byte 8 0
  let bitIdxStart := idxByte * 8 + UInt32.ofNat idxBit
  if cnt = 1 then return bitIdxStart.toInt32
  let bitLeft := btmp.btmpBytesLen * 8 - bitIdxStart
  btmp.scanRun cnt bitLeft.toNat (bitIdxStart + 1) 1

def bitmapSet (btmp : Bitmap) (bitIdx : UInt32) (value : Int8) : Except Stop Bitmap := do
  assert (value = 0 ∨ value = 1)
  let byteIdx := bitIdx / 8
  let bitOdd := (bitIdx % 8).toNat
  let byte ← btmp.readByte byteIdx
  let byte' := if value ≠ 0 then byte ||| mask bitOdd else byte &&& ~~~mask bitOdd
  return { btmp with bits := btmp.bits.setIfInBounds byteIdx.toNat byte' }

/-- Bit `i` of the buffer; false outside it. -/
def bit (btmp : Bitmap) (i : ℕ) : Bool :=
  match btmp.bits[i / 8]? with
  | some byte => byte.toBitVec.getLsbD (i % 8)
  | none => false

/-- The number of bits. -/
def size (btmp : Bitmap) : ℕ := 8 * btmp.btmpBytesLen.toNat

lemma getLsbD_mask (k j : ℕ) :
    (mask k).toBitVec.getLsbD j = (decide (j < 8) && decide (k = j)) := by
  have h : (mask k).toBitVec = BitVec.ofNat 8 (2 ^ k) := by
    rw [mask, Nat.one_shiftLeft]
    rfl
  rw [h, BitVec.getLsbD_ofNat, Nat.testBit_two_pow]

lemma mask_and_ne_zero (byte : UInt8) (k : ℕ) :
    mask k &&& byte ≠ 0 ↔ byte.toBitVec.getLsbD k = true := by
  constructor
  · intro h
    by_contra hk
    apply h
    rw [← UInt8.toBitVec_inj]
    apply BitVec.eq_of_getLsbD_eq
    intro j hj
    rw [UInt8.toBitVec_and, BitVec.getLsbD_and, getLsbD_mask]
    by_cases hkj : k = j
    · subst hkj
      rw [Bool.eq_false_iff.mpr hk, Bool.and_false]
      exact BitVec.getLsbD_zero.symm
    · simp [hkj]
  · intro h hz
    have hk : k < 8 := by
      by_contra hk
      simp [BitVec.getLsbD_of_ge _ k (by omega : 8 ≤ k)] at h
    have hbit := congrArg (fun x : UInt8 => x.toBitVec.getLsbD k) hz
    simp only [UInt8.toBitVec_and, BitVec.getLsbD_and, getLsbD_mask, h, hk, decide_true,
      Bool.and_true] at hbit
    exact absurd hbit (by simp)

/-- A byte other than `0xff` has a clear bit. -/
lemma exists_clear_of_ne {byte : UInt8} (h : byte ≠ 0xff) :
    ∃ k < 8, byte.toBitVec.getLsbD k = false := by
  by_contra hall
  apply h
  rw [← UInt8.toBitVec_inj]
  apply BitVec.eq_of_getLsbD_eq
  intro k hk
  have hone : (0xff : UInt8).toBitVec.getLsbD k = true := by
    change (BitVec.ofNat 8 255).getLsbD k = true
    rw [BitVec.getLsbD_ofNat, show 255 = 2 ^ 8 - 1 from rfl, Nat.testBit_two_pow_sub_one]
    simp [hk]
  rw [hone]
  by_contra hk'
  exact hall ⟨k, hk, by simpa using hk'⟩

lemma scanBit_spec (byte : UInt8) (fuel i k : ℕ) (hk : byte.toBitVec.getLsbD k = false)
    (hik : i ≤ k) (hfuel : k ≤ i + fuel) :
    i ≤ scanBit byte fuel i ∧ scanBit byte fuel i ≤ k ∧
      byte.toBitVec.getLsbD (scanBit byte fuel i) = false ∧
      ∀ j, i ≤ j → j < scanBit byte fuel i → byte.toBitVec.getLsbD j = true := by
  induction fuel generalizing i with
  | zero =>
    obtain rfl : i = k := by omega
    refine ⟨le_rfl, le_rfl, hk, ?_⟩
    intro j hij hj
    simp only [scanBit] at hj
    omega
  | succ fuel ih =>
    unfold scanBit
    by_cases hi : mask i &&& byte ≠ 0
    · rw [if_pos hi]
      have hset := (mask_and_ne_zero byte i).mp hi
      have hne : i ≠ k := by
        rintro rfl
        simp [hk] at hset
      obtain ⟨h1, h2, h3, h4⟩ := ih (i + 1) (by omega) (by omega)
      refine ⟨by omega, h2, h3, ?_⟩
      intro j hij hj
      rcases Nat.eq_or_lt_of_le hij with rfl | hlt
      · exact hset
      · exact h4 j (by omega) hj
    · rw [if_neg hi]
      have hclear : byte.toBitVec.getLsbD i = false := by
        simpa using fun h => hi ((mask_and_ne_zero byte i).mpr h)
      exact ⟨le_rfl, hik, hclear, fun j hij hj => absurd hj (by omega)⟩

lemma readByte_of_lt {btmp : Bitmap} {i : UInt32} (h : i.toNat < btmp.btmpBytesLen.toNat) :
    btmp.readByte i = .ok btmp.bits[i.toNat] := by
  simp [readByte, h]

lemma bit_of_lt {btmp : Bitmap} {i : ℕ} (h : i / 8 < btmp.btmpBytesLen.toNat) :
    btmp.bit i = btmp.bits[i / 8].toBitVec.getLsbD (i % 8) := by
  simp only [bit, Vector.getElem?_eq_getElem h]

lemma bit_of_ge {btmp : Bitmap} {i : ℕ} (h : btmp.size ≤ i) : btmp.bit i = false := by
  have hlen : btmp.btmpBytesLen.toNat ≤ i / 8 := by
    unfold size at h
    omega
  simp only [bit, Vector.getElem?_eq_none hlen]

lemma bitmapScanTest_eq {btmp : Bitmap} {i : UInt32} (h : i.toNat < btmp.size) :
    btmp.bitmapScanTest i = .ok (btmp.bit i.toNat) := by
  have hlen : (i / 8).toNat < btmp.btmpBytesLen.toNat := by
    rw [UInt32.toNat_div]
    unfold size at h
    change i.toNat / 8 < _
    omega
  have hbit : btmp.bit i.toNat = _ := bit_of_lt hlen
  have hmask := mask_and_ne_zero btmp.bits[(i / 8).toNat] (i % 8).toNat
  rw [UInt8.and_comm] at hmask
  unfold bitmapScanTest
  rw [readByte_of_lt hlen, hbit]
  refine congrArg Except.ok ?_
  rw [Bool.eq_iff_iff, decide_eq_true_iff]
  exact hmask

/-- The first byte that is not `0xff`, when there is one. -/
lemma scanByte_spec {btmp : Bitmap} {k : ℕ} (hk : k < btmp.btmpBytesLen.toNat)
    (hbyte : btmp.bits[k] ≠ 0xff) (fuel i : ℕ) (hik : i ≤ k) (hfuel : k < i + fuel) :
    ∃ n, ∃ hn : n < btmp.btmpBytesLen.toNat, i ≤ n ∧ n ≤ k ∧ btmp.bits[n] ≠ 0xff ∧
      (∀ j (hj : j < n), i ≤ j → btmp.bits[j] = 0xff) ∧
      btmp.scanByte fuel (UInt32.ofNat i) = .ok (UInt32.ofNat n) := by
  induction fuel generalizing i with
  | zero => omega
  | succ fuel ih =>
    have hlt := btmp.btmpBytesLen.toNat_lt
    have hi : (UInt32.ofNat i).toNat = i := UInt32.toNat_ofNat_of_lt' (by
      change i < 2 ^ 32
      omega)
    have hread : btmp.readByte (UInt32.ofNat i) = .ok btmp.bits[i] := by
      rw [readByte_of_lt (by omega)]
      simp only [hi]
    have hcmp : UInt32.ofNat i < btmp.btmpBytesLen := UInt32.lt_iff_toNat_lt.mpr (by omega)
    have hstep : btmp.scanByte (fuel + 1) (UInt32.ofNat i) =
        if btmp.bits[i] = 0xff ∧ UInt32.ofNat i < btmp.btmpBytesLen
          then btmp.scanByte fuel (UInt32.ofNat i + 1) else .ok (UInt32.ofNat i) := by
      conv_lhs => unfold scanByte
      rw [hread]
      rfl
    by_cases hff : btmp.bits[i] = 0xff
    · rw [if_pos ⟨hff, hcmp⟩] at hstep
      have hne : i ≠ k := by
        rintro rfl
        exact hbyte hff
      have hsucc : UInt32.ofNat i + 1 = UInt32.ofNat (i + 1) := by
        rw [UInt32.ofNat_add]
        rfl
      obtain ⟨n, hn, h1, h2, h3, h4, h5⟩ := ih (i + 1) (by omega) (by omega)
      refine ⟨n, hn, by omega, h2, h3, ?_, by rw [hstep, hsucc, h5]⟩
      intro j hj hij
      rcases Nat.eq_or_lt_of_le hij with rfl | hlt
      · exact hff
      · exact h4 j hj hlt
    · rw [if_neg fun h => hff h.1] at hstep
      exact ⟨i, by omega, le_rfl, hik, hff, fun j hj hij => absurd hj (by omega), hstep⟩

/-- The first two loops of `bitmap_scan` find the least clear bit when there is one. -/
theorem bitmapScan_start {btmp : Bitmap} (cnt : UInt32)
    (h : ∃ i < btmp.size, btmp.bit i = false) :
    ∃ i < btmp.size, btmp.bit i = false ∧ (∀ j < i, btmp.bit j = true) ∧
      btmp.bitmapScan cnt = if cnt = 1 then .ok (UInt32.ofNat i).toInt32
        else btmp.scanRun cnt (btmp.btmpBytesLen * 8 - UInt32.ofNat i).toNat
          (UInt32.ofNat i + 1) 1 := by
  obtain ⟨m, hm, hclear⟩ := h
  have hmlen : m / 8 < btmp.btmpBytesLen.toNat := by
    unfold size at hm
    omega
  have hbyte : btmp.bits[m / 8] ≠ 0xff := by
    intro hff
    rw [bit_of_lt hmlen, hff] at hclear
    have hall : ∀ k < 8, (0xff : UInt8).toBitVec.getLsbD k = true := by decide
    exact absurd hclear (by rw [hall _ (Nat.mod_lt m (by omega))]; simp)
  obtain ⟨n, hn, -, -, hne, hfull, hscan⟩ := scanByte_spec hmlen hbyte
    (btmp.btmpBytesLen.toNat + 1) 0 (Nat.zero_le _) (by omega)
  obtain ⟨k, hk, hkclear⟩ := exists_clear_of_ne hne
  obtain ⟨-, hle, hbclear, hbfull⟩ := scanBit_spec btmp.bits[n] 8 0 k hkclear (Nat.zero_le _)
    (by omega)
  set r := scanBit btmp.bits[n] 8 0 with hr
  have hlt := btmp.btmpBytesLen.toNat_lt
  have hdiv : (n * 8 + r) / 8 = n := by omega
  have hmod : (n * 8 + r) % 8 = r := by omega
  refine ⟨n * 8 + r, by unfold size; omega, ?_, ?_, ?_⟩
  · rw [bit_of_lt (by omega)]
    simp only [hdiv, hmod, hbclear]
  · intro j hj
    rw [bit_of_lt (by omega)]
    by_cases hjn : j / 8 < n
    · rw [hfull _ hjn (Nat.zero_le _)]
      have hall : ∀ k < 8, (0xff : UInt8).toBitVec.getLsbD k = true := by decide
      exact hall _ (Nat.mod_lt j (by omega))
    · have hjn : j / 8 = n := by omega
      simp only [hjn]
      exact hbfull _ (Nat.zero_le _) (by omega)
  · have hni : (UInt32.ofNat n).toNat = n := UInt32.toNat_ofNat_of_lt' (by
      change n < 2 ^ 32
      omega)
    have hcmp : UInt32.ofNat n < btmp.btmpBytesLen := UInt32.lt_iff_toNat_lt.mpr (by omega)
    have hneq : UInt32.ofNat n ≠ btmp.btmpBytesLen := by
      intro he
      rw [← he, hni] at hn
      omega
    have hread : btmp.readByte (UInt32.ofNat n) = .ok btmp.bits[n] := by
      rw [readByte_of_lt (by omega)]
      simp only [hni]
    have hstart : UInt32.ofNat (n * 8 + r) = UInt32.ofNat n * 8 + UInt32.ofNat r := by
      rw [UInt32.ofNat_add, UInt32.ofNat_mul]
      rfl
    unfold bitmapScan
    rw [show (0 : UInt32) = UInt32.ofNat 0 from rfl, hscan, hstart]
    simp only [bind, Except.bind, assert_of_true hcmp, hneq, if_false, hread, ← hr]
    rfl

/-- For one bit, `bitmap_scan` returns the least clear bit when there is one. -/
theorem bitmapScan_one {btmp : Bitmap} (h : ∃ i < btmp.size, btmp.bit i = false) :
    ∃ i < btmp.size, btmp.bit i = false ∧ (∀ j < i, btmp.bit j = true) ∧
      btmp.bitmapScan 1 = .ok (UInt32.ofNat i).toInt32 := by
  obtain ⟨i, hi, hclear, hleast, hscan⟩ := bitmapScan_start 1 h
  exact ⟨i, hi, hclear, hleast, by rw [hscan, if_pos rfl]⟩

/-- `bitmap_set` of 0 or 1 inside the buffer changes the bit named and no other. -/
theorem bitmapSet_spec {btmp : Bitmap} {i : UInt32} (hi : i.toNat < btmp.size) (v : Bool) :
    ∃ btmp', btmp.bitmapSet i (if v then 1 else 0) = .ok btmp' ∧ btmp'.size = btmp.size ∧
      ∀ j, btmp'.bit j = if j = i.toNat then v else btmp.bit j := by
  have hlen : (i / 8).toNat < btmp.btmpBytesLen.toNat := by
    rw [UInt32.toNat_div]
    unfold size at hi
    change i.toNat / 8 < _
    omega
  have hdiv : (i / 8).toNat = i.toNat / 8 := UInt32.toNat_div ..
  have hmod : (i % 8).toNat = i.toNat % 8 := UInt32.toNat_mod ..
  let byte := btmp.bits[(i / 8).toNat]
  let byte' := if v then byte ||| mask (i % 8).toNat else byte &&& ~~~mask (i % 8).toNat
  let btmp' : Bitmap := { btmp with bits := btmp.bits.setIfInBounds (i / 8).toNat byte' }
  have hbyte' : ∀ k < 8, byte'.toBitVec.getLsbD k =
      if k = i.toNat % 8 then v else byte.toBitVec.getLsbD k := by
    intro k hk
    cases v <;> simp only [byte', if_true, Bool.false_eq_true, if_false, UInt8.toBitVec_or,
      UInt8.toBitVec_and, UInt8.toBitVec_not, BitVec.getLsbD_or, BitVec.getLsbD_and,
      BitVec.getLsbD_not, getLsbD_mask, hk, hmod, decide_true, Bool.true_and]
    · by_cases hki : k = i.toNat % 8
      · simp [hki]
      · simp [hki, Ne.symm hki]
    · by_cases hki : k = i.toNat % 8
      · simp [hki]
      · simp [hki, Ne.symm hki]
  refine ⟨btmp', ?_, rfl, ?_⟩
  · unfold bitmapSet
    rw [assert_of_true (by cases v <;> simp)]
    simp only [readByte_of_lt hlen]
    cases v <;> rfl
  · intro j
    by_cases hj : j / 8 = (i / 8).toNat
    · have hjlen : j / 8 < btmp.btmpBytesLen.toNat := hj ▸ hlen
      have hnew : btmp'.bits[j / 8] = byte' := by
        simp only [btmp', hj]
        exact Vector.getElem_setIfInBounds_self _
      have hold : btmp.bits[j / 8] = byte := by simp only [hj, byte]
      have hjlen' : j / 8 < btmp'.btmpBytesLen.toNat := hjlen
      rw [bit_of_lt hjlen', bit_of_lt hjlen, hnew, hold,
        hbyte' _ (Nat.mod_lt j (by omega))]
      have hiff : j % 8 = i.toNat % 8 ↔ j = i.toNat := by omega
      simp only [hiff]
    · have hne : j ≠ i.toNat := by
        rintro rfl
        exact hj hdiv.symm
      rw [if_neg hne]
      have hsame : btmp'.bits[j / 8]? = btmp.bits[j / 8]? :=
        Vector.getElem?_setIfInBounds_ne (Ne.symm hj)
      simp only [bit, hsame]

/-- `bitmap_set` returns for the bits inside the buffer only. -/
lemma lt_size_of_bitmapSet {btmp btmp' : Bitmap} {i : UInt32} {value : Int8}
    (h : btmp.bitmapSet i value = .ok btmp') : i.toNat < btmp.size := by
  rw [bitmapSet, bind_eq_ok] at h
  obtain ⟨-, -, h⟩ := h
  rw [bind_eq_ok] at h
  obtain ⟨byte, hread, -⟩ := h
  have hlen : (i / 8).toNat < btmp.btmpBytesLen.toNat := by
    by_contra hge
    have hnone : btmp.bits[(i / 8).toNat]? = none := Vector.getElem?_eq_none (not_lt.mp hge)
    rw [readByte, hnone] at hread
    cases hread
  have hdiv : (i / 8).toNat = i.toNat / 8 := UInt32.toNat_div ..
  unfold size
  omega

end Bitmap
end Libtask
