import Libtask.Bitmap

/-!
# First fit

`bitmap_scan` looks for `cnt` clear bits in a row. It starts at the least clear
bit, counts the clear bits that end at the bit it reads, and stops when there
are enough. The bit after the last one is read too, unless the search has ended
before.
-/
namespace Libtask.Bitmap

/-- The bits `r .. r + cnt - 1` lie inside the map and are clear. -/
def Fits (btmp : Bitmap) (cnt r : ℕ) : Prop :=
  r + cnt ≤ btmp.size ∧ ∀ j, r ≤ j → j < r + cnt → btmp.bit j = false

/-- The first place that fits. -/
def LeastFit (btmp : Bitmap) (cnt r : ℕ) : Prop :=
  Fits btmp cnt r ∧ ∀ q < r, ¬ Fits btmp cnt q

/-- `bitmap_scan` returns; the result is the first place that fits, and -1 if there
is none. -/
def FindsFirstFit (btmp : Bitmap) (cnt : UInt32) : Prop :=
  ∃ res, btmp.bitmapScan cnt = .ok res ∧
    ((∃ r : ℕ, LeastFit btmp cnt.toNat r ∧ res.toInt = r) ∨
      ((∀ r, ¬ Fits btmp cnt.toNat r) ∧ res = -1))

/-- From the least clear bit `s` on, as many bits are read as the 32-bit
difference `bit_left` says. -/
def Scannable (btmp : Bitmap) (cnt : UInt32) : Prop :=
  ∃ s, LeastFit btmp 1 s ∧
    ((∃ r, LeastFit btmp cnt.toNat r ∧ r < 2 ^ 31 ∧ (cnt = 1 ∨
        r + cnt.toNat ≤ 2 ^ 32 ∧ r + cnt.toNat ≤ s + (btmp.size - s) % 2 ^ 32 + 1)) ∨
      ((∀ r, ¬ Fits btmp cnt.toNat r) ∧ 2 ^ 32 ≤ btmp.size))

/-- The last `c` bits before `p` are clear, and no more. -/
structure Run (btmp : Bitmap) (p c : ℕ) : Prop where
  le : c ≤ p
  clear : ∀ j, p - c ≤ j → j < p → btmp.bit j = false
  maximal : c = p ∨ btmp.bit (p - c - 1) = true

variable {btmp : Bitmap} {cnt : UInt32}

lemma Run.succ_clear {p c : ℕ} (h : Run btmp p c) (hbit : btmp.bit p = false) :
    Run btmp (p + 1) (c + 1) := by
  have hle := h.le
  constructor
  case le => omega
  case clear =>
    intro j hj hjp
    by_cases heq : j = p
    · rw [heq, hbit]
    · exact h.clear j (by omega) (by omega)
  case maximal =>
    rcases h.maximal with heq | hset
    · left
      omega
    · right
      rwa [Nat.add_sub_add_right]

lemma Run.succ_set {p : ℕ} (hbit : btmp.bit p = true) : Run btmp (p + 1) 0 := by
  constructor
  case le => omega
  case clear =>
    intro j hj hjp
    omega
  case maximal => exact .inr hbit

/-- A longer run would end here too. -/
lemma Run.le_of_fits {p c r : ℕ} (h : Run btmp p c)
    (hclear : ∀ j, r ≤ j → j < p → btmp.bit j = false) : p - c ≤ r := by
  by_contra hlt
  rcases h.maximal with heq | hset
  · omega
  · rw [hclear (p - c - 1) (by omega) (by omega)] at hset
    cases hset

lemma ofNat_toNat {i : ℕ} (h : i < 2 ^ 32) : (UInt32.ofNat i).toNat = i :=
  UInt32.toNat_ofNat_of_lt' h

lemma ofNat_succ (i : ℕ) : UInt32.ofNat i + 1 = UInt32.ofNat (i + 1) := by
  rw [UInt32.ofNat_add]
  rfl

/-- One bit is read. -/
lemma scanRun_succ {m p c : ℕ} (hp : p < btmp.size) (hp32 : p < 2 ^ 32) :
    btmp.scanRun cnt (m + 1) (UInt32.ofNat p) (UInt32.ofNat c) =
      let c' := if btmp.bit p = true then 0 else c + 1
      if UInt32.ofNat c' = cnt then .ok (UInt32.ofNat p - cnt + 1).toInt32
      else btmp.scanRun cnt m (UInt32.ofNat (p + 1)) (UInt32.ofNat c') := by
  have hnat := ofNat_toNat hp32
  have hread : btmp.bitmapScanTest (UInt32.ofNat p) = .ok (btmp.bit p) := by
    rw [bitmapScanTest_eq (by rwa [hnat]), hnat]
  rw [scanRun, hread]
  cases hbit : btmp.bit p
  · simp only [bind, Except.bind, Bool.false_eq_true, if_false, ofNat_succ]
    rfl
  · simp only [bind, Except.bind, if_true, ofNat_succ]
    rfl

/-- As long as no place that fits has been passed, the search goes on. -/
lemma scanRun_pass (k : ℕ) {m p c : ℕ} (hc : c < cnt.toNat) (hrun : Run btmp p c)
    (hsize : p + k ≤ btmp.size) (h32 : p + k ≤ 2 ^ 32)
    (hnone : ∀ r, r + cnt.toNat ≤ p + k → ¬ Fits btmp cnt.toNat r) :
    ∃ c', c' < cnt.toNat ∧ Run btmp (p + k) c' ∧
      btmp.scanRun cnt (m + k) (UInt32.ofNat p) (UInt32.ofNat c) =
        btmp.scanRun cnt m (UInt32.ofNat (p + k)) (UInt32.ofNat c') := by
  induction k generalizing p c with
  | zero => exact ⟨c, hc, hrun, rfl⟩
  | succ k ih =>
    have hcnt := cnt.toNat_lt
    have hp : p < btmp.size := by omega
    have hp32 : p < 2 ^ 32 := by omega
    rw [← Nat.add_assoc m, scanRun_succ hp hp32]
    dsimp only
    have hgo : ∀ c', Run btmp (p + 1) c' → c' ≤ c + 1 →
        ∃ c'', c'' < cnt.toNat ∧ Run btmp (p + (k + 1)) c'' ∧
          (if UInt32.ofNat c' = cnt then Except.ok (UInt32.ofNat p - cnt + 1).toInt32
            else btmp.scanRun cnt (m + k) (UInt32.ofNat (p + 1)) (UInt32.ofNat c')) =
            btmp.scanRun cnt m (UInt32.ofNat (p + (k + 1))) (UInt32.ofNat c'') := by
      intro c' hrun' hle
      have hle' := hrun'.le
      have hne : c' ≠ cnt.toNat := by
        intro heq
        refine hnone (p + 1 - cnt.toNat) (by omega) ⟨by omega, ?_⟩
        intro j hj hjp
        exact hrun'.clear j (by omega) (by omega)
      have hne' : UInt32.ofNat c' ≠ cnt := by
        intro heq
        apply hne
        rw [← heq, ofNat_toNat (by omega)]
      rw [if_neg hne']
      have hih := ih (p := p + 1) (c := c') (by omega) hrun' (by omega) (by omega)
        (fun r hr => hnone r (by omega))
      rwa [Nat.add_assoc, Nat.add_comm 1 k] at hih
    cases hbit : btmp.bit p with
    | true => exact hgo 0 (Run.succ_set hbit) (by omega)
    | false => exact hgo (c + 1) (hrun.succ_clear hbit) le_rfl

/-- The place that ends at the bit being read is returned. -/
lemma scanRun_end {m p c r : ℕ} (hc : c < cnt.toNat) (hrun : Run btmp p c)
    (hr : LeastFit btmp cnt.toNat r) (hend : r + cnt.toNat = p + 1) (h32 : p < 2 ^ 32) :
    btmp.scanRun cnt (m + 1) (UInt32.ofNat p) (UInt32.ofNat c) = .ok (UInt32.ofNat r).toInt32 := by
  have hcnt := cnt.toNat_lt
  obtain ⟨⟨hsize, hclear⟩, -⟩ := hr
  have hp : p < btmp.size := by omega
  have hle := hrun.le
  have hlong := hrun.le_of_fits (r := r) fun j hj hjp => hclear j hj (by omega)
  have hbit : btmp.bit p = false := hclear p (by omega) (by omega)
  have hc' : UInt32.ofNat (c + 1) = cnt := by
    apply UInt32.toNat_inj.mp
    rw [ofNat_toNat (by omega)]
    omega
  have hres : UInt32.ofNat p - cnt + 1 = UInt32.ofNat r := by
    apply UInt32.toNat_inj.mp
    rw [UInt32.toNat_add, UInt32.toNat_sub, ofNat_toNat h32, ofNat_toNat (by omega),
      show (1 : UInt32).toNat = 1 from rfl]
    omega
  rw [scanRun_succ hp h32, hbit]
  simp only [Bool.false_eq_true, if_false, hc', if_true, hres]

/-- Set bits are passed. -/
lemma scanRun_set (k : ℕ) {p : ℕ} {count : UInt32} (hcnt : cnt ≠ 0) (hsize : p + k ≤ btmp.size)
    (h32 : p + k ≤ 2 ^ 32) (hset : ∀ j, p ≤ j → j < p + k → btmp.bit j = true) :
    btmp.scanRun cnt k (UInt32.ofNat p) count = .ok (-1) := by
  induction k generalizing p count with
  | zero => rfl
  | succ k ih =>
    have hp : p < btmp.size := by omega
    have hp32 : p < 2 ^ 32 := by omega
    have hcount : count = UInt32.ofNat count.toNat := UInt32.ofNat_toNat.symm
    rw [hcount, scanRun_succ hp hp32]
    simp only [hset p le_rfl (by omega), if_true]
    rw [if_neg (show UInt32.ofNat 0 ≠ cnt from Ne.symm hcnt)]
    exact ih (by omega) (by omega) fun j hj hjp => hset j (by omega) (by omega)

/-- Beyond the last byte. -/
lemma scanRun_outOfBounds {m p : ℕ} {count : UInt32} (hp : p = btmp.size) (h32 : p < 2 ^ 32) :
    btmp.scanRun cnt (m + 1) (UInt32.ofNat p) count = .error .outOfBounds := by
  have hidx : ((UInt32.ofNat p) / 8).toNat = btmp.btmpBytesLen.toNat := by
    rw [UInt32.toNat_div, ofNat_toNat h32, hp, size]
    show 8 * btmp.btmpBytesLen.toNat / 8 = _
    omega
  have hread : btmp.readByte (UInt32.ofNat p / 8) = .error .outOfBounds := by
    simp [readByte, hidx]
  rw [scanRun, bitmapScanTest, hread]
  rfl

lemma scanByte_full (hfull : ∀ k (hk : k < btmp.btmpBytesLen.toNat), btmp.bits[k] = 0xff)
    (m : ℕ) {i : ℕ} (hi : i + m = btmp.btmpBytesLen.toNat) :
    btmp.scanByte (m + 1) (UInt32.ofNat i) = .error .outOfBounds := by
  have hlt := btmp.btmpBytesLen.toNat_lt
  have hnat := ofNat_toNat (i := i) (by omega)
  induction m generalizing i with
  | zero =>
    have hread : btmp.readByte (UInt32.ofNat i) = .error .outOfBounds := by
      simp [readByte, show i = btmp.btmpBytesLen.toNat by omega]
    rw [scanByte, hread]
    rfl
  | succ m ih =>
    have hread : btmp.readByte (UInt32.ofNat i) = .ok 0xff := by
      rw [readByte_of_lt (by omega)]
      simp only [hnat]
      rw [hfull i (by omega)]
    have hcmp : UInt32.ofNat i < btmp.btmpBytesLen := UInt32.lt_iff_toNat_lt.mpr (by omega)
    have hrest := ih (i := i + 1) (by omega) (ofNat_toNat (by omega))
    rw [scanByte, hread]
    simp only [bind, Except.bind, hcmp, and_self, if_true, ofNat_succ]
    exact hrest

/-- An index of 32 bits does not leave a map whose first 2^32 bits are set. -/
lemma scanRun_allSet (hcnt : cnt ≠ 0) (hset : ∀ j < 2 ^ 32, btmp.bit j = true) (m : ℕ)
    (nextBit count : UInt32) : btmp.scanRun cnt m nextBit count = .ok (-1) := by
  induction m generalizing nextBit count with
  | zero => rfl
  | succ m ih =>
    have hlt := nextBit.toNat_lt
    have hbit := hset nextBit.toNat hlt
    have hin : nextBit.toNat < btmp.size := by
      by_contra hge
      rw [bit_of_ge (not_lt.mp hge)] at hbit
      cases hbit
    have hread : btmp.bitmapScanTest nextBit = .ok true := by rw [bitmapScanTest_eq hin, hbit]
    rw [scanRun, hread]
    simp only [bind, Except.bind, if_true]
    rw [if_neg (Ne.symm hcnt)]
    exact ih _ _

section Outcome

variable {s : ℕ}

/-- The first clear bit. -/
lemma run_first (hclear : btmp.bit s = false) (hleast : ∀ j < s, btmp.bit j = true) :
    Run btmp (s + 1) 1 := by
  constructor
  case le => omega
  case clear =>
    intro j hj hjp
    rwa [show j = s by omega]
  case maximal =>
    by_cases hs : s = 0
    · left
      omega
    · right
      exact hleast _ (by omega)

/-- The first place that fits is reached within `m` bits. -/
lemma scanRun_found {m r : ℕ} (hclear : btmp.bit s = false) (hleast : ∀ j < s, btmp.bit j = true)
    (hcnt : 2 ≤ cnt.toNat) (hr : LeastFit btmp cnt.toNat r) (hsr : s ≤ r)
    (h32 : r + cnt.toNat ≤ 2 ^ 32) (hm : r + cnt.toNat ≤ s + m + 1) :
    btmp.scanRun cnt m (UInt32.ofNat (s + 1)) (UInt32.ofNat 1) = .ok (UInt32.ofNat r).toInt32 := by
  have hsize := hr.1.1
  obtain ⟨k, hk⟩ : ∃ k, r + cnt.toNat = s + 1 + k + 1 := ⟨r + cnt.toNat - (s + 2), by omega⟩
  obtain ⟨m, rfl⟩ : ∃ m', m = m' + 1 + k := ⟨m - 1 - k, by omega⟩
  obtain ⟨c, hc, hrun, hpass⟩ := scanRun_pass (m := m + 1) k (show 1 < cnt.toNat by omega)
    (run_first hclear hleast) (by omega) (by omega) fun q hq => hr.2 q (by omega)
  rw [hpass]
  exact scanRun_end hc hrun hr hk (by omega)

/-- A map of 2^29 bytes or more is not left; what does not fit in the bits read
is not found. -/
lemma scanRun_missed {m : ℕ} (hclear : btmp.bit s = false) (hleast : ∀ j < s, btmp.bit j = true)
    (hcnt : 2 ≤ cnt.toNat) (hsize : 2 ^ 32 ≤ btmp.size) (hm : m < 2 ^ 32)
    (hnone : ∀ r, r + cnt.toNat ≤ 2 ^ 32 → r + cnt.toNat ≤ s + m + 1 → ¬ Fits btmp cnt.toNat r) :
    btmp.scanRun cnt m (UInt32.ofNat (s + 1)) (UInt32.ofNat 1) = .ok (-1) := by
  have hne : cnt ≠ 0 := by
    rintro rfl
    exact absurd hcnt (by decide)
  by_cases hs : s < 2 ^ 32
  · by_cases hwrap : s + m < 2 ^ 32
    · obtain ⟨c, -, -, hpass⟩ := scanRun_pass (m := 0) m (show 1 < cnt.toNat by omega)
        (run_first hclear hleast) (by omega) (by omega) fun q hq => hnone q (by omega) (by omega)
      rw [Nat.zero_add] at hpass
      rw [hpass]
      rfl
    · -- the index wraps, to the set bits below `s`
      obtain ⟨k, hk⟩ : ∃ k, s + 1 + k = 2 ^ 32 := ⟨2 ^ 32 - (s + 1), by omega⟩
      obtain ⟨n, rfl⟩ : ∃ n, m = n + k := ⟨m - k, by omega⟩
      obtain ⟨c, -, -, hpass⟩ := scanRun_pass (m := n) k (show 1 < cnt.toNat by omega)
        (run_first hclear hleast) (by omega) (by omega) fun q hq => hnone q (by omega) (by omega)
      have hzero : UInt32.ofNat (2 ^ 32) = UInt32.ofNat 0 := by decide
      rw [hpass, hk, hzero]
      exact scanRun_set n hne (by omega) (by omega) fun j _ hj => hleast j (by omega)
  · exact scanRun_allSet hne (fun j hj => hleast j (by omega)) m _ _

end Outcome

lemma LeastFit.unique {c r q : ℕ} (hr : LeastFit btmp c r) (hq : LeastFit btmp c q) : r = q := by
  rcases Nat.lt_trichotomy r q with hlt | heq | hlt
  · exact absurd hr.1 (hq.2 r hlt)
  · exact heq
  · exact absurd hq.1 (hr.2 q hlt)

lemma toInt_ofNat_iff (r : ℕ) : (UInt32.ofNat r).toInt32.toInt = r ↔ r < 2 ^ 31 := by
  constructor
  · intro h
    have hlt := (UInt32.ofNat r).toInt32.toInt_lt
    omega
  · intro h
    have hnat : (UInt32.ofNat r).toBitVec.toNat = r := ofNat_toNat (by omega)
    have hint : (UInt32.ofNat r).toInt32.toInt = (UInt32.ofNat r).toBitVec.toInt := rfl
    rw [hint, BitVec.toInt_eq_toNat_of_lt (by rw [hnat]; omega), hnat]

/-- What the outcome says when some place fits. -/
lemma findsFirstFit_of_fit {r : ℕ} (hr : LeastFit btmp cnt.toNat r) {res : Int32}
    (hscan : btmp.bitmapScan cnt = .ok res) : FindsFirstFit btmp cnt ↔ res.toInt = r := by
  constructor
  · rintro ⟨res', hscan', ⟨q, hq, hint⟩ | ⟨hnone, -⟩⟩
    · obtain rfl := Except.ok.inj (hscan.symm.trans hscan')
      rw [hint, hq.unique hr]
    · exact absurd hr.1 (hnone r)
  · intro hint
    exact ⟨res, hscan, .inl ⟨r, hr, hint⟩⟩

/-- And when none does. -/
lemma findsFirstFit_of_none (hnone : ∀ r, ¬ Fits btmp cnt.toNat r) {res : Int32}
    (hscan : btmp.bitmapScan cnt = .ok res) : FindsFirstFit btmp cnt ↔ res = -1 := by
  constructor
  · rintro ⟨res', hscan', ⟨q, hq, -⟩ | ⟨-, rfl⟩⟩
    · exact absurd hq.1 (hnone q)
    · exact Except.ok.inj (hscan.symm.trans hscan')
  · intro hres
    exact ⟨res, hscan, .inr ⟨hnone, hres⟩⟩

lemma exists_leastFit {c : ℕ} (h : ∃ r, Fits btmp c r) : ∃ r, LeastFit btmp c r := by
  classical
  exact ⟨Nat.find h, Nat.find_spec h, fun q hq => Nat.find_min h hq⟩

/-- A map without a clear bit is read past its end. -/
lemma bitmapScan_full (hfull : ∀ i < btmp.size, btmp.bit i = true) :
    btmp.bitmapScan cnt = .error .outOfBounds := by
  have hbytes : ∀ k (hk : k < btmp.btmpBytesLen.toNat), btmp.bits[k] = 0xff := by
    intro k hk
    by_contra hne
    obtain ⟨j, hj, hclear⟩ := exists_clear_of_ne hne
    have hset := hfull (k * 8 + j) (by unfold size; omega)
    have hdiv : (k * 8 + j) / 8 = k := by omega
    have hmod : (k * 8 + j) % 8 = j := by omega
    rw [bit_of_lt (by omega)] at hset
    simp only [hdiv, hmod, hclear] at hset
    cases hset
  have hscan : btmp.scanByte (btmp.btmpBytesLen.toNat + 1) 0 = .error .outOfBounds :=
    scanByte_full hbytes btmp.btmpBytesLen.toNat (Nat.zero_add _)
  rw [bitmapScan, hscan]
  rfl

/-- One bit is the least clear one. -/
lemma leastFit_one {s : ℕ} (hs : s < btmp.size) (hclear : btmp.bit s = false)
    (hleast : ∀ j < s, btmp.bit j = true) : LeastFit btmp 1 s := by
  refine ⟨⟨by omega, fun j hj hjs => by rwa [show j = s by omega]⟩, ?_⟩
  intro q hq hfits
  have hset := hleast q hq
  rw [hfits.2 q le_rfl (by omega)] at hset
  cases hset

/-- `bit_left`. -/
lemma bitLeft_toNat {s : ℕ} (hs : s < btmp.size) :
    (btmp.btmpBytesLen * 8 - UInt32.ofNat s).toNat = (btmp.size - s) % 2 ^ 32 := by
  have hnat : (UInt32.ofNat s).toNat = s % 2 ^ 32 := UInt32.toNat_ofNat'
  have h8 : (8 : UInt32).toNat = 8 := rfl
  unfold size at hs ⊢
  rw [UInt32.toNat_sub, UInt32.toNat_mul, hnat, h8]
  omega

/-- More than one bit. -/
lemma findsFirstFit_search {s : ℕ} (hs : s < btmp.size) (hclear : btmp.bit s = false)
    (hleast : ∀ j < s, btmp.bit j = true) (hcnt : 2 ≤ cnt.toNat)
    (hscan : btmp.bitmapScan cnt = btmp.scanRun cnt
      (btmp.btmpBytesLen * 8 - UInt32.ofNat s).toNat (UInt32.ofNat (s + 1)) 1) :
    FindsFirstFit btmp cnt ↔ Scannable btmp cnt := by
  have hone := leastFit_one hs hclear hleast
  have h1 : cnt ≠ 1 := by
    rintro rfl
    exact absurd hcnt (by decide)
  have hmod := Nat.mod_lt (btmp.size - s) (show 0 < 2 ^ 32 by decide)
  rw [bitLeft_toNat hs] at hscan
  by_cases hfit : ∃ r, Fits btmp cnt.toNat r
  · obtain ⟨r, hr⟩ := exists_leastFit hfit
    have hsize := hr.1.1
    have hsr : s ≤ r := by
      by_contra hlt
      have hset := hleast r (by omega)
      rw [hr.1.2 r le_rfl (by omega)] at hset
      cases hset
    by_cases hreach : r + cnt.toNat ≤ 2 ^ 32 ∧ r + cnt.toNat ≤ s + (btmp.size - s) % 2 ^ 32 + 1
    · have hfound := hscan.trans (scanRun_found hclear hleast hcnt hr hsr hreach.1 hreach.2)
      rw [findsFirstFit_of_fit hr hfound, toInt_ofNat_iff]
      constructor
      · intro hlt
        exact ⟨s, hone, .inl ⟨r, hr, hlt, .inr hreach⟩⟩
      · rintro ⟨-, -, ⟨q, hq, hlt, -⟩ | ⟨hnone, -⟩⟩
        · rwa [← hq.unique hr]
        · exact absurd hr.1 (hnone r)
    · have hbig : 2 ^ 32 ≤ btmp.size := by
        by_contra hsmall
        rw [Nat.mod_eq_of_lt (by omega)] at hreach
        exact hreach ⟨by omega, by omega⟩
      have hmissed := hscan.trans (scanRun_missed hclear hleast hcnt hbig hmod
        fun q hq hqm => hr.2 q (by
          by_contra hge
          exact hreach ⟨by omega, by omega⟩))
      rw [findsFirstFit_of_fit hr hmissed]
      apply iff_of_false
      · intro hint
        have hneg : (-1 : Int32).toInt = -1 := rfl
        omega
      · rintro ⟨s', hs', ⟨q, hq, -, h | hqm⟩ | ⟨hnone, -⟩⟩
        · exact h1 h
        · rw [hq.unique hr, hs'.unique hone] at hqm
          exact hreach hqm
        · exact hnone r hr.1
  · have hnone : ∀ r, ¬ Fits btmp cnt.toNat r := fun r hr => hfit ⟨r, hr⟩
    by_cases hbig : 2 ^ 32 ≤ btmp.size
    · have hmissed := hscan.trans (scanRun_missed hclear hleast hcnt hbig hmod
        fun q _ _ => hnone q)
      rw [findsFirstFit_of_none hnone hmissed]
      exact iff_of_true rfl ⟨s, hone, .inr ⟨hnone, hbig⟩⟩
    · -- the bit after the last one is read
      obtain ⟨k, hk⟩ : ∃ k, s + 1 + k = btmp.size := ⟨btmp.size - (s + 1), by omega⟩
      have hleft : (btmp.size - s) % 2 ^ 32 = 1 + k := by
        rw [Nat.mod_eq_of_lt (by omega)]
        omega
      obtain ⟨c, -, -, hpass⟩ := scanRun_pass (m := 1) k (show 1 < cnt.toNat by omega)
        (run_first hclear hleast) (by omega) (by omega) fun q _ => hnone q
      apply iff_of_false
      · rintro ⟨res, hres, -⟩
        rw [hscan, hleft] at hres
        rw [show (1 : UInt32) = UInt32.ofNat 1 from rfl, hpass,
          scanRun_outOfBounds (m := 0) hk (by omega)] at hres
        cases hres
      · rintro ⟨-, -, ⟨q, hq, -⟩ | ⟨-, hge⟩⟩
        · exact hnone q hq.1
        · exact hbig hge

/-- `bitmap_scan` does what it is for exactly on the maps and counts that its
32-bit search covers. -/
theorem findsFirstFit_iff (hcnt : cnt ≠ 0) : FindsFirstFit btmp cnt ↔ Scannable btmp cnt := by
  by_cases hany : ∃ i < btmp.size, btmp.bit i = false
  · obtain ⟨s, hs, hclear, hleast, hscan⟩ := bitmapScan_start cnt hany
    have hone := leastFit_one hs hclear hleast
    have hpos : cnt.toNat ≠ 0 := fun h => hcnt (UInt32.toNat_inj.mp h)
    by_cases h1 : cnt = 1
    · subst h1
      rw [if_pos rfl] at hscan
      rw [findsFirstFit_of_fit (show LeastFit btmp (1 : UInt32).toNat s from hone) hscan,
        toInt_ofNat_iff]
      constructor
      · intro hlt
        exact ⟨s, hone, .inl ⟨s, hone, hlt, .inl rfl⟩⟩
      · rintro ⟨-, -, ⟨r, hr, hlt, -⟩ | ⟨hnone, -⟩⟩
        · rwa [← hr.unique hone]
        · exact absurd hone.1 (hnone s)
    · rw [if_neg h1, ofNat_succ] at hscan
      have hcnt2 : 2 ≤ cnt.toNat := by
        have hne : cnt.toNat ≠ 1 := fun h => h1 (UInt32.toNat_inj.mp h)
        omega
      exact findsFirstFit_search hs hclear hleast hcnt2 hscan
  · have hfull : ∀ i < btmp.size, btmp.bit i = true := by
      intro i hi
      by_contra hbit
      exact hany ⟨i, hi, by simpa using hbit⟩
    apply iff_of_false
    · rintro ⟨res, hscan, -⟩
      rw [bitmapScan_full hfull] at hscan
      cases hscan
    · rintro ⟨s, ⟨⟨hs, hclear⟩, -⟩, -⟩
      exact hany ⟨s, by omega, hclear s le_rfl (by omega)⟩

/-- One byte, whose bits 1 and 2 are clear. -/
def smallMap : Bitmap := ⟨1, #v[0xf9]⟩

theorem findsFirstFit_smallMap : FindsFirstFit smallMap 2 ↔ Scannable smallMap 2 :=
  findsFirstFit_iff (by decide)

/-- No bit of the byte is clear. -/
theorem not_findsFirstFit : ¬ ∀ (btmp : Bitmap) (cnt : UInt32), 1 ≤ btmp.btmpBytesLen → cnt ≠ 0 →
    FindsFirstFit btmp cnt := by
  intro hall
  obtain ⟨res, hscan, -⟩ := hall ⟨1, #v[0xff]⟩ 1 (by decide) (by decide)
  have herr : Bitmap.bitmapScan ⟨1, #v[0xff]⟩ 1 = .error .outOfBounds := by decide
  rw [herr] at hscan
  cases hscan

end Libtask.Bitmap
