import Mathlib

/-!
# Moves, a stack and byte memory

A part of x86-64: registers, a memory of bytes, and the instructions that move
64-bit words between them. Addresses wrap. A routine is straight-line code that
ends with `ret`; what it stores to or loads from one base register is said for a
list of registers at once. Nothing here is about a particular program.
-/
namespace Libtask.X86

abbrev Word := BitVec 64

inductive Reg
  | rax | rbx | rcx | rdx | rsi | rdi | rbp | rsp
  | r8 | r9 | r10 | r11 | r12 | r13 | r14 | r15
  deriving DecidableEq, Repr

abbrev Memory := Word → BitVec 8

/-- The byte at `a + k`, as it stands in a word whose lowest byte is at `a`. -/
def byteAt (m : Memory) (a : Word) (k : ℕ) : ℕ :=
  (m (a + BitVec.ofNat 64 k)).toNat * 2 ^ (8 * k)

/-- The word of the eight bytes from `a` on, the lowest byte first. -/
def load64 (m : Memory) (a : Word) : Word :=
  BitVec.ofNat 64 (byteAt m a 0 + byteAt m a 1 + byteAt m a 2 + byteAt m a 3 +
    byteAt m a 4 + byteAt m a 5 + byteAt m a 6 + byteAt m a 7)

def store64 (m : Memory) (a v : Word) : Memory := fun x =>
  if (x - a).toNat < 8 then BitVec.ofNat 8 (v.toNat / 2 ^ (8 * (x - a).toNat)) else m x

/-- `x` is one of the `len` bytes from `a` on. -/
def InRange (a : Word) (len : ℕ) (x : Word) : Prop := (x - a).toNat < len

/-- Two ranges have no byte in common. -/
def Apart (a : Word) (la : ℕ) (b : Word) (lb : ℕ) : Prop :=
  ∀ x, InRange a la x → ¬ InRange b lb x

variable {m m' : Memory} {a b v x : Word} {la lb len d : ℕ}

lemma Apart.symm (h : Apart a la b lb) : Apart b lb a la := fun x hb ha => h x ha hb

/-- A part of a range. -/
lemma InRange.mono (h : InRange (a + BitVec.ofNat 64 d) len x) (hd : d + len ≤ la)
    (hla : la < 2 ^ 64) : InRange a la x := by
  unfold InRange at *
  bv_omega

/-- Two ranges that do not wrap, one below the other. -/
lemma apart_of_le (hab : a.toNat + la ≤ b.toNat) (hb : b.toNat + lb ≤ 2 ^ 64) :
    Apart a la b lb := by
  intro x ha hb
  unfold InRange at ha hb
  bv_omega

/-- Two words of one range, at different offsets. -/
lemma apart_of_disjoint {d e : ℕ} (h : d + 8 ≤ e ∨ e + 8 ≤ d) (hd : d < 2 ^ 32) (he : e < 2 ^ 32) :
    Apart (a + BitVec.ofNat 64 d) 8 (a + BitVec.ofNat 64 e) 8 := by
  intro x hx hy
  unfold InRange at hx hy
  bv_omega

lemma store64_of_not_inRange (h : ¬ InRange a 8 x) : store64 m a v x = m x := if_neg h

lemma load64_congr (h : ∀ x, InRange a 8 x → m' x = m x) : load64 m' a = load64 m a := by
  have hbyte : ∀ k : ℕ, k < 8 → byteAt m' a k = byteAt m a k := by
    intro k hk
    have hin : InRange a 8 (a + BitVec.ofNat 64 k) := by
      unfold InRange
      bv_omega
    rw [byteAt, h _ hin, byteAt]
  unfold load64
  rw [hbyte 0 (by decide), hbyte 1 (by decide), hbyte 2 (by decide), hbyte 3 (by decide),
    hbyte 4 (by decide), hbyte 5 (by decide), hbyte 6 (by decide), hbyte 7 (by decide)]

lemma load64_store64_self : load64 (store64 m a v) a = v := by
  have hbyte : ∀ k : ℕ, k < 8 → byteAt (store64 m a v) a k =
      v.toNat / 2 ^ (8 * k) % 2 ^ 8 * 2 ^ (8 * k) := by
    intro k hk
    have hdiff : (a + BitVec.ofNat 64 k - a).toNat = k := by bv_omega
    rw [byteAt, store64, hdiff, if_pos hk, BitVec.toNat_ofNat]
  unfold load64
  rw [hbyte 0 (by decide), hbyte 1 (by decide), hbyte 2 (by decide), hbyte 3 (by decide),
    hbyte 4 (by decide), hbyte 5 (by decide), hbyte 6 (by decide), hbyte 7 (by decide)]
  apply BitVec.eq_of_toNat_eq
  have hlt := v.isLt
  simp only [BitVec.toNat_ofNat]
  omega

/-- Byte `k` of a word. -/
lemma load64_byte {k : ℕ} (hk : k < 8) :
    (load64 m a).toNat / 2 ^ (8 * k) % 2 ^ 8 = (m (a + BitVec.ofNat 64 k)).toNat := by
  have hlt : ∀ j, (m (a + BitVec.ofNat 64 j)).toNat < 2 ^ 8 := fun j => (m _).isLt
  have h0 := hlt 0
  have h1 := hlt 1
  have h2 := hlt 2
  have h3 := hlt 3
  have h4 := hlt 4
  have h5 := hlt 5
  have h6 := hlt 6
  have h7 := hlt 7
  unfold load64 byteAt
  rw [BitVec.toNat_ofNat]
  interval_cases k <;> omega

/-- A store changes nothing exactly when the word is there already. -/
lemma store64_eq_iff : (∀ x, InRange a 8 x → store64 m a v x = m x) ↔ load64 m a = v := by
  constructor
  · intro h
    rw [← load64_congr h, load64_store64_self]
  · rintro rfl x hx
    unfold InRange at hx
    have hx' : a + BitVec.ofNat 64 (x - a).toNat = x := by bv_omega
    rw [store64, if_pos hx]
    apply BitVec.eq_of_toNat_eq
    rw [BitVec.toNat_ofNat, load64_byte hx, hx']

/-- Words stored one after the other, each at an offset from `a`. -/
def storeAll (m : Memory) (a : Word) : List (ℕ × Word) → Memory
  | [] => m
  | (d, v) :: l => storeAll (store64 m (a + BitVec.ofNat 64 d) v) a l

lemma storeAll_append (l l' : List (ℕ × Word)) :
    storeAll m a (l ++ l') = storeAll (storeAll m a l) a l' := by
  induction l generalizing m with
  | nil => rfl
  | cons p l ih => exact ih

lemma storeAll_of_not_inRange {l : List (ℕ × Word)}
    (h : ∀ p ∈ l, ¬ InRange (a + BitVec.ofNat 64 p.1) 8 x) : storeAll m a l x = m x := by
  induction l generalizing m with
  | nil => rfl
  | cons p l ih =>
    have htail : ∀ q ∈ l, ¬ InRange (a + BitVec.ofNat 64 q.1) 8 x :=
      fun q hq => h q (List.mem_cons_of_mem p hq)
    rw [storeAll, ih htail]
    exact store64_of_not_inRange (h p List.mem_cons_self)

/-- Stores inside a range leave what is outside it. -/
lemma storeAll_of_not_inRange_of_le {l : List (ℕ × Word)} (hl : ∀ p ∈ l, p.1 + 8 ≤ len)
    (hlen : len < 2 ^ 64) (h : ¬ InRange a len x) : storeAll m a l x = m x :=
  storeAll_of_not_inRange fun p hp hx => h (hx.mono (hl p hp) hlen)

/-- Two words at these offsets have no byte in common. -/
def Disjoint8 (d e : ℕ) : Prop := d + 8 ≤ e ∨ e + 8 ≤ d

instance : DecidableRel Disjoint8 :=
  fun d e => inferInstanceAs (Decidable (d + 8 ≤ e ∨ e + 8 ≤ d))

/-- Each word stored is read back, if no later one of the list covers it. -/
lemma load64_storeAll {l : List (ℕ × Word)} (hdisj : (l.map Prod.fst).Pairwise Disjoint8)
    (hlt : ∀ p ∈ l, p.1 < 2 ^ 32) (hmem : (d, v) ∈ l) :
    load64 (storeAll m a l) (a + BitVec.ofNat 64 d) = v := by
  induction l generalizing m with
  | nil => cases hmem
  | cons p l ih =>
    rw [List.map_cons, List.pairwise_cons] at hdisj
    have htail : ∀ q ∈ l, q.1 < 2 ^ 32 := fun q hq => hlt q (List.mem_cons_of_mem p hq)
    rcases List.mem_cons.mp hmem with rfl | hl
    · have hkeep : load64 (storeAll (store64 m (a + BitVec.ofNat 64 d) v) a l)
          (a + BitVec.ofNat 64 d) = load64 (store64 m (a + BitVec.ofNat 64 d) v)
          (a + BitVec.ofNat 64 d) := by
        apply load64_congr
        intro x hx
        apply storeAll_of_not_inRange
        intro q hq
        have hde : Disjoint8 d q.1 := hdisj.1 q.1 (List.mem_map_of_mem hq)
        exact apart_of_disjoint hde (hlt _ List.mem_cons_self) (htail q hq) x hx
      rw [storeAll, hkeep, load64_store64_self]
    · exact ih hdisj.2 htail hl

/-- The registers and the address of the next instruction. -/
@[ext] structure Cpu where
  regs : Reg → Word
  rip : Word

@[ext] structure State extends Cpu where
  mem : Memory

/-- In the order of the assembler's operands: `mov [base + disp], src`,
`mov dst, [base + disp]`, `lea dst, [base + disp]`, `push src` and `ret`. -/
inductive Instr
  | store (base : Reg) (disp : ℕ) (src : Reg)
  | load (dst base : Reg) (disp : ℕ)
  | lea (dst base : Reg) (disp : ℕ)
  | push (src : Reg)
  | ret

def State.address (s : State) (base : Reg) (disp : ℕ) : Word :=
  s.regs base + BitVec.ofNat 64 disp

def State.setReg (s : State) (r : Reg) (v : Word) : State :=
  { s with regs := Function.update s.regs r v }

/-- One instruction of straight-line code; `rip` moves only at a `ret`. -/
def exec (s : State) : Instr → State
  | .store base disp src => { s with mem := store64 s.mem (s.address base disp) (s.regs src) }
  | .load dst base disp => s.setReg dst (load64 s.mem (s.address base disp))
  | .lea dst base disp => s.setReg dst (s.address base disp)
  | .push src =>
    { s.setReg .rsp (s.regs .rsp - 8) with
      mem := store64 s.mem (s.regs .rsp - 8) (s.regs src) }
  | .ret => { s.setReg .rsp (s.regs .rsp + 8) with rip := load64 s.mem (s.regs .rsp) }

def run (s : State) (code : List Instr) : State := code.foldl exec s

lemma run_append (s : State) (p q : List Instr) : run s (p ++ q) = run (run s p) q :=
  List.foldl_append

def stores (base : Reg) (disp : Reg → ℕ) (rs : List Reg) : List Instr :=
  rs.map fun r => .store base (disp r) r

def loads (base : Reg) (disp : Reg → ℕ) (rs : List Reg) : List Instr :=
  rs.map fun r => .load r base (disp r)

variable {base : Reg} {disp : Reg → ℕ} {rs : List Reg}

lemma run_stores (s : State) :
    run s (stores base disp rs) =
      { s with mem := storeAll s.mem (s.regs base) (rs.map fun r => (disp r, s.regs r)) } := by
  induction rs generalizing s with
  | nil => rfl
  | cons r rs ih =>
    change run (exec s (.store base (disp r) r)) (stores base disp rs) = _
    rw [ih]
    rfl

/-- The base register is not loaded, so that every address is from its value at the start. -/
lemma run_loads (s : State) (hbase : base ∉ rs) :
    run s (loads base disp rs) =
      { s with regs := fun r => if r ∈ rs then load64 s.mem (s.address base (disp r))
          else s.regs r } := by
  induction rs generalizing s with
  | nil => simp [run, loads]
  | cons q rs ih =>
    rw [List.mem_cons, not_or] at hbase
    change run (exec s (.load q base (disp q))) (loads base disp rs) = _
    rw [ih _ hbase.2]
    have haddr : ∀ r, (exec s (.load q base (disp q))).address base (disp r) =
        s.address base (disp r) := by
      intro r
      simp [exec, State.address, State.setReg, hbase.1]
    simp only [haddr]
    apply congrArg fun f => ({ s with regs := f } : State)
    ext r
    by_cases hrs : r ∈ rs
    · simp [hrs, exec, State.setReg]
    · by_cases hr : r = q
      · subst hr
        simp [hrs, exec, State.setReg]
      · simp [hrs, hr, exec, State.setReg]

end Libtask.X86
