import Mathlib

/-!
# Windows of a circular buffer

A buffer of `n` cells that is read from a start position on, wrapping at its
end. Nothing here is about a particular program.
-/
namespace Libtask.Window

variable {α : Type*} {n : ℕ} [NeZero n]

/-- The cell `k` places after `start`. -/
def place (start : Fin n) (k : ℕ) : Fin n := Fin.ofNat n (start.val + k)

@[simp] lemma place_zero (start : Fin n) : place start 0 = start := by
  apply Fin.ext
  exact Nat.mod_eq_of_lt start.isLt

lemma place_place (start : Fin n) (j k : ℕ) : place (place start j) k = place start (j + k) := by
  apply Fin.ext
  show ((start.val + j) % n + k) % n = (start.val + (j + k)) % n
  rw [Nat.mod_add_mod, Nat.add_assoc]

/-- Within one turn every place is another cell. -/
lemma place_inj {start : Fin n} {j k : ℕ} (hj : j < n) (hk : k < n) :
    place start j = place start k ↔ j = k := by
  constructor
  · intro h
    have hval : (start.val + j) % n = (start.val + k) % n := congrArg Fin.val h
    have hmod : j ≡ k [MOD n] := Nat.ModEq.add_left_cancel' start.val hval
    exact Nat.ModEq.eq_of_lt_of_lt hmod hj hk
  · rintro rfl
    rfl

/-- The `len` cells from `start` on. -/
def window (buf : Fin n → α) (start : Fin n) (len : ℕ) : List α :=
  (List.range len).map fun k => buf (place start k)

@[simp] lemma window_zero (buf : Fin n → α) (start : Fin n) : window buf start 0 = [] := rfl

@[simp] lemma length_window (buf : Fin n → α) (start : Fin n) (len : ℕ) :
    (window buf start len).length = len := by simp [window]

/-- One more cell at the end. -/
lemma window_snoc (buf : Fin n → α) (start : Fin n) (len : ℕ) :
    window buf start (len + 1) = window buf start len ++ [buf (place start len)] := by
  simp [window, List.range_succ]

/-- The first cell, and the window that starts after it. -/
lemma window_cons (buf : Fin n → α) (start : Fin n) (len : ℕ) :
    window buf start (len + 1) = buf start :: window buf (place start 1) len := by
  induction len with
  | zero => simp [window_snoc]
  | succ len ih =>
    rw [window_snoc, ih, window_snoc, place_place, Nat.add_comm 1 len]
    rfl

/-- A write outside the window. -/
lemma window_update {buf : Fin n → α} {start : Fin n} {len k : ℕ} (hk : len ≤ k) (hn : k < n)
    (x : α) : window (Function.update buf (place start k) x) start len = window buf start len := by
  apply List.map_congr_left
  intro j hj
  rw [List.mem_range] at hj
  apply Function.update_of_ne
  rw [Ne, place_inj (by omega) hn]
  omega

end Libtask.Window
