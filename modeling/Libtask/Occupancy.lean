import Mathlib

/-!
# Occupancy of a finite family of lists

A family `L : ι → List α` is a set of places, each with a queue. The occupancy
of `a` counts its occurrences over all places; it is 1 exactly when `a` stands
once in one place. The lemmas say how moving elements about changes it.
-/
namespace Libtask
open scoped BigOperators

variable {ι α : Type*} [Fintype ι] [DecidableEq α]

/-- How often `a` occurs over all places. -/
def occupancy (L : ι → List α) (a : α) : ℕ := ∑ i, (L i).count a

@[simp] lemma occupancy_nil (a : α) : occupancy (fun _ : ι => ([] : List α)) a = 0 := by
  simp [occupancy]

lemma count_le_occupancy (L : ι → List α) (i : ι) (a : α) : (L i).count a ≤ occupancy L a :=
  Finset.single_le_sum (f := fun i => (L i).count a) (fun _ _ => Nat.zero_le _)
    (Finset.mem_univ i)

lemma occupancy_pos_of_mem {L : ι → List α} {i : ι} {a : α} (h : a ∈ L i) : 0 < occupancy L a :=
  lt_of_lt_of_le (List.count_pos_iff.mpr h) (count_le_occupancy L i a)

lemma not_mem_of_occupancy_eq_zero {L : ι → List α} {a : α} (h : occupancy L a = 0) (i : ι) :
    a ∉ L i := fun hm => by have := occupancy_pos_of_mem hm; omega

/-- Over a list of all places it is the count of the queues put together. -/
lemma occupancy_eq_count_flatMap [DecidableEq ι] {L : List ι} (hnodup : L.Nodup)
    (hall : ∀ i, i ∈ L) (queues : ι → List α) (a : α) :
    occupancy queues a = (L.flatMap queues).count a := by
  have huniv : L.toFinset = Finset.univ := by
    ext i
    simp [hall]
  rw [occupancy, ← huniv, List.count_flatMap, List.sum_toFinset _ hnodup]
  rfl

/-- Replacing one queue trades its count for that of the new one. -/
lemma occupancy_update [DecidableEq ι] (L : ι → List α) (i : ι) (l : List α) (a : α) :
    occupancy (Function.update L i l) a + (L i).count a = occupancy L a + l.count a := by
  have hold := Finset.sum_erase_add Finset.univ (fun j => (L j).count a) (Finset.mem_univ i)
  have hnew := Finset.sum_erase_add Finset.univ
    (fun j => (Function.update L i l j).count a) (Finset.mem_univ i)
  have he : (∑ j ∈ Finset.univ.erase i, (Function.update L i l j).count a) =
      ∑ j ∈ Finset.univ.erase i, (L j).count a := by
    apply Finset.sum_congr rfl
    intro j hj
    rw [Function.update_of_ne (Finset.ne_of_mem_erase hj)]
  simp only [Function.update_self] at hnew
  unfold occupancy
  omega

lemma occupancy_append [DecidableEq ι] (L : ι → List α) (i : ι) (x a : α) :
    occupancy (Function.update L i (L i ++ [x])) a =
      occupancy L a + if x = a then 1 else 0 := by
  have h := occupancy_update L i (L i ++ [x]) a
  rw [List.count_append, List.count_singleton] at h
  simp only [beq_iff_eq] at h
  omega

/-- Exactly one place, and once there. -/
theorem existsUnique_of_occupancy_eq_one [DecidableEq ι] {L : ι → List α} {a : α}
    (h : occupancy L a = 1) : ∃ i, (L i).count a = 1 ∧ ∀ j, j ≠ i → a ∉ L j := by
  obtain ⟨i, hi⟩ : ∃ i, a ∈ L i := by
    by_contra hne
    have hz : occupancy L a = 0 :=
      Finset.sum_eq_zero fun i _ => List.count_eq_zero.mpr fun hm => hne ⟨i, hm⟩
    omega
  refine ⟨i, ?_, ?_⟩
  · have hp := List.count_pos_iff.mpr hi
    have hle := count_le_occupancy L i a
    omega
  · intro j hji hj
    have hu := occupancy_update L i [] a
    have hp := List.count_pos_iff.mpr hi
    have hj' : a ∈ Function.update L i [] j := by rwa [Function.update_of_ne hji]
    have hpos := occupancy_pos_of_mem hj'
    simp only [List.count_nil] at hu
    omega

/-- Erasing `x` everywhere leaves the occupancy of the others. -/
lemma occupancy_erase_of_ne (L : ι → List α) {x a : α} (h : a ≠ x) :
    occupancy (fun i => (L i).erase x) a = occupancy L a :=
  Finset.sum_congr rfl fun _ _ => List.count_erase_of_ne h

lemma occupancy_erase_self {L : ι → List α} {x : α} (h : occupancy L x ≤ 1) :
    occupancy (fun i => (L i).erase x) x = 0 := by
  refine Finset.sum_eq_zero fun i _ => ?_
  have hi := count_le_occupancy L i x
  rw [List.count_erase_self]
  omega

end Libtask
