import Mathlib

/-!
# Blocks and their owners

Each owner is the address of a block and holds a second block. Nothing else is allocated,
and no block belongs to two owners. Nothing here is about a particular program.
-/
namespace Libtask.Ownership

variable {α : Type} {owner owner' : α → Prop} {second second' : α → α} {alloc : Finset α} {t p : α}

/-- The allocated blocks are those of the owners, and all of them are different. -/
structure Held (owner : α → Prop) (second : α → α) (alloc : Finset α) : Prop where
  exact : ∀ p, p ∈ alloc ↔ ∃ t, owner t ∧ (p = t ∨ p = second t)
  apart : ∀ t u, owner t → owner u → second t ≠ u
  inj : ∀ t u, owner t → owner u → second t = second u → t = u

lemma Held.mem (h : Held owner second alloc) (ht : owner t) : t ∈ alloc :=
  (h.exact t).mpr ⟨t, ht, .inl rfl⟩

lemma Held.second_mem (h : Held owner second alloc) (ht : owner t) : second t ∈ alloc :=
  (h.exact _).mpr ⟨t, ht, .inr rfl⟩

/-- The same owners hold the same blocks. -/
theorem Held.congr (h : Held owner second alloc) (howner : ∀ u, owner' u ↔ owner u)
    (hsecond : ∀ u, owner u → second' u = second u) : Held owner' second' alloc := by
  constructor
  case exact =>
    intro q
    rw [h.exact]
    refine exists_congr fun u => ?_
    rw [howner]
    exact and_congr_right fun hu => by rw [hsecond u hu]
  case apart =>
    intro u v hu hv
    rw [howner] at hu hv
    rw [hsecond u hu]
    exact h.apart u v hu hv
  case inj =>
    intro u v hu hv
    rw [howner] at hu hv
    rw [hsecond u hu, hsecond v hv]
    exact h.inj u v hu hv

variable [DecidableEq α]

/-- A new owner comes with two new blocks. -/
theorem Held.insert (h : Held owner second alloc) (ht : t ∉ alloc) (hp : p ∉ alloc) (hne : p ≠ t)
    (howner : ∀ u, owner' u ↔ owner u ∨ u = t) (hsecond : ∀ u, owner u → second' u = second u)
    (htp : second' t = p) : Held owner' second' (insert p (insert t alloc)) := by
  have hold : ∀ {u}, owner u → u ≠ t ∧ u ≠ p ∧ second u ≠ t ∧ second u ≠ p := by
    intro u hu
    refine ⟨?_, ?_, ?_, ?_⟩
    · rintro rfl
      exact ht (h.mem hu)
    · rintro rfl
      exact hp (h.mem hu)
    · rintro rfl
      exact ht (h.second_mem hu)
    · rintro rfl
      exact hp (h.second_mem hu)
  constructor
  case exact =>
    intro q
    simp only [Finset.mem_insert, h.exact, howner]
    constructor
    · rintro (rfl | rfl | ⟨u, hu, hq⟩)
      · exact ⟨t, .inr rfl, .inr htp.symm⟩
      · exact ⟨q, .inr rfl, .inl rfl⟩
      · exact ⟨u, .inl hu, by rwa [hsecond u hu]⟩
    · rintro ⟨u, hu | rfl, hq⟩
      · rw [hsecond u hu] at hq
        exact .inr (.inr ⟨u, hu, hq⟩)
      · rw [htp] at hq
        exact hq.elim (fun hq => .inr (.inl hq)) .inl
  case apart =>
    intro u v hu hv
    rcases (howner u).mp hu with hu | rfl <;> rcases (howner v).mp hv with hv | rfl
    · rw [hsecond u hu]
      exact h.apart u v hu hv
    · rw [hsecond u hu]
      exact (hold hu).2.2.1
    · rw [htp]
      exact (hold hv).2.1.symm
    · rwa [htp]
  case inj =>
    intro u v hu hv
    rcases (howner u).mp hu with hu | rfl <;> rcases (howner v).mp hv with hv | rfl
    · rw [hsecond u hu, hsecond v hv]
      exact h.inj u v hu hv
    · rw [hsecond u hu, htp]
      exact fun heq => absurd heq (hold hu).2.2.2
    · rw [hsecond v hv, htp]
      exact fun heq => absurd heq.symm (hold hv).2.2.2
    · exact fun _ => rfl

/-- Both blocks of an owner are freed. -/
theorem Held.erase (h : Held owner second alloc) (ht : owner t)
    (howner : ∀ u, owner' u ↔ owner u ∧ u ≠ t) :
    Held owner' second ((alloc.erase (second t)).erase t) := by
  constructor
  case exact =>
    intro q
    simp only [Finset.mem_erase, h.exact, howner]
    constructor
    · rintro ⟨hqt, hqs, u, hu, hq⟩
      refine ⟨u, ⟨hu, ?_⟩, hq⟩
      rintro rfl
      exact hq.elim hqt hqs
    · rintro ⟨u, ⟨hu, hut⟩, rfl | rfl⟩
      · exact ⟨hut, (h.apart t q ht hu).symm, q, hu, .inl rfl⟩
      · exact ⟨h.apart u t hu ht, fun heq => hut (h.inj u t hu ht heq), u, hu, .inr rfl⟩
  case apart => exact fun u v hu hv => h.apart u v ((howner u).mp hu).1 ((howner v).mp hv).1
  case inj => exact fun u v hu hv => h.inj u v ((howner u).mp hu).1 ((howner v).mp hv).1

end Libtask.Ownership
