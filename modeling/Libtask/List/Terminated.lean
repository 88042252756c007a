import Libtask.List.Intrusive

/-!
# Lists that end in a null pointer

`list_pop` of an empty list takes the tail for an element. It fails there because the
tail has no next cell, which no legal operation changes. With that, every operation is
said of one list and its sequence: what it returns, and what the heap represents then.
-/
namespace Libtask.Intrusive
open Links

variable {ι ε : Type} {h h' : Heap (Cell ι ε)} {q : Contents ι ε} {i : ι} {l : List ε} {e : ε}

/-- The heap represents the sequences, and nothing comes after a tail. -/
structure Terminated (h : Heap (Cell ι ε)) (q : Contents ι ε) : Prop where
  represents : Represents h q
  last : ∀ i l, q i = some l → (h (.tail i)).next = none

/-- The cell before one of a segment is the start or one of the segment too. -/
lemma exists_prev {α : Type} {h : Heap α} {a b c : α} {l : List α} (hs : Seg h a l b)
    (hc : c ∈ l ++ [b]) : ∃ p ∈ a :: l, (h c).prev = some p := by
  induction l generalizing a with
  | nil =>
    obtain rfl := List.mem_singleton.mp hc
    exact ⟨a, List.mem_cons_self, hs.2⟩
  | cons x l ih =>
    rcases List.mem_cons.mp hc with rfl | hc
    · exact ⟨a, List.mem_cons_self, hs.1.2⟩
    · obtain ⟨p, hp, hprev⟩ := ih hs.2 hc
      exact ⟨p, List.mem_cons_of_mem a hp, hprev⟩

/-- No tail stands before a cell of a list. -/
lemma Represents.prev_eq (hr : Represents h q) (hq : q i = some l) {c : Cell ι ε}
    (hc : c ∈ l.map Cell.elem ++ [Cell.tail i]) :
    ∃ p, (h c).prev = some p ∧ ∀ j, p ≠ .tail j := by
  obtain ⟨p, hp, hprev⟩ := exists_prev (hr.seg i l hq) hc
  refine ⟨p, hprev, ?_⟩
  rintro j rfl
  simp at hp

section Operations

variable [DecidableEq ι]

/-- The sequence changes, and the tails are left alone. -/
lemma Terminated.update (ht : Terminated h q) (hq : q i = some l) {l' : List ε}
    (hr : Represents h' (Function.update q i (some l')))
    (hlast : ∀ j, (h' (.tail j)).next = (h (.tail j)).next) :
    Terminated h' (Function.update q i (some l')) := by
  refine ⟨hr, fun j k hk => ?_⟩
  rw [hlast]
  by_cases hj : j = i
  · subst hj
    exact ht.last j l hq
  · rw [Function.update_of_ne hj] at hk
    exact ht.last j k hk

variable [DecidableEq ε]

lemma listInsertBefore_last {c p : Cell ι ε} (hprev : (h c).prev = some p)
    (hp : ∀ j, p ≠ .tail j) (hrun : listInsertBefore h c (.elem e) = some h') (j : ι) :
    (h' (.tail j)).next = (h (.tail j)).next := by
  simp only [listInsertBefore, hprev, Option.bind_eq_bind, Option.bind_some, Option.pure_def,
    Option.some.injEq] at hrun
  subst hrun
  simp [setNext_next, (hp j).symm]

lemma listRemove_last {c p : Cell ι ε} (hprev : (h c).prev = some p) (hp : ∀ j, p ≠ .tail j)
    (hrun : listRemove h c = some h') (j : ι) :
    (h' (.tail j)).next = (h (.tail j)).next := by
  simp only [listRemove, hprev, Option.bind_eq_bind, Option.bind_some,
    Option.bind_eq_some_iff] at hrun
  obtain ⟨n, -, hn⟩ := hrun
  obtain rfl := Option.some.inj hn
  simp [setNext_next, (hp j).symm]

theorem Terminated.init (ht : Terminated h q) (i : ι) :
    Terminated (listInit h i) (Function.update q i (some [])) := by
  refine ⟨ht.represents.init i, fun j k hk => ?_⟩
  by_cases hj : j = i
  · subst hj
    simp [listInit, setNext_next]
  · rw [Function.update_of_ne hj] at hk
    have hlast := ht.last j k hk
    simp [listInit, setNext_next, hj, hlast]

theorem Terminated.push (ht : Terminated h q) (hq : q i = some l) (he : ∀ j, ¬ q.On j e) :
    ∃ h', listPush h i (.elem e) = some h' ∧
      Terminated h' (Function.update q i (some (e :: l))) := by
  obtain ⟨y, hnext, hy⟩ := ht.represents.first hq
  obtain ⟨h', hrun, hr⟩ := ht.represents.insert (l := []) hq he hy
  obtain ⟨p, hprev, hp⟩ := ht.represents.prev_eq hq (List.mem_of_mem_head? hy)
  refine ⟨h', ?_, ht.update hq hr (listInsertBefore_last hprev hp hrun)⟩
  simp [listPush, hnext, hrun]

theorem Terminated.append (ht : Terminated h q) (hq : q i = some l) (he : ∀ j, ¬ q.On j e) :
    ∃ h', listAppend h i (.elem e) = some h' ∧
      Terminated h' (Function.update q i (some (l ++ [e]))) := by
  obtain ⟨h', hrun, hr⟩ := ht.represents.insert (m := []) (by simpa using hq) he rfl
  obtain ⟨p, hprev, hp⟩ := ht.represents.prev_eq hq
    (List.mem_append_right _ (List.mem_singleton.mpr rfl))
  exact ⟨h', hrun, ht.update hq hr (listInsertBefore_last hprev hp hrun)⟩

theorem Terminated.remove (ht : Terminated h q) (hq : q i = some l) (he : e ∈ l) :
    ∃ h', listRemove h (.elem e) = some h' ∧
      Terminated h' (Function.update q i (some (l.erase e))) := by
  have hc : Cell.elem e ∈ l.map (Cell.elem (ι := ι)) ++ [Cell.tail i] :=
    List.mem_append_left _ (List.mem_map_of_mem he)
  obtain ⟨p, hprev, hp⟩ := ht.represents.prev_eq hq hc
  obtain ⟨k, m, rfl⟩ := List.append_of_mem he
  have hek : e ∉ k := by
    have hnodup := List.nodup_middle.mp (ht.represents.nodup i _ hq)
    exact fun hk => (List.nodup_cons.mp hnodup).1 (List.mem_append_left _ hk)
  obtain ⟨h', hrun, hr⟩ := ht.represents.remove hq
  refine ⟨h', hrun, ?_⟩
  rw [List.erase_append_right _ hek, List.erase_cons_head]
  exact ht.update hq hr (listRemove_last hprev hp hrun)

theorem Terminated.pop (ht : Terminated h q) (hq : q i = some (e :: l)) :
    ∃ h', listPop h i = some (h', .elem e) ∧ Terminated h' (Function.update q i (some l)) := by
  obtain ⟨y, hnext, hy⟩ := ht.represents.first hq
  obtain rfl := Option.some.inj hy
  obtain ⟨h', hrun, ht'⟩ := ht.remove hq List.mem_cons_self
  rw [List.erase_cons_head] at ht'
  exact ⟨h', by simp [listPop, hnext, hrun], ht'⟩

/-- The tail of an empty list cannot be removed. -/
theorem Terminated.pop_nil (ht : Terminated h q) (hq : q i = some []) : listPop h i = none := by
  obtain ⟨hnext, hprev⟩ := ht.represents.seg i [] hq
  have hlast := ht.last i [] hq
  simp [listPop, hnext, listRemove, hprev, setNext_next, hlast]

/-- A cell that is on no list may be overwritten. -/
theorem Terminated.overwrite (ht : Terminated h q) (he : ∀ j, ¬ q.On j e) (link : Link (Cell ι ε)) :
    Terminated (Function.update h (.elem e) link) q := by
  have hne : ∀ {j k}, q j = some k → Cell.elem e ∉ k.map (Cell.elem (ι := ι)) := by
    intro j k hk hmem
    obtain ⟨e', he', heq⟩ := List.mem_map.mp hmem
    obtain rfl := Cell.elem.inj heq
    exact he j ⟨k, hk, he'⟩
  constructor
  case represents =>
    refine ⟨?_, ht.represents.nodup, ht.represents.disjoint⟩
    intro j k hk
    apply (ht.represents.seg j k hk).congr
    · intro c hc
      have hce : c ≠ .elem e := by
        rintro rfl
        rcases List.mem_cons.mp hc with hc | hc
        · cases hc
        · exact hne hk hc
      rw [Function.update_of_ne hce]
    · intro c hc
      have hce : c ≠ .elem e := by
        rintro rfl
        rcases List.mem_append.mp hc with hc | hc
        · exact hne hk hc
        · cases List.mem_singleton.mp hc
      rw [Function.update_of_ne hce]
  case last =>
    intro j k hk
    rw [Function.update_of_ne (by nofun)]
    exact ht.last j k hk

theorem Terminated.empty (ht : Terminated h q) (hq : q i = some l) :
    listEmpty h i = l.isEmpty := (ht.represents.readsAs hq).empty

theorem Terminated.find (ht : Terminated h q) (hq : q i = some l) {fuel : ℕ}
    (hfuel : l.length < fuel) (e : ε) : elemFind fuel h i (.elem e) = some (decide (e ∈ l)) :=
  (ht.represents.readsAs hq).find fuel hfuel e

end Operations

end Libtask.Intrusive
