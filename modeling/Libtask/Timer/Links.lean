import Libtask.List.Rings
import Libtask.Timer.Wheel

/-!
# The rings of `interrupt/timer.c`

A ring is what the code has: a head and nodes, linked by `pPrev` and `pNext`. The
functions rewrite the pointers of the cells that they reach, and fail when they
follow a null pointer. They keep the family of rings and do to it what the wheels
of lists say, also where an empty ring makes them write through aliases.
-/
namespace Libtask.TimerRing
open Links Timer

section Functions

variable {α : Type} [DecidableEq α]

def listTimerInsert (h : Heap α) (pNew pPrev pNext : α) : Heap α :=
  let h := setPrev h pNext (some pNew)
  let h := setNext h pNew (some pNext)
  let h := setPrev h pNew (some pPrev)
  setNext h pPrev (some pNew)

def listTimerInsertTail (h : Heap α) (pNew pHead : α) : Option (Heap α) := do
  let pPrev ← (h pHead).prev
  return listTimerInsert h pNew pPrev pHead

def listTimerReplace (h : Heap α) (pOld pNew : α) : Option (Heap α) := do
  let h := setNext h pNew (h pOld).next
  let pNext ← (h pNew).next
  let h := setPrev h pNext (some pNew)
  let h := setPrev h pNew (h pOld).prev
  let pPrev ← (h pNew).prev
  return setNext h pPrev (some pNew)

def listTimerReplaceInit (h : Heap α) (pOld pNew : α) : Option (Heap α) := do
  let h ← listTimerReplace h pOld pNew
  let h := setNext h pOld (some pOld)
  return setPrev h pOld (some pOld)

/-- The writes of `delete_timer`. -/
def listTimerUnlink (h : Heap α) (pListTmr : α) : Option (Heap α) := do
  let pPrev ← (h pListTmr).prev
  let h := setNext h pPrev (h pListTmr).next
  let pNext ← (h pListTmr).next
  return setPrev h pNext (h pListTmr).prev

end Functions

section Rings

variable {α : Type} [DecidableEq α] {h : Heap α} {q : α → Option (List α)} {a p t x y : α}
  {l m : List α}

/-- The order of the writes does not matter for a new cell. -/
lemma listTimerInsert_eq (hxp : x ≠ p) (hxy : x ≠ y) :
    listTimerInsert h x p y = Links.insert h p x y := by
  funext c
  apply link_ext
  · rw [insert_next]
    simp only [listTimerInsert, setNext_next, setPrev_next]
    by_cases hcp : c = p
    · rw [if_pos hcp, if_neg (hcp ▸ hxp.symm), if_pos hcp]
    · rw [if_neg hcp, if_neg hcp]
  · rw [insert_prev]
    simp only [listTimerInsert, setPrev_prev, setNext_prev]
    by_cases hcx : c = x
    · rw [if_pos hcx, if_neg (hcx ▸ hxy), if_pos hcx]
    · rw [if_neg hcx, if_neg hcx]

/-- A free cell is put before `y`, which is a cell of the ring or its head. -/
lemma rings_listTimerInsert (hr : Rings h q) (hq : q a = some (l ++ m))
    (hy : (m ++ [a]).head? = some y) (hx : Free q x) :
    ∃ p ∈ a :: l, (h y).prev = some p ∧
      Rings (listTimerInsert h x p y) (Function.update q a (some (l ++ x :: m))) := by
  obtain ⟨p, hp, hprev, hrings⟩ := hr.insert hq hy hx
  have hon : ∀ c ∈ a :: (l ++ m), x ≠ c := by
    rintro c hc rfl
    exact hx a ⟨_, hq, hc⟩
  have hxp : x ≠ p := by
    apply hon
    rcases List.mem_cons.mp hp with rfl | hp
    · exact List.mem_cons_self
    · simp [hp]
  have hxy : x ≠ y := by
    apply hon
    cases m with
    | nil => exact Option.some.inj hy ▸ List.mem_cons_self
    | cons z m => exact Option.some.inj hy ▸ by simp
  rw [← listTimerInsert_eq hxp hxy] at hrings
  exact ⟨p, hp, hprev, hrings⟩

lemma listTimerInsert_of_ne {c : α} (hcx : c ≠ x) (hcp : c ≠ p) (hcy : c ≠ y) :
    listTimerInsert h x p y c = h c := by
  simp [listTimerInsert, setNext, setPrev, hcx, hcp, hcy]

/-- The empty ring: `pOld->pPrev` is read after it was made to point to `pNew`. -/
lemma listTimerReplaceInit_nil (hnext : (h a).next = some a) (t : α) :
    ∃ h', listTimerReplaceInit h a t = some h' ∧
      (∀ c, (h' c).next = if c = a then some a else if c = t then some t else (h c).next) ∧
      ∀ c, (h' c).prev = if c = a then some a else if c = t then some t else (h c).prev := by
  unfold listTimerReplaceInit listTimerReplace
  simp only [hnext, setNext_next, if_true, Option.bind_eq_bind, Option.bind_some, setPrev_prev,
    Option.pure_def, Option.some.injEq, exists_eq_left']
  constructor
  · intro c
    simp only [setPrev_next, setNext_next]
    split_ifs <;> rfl
  · intro c
    simp only [setPrev_prev, setNext_prev]
    split_ifs <;> rfl

/-- A ring from `x` to `p`: `a` reads its old `pPrev`. -/
lemma listTimerReplaceInit_cons (hnext : (h a).next = some x) (hprev : (h a).prev = some p)
    (hax : a ≠ x) (t : α) :
    ∃ h', listTimerReplaceInit h a t = some h' ∧
      (∀ c, (h' c).next = if c = a then some a else if c = p then some t else
        if c = t then some x else (h c).next) ∧
      ∀ c, (h' c).prev = if c = a then some a else if c = t then some p else
        if c = x then some t else (h c).prev := by
  unfold listTimerReplaceInit listTimerReplace
  simp only [hnext, hprev, hax, setNext_next, setNext_prev, if_true, if_false, Option.bind_eq_bind,
    Option.bind_some, setPrev_prev, Option.pure_def, Option.some.injEq, exists_eq_left']
  refine ⟨?_, fun _ => trivial⟩
  intro c
  simp only [setPrev_next, setNext_next]

/-- The nodes of a ring get the free cell `t` as their head. -/
lemma rings_listTimerReplaceInit (hr : Rings h q) (hq : q a = some l) (ht : Free q t) :
    ∃ h', listTimerReplaceInit h a t = some h' ∧
      Rings h' (Function.update (Function.update q a (some [])) t (some l)) ∧
      ∀ c, c ≠ t → c ∉ a :: l → h' c = h c := by
  have hta : t ≠ a := fun hta => ht a ⟨l, hq, hta ▸ List.mem_cons_self⟩
  have hal := hr.head_notMem hq
  have hseg := hr.seg hq
  cases l with
  | nil =>
    obtain ⟨h', heq, hnext, hprev⟩ := listTimerReplaceInit_nil hseg.1 t
    have hframe : ∀ c, c ≠ t → c ∉ [a] → h' c = h c := by
      intro c hct hca
      have hca : c ≠ a := fun h => hca (h ▸ List.mem_singleton_self a)
      apply link_ext
      · rw [hnext, if_neg hca, if_neg hct]
      · rw [hprev, if_neg hca, if_neg hct]
    refine ⟨h', heq, hr.move hq ht ⟨?_, ?_⟩ ⟨?_, ?_⟩ hframe, hframe⟩
    · rw [hnext, if_pos rfl]
    · rw [hprev, if_pos rfl]
    · rw [hnext, if_neg hta, if_pos rfl]
    · rw [hprev, if_neg hta, if_pos rfl]
  | cons x l =>
    obtain ⟨p, hlast, hprev⟩ : ∃ p, (x :: l).getLast? = some p ∧ (h a).prev = some p := by
      rcases hseg.split_last with ⟨hnil, -⟩ | ⟨m, p, hm, -, -, hprev⟩
      · cases hnil
      · exact ⟨p, by rw [hm, List.getLast?_concat], hprev⟩
    have hpl : p ∈ x :: l := List.mem_of_getLast? hlast
    have hne : ∀ c ∈ x :: l, c ≠ a ∧ c ≠ t := by
      intro c hc
      exact ⟨fun h => hal (h ▸ hc), fun h => ht a ⟨_, hq, List.mem_cons_of_mem a (h ▸ hc)⟩⟩
    have hxl := hne x List.mem_cons_self
    obtain ⟨h', heq, hnext', hprev'⟩ :=
      listTimerReplaceInit_cons hseg.1.1 hprev hxl.1.symm t
    have hframe : ∀ c, c ≠ t → c ∉ a :: x :: l → h' c = h c := by
      intro c hct hc
      have hca : c ≠ a := fun h => hc (h ▸ List.mem_cons_self)
      have hcl : c ∉ x :: l := fun h => hc (List.mem_cons_of_mem a h)
      have hcp : c ≠ p := fun h => hcl (h ▸ hpl)
      have hcx : c ≠ x := fun h => hcl (h ▸ List.mem_cons_self)
      apply link_ext
      · rw [hnext', if_neg hca, if_neg hcp, if_neg hct]
      · rw [hprev', if_neg hca, if_neg hct, if_neg hcx]
    refine ⟨h', heq, hr.move hq ht ⟨?_, ?_⟩ ?_ hframe, hframe⟩
    · rw [hnext', if_pos rfl]
    · rw [hprev', if_pos rfl]
    · apply hseg.rehead (List.nodup_cons.mp (hr.nodup hq)).2
      · intro y hy
        obtain rfl := Option.some.inj hy
        constructor
        · rw [hnext', if_neg hta, if_neg (hne p hpl).2.symm, if_pos rfl]
        · rw [hprev', if_neg hxl.1, if_neg hxl.2, if_pos rfl]
      · intro y hy
        obtain rfl := Option.some.inj (hlast.symm.trans hy)
        constructor
        · rw [hnext', if_neg (hne p hpl).1, if_pos rfl]
        · rw [hprev', if_neg hta, if_pos rfl]
      · intro c hc hcp
        have hcp : c ≠ p := fun h => hcp (h ▸ hlast)
        rw [hnext', if_neg (hne c hc).1, if_neg hcp, if_neg (hne c hc).2]
      · intro c hc hcx
        have hcx : c ≠ x := fun h => hcx (h ▸ rfl)
        rw [hprev', if_neg (hne c hc).1, if_neg (hne c hc).2, if_neg hcx]
      · exact List.cons_ne_nil x l

/-- A free node is put at the end of a ring. -/
lemma rings_listTimerInsertTail (hr : Rings h q) (hq : q a = some l) (hx : Free q x) :
    ∃ h', listTimerInsertTail h x a = some h' ∧ Rings h' (Function.update q a (some (l ++ [x]))) ∧
      ∀ c, c ≠ x → c ∉ a :: l → h' c = h c := by
  have hq' : q a = some (l ++ []) := by rw [hq, List.append_nil]
  obtain ⟨p, hp, hprev, hrings⟩ := rings_listTimerInsert hr hq' rfl hx
  refine ⟨listTimerInsert h x p a, ?_, hrings, ?_⟩
  · rw [listTimerInsertTail, hprev]
    rfl
  · intro c hcx hc
    exact listTimerInsert_of_ne hcx (fun h => hc (h ▸ hp)) fun h => hc (h ▸ List.mem_cons_self)

/-- A node is taken out of its ring, which may leave the ring empty. -/
lemma rings_listTimerUnlink (hr : Rings h q) (hq : q a = some (l ++ x :: m)) :
    ∃ h', listTimerUnlink h x = some h' ∧ Rings h' (Function.update q a (some (l ++ m))) ∧
      ∀ c, c ∉ a :: (l ++ m) → h' c = h c := by
  obtain ⟨p, hp, n, hn, hprev, hnext, hrings⟩ := hr.remove hq
  have hxp : x ≠ p := by
    have hnodup := hr.nodup hq
    rw [← List.cons_append, List.nodup_append] at hnodup
    exact (hnodup.2.2 p hp x List.mem_cons_self).symm
  refine ⟨join h p n, ?_, hrings, ?_⟩
  · simp only [listTimerUnlink, hprev, hnext, Option.bind_eq_bind, Option.bind_some, setNext_next,
      setNext_prev, if_neg hxp]
    rfl
  · intro c hc
    apply join_of_ne
    · rintro rfl
      rcases List.mem_cons.mp hp with rfl | hp
      · exact hc List.mem_cons_self
      · exact hc (List.mem_cons_of_mem a (List.mem_append_left m hp))
    · rintro rfl
      rcases List.mem_append.mp hn with hn | hn
      · exact hc (List.mem_cons_of_mem a (List.mem_append_right l hn))
      · exact hc (List.mem_singleton.mp hn ▸ List.mem_cons_self)

end Rings

end Libtask.TimerRing
