import Libtask.List.Links
import Libtask.Transition

/-!
# The intrusive lists of `lib/list.c`

A `struct list` is its two sentinels; an element is the `struct list_elem`
inside some other structure. The functions rewrite the links of the cells that
they reach, and fail when they follow a null pointer. What the lists are for is
said by `Contents`: a sequence of elements for each list.
-/
namespace Libtask.Intrusive
open Links Transition

/-- A `struct list_elem`: `list->head`, `list->tail` or an element. -/
inductive Cell (ι ε : Type)
  | head (list : ι)
  | tail (list : ι)
  | elem (e : ε)
  deriving DecidableEq, Repr

variable {ι ε : Type}

section Functions

variable [DecidableEq ι] [DecidableEq ε]

def listInit (h : Heap (Cell ι ε)) (list : ι) : Heap (Cell ι ε) :=
  let h := setPrev h (.head list) none
  let h := setNext h (.head list) (some (.tail list))
  let h := setPrev h (.tail list) (some (.head list))
  setNext h (.tail list) none

def listInsertBefore (h : Heap (Cell ι ε)) (before elem : Cell ι ε) :
    Option (Heap (Cell ι ε)) := do
  let prev ← (h before).prev
  let h := setNext h prev (some elem)
  let h := setPrev h elem (h before).prev
  let h := setNext h elem (some before)
  return setPrev h before (some elem)

def listPush (h : Heap (Cell ι ε)) (plist : ι) (elem : Cell ι ε) : Option (Heap (Cell ι ε)) := do
  let before ← (h (.head plist)).next
  listInsertBefore h before elem

def listAppend (h : Heap (Cell ι ε)) (plist : ι) (elem : Cell ι ε) : Option (Heap (Cell ι ε)) :=
  listInsertBefore h (.tail plist) elem

def listRemove (h : Heap (Cell ι ε)) (pelem : Cell ι ε) : Option (Heap (Cell ι ε)) := do
  let prev ← (h pelem).prev
  let h := setNext h prev (h pelem).next
  let next ← (h pelem).next
  return setPrev h next (h pelem).prev

def listPop (h : Heap (Cell ι ε)) (plist : ι) : Option (Heap (Cell ι ε) × Cell ι ε) := do
  let elem ← (h (.head plist)).next
  let h ← listRemove h elem
  return (h, elem)

def listEmpty (h : Heap (Cell ι ε)) (plist : ι) : Bool :=
  decide ((h (.head plist)).next = some (.tail plist))

/-- The loop of `elem_find` and of `list_traversal`: the first cell that passes
the test. -/
def search (h : Heap (Cell ι ε)) (tail : Cell ι ε) (test : Cell ι ε → Bool) :
    ℕ → Cell ι ε → Option (Option (Cell ι ε))
  | 0, _ => none
  | fuel + 1, elem =>
    if elem = tail then some none
    else if test elem then some (some elem)
    else (h elem).next.bind (search h tail test fuel)

def elemFind (fuel : ℕ) (h : Heap (Cell ι ε)) (plist : ι) (objElem : Cell ι ε) : Option Bool := do
  let elem ← (h (.head plist)).next
  let found ← search h (.tail plist) (fun elem => decide (elem = objElem)) fuel elem
  return found.isSome

/-- The outer `none` stands for a walk that does not end, the inner one for
`NULL`. -/
def listTraversal (fuel : ℕ) (h : Heap (Cell ι ε)) (plist : ι) (func : Cell ι ε → Int32 → Bool)
    (arg : Int32) : Option (Option (Cell ι ε)) := do
  let elem ← (h (.head plist)).next
  if listEmpty h plist then return none
  search h (.tail plist) (fun elem => func elem arg) fuel elem

/-- The loop of `list_len`. -/
def countLoop (h : Heap (Cell ι ε)) (tail : Cell ι ε) : ℕ → UInt32 → Cell ι ε → Option UInt32
  | 0, _, _ => none
  | fuel + 1, length, elem =>
    if elem = tail then some length else (h elem).next.bind (countLoop h tail fuel (length + 1))

def listLen (fuel : ℕ) (h : Heap (Cell ι ε)) (plist : ι) : Option UInt32 := do
  let elem ← (h (.head plist)).next
  countLoop h (.tail plist) fuel 0 elem

end Functions

/-- The sequence of each list that has been initialised. -/
abbrev Contents (ι ε : Type) := ι → Option (List ε)

/-- The operations that change lists. -/
inductive Op (ι ε : Type)
  | init (list : ι)
  | push (plist : ι) (elem : ε)
  | append (plist : ι) (elem : ε)
  | insertBefore (before : Cell ι ε) (elem : ε)
  | remove (pelem : ε)
  | pop (plist : ι)
  deriving DecidableEq, Repr

/-- The element is on list `i`. -/
def Contents.On (q : Contents ι ε) (i : ι) (e : ε) : Prop := ∃ l, q i = some l ∧ e ∈ l

section Operations

variable [DecidableEq ι] [DecidableEq ε]

/-- The heap afterwards, and the element that `list_pop` returns. -/
def Op.run (h : Heap (Cell ι ε)) : Op ι ε → Option (Heap (Cell ι ε) × Option (Cell ι ε))
  | .init list => some (listInit h list, none)
  | .push plist elem => (listPush h plist (.elem elem)).map (·, none)
  | .append plist elem => (listAppend h plist (.elem elem)).map (·, none)
  | .insertBefore before elem => (listInsertBefore h before (.elem elem)).map (·, none)
  | .remove pelem => (listRemove h (.elem pelem)).map (·, none)
  | .pop plist => (listPop h plist).map fun r => (r.1, some r.2)

/-- `e` right before `f`. -/
def insertBeforeElem (f e : ε) : List ε → List ε
  | [] => []
  | x :: l => if x = f then e :: x :: l else x :: insertBeforeElem f e l

/-- What an operation is to do. -/
def Op.apply (q : Contents ι ε) : Op ι ε → Contents ι ε
  | .init list => Function.update q list (some [])
  | .push plist elem => Function.update q plist ((q plist).map (elem :: ·))
  | .append plist elem | .insertBefore (.tail plist) elem =>
    Function.update q plist ((q plist).map (· ++ [elem]))
  | .insertBefore (.elem before) elem => fun i => (q i).map (insertBeforeElem before elem)
  | .insertBefore (.head _) _ => q
  | .remove pelem => fun i => (q i).map (·.erase pelem)
  | .pop plist => Function.update q plist ((q plist).map List.tail)

/-- The element that is to be returned. -/
def Op.result (q : Contents ι ε) : Op ι ε → Option (Cell ι ε)
  | .pop plist => ((q plist).bind List.head?).map .elem
  | _ => none

/-- An inserted element is on no list, a removed one is on one, a popped list is
not empty. -/
def Op.Legal (q : Contents ι ε) : Op ι ε → Prop
  | .init _ => True
  | .push plist elem | .append plist elem | .insertBefore (.tail plist) elem =>
    (q plist).isSome ∧ ∀ i, ¬ q.On i elem
  | .insertBefore (.elem before) elem => (∃ i, q.On i before) ∧ ∀ i, ¬ q.On i elem
  | .insertBefore (.head _) _ => False
  | .remove pelem => ∃ i, q.On i pelem
  | .pop plist => ∃ e, q.On plist e

/-- The lists of a program: the heap, and beside it the sequences that the
operations so far were to make. -/
def lists : System (Heap (Cell ι ε) × Contents ι ε) (Op ι ε) where
  init s := ∀ i, s.2 i = none
  step s op t := op.Legal s.2 ∧ (∃ r, op.run s.1 = some (t.1, r)) ∧ t.2 = op.apply s.2

end Operations

/-- The chain of each list is its sequence, and no element stands twice. -/
structure Represents (h : Heap (Cell ι ε)) (q : Contents ι ε) : Prop where
  seg : ∀ i l, q i = some l → Seg h (.head i) (l.map .elem) (.tail i)
  nodup : ∀ i l, q i = some l → l.Nodup
  disjoint : ∀ i j e, q.On i e → q.On j e → i = j

variable {h : Heap (Cell ι ε)} {q : Contents ι ε} {i : ι} {l m : List ε} {e : ε}

/-- The cells of a list are all different. -/
lemma Represents.cells_nodup (hr : Represents h q) (hq : q i = some l) :
    (Cell.head i :: l.map Cell.elem).Nodup := by
  rw [List.nodup_cons]
  refine ⟨by simp, (hr.nodup i l hq).map ?_⟩
  intro a b hab
  exact Cell.elem.inj hab

/-- The cells of two lists are different. -/
lemma Represents.other (hr : Represents h q) (hq : q i = some l) {j : ι} {k : List ε} (hj : j ≠ i)
    (hk : q j = some k) {c : Cell ι ε} (hc : c ∈ l.map Cell.elem) : c ∉ k.map Cell.elem := by
  intro hc'
  obtain ⟨e, he, rfl⟩ := List.mem_map.mp hc
  obtain ⟨e', he', heq⟩ := List.mem_map.mp hc'
  obtain rfl := Cell.elem.inj heq
  exact hj (hr.disjoint j i e' ⟨k, hk, he'⟩ ⟨l, hq, he⟩)

/-- The cells before and after a place in a list belong to no other list. -/
lemma Represents.neighbours (hr : Represents h q) (hq : q i = some (l ++ m)) {p y : Cell ι ε}
    (hp : p ∈ .head i :: l.map .elem) (hy : y ∈ m.map .elem ++ [.tail i]) {j : ι} {k : List ε}
    (hj : j ≠ i) (hk : q j = some k) :
    (p ≠ .head j ∧ p ∉ k.map .elem) ∧ y ∉ k.map .elem ∧ y ≠ .tail j := by
  constructor
  · rcases List.mem_cons.mp hp with rfl | hp
    · exact ⟨fun heq => hj (Cell.head.inj heq).symm, by simp⟩
    · refine ⟨?_, hr.other hq hj hk (by simp_all)⟩
      rintro rfl
      simp at hp
  · rcases List.mem_append.mp hy with hy | hy
    · refine ⟨hr.other hq hj hk (by simp_all), ?_⟩
      rintro rfl
      simp at hy
    · obtain rfl := List.mem_singleton.mp hy
      exact ⟨by simp, fun heq => hj (Cell.tail.inj heq).symm⟩

/-- The first cell of a list. -/
lemma Represents.first (hr : Represents h q) (hq : q i = some l) :
    ∃ y, (h (.head i)).next = some y ∧ (l.map Cell.elem ++ [Cell.tail i]).head? = some y := by
  have hseg := hr.seg i l hq
  cases l with
  | nil => exact ⟨_, hseg.1, rfl⟩
  | cons x l => exact ⟨_, hseg.1.1, rfl⟩

section Preserve

variable [DecidableEq ι]

/-- One list gets a new sequence; its elements were on no other list. -/
lemma Represents.update {h' : Heap (Cell ι ε)} {l' : List ε} (hr : Represents h q)
    (hseg : Seg h' (.head i) (l'.map .elem) (.tail i)) (hnodup : l'.Nodup)
    (hfresh : ∀ e ∈ l', ∀ j, j ≠ i → ¬ q.On j e)
    (hother : ∀ j k, j ≠ i → q j = some k → Seg h' (.head j) (k.map .elem) (.tail j)) :
    Represents h' (Function.update q i (some l')) := by
  constructor
  · intro j k hk
    by_cases hj : j = i
    · subst hj
      rw [Function.update_self] at hk
      obtain rfl := Option.some.inj hk
      exact hseg
    · rw [Function.update_of_ne hj] at hk
      exact hother j k hj hk
  · intro j k hk
    by_cases hj : j = i
    · subst hj
      rw [Function.update_self] at hk
      obtain rfl := Option.some.inj hk
      exact hnodup
    · rw [Function.update_of_ne hj] at hk
      exact hr.nodup j k hk
  · rintro j j' e ⟨k, hk, he⟩ ⟨k', hk', he'⟩
    by_cases hj : j = i <;> by_cases hj' : j' = i
    · rw [hj, hj']
    · rw [hj, Function.update_self] at hk
      rw [Function.update_of_ne hj'] at hk'
      obtain rfl := Option.some.inj hk
      exact absurd ⟨k', hk', he'⟩ (hfresh e he j' hj')
    · rw [hj', Function.update_self] at hk'
      rw [Function.update_of_ne hj] at hk
      obtain rfl := Option.some.inj hk'
      exact absurd ⟨k, hk, he⟩ (hfresh e he' j hj)
    · rw [Function.update_of_ne hj] at hk
      rw [Function.update_of_ne hj'] at hk'
      exact hr.disjoint j j' e ⟨k, hk, he⟩ ⟨k', hk', he'⟩

variable [DecidableEq ε]

theorem Represents.init (hr : Represents h q) (i : ι) :
    Represents (listInit h i) (Function.update q i (some [])) := by
  have hnext : ∀ c, c ≠ .head i → c ≠ .tail i → (listInit h i c).next = (h c).next := by
    intro c hhead htail
    simp [listInit, setNext_next, hhead, htail]
  have hprev : ∀ c, c ≠ .head i → c ≠ .tail i → (listInit h i c).prev = (h c).prev := by
    intro c hhead htail
    simp [listInit, setPrev_prev, hhead, htail]
  refine hr.update ⟨?_, ?_⟩ List.nodup_nil (by simp) ?_
  · simp [listInit, setNext_next]
  · simp [listInit, setPrev_prev]
  · intro j k hj hk
    apply (hr.seg j k hk).congr
    · intro c hc
      apply hnext
      · rintro rfl
        simp only [List.mem_cons, Cell.head.injEq, List.mem_map, reduceCtorEq, and_false,
          exists_false, or_false] at hc
        exact hj hc.symm
      · rintro rfl
        simp at hc
    · intro c hc
      apply hprev
      · rintro rfl
        simp at hc
      · rintro rfl
        simp only [List.mem_append, List.mem_map, reduceCtorEq, and_false, exists_false,
          List.mem_singleton, Cell.tail.injEq, false_or] at hc
        exact hj hc.symm

/-- `list_insert_before` puts the element between `l` and `m`. -/
theorem Represents.insert (hr : Represents h q) (hq : q i = some (l ++ m))
    (he : ∀ j, ¬ q.On j e) {y : Cell ι ε} (hy : (m.map Cell.elem ++ [Cell.tail i]).head? = some y) :
    ∃ h', listInsertBefore h y (.elem e) = some h' ∧
      Represents h' (Function.update q i (some (l ++ e :: m))) := by
  have hnew : ∀ {j k}, q j = some k → Cell.elem e ∉ k.map (Cell.elem (ι := ι)) := by
    intro j k hk hmem
    obtain ⟨e', he', heq⟩ := List.mem_map.mp hmem
    obtain rfl := Cell.elem.inj heq
    exact he j ⟨k, hk, he'⟩
  have hseg := hr.seg i _ hq
  have hcells := hr.cells_nodup hq
  have hel := hnew hq
  rw [List.map_append] at hseg hcells hel
  obtain ⟨p, hp, hprev, hseg⟩ := hseg.insert hy hcells (by simp) (by simp) hel (by simp)
  refine ⟨Links.insert h p (.elem e) y, ?_, hr.update ?_ ?_ ?_ ?_⟩
  · simp [listInsertBefore, Links.insert, hprev]
  · simpa using hseg
  · rw [List.nodup_middle, List.nodup_cons]
    exact ⟨fun hmem => he i ⟨_, hq, hmem⟩, hr.nodup i _ hq⟩
  · intro x hx j hj hon
    rw [List.mem_append, List.mem_cons] at hx
    rcases hx with hx | rfl | hx
    · exact hj (hr.disjoint j i x hon ⟨_, hq, List.mem_append_left _ hx⟩)
    · exact he j hon
    · exact hj (hr.disjoint j i x hon ⟨_, hq, List.mem_append_right _ hx⟩)
  · intro j k hj hk
    obtain ⟨⟨hpj, hpk⟩, hyk, hyj⟩ := hr.neighbours hq hp (List.mem_of_mem_head? hy) hj hk
    exact (hr.seg j k hk).insert_of_notMem (by simp) (hnew hk) (by simp) hpj hpk hyk hyj

/-- `list_remove` of the element between `l` and `m`. -/
theorem Represents.remove (hr : Represents h q) (hq : q i = some (l ++ e :: m)) :
    ∃ h', listRemove h (.elem e) = some h' ∧
      Represents h' (Function.update q i (some (l ++ m))) := by
  have hseg := hr.seg i _ hq
  have hcells := hr.cells_nodup hq
  rw [List.map_append, List.map_cons] at hseg hcells
  obtain ⟨p, hp, n, hn, hprev, hnext, hseg⟩ := hseg.remove hcells (by simp)
  have hnodup := List.nodup_middle.mp (hr.nodup i _ hq)
  refine ⟨join h p n, ?_, hr.update ?_ ?_ ?_ ?_⟩
  · simp [listRemove, join, hprev, hnext, setNext_next]
  · simpa using hseg
  · exact (List.nodup_cons.mp hnodup).2
  · intro x hx j hj hon
    refine hj (hr.disjoint j i x hon ⟨_, hq, ?_⟩)
    rcases List.mem_append.mp hx with hx | hx
    · exact List.mem_append_left _ hx
    · exact List.mem_append_right _ (List.mem_cons_of_mem _ hx)
  · intro j k hj hk
    have hn' : n ∈ (e :: m).map Cell.elem ++ [Cell.tail i] := by
      rw [List.map_cons]
      exact List.mem_cons_of_mem _ hn
    obtain ⟨⟨hpj, hpk⟩, hnk, hnj⟩ := hr.neighbours hq hp hn' hj hk
    exact (hr.seg j k hk).join_of_notMem hpj hpk hnk hnj

end Preserve

section Run

variable [DecidableEq ι]

/-- An operation on the list that `e` is on leaves the others as they are. -/
lemma Represents.map_eq_update (hr : Represents h q) (hq : q i = some l) (he : e ∈ l)
    {f : List ε → List ε} (hf : ∀ k, e ∉ k → f k = k) :
    (fun j => (q j).map f) = Function.update q i (some (f l)) := by
  ext1 j
  by_cases hj : j = i
  · subst hj
    rw [Function.update_self, hq]
    rfl
  · rw [Function.update_of_ne hj]
    cases hk : q j with
    | none => rfl
    | some k =>
      refine congrArg some (hf k fun hek => ?_)
      exact hj (hr.disjoint j i e ⟨k, hk, hek⟩ ⟨l, hq, he⟩)

variable [DecidableEq ε]

lemma insertBeforeElem_append {f : ε} (hl : f ∉ l) :
    insertBeforeElem f e (l ++ f :: m) = l ++ e :: f :: m := by
  induction l with
  | nil => exact if_pos rfl
  | cons x l ih =>
    have hx : x ≠ f := fun hx => hl (by simp [hx])
    rw [List.cons_append, insertBeforeElem, if_neg hx, ih fun hf => hl (List.mem_cons_of_mem _ hf)]
    rfl

lemma insertBeforeElem_of_notMem {f : ε} (hl : f ∉ l) : insertBeforeElem f e l = l := by
  induction l with
  | nil => rfl
  | cons x l ih =>
    have hx : x ≠ f := fun hx => hl (by simp [hx])
    rw [insertBeforeElem, if_neg hx, ih fun hf => hl (List.mem_cons_of_mem _ hf)]

/-- A legal operation does not fail, returns what it is to return, and the heap
represents the new sequences. -/
theorem Represents.step {op : Op ι ε} (hr : Represents h q) (hlegal : op.Legal q) :
    ∃ h', op.run h = some (h', op.result q) ∧ Represents h' (op.apply q) := by
  cases op with
  | init i => exact ⟨listInit h i, rfl, hr.init i⟩
  | push i e =>
    obtain ⟨hsome, he⟩ := hlegal
    obtain ⟨l, hq⟩ := Option.isSome_iff_exists.mp hsome
    obtain ⟨y, hnext, hy⟩ := hr.first hq
    obtain ⟨h', hrun, hr'⟩ := hr.insert (l := []) hq he hy
    refine ⟨h', by simp [Op.run, listPush, hnext, hrun, Op.result], ?_⟩
    rwa [Op.apply, hq]
  | append i e =>
    obtain ⟨hsome, he⟩ := hlegal
    obtain ⟨l, hq⟩ := Option.isSome_iff_exists.mp hsome
    obtain ⟨h', hrun, hr'⟩ := hr.insert (m := []) (by simpa using hq) he rfl
    refine ⟨h', by simp [Op.run, listAppend, hrun, Op.result], ?_⟩
    rwa [Op.apply, hq]
  | insertBefore before e =>
    cases before with
    | head i => exact hlegal.elim
    | tail i =>
      obtain ⟨hsome, he⟩ := hlegal
      obtain ⟨l, hq⟩ := Option.isSome_iff_exists.mp hsome
      obtain ⟨h', hrun, hr'⟩ := hr.insert (m := []) (by simpa using hq) he rfl
      refine ⟨h', by simp [Op.run, hrun, Op.result], ?_⟩
      rwa [Op.apply, hq]
    | elem f =>
      obtain ⟨⟨i, l, hq, hf⟩, he⟩ := hlegal
      have hmap := hr.map_eq_update hq hf fun _ => insertBeforeElem_of_notMem (e := e)
      obtain ⟨k, m, rfl⟩ := List.append_of_mem hf
      have hfk : f ∉ k := by
        have := List.nodup_middle.mp (hr.nodup i _ hq)
        exact fun hk => (List.nodup_cons.mp this).1 (List.mem_append_left _ hk)
      obtain ⟨h', hrun, hr'⟩ := hr.insert hq he rfl
      refine ⟨h', by simp [Op.run, hrun, Op.result], ?_⟩
      rwa [Op.apply, hmap, insertBeforeElem_append hfk]
  | remove e =>
    obtain ⟨i, l, hq, he⟩ := hlegal
    have hmap := hr.map_eq_update hq he fun _ => List.erase_of_not_mem
    obtain ⟨k, m, rfl⟩ := List.append_of_mem he
    have hek : e ∉ k := by
      have := List.nodup_middle.mp (hr.nodup i _ hq)
      exact fun hk => (List.nodup_cons.mp this).1 (List.mem_append_left _ hk)
    obtain ⟨h', hrun, hr'⟩ := hr.remove hq
    refine ⟨h', by simp [Op.run, hrun, Op.result], ?_⟩
    rwa [Op.apply, hmap, List.erase_append_right _ hek, List.erase_cons_head]
  | pop i =>
    obtain ⟨e, l, hq, he⟩ := hlegal
    cases l with
    | nil => cases he
    | cons x l =>
      obtain ⟨y, hnext, hy⟩ := hr.first hq
      obtain rfl := Option.some.inj hy
      obtain ⟨h', hrun, hr'⟩ := hr.remove (l := []) hq
      refine ⟨h', by simp [Op.run, listPop, hnext, hrun, Op.result, hq], ?_⟩
      rwa [Op.apply, hq]

/-- Wherever a run of legal operations arrives, the heap represents the
sequences. -/
theorem represents_of_reachable {s : Heap (Cell ι ε) × Contents ι ε} (hs : lists.Reachable s) :
    Represents s.1 s.2 := by
  refine hs.invariant (I := fun s => Represents s.1 s.2) ?_ ?_
  · intro s hs
    constructor
    · intro i l hq
      rw [hs i] at hq
      cases hq
    · intro i l hq
      rw [hs i] at hq
      cases hq
    · rintro i j e ⟨l, hq, -⟩
      rw [hs i] at hq
      cases hq
  · rintro s op t hr - ⟨hlegal, ⟨r, hrun⟩, happly⟩
    obtain ⟨h', hrun', hr'⟩ := hr.step hlegal
    obtain ⟨rfl, -⟩ := Prod.mk.inj (Option.some.inj (hrun'.symm.trans hrun))
    rwa [happly]

end Run

section Read

/-- What the functions that only read make of a list with the sequence `l`, and
the walks over its elements from either end; `count` is what `list_len` counts. -/
structure ReadsAs [DecidableEq ι] [DecidableEq ε] (h : Heap (Cell ι ε)) (i : ι) (l : List ε)
    (count : ℕ) : Prop where
  forward : ∀ fuel, l.length < fuel →
    walk (fun c => (h c).next) (.tail i) fuel (h (.head i)).next = some (l.map .elem)
  backward : ∀ fuel, l.length < fuel →
    walk (fun c => (h c).prev) (.head i) fuel (h (.tail i)).prev = some (l.map .elem).reverse
  empty : listEmpty h i = l.isEmpty
  find : ∀ fuel, l.length < fuel → ∀ e, elemFind fuel h i (.elem e) = some (decide (e ∈ l))
  traversal : ∀ fuel, l.length < fuel → ∀ func arg,
    listTraversal fuel h i func arg = some ((l.map .elem).find? fun elem => func elem arg)
  len : ∀ fuel, l.length < fuel → (listLen fuel h i).map UInt32.toNat = some count

/-- The list that an operation is to change. -/
def Op.On (q : Contents ι ε) (i : ι) : Op ι ε → Prop
  | .init list => list = i
  | .push plist _ | .append plist _ | .insertBefore (.tail plist) _ | .pop plist => plist = i
  | .insertBefore (.elem e) _ | .remove e => q.On i e
  | .insertBefore (.head _) _ => False

/-- The pointers represent the sequences, which are duplicate-free and share no
element; an operation succeeds, returns what it is to return and leaves the
other sequences unchanged. -/
structure Refined [DecidableEq ι] [DecidableEq ε] (count : ℕ → ℕ)
    (s : Heap (Cell ι ε) × Contents ι ε) : Prop where
  nodup : ∀ i l, s.2 i = some l → l.Nodup
  disjoint : ∀ i j e, s.2.On i e → s.2.On j e → i = j
  reads : ∀ i l, s.2 i = some l → ReadsAs s.1 i l (count l.length)
  runs : ∀ op : Op ι ε, op.Legal s.2 → ∃ h', op.run s.1 = some (h', op.result s.2) ∧
    ∀ i l, op.apply s.2 i = some l → ReadsAs h' i l (count l.length)
  frame : ∀ op : Op ι ε, op.Legal s.2 → ∀ i, ¬ op.On s.2 i → op.apply s.2 i = s.2 i

variable [DecidableEq ι] [DecidableEq ε] {a b : Cell ι ε} {cells : List (Cell ι ε)}

lemma search_of_seg (hs : Seg h a cells b) (hb : b ∉ cells) (test : Cell ι ε → Bool) {fuel : ℕ}
    (hfuel : cells.length < fuel) :
    (h a).next.bind (search h b test fuel) = some (cells.find? test) := by
  induction cells generalizing a fuel with
  | nil =>
    obtain ⟨fuel, rfl⟩ : ∃ n, fuel = n + 1 := ⟨fuel - 1, by omega⟩
    rw [hs.1, Option.bind_some, search, if_pos rfl]
    rfl
  | cons x l ih =>
    obtain ⟨fuel, rfl⟩ : ∃ n, fuel = n + 1 := ⟨fuel - 1, by omega⟩
    obtain ⟨⟨hax, -⟩, hs⟩ := hs
    have hxb : x ≠ b := by
      rintro rfl
      exact hb List.mem_cons_self
    rw [hax, Option.bind_some, search, if_neg hxb]
    by_cases hx : test x = true
    · rw [if_pos hx, List.find?_cons_of_pos hx]
    · rw [if_neg hx, List.find?_cons_of_neg hx]
      exact ih hs (fun hl => hb (List.mem_cons_of_mem _ hl)) (by simpa using hfuel)

lemma countLoop_of_seg (hs : Seg h a cells b) (hb : b ∉ cells) (length : UInt32) {fuel : ℕ}
    (hfuel : cells.length < fuel) :
    (h a).next.bind (countLoop h b fuel length) =
      some (length + UInt32.ofNat cells.length) := by
  induction cells generalizing a fuel length with
  | nil =>
    obtain ⟨fuel, rfl⟩ : ∃ n, fuel = n + 1 := ⟨fuel - 1, by omega⟩
    rw [hs.1, Option.bind_some, countLoop, if_pos rfl]
    simp
  | cons x l ih =>
    obtain ⟨fuel, rfl⟩ : ∃ n, fuel = n + 1 := ⟨fuel - 1, by omega⟩
    obtain ⟨⟨hax, -⟩, hs⟩ := hs
    have hxb : x ≠ b := by
      rintro rfl
      exact hb List.mem_cons_self
    rw [hax, Option.bind_some, countLoop, if_neg hxb,
      ih hs (fun hl => hb (List.mem_cons_of_mem _ hl)) (length + 1) (by simpa using hfuel),
      List.length_cons, UInt32.ofNat_add, UInt32.add_assoc, UInt32.add_comm 1]
    rfl

/-- `list_len` counts in 32 bits. -/
theorem Represents.readsAs (hr : Represents h q) (hq : q i = some l) :
    ReadsAs h i l (l.length % 2 ^ 32) := by
  have hseg := hr.seg i l hq
  have htail : Cell.tail i ∉ l.map (Cell.elem (ι := ι)) := by simp
  have hlen : (l.map (Cell.elem (ι := ι))).length = l.length := List.length_map ..
  obtain ⟨y, hnext, hy⟩ := hr.first hq
  have hsearch : ∀ test fuel, l.length < fuel →
      search h (.tail i) test fuel y = some ((l.map .elem).find? test) := by
    intro test fuel hfuel
    have hsearch := search_of_seg hseg htail test (hlen ▸ hfuel)
    rwa [hnext] at hsearch
  have hempty : listEmpty h i = l.isEmpty := by
    rw [listEmpty, hnext]
    cases l with
    | nil =>
      obtain rfl := Option.some.inj hy
      simp
    | cons x l =>
      obtain rfl := Option.some.inj hy
      simp
  constructor
  · intro fuel hfuel
    exact hseg.walk htail (by rwa [hlen])
  · intro fuel hfuel
    exact hseg.walk_back (by simp) (by rwa [hlen])
  · exact hempty
  · intro fuel hfuel e
    have hgoal : elemFind fuel h i (.elem e) =
        (search h (.tail i) (fun elem => decide (elem = .elem e)) fuel y).map Option.isSome := by
      simp [elemFind, hnext, Option.map_eq_bind]
    rw [hgoal, hsearch _ fuel hfuel, Option.map_some]
    congr 1
    rw [Bool.eq_iff_iff, List.find?_isSome]
    simp
  · intro fuel hfuel func arg
    simp only [listTraversal, hnext, hempty, Option.bind_eq_bind, Option.bind_some]
    cases l with
    | nil => rfl
    | cons x l => exact hsearch _ fuel hfuel
  · intro fuel hfuel
    have hcount := countLoop_of_seg hseg htail 0 (hlen ▸ hfuel)
    rw [hlen] at hcount
    have hgoal : listLen fuel h i = some (0 + UInt32.ofNat l.length) := hcount
    rw [hgoal]
    simp

lemma apply_of_not_on {op : Op ι ε} (hi : ¬ op.On q i) : op.apply q i = q i := by
  have hmap : ∀ {e : ε} {f : List ε → List ε}, ¬ q.On i e → (∀ k, e ∉ k → f k = k) →
      (q i).map f = q i := by
    intro e f hon hf
    cases hk : q i with
    | none => rfl
    | some k => exact congrArg some (hf k fun he => hon ⟨k, hk, he⟩)
  cases op with
  | init j | push j e | append j e | pop j =>
    exact Function.update_of_ne (fun hij => hi hij.symm) ..
  | insertBefore before e =>
    cases before with
    | head j => rfl
    | tail j => exact Function.update_of_ne (fun hij => hi hij.symm) ..
    | elem f => exact hmap hi fun _ => insertBeforeElem_of_notMem
  | remove e => exact hmap hi fun _ => List.erase_of_not_mem

/-- In every run the pointers represent the sequences; `list_len` is the length
modulo `2 ^ 32`. -/
theorem refined_of_reachable {s : Heap (Cell ι ε) × Contents ι ε} (hs : lists.Reachable s) :
    Refined (fun n => n % 2 ^ 32) s := by
  have hr := represents_of_reachable hs
  refine ⟨hr.nodup, hr.disjoint, fun i l hq => hr.readsAs hq, ?_, fun op _ i => apply_of_not_on⟩
  intro op hlegal
  obtain ⟨h', hrun, hr'⟩ := hr.step hlegal
  exact ⟨h', hrun, fun i l hq => hr'.readsAs hq⟩

/-- Every sequence of legal operations is a run. -/
lemma exists_reachable (hs : lists.Reachable (h, q)) {op : Op ι ε} (hlegal : op.Legal q) :
    ∃ h', lists.Reachable (h', op.apply q) := by
  obtain ⟨h', hrun, -⟩ := (represents_of_reachable hs).step hlegal
  exact ⟨h', .step hs trivial ⟨hlegal, ⟨_, hrun⟩, rfl⟩⟩

end Read

/-- One list that holds the elements below `n`. -/
lemma exists_reachable_range (n : ℕ) : ∃ h : Heap (Cell Unit ℕ), ∃ l : List ℕ,
    lists.Reachable (h, fun _ => some l) ∧ l.length = n ∧ ∀ e ∈ l, e < n := by
  induction n with
  | zero =>
    let h : Heap (Cell Unit ℕ) := fun _ => ⟨none, none⟩
    have hinit : lists.Reachable (h, fun _ => none) := .init fun _ => rfl
    have hlegal : (Op.init () : Op Unit ℕ).Legal fun _ => none := trivial
    obtain ⟨h', hs⟩ := exists_reachable hinit hlegal
    refine ⟨h', [], ?_, rfl, by simp⟩
    have hq : (Op.init () : Op Unit ℕ).apply (fun _ => none) = fun _ => some [] := by
      ext1 i
      show Function.update (fun _ => none) () (some []) i = _
      exact Function.update_self ..
    rwa [hq] at hs
  | succ n ih =>
    obtain ⟨h, l, hs, hlen, hl⟩ := ih
    have hlegal : (Op.push () n).Legal fun _ => some l := by
      refine ⟨rfl, ?_⟩
      rintro i ⟨k, hk, hn⟩
      obtain rfl := Option.some.inj hk
      exact Nat.lt_irrefl n (hl n hn)
    obtain ⟨h', hs'⟩ := exists_reachable hs hlegal
    refine ⟨h', n :: l, ?_, by simp [hlen], ?_⟩
    · have hq : (Op.push () n).apply (fun _ => some l) = fun _ => some (n :: l) := by
        ext1 i
        show Function.update (fun _ => some l) () (some (n :: l)) i = _
        exact Function.update_self ..
      rwa [hq] at hs'
    · intro e he
      rcases List.mem_cons.mp he with rfl | he
      · omega
      · have := hl e he
        omega

theorem refined_three : ∃ h : Heap (Cell Unit ℕ), ∃ l : List ℕ, l.length = 3 ∧
    Refined (fun n => n % 2 ^ 32) (h, fun _ => some l) := by
  obtain ⟨h, l, hs, hlen, -⟩ := exists_reachable_range 3
  exact ⟨h, l, hlen, refined_of_reachable hs⟩

/-- `list_len` of a list of `2 ^ 32` elements is 0. -/
theorem not_refined_length : ¬ ∀ s : Heap (Cell Unit ℕ) × Contents Unit ℕ,
    lists.Reachable s → Refined (fun n => n) s := by
  intro hall
  obtain ⟨h, l, hs, hlen, -⟩ := exists_reachable_range (2 ^ 32)
  have hexact := ((hall _ hs).reads () l rfl).len (2 ^ 32 + 1) (by omega)
  have hcount := ((represents_of_reachable hs).readsAs (i := ()) rfl).len (2 ^ 32 + 1) (by omega)
  rw [hexact, hlen] at hcount
  exact absurd (Option.some.inj hcount) (by decide)

end Libtask.Intrusive
