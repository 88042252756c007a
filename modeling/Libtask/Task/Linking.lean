import Libtask.Agreement
import Libtask.Task.Linked

/-!
# The links agree with the sequences

A scheduler on its links and one whose lists are sequences are related if they have the
same data and the links represent the sequences. Each function agrees with its
counterpart: in related states that meet what the roster's law promises, both stop alike
or return related states.
-/
namespace Libtask.LinkedSched
open Agreement Intrusive

variable {κ : Type}

/-- The sequences that the links are to represent. -/
def contents (s : Sched κ) : Contents TaskList TagAddr
  | .ready => some (s.taskReadyList.map fun t => ⟨t, .general⟩)
  | .all => some (s.taskAllList.map fun t => ⟨t, .allList⟩)
  | .pool => some (s.taskPoolList.map fun t => ⟨t, .pool⟩)
  | .waiters i => some ((s.sema i).waiters.map fun t => ⟨t, .general⟩)

/-- Everything but the lists. -/
def ofSched (s : Sched κ) (links : Links.Heap TagCell) : LinkedSched κ where
  task := s.task
  links := links
  alloc := s.alloc
  currentTask := s.currentTask
  mainTask := s.mainTask
  taskAllNums := s.taskAllNums
  tidBitmap := s.tidBitmap
  tidStart := s.tidStart
  lock := s.lock
  value i := (s.sema i).value

/-- The same data, and links for the lists. -/
inductive Linked : LinkedSched κ → Sched κ → Prop
  | intro {s : Sched κ} {links : Links.Heap TagCell} (h : Terminated links (contents s)) :
      Linked (ofSched s links) s

/-- The `general_tag` of `t` is on no list. -/
def Off (s : Sched κ) (t : TaskAddr) : Prop :=
  t ∉ s.taskReadyList ∧ ∀ i, t ∉ (s.sema i).waiters

/-- No list that is searched has more elements than there are tasks. -/
structure Counted (s : Sched κ) : Prop where
  ready : s.taskReadyList.length ≤ s.taskAllNums.toNat
  all : s.taskAllList.length ≤ s.taskAllNums.toNat
  waiters : ∀ i, (s.sema i).waiters.length ≤ s.taskAllNums.toNat

section Lists

variable {p : LinkedSched κ} {s s' : Sched κ} {i : TaskList} {l : List TagAddr} {e : TagAddr}
  {t : TaskAddr} {tag : TaskTag}

lemma mem_tags {m : List TaskAddr} :
    (⟨t, tag⟩ : TagAddr) ∈ m.map (fun u => (⟨u, tag⟩ : TagAddr)) ↔ t ∈ m := by
  simp

lemma not_on_general (h : Off s t) (j : TaskList) : ¬ (contents s).On j ⟨t, .general⟩ := by
  rintro ⟨l, hl, hmem⟩
  cases j with
  | ready =>
    obtain rfl := Option.some.inj hl
    exact h.1 (mem_tags.mp hmem)
  | all =>
    obtain rfl := Option.some.inj hl
    simp at hmem
  | pool =>
    obtain rfl := Option.some.inj hl
    simp at hmem
  | waiters i =>
    obtain rfl := Option.some.inj hl
    exact h.2 i (mem_tags.mp hmem)

lemma not_on_all (h : t ∉ s.taskAllList) (j : TaskList) : ¬ (contents s).On j ⟨t, .allList⟩ := by
  rintro ⟨l, hl, hmem⟩
  cases j with
  | all =>
    obtain rfl := Option.some.inj hl
    exact h (mem_tags.mp hmem)
  | _ =>
    obtain rfl := Option.some.inj hl
    simp at hmem

lemma not_on_pool (h : t ∉ s.taskPoolList) (j : TaskList) : ¬ (contents s).On j ⟨t, .pool⟩ := by
  rintro ⟨l, hl, hmem⟩
  cases j with
  | pool =>
    obtain rfl := Option.some.inj hl
    exact h (mem_tags.mp hmem)
  | _ =>
    obtain rfl := Option.some.inj hl
    simp at hmem

/-- What a list function leaves represents `s'`, which differs from `s` in one sequence. -/
lemma Linked.of_update {links : Links.Heap TagCell} (hs : contents s' =
      Function.update (contents s) i (some l)) (hof : ∀ links, ofSched s' links = ofSched s links)
    (ht : Terminated links (Function.update (contents s) i (some l))) :
    Linked (ofSched s links) s' := by
  rw [← hof]
  exact .intro (hs ▸ ht)

variable (h : Linked p s)
include h

lemma Linked.listInit (hs : contents s' = Function.update (contents s) i (some []))
    (hof : ∀ links, ofSched s' links = ofSched s links) : Linked (p.listInit i) s' := by
  obtain ⟨ht⟩ := h
  exact .of_update hs hof (ht.init i)

lemma Linked.listPush (hq : contents s i = some l) (he : ∀ j, ¬ (contents s).On j e)
    (hs : contents s' = Function.update (contents s) i (some (e :: l)))
    (hof : ∀ links, ofSched s' links = ofSched s links) :
    ∃ p', p.listPush i e = .ok p' ∧ Linked p' s' := by
  obtain ⟨ht⟩ := h
  obtain ⟨links, hrun, ht'⟩ := ht.push hq he
  refine ⟨ofSched s links, ?_, .of_update hs hof ht'⟩
  show relink _ (Intrusive.listPush _ _ _) = _
  rw [ofSched, hrun]
  rfl

lemma Linked.listAppend (hq : contents s i = some l) (he : ∀ j, ¬ (contents s).On j e)
    (hs : contents s' = Function.update (contents s) i (some (l ++ [e])))
    (hof : ∀ links, ofSched s' links = ofSched s links) :
    ∃ p', p.listAppend i e = .ok p' ∧ Linked p' s' := by
  obtain ⟨ht⟩ := h
  obtain ⟨links, hrun, ht'⟩ := ht.append hq he
  refine ⟨ofSched s links, ?_, .of_update hs hof ht'⟩
  show relink _ (Intrusive.listAppend _ _ _) = _
  rw [ofSched, hrun]
  rfl

lemma Linked.listRemove (hq : contents s i = some l) (he : e ∈ l)
    (hs : contents s' = Function.update (contents s) i (some (l.erase e)))
    (hof : ∀ links, ofSched s' links = ofSched s links) :
    ∃ p', p.listRemove e = .ok p' ∧ Linked p' s' := by
  obtain ⟨ht⟩ := h
  obtain ⟨links, hrun, ht'⟩ := ht.remove hq he
  refine ⟨ofSched s links, ?_, .of_update hs hof ht'⟩
  show relink _ (Intrusive.listRemove _ _) = _
  rw [ofSched, hrun]
  rfl

lemma Linked.listPop (hq : contents s i = some (e :: l))
    (hs : contents s' = Function.update (contents s) i (some l))
    (hof : ∀ links, ofSched s' links = ofSched s links) :
    ∃ p', p.listPop i = .ok (p', .elem e) ∧ Linked p' s' := by
  obtain ⟨ht⟩ := h
  obtain ⟨links, hrun, ht'⟩ := ht.pop hq
  refine ⟨ofSched s links, ?_, .of_update hs hof ht'⟩
  rw [LinkedSched.listPop, ofSched, hrun]
  rfl

lemma Linked.listPop_nil (hq : contents s i = some []) : p.listPop i = .error .emptyPop := by
  obtain ⟨ht⟩ := h
  rw [LinkedSched.listPop, ofSched, ht.pop_nil hq]

lemma Linked.listEmpty (hq : contents s i = some l) : p.listEmpty i = l.isEmpty := by
  obtain ⟨ht⟩ := h
  exact ht.empty hq

lemma Linked.elemFind (hq : contents s i = some l) (hlen : l.length ≤ s.taskAllNums.toNat)
    (e : TagAddr) : p.elemFind i e = .ok (decide (e ∈ l)) := by
  obtain ⟨ht⟩ := h
  rw [LinkedSched.elemFind, ofSched, ht.find hq (Nat.lt_succ_of_le hlen)]

end Lists

section TaskLists

variable {p : LinkedSched κ} {s s' : Sched κ} {t : TaskAddr} {rest : List TaskAddr} {i : SemaId}

lemma contents_ready (s : Sched κ) (l : List TaskAddr) :
    contents { s with taskReadyList := l } =
      Function.update (contents s) .ready (some (l.map fun t => ⟨t, .general⟩)) := by
  ext1 j
  cases j <;> simp [contents]

lemma contents_all (s : Sched κ) (l : List TaskAddr) :
    contents { s with taskAllList := l } =
      Function.update (contents s) .all (some (l.map fun t => ⟨t, .allList⟩)) := by
  ext1 j
  cases j <;> simp [contents]

lemma contents_pool (s : Sched κ) (l : List TaskAddr) :
    contents { s with taskPoolList := l } =
      Function.update (contents s) .pool (some (l.map fun t => ⟨t, .pool⟩)) := by
  ext1 j
  cases j <;> simp [contents]

lemma contents_setSema (s : Sched κ) (i : SemaId) (f : Semaphore → Semaphore) :
    contents (s.setSema i f) = Function.update (contents s) (.waiters i)
      (some ((f (s.sema i)).waiters.map fun t => ⟨t, .general⟩)) := by
  ext1 j
  cases j with
  | waiters j =>
    by_cases hj : j = i
    · subst hj
      simp [contents]
    · simp [contents, hj, s.setSema_sema_of_ne f hj]
  | _ => simp [contents, Sched.setSema]

lemma ofSched_setSema (s : Sched κ) (i : SemaId) {f : Semaphore → Semaphore}
    (hf : (f (s.sema i)).value = (s.sema i).value) (links : Links.Heap TagCell) :
    ofSched (s.setSema i f) links = ofSched s links := by
  have hvalue : (fun j => ((s.setSema i f).sema j).value) = fun j => (s.sema j).value := by
    ext1 j
    by_cases hj : j = i
    · subst hj
      rw [Sched.setSema_sema_self, hf]
    · rw [s.setSema_sema_of_ne f hj]
  simp only [ofSched, hvalue]
  rfl

variable (h : Linked p s)
include h

lemma Linked.appendReady (hoff : Off s t) : ∃ p', p.listAppend .ready ⟨t, .general⟩ = .ok p' ∧
    Linked p' { s with taskReadyList := s.taskReadyList ++ [t] } := by
  apply h.listAppend rfl (not_on_general hoff)
  · rw [contents_ready, List.map_append]
    rfl
  · exact fun _ => rfl

lemma Linked.pushReady (hoff : Off s t) : ∃ p', p.listPush .ready ⟨t, .general⟩ = .ok p' ∧
    Linked p' { s with taskReadyList := t :: s.taskReadyList } := by
  apply h.listPush rfl (not_on_general hoff)
  · rw [contents_ready, List.map_cons]
  · exact fun _ => rfl

lemma Linked.removeReady (ht : t ∈ s.taskReadyList) :
    ∃ p', p.listRemove ⟨t, .general⟩ = .ok p' ∧
      Linked p' { s with taskReadyList := s.taskReadyList.erase t } := by
  apply h.listRemove (i := .ready) rfl (mem_tags.mpr ht)
  · rw [contents_ready, List.map_erase fun t u htu => by simpa using htu]
  · exact fun _ => rfl

lemma Linked.popReady (hready : s.taskReadyList = t :: rest) :
    ∃ p', p.listPop .ready = .ok (p', .elem ⟨t, .general⟩) ∧
      Linked p' { s with taskReadyList := rest, taskTag := t } := by
  apply h.listPop (l := rest.map fun t => ⟨t, .general⟩)
  · rw [contents, hready]
    rfl
  · exact contents_ready s rest
  · exact fun _ => rfl

lemma Linked.appendAll (ht : t ∉ s.taskAllList) :
    ∃ p', p.listAppend .all ⟨t, .allList⟩ = .ok p' ∧
      Linked p' { s with taskAllList := s.taskAllList ++ [t] } := by
  apply h.listAppend rfl (not_on_all ht)
  · rw [contents_all, List.map_append]
    rfl
  · exact fun _ => rfl

lemma Linked.removeAll (ht : t ∈ s.taskAllList) :
    ∃ p', p.listRemove ⟨t, .allList⟩ = .ok p' ∧
      Linked p' { s with taskAllList := s.taskAllList.erase t } := by
  apply h.listRemove (i := .all) rfl (mem_tags.mpr ht)
  · rw [contents_all, List.map_erase fun t u htu => by simpa using htu]
  · exact fun _ => rfl

lemma Linked.appendPool (ht : t ∉ s.taskPoolList) :
    ∃ p', p.listAppend .pool ⟨t, .pool⟩ = .ok p' ∧
      Linked p' { s with taskPoolList := s.taskPoolList ++ [t] } := by
  apply h.listAppend rfl (not_on_pool ht)
  · rw [contents_pool, List.map_append]
    rfl
  · exact fun _ => rfl

lemma Linked.popPool (hpool : s.taskPoolList = t :: rest) :
    ∃ p', p.listPop .pool = .ok (p', .elem ⟨t, .pool⟩) ∧
      Linked p' { s with taskPoolList := rest, taskTag := t } := by
  apply h.listPop (l := rest.map fun t => ⟨t, .pool⟩)
  · rw [contents, hpool]
    rfl
  · exact contents_pool s rest
  · exact fun _ => rfl

lemma Linked.appendWaiters (hoff : Off s t) :
    ∃ p', p.listAppend (.waiters i) ⟨t, .general⟩ = .ok p' ∧
      Linked p' (s.setSema i fun p => { p with waiters := p.waiters ++ [t] }) := by
  apply h.listAppend rfl (not_on_general hoff)
  · rw [contents_setSema, List.map_append]
    rfl
  · exact ofSched_setSema s i rfl

lemma Linked.popWaiters (hwaiters : (s.sema i).waiters = t :: rest) :
    ∃ p', p.listPop (.waiters i) = .ok (p', .elem ⟨t, .general⟩) ∧
      Linked p' (s.setSema i fun p => { p with waiters := rest }) := by
  apply h.listPop (l := rest.map fun t => ⟨t, .general⟩)
  · rw [contents, hwaiters]
    rfl
  · exact contents_setSema s i _
  · exact ofSched_setSema s i rfl

lemma Linked.findReady (hcount : Counted s) (t : TaskAddr) :
    p.elemFind .ready ⟨t, .general⟩ = .ok (decide (t ∈ s.taskReadyList)) := by
  rw [h.elemFind rfl (by simpa using hcount.ready)]
  simp

lemma Linked.findAll (hcount : Counted s) (t : TaskAddr) :
    p.elemFind .all ⟨t, .allList⟩ = .ok (decide (t ∈ s.taskAllList)) := by
  rw [h.elemFind rfl (by simpa using hcount.all)]
  simp

lemma Linked.findWaiters (hcount : Counted s) (t : TaskAddr) :
    p.elemFind (.waiters i) ⟨t, .general⟩ = .ok (decide (t ∈ (s.sema i).waiters)) := by
  rw [h.elemFind rfl (by simpa using hcount.waiters i)]
  simp

lemma Linked.emptyReady : p.listEmpty .ready = true ↔ s.taskReadyList = [] := by
  rw [h.listEmpty rfl]
  simp

lemma Linked.emptyPool : p.listEmpty .pool = true ↔ s.taskPoolList = [] := by
  rw [h.listEmpty rfl]
  simp

lemma Linked.emptyWaiters : p.listEmpty (.waiters i) = true ↔ (s.sema i).waiters = [] := by
  rw [h.listEmpty rfl]
  simp

end TaskLists

end Libtask.LinkedSched
