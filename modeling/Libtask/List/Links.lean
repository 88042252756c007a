import Mathlib

/-!
# Doubly linked cells

A heap gives every cell its two pointers. A segment from `a` to `b` through `l`
is a chain of cells that are linked both ways: it only says what the `next` of
all but the last and the `prev` of all but the first cell are. With `a = b` it
is a ring. Nothing here is about a particular program.
-/
namespace Libtask.Links

/-- The pointers of a cell; `none` is the null pointer. -/
structure Link (α : Type*) where
  prev : Option α
  next : Option α
  deriving DecidableEq, Repr

abbrev Heap (α : Type*) := α → Link α

variable {α : Type*}

section Write

variable [DecidableEq α]

/-- `c->next = p` -/
def setNext (h : Heap α) (c : α) (p : Option α) : Heap α :=
  Function.update h c { h c with next := p }

/-- `c->prev = p` -/
def setPrev (h : Heap α) (c : α) (p : Option α) : Heap α :=
  Function.update h c { h c with prev := p }

@[simp] lemma setNext_prev (h : Heap α) (c d : α) (p : Option α) :
    (setNext h c p d).prev = (h d).prev := by
  by_cases hd : d = c
  · subst hd
    simp [setNext]
  · simp [setNext, hd]

@[simp] lemma setPrev_next (h : Heap α) (c d : α) (p : Option α) :
    (setPrev h c p d).next = (h d).next := by
  by_cases hd : d = c
  · subst hd
    simp [setPrev]
  · simp [setPrev, hd]

lemma setNext_next (h : Heap α) (c d : α) (p : Option α) :
    (setNext h c p d).next = if d = c then p else (h d).next := by
  by_cases hd : d = c
  · subst hd
    simp [setNext]
  · simp [setNext, hd]

lemma setPrev_prev (h : Heap α) (c d : α) (p : Option α) :
    (setPrev h c p d).prev = if d = c then p else (h d).prev := by
  by_cases hd : d = c
  · subst hd
    simp [setPrev]
  · simp [setPrev, hd]

end Write

/-- The cells of `l` stand between `a` and `b`. -/
def Seg (h : Heap α) : α → List α → α → Prop
  | a, [], b => (h a).next = some b ∧ (h b).prev = some a
  | a, x :: l, b => ((h a).next = some x ∧ (h x).prev = some a) ∧ Seg h x l b

variable {h h' : Heap α} {a b x : α} {l m : List α}

lemma seg_append : Seg h a (l ++ x :: m) b ↔ Seg h a l x ∧ Seg h x m b := by
  induction l generalizing a with
  | nil => rfl
  | cons y l ih =>
    show _ ∧ Seg h y (l ++ x :: m) b ↔ (_ ∧ _) ∧ _
    rw [ih]
    exact and_assoc.symm

/-- What a segment reads: the `next` of its cells from `a` on, and the `prev` of
those up to `b`. -/
theorem Seg.congr (hs : Seg h a l b) (hnext : ∀ c ∈ a :: l, (h' c).next = (h c).next)
    (hprev : ∀ c ∈ l ++ [b], (h' c).prev = (h c).prev) : Seg h' a l b := by
  induction l generalizing a with
  | nil =>
    obtain ⟨hab, hba⟩ := hs
    exact ⟨(hnext a (by simp)).trans hab, (hprev b (by simp)).trans hba⟩
  | cons x l ih =>
    obtain ⟨⟨hax, hxa⟩, hs⟩ := hs
    refine ⟨⟨(hnext a (by simp)).trans hax, (hprev x (by simp)).trans hxa⟩, ?_⟩
    exact ih hs (fun c hc => hnext c (List.mem_cons_of_mem _ hc))
      (fun c hc => hprev c (List.mem_cons_of_mem _ hc))

/-- The heap with the two pointers of every cell exchanged. -/
def flip (h : Heap α) : Heap α := fun c => ⟨(h c).next, (h c).prev⟩

/-- Read backwards, a segment is the segment of the reversed list. -/
theorem Seg.reverse (hs : Seg h a l b) : Seg (flip h) b l.reverse a := by
  induction l generalizing a with
  | nil => exact ⟨hs.2, hs.1⟩
  | cons x l ih =>
    obtain ⟨⟨hax, hxa⟩, hs⟩ := hs
    rw [List.reverse_cons, seg_append]
    exact ⟨ih hs, hxa, hax⟩

/-- The cell before the end, with the segment up to it. -/
lemma Seg.split_last (hs : Seg h a l b) :
    (l = [] ∧ (h a).next = some b ∧ (h b).prev = some a) ∨
    ∃ m p, l = m ++ [p] ∧ Seg h a m p ∧ (h p).next = some b ∧ (h b).prev = some p := by
  rcases List.eq_nil_or_concat l with rfl | ⟨m, p, rfl⟩
  · exact .inl ⟨rfl, hs⟩
  · rw [List.concat_eq_append, seg_append] at hs
    exact .inr ⟨m, p, List.concat_eq_append, hs.1, hs.2⟩

section Edit

variable [DecidableEq α]

/-- The four writes that put `x` between `p` and `b`. -/
def insert (h : Heap α) (p x b : α) : Heap α :=
  setPrev (setNext (setPrev (setNext h p (some x)) x (some p)) x (some b)) b (some x)

/-- The two writes that join `p` and `n`. -/
def join (h : Heap α) (p n : α) : Heap α := setPrev (setNext h p (some n)) n (some p)

lemma insert_next (h : Heap α) (p x b c : α) : (insert h p x b c).next =
    if c = x then some b else if c = p then some x else (h c).next := by
  simp [insert, setNext_next]

lemma insert_prev (h : Heap α) (p x b c : α) : (insert h p x b c).prev =
    if c = b then some x else if c = x then some p else (h c).prev := by
  simp [insert, setPrev_prev]

lemma join_next (h : Heap α) (p n c : α) :
    (join h p n c).next = if c = p then some n else (h c).next := by
  simp [join, setNext_next]

lemma join_prev (h : Heap α) (p n c : α) :
    (join h p n c).prev = if c = n then some p else (h c).prev := by
  simp [join, setPrev_prev]

/-- A segment that the insertion of `x` between `p` and `n` does not touch. -/
lemma Seg.insert_of_notMem {p n : α} (hs : Seg h a l b) (hxa : x ≠ a) (hx : x ∉ l) (hxb : x ≠ b)
    (hpa : p ≠ a) (hp : p ∉ l) (hn : n ∉ l) (hnb : n ≠ b) : Seg (insert h p x n) a l b := by
  apply hs.congr
  · intro c hc
    have hcx : c ≠ x := by
      rintro rfl
      rcases List.mem_cons.mp hc with hc | hc
      · exact hxa hc
      · exact hx hc
    have hcp : c ≠ p := by
      rintro rfl
      rcases List.mem_cons.mp hc with hc | hc
      · exact hpa hc
      · exact hp hc
    rw [insert_next, if_neg hcx, if_neg hcp]
  · intro c hc
    have hcx : c ≠ x := by
      rintro rfl
      rcases List.mem_append.mp hc with hc | hc
      · exact hx hc
      · exact hxb (List.mem_singleton.mp hc)
    have hcn : c ≠ n := by
      rintro rfl
      rcases List.mem_append.mp hc with hc | hc
      · exact hn hc
      · exact hnb (List.mem_singleton.mp hc)
    rw [insert_prev, if_neg hcn, if_neg hcx]

/-- A segment that joining `p` and `n` does not touch. -/
lemma Seg.join_of_notMem {p n : α} (hs : Seg h a l b) (hpa : p ≠ a) (hp : p ∉ l) (hn : n ∉ l)
    (hnb : n ≠ b) : Seg (join h p n) a l b := by
  apply hs.congr
  · intro c hc
    have hcp : c ≠ p := by
      rintro rfl
      rcases List.mem_cons.mp hc with hc | hc
      · exact hpa hc
      · exact hp hc
    rw [join_next, if_neg hcp]
  · intro c hc
    have hcn : c ≠ n := by
      rintro rfl
      rcases List.mem_append.mp hc with hc | hc
      · exact hn hc
      · exact hnb (List.mem_singleton.mp hc)
    rw [join_prev, if_neg hcn]

/-- Insertion at the end of a segment. The writes go through `b->prev`, which is
the last cell of the segment. -/
theorem Seg.snoc (hs : Seg h a l b) (hnodup : (a :: l).Nodup) (hbl : b ∉ l) (hxa : x ≠ a)
    (hxl : x ∉ l) (hxb : x ≠ b) :
    ∃ p ∈ a :: l, (h b).prev = some p ∧ Seg (insert h p x b) a (l ++ [x]) b := by
  have hend : ∀ p, p ≠ x → Seg (insert h p x b) x [] b := by
    intro p hpx
    refine ⟨?_, ?_⟩
    · rw [insert_next, if_pos rfl]
    · rw [insert_prev, if_pos rfl]
  rcases hs.split_last with ⟨rfl, hab, hba⟩ | ⟨m, p, rfl, hm, hpb, hbp⟩
  · refine ⟨a, List.mem_cons_self, hba, ⟨?_, ?_⟩, hend a hxa.symm⟩
    · rw [insert_next, if_neg hxa.symm, if_pos rfl]
    · rw [insert_prev, if_neg hxb, if_pos rfl]
  · have hpx : p ≠ x := by
      rintro rfl
      exact hxl (by simp)
    have hpm : p ∉ a :: m := by
      have := hnodup
      rw [← List.cons_append, List.nodup_append] at this
      intro hmem
      exact this.2.2 p hmem p (List.mem_singleton.mpr rfl) rfl
    refine ⟨p, by simp, hbp, ?_⟩
    rw [seg_append]
    refine ⟨?_, hend p hpx⟩
    rw [seg_append]
    refine ⟨?_, ?_, ?_⟩
    · apply hm.insert_of_notMem hxa (fun hx => hxl (by simp [hx])) hpx.symm
        (fun hpa => hpm (by simp [hpa])) (fun hp => hpm (List.mem_cons_of_mem _ hp))
        (fun hb => hbl (by simp [hb]))
      rintro rfl
      exact hbl (by simp)
    · rw [insert_next, if_neg hpx, if_pos rfl]
    · rw [insert_prev, if_neg hxb, if_pos rfl]

/-- Insertion before any cell of a segment, or before its end. -/
theorem Seg.insert {y : α} (hs : Seg h a (l ++ m) b) (hy : (m ++ [b]).head? = some y)
    (hnodup : (a :: (l ++ m)).Nodup) (hb : b ∉ l ++ m) (hxa : x ≠ a) (hx : x ∉ l ++ m)
    (hxb : x ≠ b) :
    ∃ p ∈ a :: l, (h y).prev = some p ∧ Seg (Links.insert h p x y) a (l ++ x :: m) b := by
  cases m with
  | nil =>
    obtain rfl := Option.some.inj hy
    simp only [List.append_nil] at hs hnodup hb hx
    exact hs.snoc hnodup hb hxa hx hxb
  | cons z m =>
    obtain rfl := Option.some.inj hy
    rw [seg_append] at hs
    rw [← List.cons_append, List.nodup_append] at hnodup
    obtain ⟨hal, hzm, hdisj⟩ := hnodup
    have hzl : z ∉ a :: l := fun hz => hdisj z hz z List.mem_cons_self rfl
    obtain ⟨p, hp, hzp, hseg⟩ := hs.1.snoc hal (fun hz => hzl (List.mem_cons_of_mem _ hz)) hxa
      (fun hxl => hx (by simp [hxl])) (fun hxz => hx (by simp [hxz]))
    have hpm : p ∉ z :: m := fun hpm => hdisj p hp p hpm rfl
    refine ⟨p, hp, hzp, ?_⟩
    have hsplit : l ++ x :: z :: m = (l ++ [x]) ++ z :: m := by simp
    rw [hsplit, seg_append]
    refine ⟨hseg, hs.2.insert_of_notMem ?_ ?_ hxb ?_ ?_ (List.nodup_cons.mp hzm).1 ?_⟩
    · rintro rfl
      exact hx (by simp)
    · intro hxm
      exact hx (by simp [hxm])
    · rintro rfl
      exact hpm List.mem_cons_self
    · intro hpm'
      exact hpm (List.mem_cons_of_mem _ hpm')
    · rintro rfl
      exact hb (by simp)

/-- Removal of a cell of a segment: its neighbours are joined. -/
theorem Seg.remove (hs : Seg h a (l ++ x :: m) b) (hnodup : (a :: (l ++ x :: m)).Nodup)
    (hb : b ∉ l ++ x :: m) :
    ∃ p ∈ a :: l, ∃ n ∈ m ++ [b], (h x).prev = some p ∧ (h x).next = some n ∧
      Seg (join h p n) a (l ++ m) b := by
  rw [seg_append] at hs
  rw [← List.cons_append, List.nodup_append] at hnodup
  obtain ⟨hal, hxm, hdisj⟩ := hnodup
  have hlink : ∀ p n, (join h p n p).next = some n ∧ (join h p n n).prev = some p := by
    intro p n
    rw [join_next, join_prev, if_pos rfl, if_pos rfl]
    exact ⟨rfl, rfl⟩
  have hfront : ∀ l' p n, l = l' ++ [p] → n ∈ m ++ [b] → Seg h a l' p →
      Seg (join h p n) a l' p := by
    rintro l' p n rfl hn hseg
    have hpl : p ∉ a :: l' := by
      rw [← List.cons_append, List.nodup_append] at hal
      intro hp
      exact hal.2.2 p hp p (List.mem_singleton.mpr rfl) rfl
    have hnl : n ∉ l' ++ [p] := by
      intro hnl
      rcases List.mem_append.mp hn with hn | hn
      · exact hdisj n (List.mem_cons_of_mem _ hnl) n (List.mem_cons_of_mem _ hn) rfl
      · rw [List.mem_singleton.mp hn] at hnl
        exact hb (List.mem_append_left _ hnl)
    apply hseg.join_of_notMem (fun hpa => hpl (by simp [hpa]))
      (fun hp => hpl (List.mem_cons_of_mem _ hp)) (fun hn => hnl (by simp [hn]))
    rintro rfl
    exact hnl (by simp)
  have hback : ∀ n m' p, m = n :: m' → p ∈ a :: l → Seg h n m' b → Seg (join h p n) n m' b := by
    rintro n m' p rfl hp hseg
    have hpm : p ∉ x :: n :: m' := fun hpm => hdisj p hp p hpm rfl
    apply hseg.join_of_notMem (fun hpn => hpm (by simp [hpn])) (fun hp => hpm (by simp [hp]))
      (List.nodup_cons.mp (List.nodup_cons.mp hxm).2).1
    rintro rfl
    exact hb (by simp)
  rcases hs.1.split_last with ⟨rfl, -, hprev⟩ | ⟨l', p, rfl, hl, -, hprev⟩
  · cases m with
    | nil => exact ⟨a, by simp, b, by simp, hprev, hs.2.1, hlink a b⟩
    | cons n m =>
      obtain ⟨⟨hxn, -⟩, hm⟩ := hs.2
      exact ⟨a, by simp, n, by simp, hprev, hxn, hlink a n, hback n m a rfl (by simp) hm⟩
  · cases m with
    | nil =>
      refine ⟨p, by simp, b, by simp, hprev, hs.2.1, ?_⟩
      rw [List.append_nil, seg_append]
      exact ⟨hfront l' p b rfl (by simp) hl, hlink p b⟩
    | cons n m =>
      obtain ⟨⟨hxn, -⟩, hm⟩ := hs.2
      refine ⟨p, by simp, n, by simp, hprev, hxn, ?_⟩
      rw [List.append_assoc, List.singleton_append, seg_append]
      exact ⟨hfront l' p n rfl (by simp) hl, hlink p n, hback n m p rfl (by simp) hm⟩

end Edit

/-- Follow a pointer until the cell `stop`. The walk fails at a null pointer, and
when the fuel runs out. -/
def walk [DecidableEq α] (step : α → Option α) (stop : α) : ℕ → Option α → Option (List α)
  | 0, _ => none
  | _ + 1, none => none
  | fuel + 1, some c =>
    if c = stop then some [] else (walk step stop fuel (step c)).map (c :: ·)

/-- A walk along the `next` pointers reads the segment off. -/
theorem Seg.walk [DecidableEq α] (hs : Seg h a l b) (hb : b ∉ l) {fuel : ℕ}
    (hfuel : l.length < fuel) :
    Links.walk (fun c => (h c).next) b fuel (h a).next = some l := by
  induction l generalizing a fuel with
  | nil =>
    obtain ⟨fuel, rfl⟩ : ∃ n, fuel = n + 1 := ⟨fuel - 1, by omega⟩
    rw [hs.1, Links.walk, if_pos rfl]
  | cons x l ih =>
    obtain ⟨fuel, rfl⟩ : ∃ n, fuel = n + 1 := ⟨fuel - 1, by omega⟩
    obtain ⟨⟨hax, -⟩, hs⟩ := hs
    have hxb : x ≠ b := by
      rintro rfl
      exact hb List.mem_cons_self
    have hlt : l.length < fuel := by simpa using hfuel
    have hrest := ih hs (fun hl => hb (List.mem_cons_of_mem _ hl)) hlt
    rw [hax, Links.walk, if_neg hxb, hrest]
    rfl

/-- A walk along the `prev` pointers reads it off backwards. -/
theorem Seg.walk_back [DecidableEq α] (hs : Seg h a l b) (ha : a ∉ l) {fuel : ℕ}
    (hfuel : l.length < fuel) :
    Links.walk (fun c => (h c).prev) a fuel (h b).prev = some l.reverse :=
  hs.reverse.walk (by simpa using ha) (by simpa using hfuel)

end Libtask.Links
