import Libtask.List.Links

/-!
# Families of rings

Some cells are the heads of rings. A cell is on one ring at most, so that what
is done to one ring leaves the others alone. A walk along a ring that reads the
next cell before it handles the present one visits the cells that were linked
when it started, whatever becomes of those it has passed. Nothing here is about a
particular program.
-/
namespace Libtask.Links

variable {α : Type*}

/-- `c` is the head `a` or a cell of its ring. -/
def On (q : α → Option (List α)) (a c : α) : Prop := ∃ l, q a = some l ∧ c ∈ a :: l

/-- `c` is on no ring. -/
def Free (q : α → Option (List α)) (c : α) : Prop := ∀ a, ¬ On q a c

/-- The heads are the cells where `q` is not `none`; it gives their rings. -/
structure Rings (h : Heap α) (q : α → Option (List α)) : Prop where
  seg : ∀ {a l}, q a = some l → Seg h a l a
  nodup : ∀ {a l}, q a = some l → (a :: l).Nodup
  unique : ∀ {a b c}, On q a c → On q b c → a = b

variable {h h' : Heap α} {q q' : α → Option (List α)} {a b c t x : α} {l m : List α}

lemma Rings.head_notMem (hr : Rings h q) (hq : q a = some l) : a ∉ l :=
  (List.nodup_cons.mp (hr.nodup hq)).1

/-- The rings whose cells keep their pointers stay. -/
lemma Rings.change (hr : Rings h q) (changed : α → Prop)
    (hseg : ∀ a l, changed a → q' a = some l → Seg h' a l a ∧ (a :: l).Nodup)
    (hsame : ∀ a, ¬ changed a → q' a = q a)
    (hframe : ∀ a c, ¬ changed a → On q a c → h' c = h c)
    (hunique : ∀ {a b c}, On q' a c → On q' b c → a = b) : Rings h' q' := by
  constructor
  case seg =>
    intro a l hq
    by_cases ha : changed a
    · exact (hseg a l ha hq).1
    · rw [hsame a ha] at hq
      apply (hr.seg hq).congr
      · intro c hc
        rw [hframe a c ha ⟨l, hq, hc⟩]
      · intro c hc
        have hc' : c ∈ a :: l := by
          rcases List.mem_append.mp hc with hc | hc
          · exact List.mem_cons_of_mem a hc
          · exact List.mem_singleton.mp hc ▸ List.mem_cons_self
        rw [hframe a c ha ⟨l, hq, hc'⟩]
  case nodup =>
    intro a l hq
    by_cases ha : changed a
    · exact (hseg a l ha hq).2
    · exact hr.nodup (hsame a ha ▸ hq)
  case unique => exact hunique

/-- Some of the rings. -/
lemma Rings.mono (hr : Rings h q) (hsub : ∀ a l, q' a = some l → q a = some l) : Rings h q' := by
  constructor
  case seg => exact fun hq => hr.seg (hsub _ _ hq)
  case nodup => exact fun hq => hr.nodup (hsub _ _ hq)
  case unique =>
    rintro a b c ⟨l, hq, hc⟩ ⟨m, hq', hc'⟩
    exact hr.unique ⟨l, hsub a l hq, hc⟩ ⟨m, hsub b m hq', hc'⟩

/-- Writes to free cells. -/
lemma Rings.congr_free (hr : Rings h q) (hframe : ∀ c, ¬ Free q c → h' c = h c) : Rings h' q := by
  apply hr.change fun _ => False
  · exact fun _ _ hfalse => hfalse.elim
  · exact fun _ _ => rfl
  · exact fun a c _ hon => hframe c fun hfree => hfree a hon
  · exact hr.unique

lemma link_ext {u v : Link α} (hnext : u.next = v.next) (hprev : u.prev = v.prev) : u = v := by
  cases u
  cases v
  subst hnext hprev
  rfl

section Edit

variable [DecidableEq α]

lemma on_update {l' : List α} : On (Function.update q a (some l')) b c ↔
    if b = a then c ∈ a :: l' else On q b c := by
  unfold On
  by_cases hb : b = a
  · subst hb
    simp
  · simp [hb]

lemma on_update_self {l' : List α} : On (Function.update q a (some l')) a c ↔ c ∈ a :: l' := by
  rw [on_update, if_pos rfl]

lemma on_update_of_ne {l' : List α} (hb : b ≠ a) :
    On (Function.update q a (some l')) b c ↔ On q b c := by
  rw [on_update, if_neg hb]

/-- A ring whose new cells are old or free stays apart from the others. -/
lemma Rings.unique_update (hr : Rings h q) {l' : List α} (hq : q a = some l)
    (hmem : ∀ c ∈ l', c ∈ l ∨ Free q c) {b b' c : α}
    (hb : On (Function.update q a (some l')) b c) (hb' : On (Function.update q a (some l')) b' c) :
    b = b' := by
  have hold : ∀ d, d ≠ a → On (Function.update q a (some l')) d c → c ∈ a :: l' → False := by
    intro d hd hon hc
    rw [on_update_of_ne hd] at hon
    have hac : On q a c ∨ Free q c := by
      rcases List.mem_cons.mp hc with rfl | hc
      · exact .inl ⟨l, hq, List.mem_cons_self⟩
      · rcases hmem c hc with hc | hfree
        · exact .inl ⟨l, hq, List.mem_cons_of_mem a hc⟩
        · exact .inr hfree
    rcases hac with hac | hfree
    · exact hd (hr.unique hon hac)
    · exact hfree d hon
  by_cases hba : b = a
  · subst hba
    by_contra hne
    exact hold b' (Ne.symm hne) hb' (on_update_self.mp hb)
  · by_cases hba' : b' = a
    · subst hba'
      exact (hold b hba hb (on_update_self.mp hb')).elim
    · exact hr.unique ((on_update_of_ne hba).mp hb) ((on_update_of_ne hba').mp hb')

/-- Only the ring of `a` is rewritten. -/
lemma Rings.update (hr : Rings h q) {l' : List α} (hq : q a = some l) (hseg : Seg h' a l' a)
    (hnodup : (a :: l').Nodup) (hmem : ∀ c ∈ l', c ∈ l ∨ Free q c)
    (hframe : ∀ c, c ∉ a :: l → ¬ Free q c → h' c = h c) :
    Rings h' (Function.update q a (some l')) := by
  apply hr.change (· = a)
  · intro b m hb hqb
    rw [hb, Function.update_self] at hqb
    obtain rfl := Option.some.inj hqb
    rw [hb]
    exact ⟨hseg, hnodup⟩
  · exact fun b hb => Function.update_of_ne hb ..
  · intro b c hb hon
    exact hframe c (fun hc => hb (hr.unique hon ⟨l, hq, hc⟩)) fun hfree => hfree b hon
  · exact hr.unique_update hq hmem

lemma insert_of_ne {p y : α} (hcp : c ≠ p) (hcx : c ≠ x) (hcy : c ≠ y) :
    insert h p x y c = h c := by
  simp [insert, setNext, setPrev, hcp, hcx, hcy]

lemma join_of_ne {p n : α} (hcp : c ≠ p) (hcn : c ≠ n) : join h p n c = h c := by
  simp [join, setNext, setPrev, hcp, hcn]

/-- A free cell is put before any cell of a ring, or before its head. -/
theorem Rings.insert {y : α} (hr : Rings h q) (hq : q a = some (l ++ m))
    (hy : (m ++ [a]).head? = some y) (hx : Free q x) :
    ∃ p ∈ a :: l, (h y).prev = some p ∧
      Rings (Links.insert h p x y) (Function.update q a (some (l ++ x :: m))) := by
  have hnodup := hr.nodup hq
  have hxa : x ∉ a :: (l ++ m) := fun hmem => hx a ⟨_, hq, hmem⟩
  obtain ⟨p, hp, hyp, hseg⟩ := (hr.seg hq).insert hy hnodup (hr.head_notMem hq)
    (fun h => hxa (h ▸ List.mem_cons_self)) (fun h => hxa (List.mem_cons_of_mem a h))
    (fun h => hxa (h ▸ List.mem_cons_self))
  have hymem : y ∈ a :: (l ++ m) := by
    cases m with
    | nil => exact Option.some.inj hy ▸ List.mem_cons_self
    | cons z m => exact Option.some.inj hy ▸ by simp
  have hpmem : p ∈ a :: (l ++ m) := by
    rcases List.mem_cons.mp hp with rfl | hp
    · exact List.mem_cons_self
    · simp [hp]
  refine ⟨p, hp, hyp, hr.update hq hseg ?_ ?_ ?_⟩
  · have hperm : (a :: (l ++ x :: m)).Perm (x :: a :: (l ++ m)) :=
      (List.perm_middle.cons a).trans (.swap x a (l ++ m))
    exact hperm.nodup_iff.mpr (List.nodup_cons.mpr ⟨hxa, hnodup⟩)
  · intro c hc
    rw [List.mem_append, List.mem_cons] at hc
    rcases hc with hc | rfl | hc
    · exact .inl (by simp [hc])
    · exact .inr hx
    · exact .inl (by simp [hc])
  · intro c hc hnot
    exact insert_of_ne (fun h => hc (h ▸ hpmem)) (fun h => hnot (h ▸ hx)) fun h => hc (h ▸ hymem)

/-- A cell of a ring is taken out. -/
theorem Rings.remove (hr : Rings h q) (hq : q a = some (l ++ x :: m)) :
    ∃ p ∈ a :: l, ∃ n ∈ m ++ [a], (h x).prev = some p ∧ (h x).next = some n ∧
      Rings (join h p n) (Function.update q a (some (l ++ m))) := by
  have hnodup := hr.nodup hq
  obtain ⟨p, hp, n, hn, hprev, hnext, hseg⟩ := (hr.seg hq).remove hnodup (hr.head_notMem hq)
  have hsub : ∀ c, c ∈ l ++ m → c ∈ l ++ x :: m := by
    intro c hc
    rcases List.mem_append.mp hc with hc | hc
    · exact List.mem_append_left _ hc
    · exact List.mem_append_right _ (List.mem_cons_of_mem x hc)
  refine ⟨p, hp, n, hn, hprev, hnext, hr.update hq hseg ?_ ?_ ?_⟩
  · have hperm : (a :: (l ++ x :: m)).Perm (x :: a :: (l ++ m)) :=
      (List.perm_middle.cons a).trans (.swap x a (l ++ m))
    exact (List.nodup_cons.mp (hperm.nodup_iff.mp hnodup)).2
  · exact fun c hc => .inl (hsub c hc)
  · intro c hc _
    apply join_of_ne
    · rintro rfl
      rcases List.mem_cons.mp hp with rfl | hp
      · exact hc List.mem_cons_self
      · exact hc (List.mem_cons_of_mem a (List.mem_append_left _ hp))
    · rintro rfl
      rcases List.mem_append.mp hn with hn | hn
      · exact hc (List.mem_cons_of_mem a (List.mem_append_right l (List.mem_cons_of_mem x hn)))
      · exact hc (List.mem_singleton.mp hn ▸ List.mem_cons_self)

/-- The cells of a ring get a free cell `t` as their head, and `a` is left alone. -/
theorem Rings.move (hr : Rings h q) (hq : q a = some l) (ht : Free q t) (hself : Seg h' a [] a)
    (hmoved : Seg h' t l t) (hframe : ∀ c, c ≠ t → c ∉ a :: l → h' c = h c) :
    Rings h' (Function.update (Function.update q a (some [])) t (some l)) := by
  have hta : t ≠ a := fun hta => ht a ⟨l, hq, hta ▸ List.mem_cons_self⟩
  have hal := hr.head_notMem hq
  have hon : ∀ {b c}, On (Function.update (Function.update q a (some [])) t (some l)) b c →
      (b = t ∧ c ∈ t :: l) ∨ (b ≠ t ∧ c ∉ t :: l ∧ On q b c) := by
    intro b c hbc
    by_cases hbt : b = t
    · subst hbt
      exact .inl ⟨rfl, on_update_self.mp hbc⟩
    · rw [on_update_of_ne hbt] at hbc
      refine .inr ⟨hbt, ?_⟩
      by_cases hba : b = a
      · subst hba
        obtain rfl : c = b := by simpa using on_update_self.mp hbc
        exact ⟨by simp [hta.symm, hal], l, hq, List.mem_cons_self⟩
      · rw [on_update_of_ne hba] at hbc
        refine ⟨?_, hbc⟩
        intro hc
        rcases List.mem_cons.mp hc with rfl | hc
        · exact ht b hbc
        · exact hba (hr.unique hbc ⟨l, hq, List.mem_cons_of_mem a hc⟩)
  apply hr.change fun b => b = a ∨ b = t
  · rintro b m (rfl | rfl) hqb
    · rw [Function.update_of_ne hta.symm, Function.update_self] at hqb
      obtain rfl := Option.some.inj hqb
      exact ⟨hself, List.nodup_singleton b⟩
    · rw [Function.update_self] at hqb
      obtain rfl := Option.some.inj hqb
      have htl : b ∉ l := fun hmem => ht a ⟨l, hq, List.mem_cons_of_mem a hmem⟩
      exact ⟨hmoved, List.nodup_cons.mpr ⟨htl, (List.nodup_cons.mp (hr.nodup hq)).2⟩⟩
  · intro b hb
    rw [not_or] at hb
    rw [Function.update_of_ne hb.2, Function.update_of_ne hb.1]
  · intro b c hb hbc
    rw [not_or] at hb
    apply hframe
    · rintro rfl
      exact ht b hbc
    · intro hc
      exact hb.1 (hr.unique hbc ⟨l, hq, hc⟩)
  · intro b b' c hb hb'
    rcases hon hb with ⟨rfl, hc⟩ | ⟨-, hc, hq⟩
    · rcases hon hb' with ⟨rfl, -⟩ | ⟨-, hc', -⟩
      · rfl
      · exact absurd hc hc'
    · rcases hon hb' with ⟨rfl, hc'⟩ | ⟨-, -, hq'⟩
      · exact absurd hc' hc
      · exact hr.unique hq hq'

end Edit

/-- The cells of a segment between two other ends. -/
theorem Seg.rehead {a' b' : α} (hs : Seg h a l b) (hnodup : l.Nodup)
    (hfirst : ∀ x, l.head? = some x → (h' a').next = some x ∧ (h' x).prev = some a')
    (hlast : ∀ p, l.getLast? = some p → (h' p).next = some b' ∧ (h' b').prev = some p)
    (hnext : ∀ c ∈ l, l.getLast? ≠ some c → (h' c).next = (h c).next)
    (hprev : ∀ c ∈ l, l.head? ≠ some c → (h' c).prev = (h c).prev) (hl : l ≠ []) :
    Seg h' a' l b' := by
  obtain ⟨x, m, rfl⟩ := List.exists_cons_of_ne_nil hl
  obtain ⟨-, hm⟩ := hs
  refine ⟨hfirst x rfl, ?_⟩
  rcases hm.split_last with ⟨rfl, -⟩ | ⟨m, p, rfl, hm, -⟩
  · exact hlast x rfl
  · have hxm : x ∉ m ++ [p] := (List.nodup_cons.mp hnodup).1
    have hpm : p ∉ x :: m := by
      rw [← List.cons_append, List.nodup_append] at hnodup
      exact fun hmem => hnodup.2.2 p hmem p List.mem_cons_self rfl
    have hend : (x :: (m ++ [p])).getLast? = some p := by
      rw [← List.cons_append, List.getLast?_concat]
    rw [seg_append]
    refine ⟨hm.congr ?_ ?_, hlast p hend⟩
    · intro c hc
      have hmem : c ∈ x :: (m ++ [p]) := List.mem_append_left [p] hc
      apply hnext c hmem
      rw [hend]
      intro h
      exact hpm (Option.some.inj h ▸ hc)
    · intro c hc
      apply hprev c (List.mem_cons_of_mem x hc)
      intro h
      exact hxm (Option.some.inj h ▸ hc)

/-- The walk from a pointer to the cell `stop`. The next pointer of a cell is read
before the body handles it. -/
def walkBody [DecidableEq α] {σ : Type*} (links : σ → Heap α) (body : α → σ → Option σ)
    (stop : α) : ℕ → Option α → σ → Option (List α × σ)
  | 0, _, _ => none
  | _ + 1, none, _ => none
  | fuel + 1, some c, s =>
    if c = stop then some ([], s)
    else
      let next := (links s c).next
      (body c s).bind fun s => (walkBody links body stop fuel next s).map fun r => (c :: r.1, r.2)

/-- The cells of `l` are linked forwards, up to `stop`. -/
def Ahead (h : Heap α) (stop : α) : List α → Prop
  | [] => True
  | x :: l => x ≠ stop ∧ (h x).next = (l ++ [stop]).head? ∧ Ahead h stop l

lemma Seg.ahead (hs : Seg h a l b) (hb : b ∉ l) :
    (h a).next = (l ++ [b]).head? ∧ Ahead h b l := by
  induction l generalizing a with
  | nil => exact ⟨hs.1, trivial⟩
  | cons x l ih =>
    obtain ⟨⟨hax, -⟩, hs⟩ := hs
    obtain ⟨hnext, hahead⟩ := ih hs fun h => hb (List.mem_cons_of_mem x h)
    exact ⟨hax, fun h => hb (h ▸ List.mem_cons_self), hnext, hahead⟩

lemma Ahead.congr {stop : α} (hl : Ahead h stop l) (hsame : ∀ c ∈ l, (h' c).next = (h c).next) :
    Ahead h' stop l := by
  induction l with
  | nil => trivial
  | cons x l ih =>
    obtain ⟨hne, hnext, hl⟩ := hl
    exact ⟨hne, (hsame x List.mem_cons_self).trans hnext,
      ih hl fun c hc => hsame c (List.mem_cons_of_mem x hc)⟩

/-- An invariant of the cells still ahead carries the walk: it visits them once
each, in order, and ends. -/
theorem walkBody_eq [DecidableEq α] {σ : Type*} {links : σ → Heap α} {body : α → σ → Option σ}
    {stop : α} (inv : List α → σ → Prop)
    (hahead : ∀ rest s, inv rest s → Ahead (links s) stop rest)
    (hbody : ∀ x rest s, inv (x :: rest) s → ∃ s', body x s = some s' ∧ inv rest s')
    {rest : List α} {s : σ} (hinv : inv rest s) {fuel : ℕ} (hfuel : rest.length < fuel) :
    ∃ s', walkBody links body stop fuel (rest ++ [stop]).head? s = some (rest, s') ∧
      inv [] s' := by
  induction rest generalizing s fuel with
  | nil =>
    obtain ⟨fuel, rfl⟩ : ∃ n, fuel = n + 1 := ⟨fuel - 1, by omega⟩
    refine ⟨s, ?_, hinv⟩
    rw [List.nil_append, List.head?_cons, walkBody, if_pos rfl]
  | cons x rest ih =>
    obtain ⟨fuel, rfl⟩ : ∃ n, fuel = n + 1 := ⟨fuel - 1, by omega⟩
    obtain ⟨hne, hnext, -⟩ := hahead _ _ hinv
    obtain ⟨s1, hs1, hinv1⟩ := hbody x rest s hinv
    have hlt : rest.length < fuel := by simpa using hfuel
    obtain ⟨s', hwalk, hend⟩ := ih hinv1 hlt
    refine ⟨s', ?_, hend⟩
    rw [List.cons_append, List.head?_cons, walkBody, if_neg hne]
    simp only [hnext, hs1, Option.bind_some, hwalk, Option.map_some]

end Libtask.Links
