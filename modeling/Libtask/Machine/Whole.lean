import Libtask.Machine.Footprint
import Libtask.Settling
import Libtask.Task.Memory

/-!
# Calls that no signal splits

Runs in which a signal comes only when the running task is in its own code, spins in a
hook or is about to test a semaphore again. Between two such states the statements of a
call follow each other. For each function, what is safe after the function that does it
all at once is safe after its statements.
-/
namespace Libtask.Machine
open Transition Timer Settling

/-- The statements between which a call of the library may take its time. -/
def Stmt.Rests : Stmt → Prop
  | .user | .hookSpin => True
  | .semaTest psema => Sched.Callers psema
  | _ => False

def Rests (s : State) : Prop :=
  ∃ stmt code tail, s.stack = (stmt :: code) :: tail ∧ stmt.Rests

/-- No signal comes in the middle of a call, and `malloc` finds memory for a timer. Users
unblock no task that waits for a semaphore, and take no locks. -/
def Whole (s : State) : Op → Prop
  | .tick _ => Rests s
  | .call (.taskUnblock ptask) => ptask ∈ s.memory.sched.taskAllList ∧
      ∀ i, ptask ∉ (s.memory.sched.sema i).waiters
  | .call (.lockAcquire _) | .call (.lockRelease _) => False
  | .run malloc => ∀ fn pParam due period code tail,
      s.stack = (.createTimer fn pParam due period :: code) :: tail → malloc ≠ none
  | _ => True

def wholeSystem : System State Op where
  init s := ∃ value mem stack b, stack ≠ mem ∧ (∀ p ∈ [mem, stack], p ∉ (timerInit b).heap) ∧
    (Sched.boot value).taskInit mem stack = .ok s.memory.sched ∧
    s.memory.timers = timerInit b ∧ s.memory.unlinked = ∅ ∧
    s.masked = false ∧ s.stack = [[.user]] ∧ s.record = ⟨fun _ => ∅⟩
  step s op t := Whole s op ∧ Step s op t

variable {good : State → Prop} {b : Bool} {stmt : Stmt} {code p : List Stmt}
  {tail stack : List (List Stmt)} {timers : TimerState} {s s' : Sched Ctx}

/-- Safe, whatever is recorded. -/
structure Goes (good : State → Prop) (b : Bool) (stack : List (List Stmt)) (timers : TimerState)
    (s : Sched Ctx) : Prop where
  safe : ∀ unlinked record, Safe wholeSystem Rests good ⟨b, stack, ⟨timers, s, unlinked⟩, record⟩

lemma Goes.congr (h : Goes good b stack timers s) (heq : s' = s) :
    Goes good b stack timers s' := heq ▸ h

lemma not_rests (hstmt : ¬ stmt.Rests) {m : Memory} {r : Record} :
    ¬ Rests ⟨b, (stmt :: code) :: tail, m, r⟩ := by
  rintro ⟨stmt', code', tail', hstack, hrests⟩
  obtain ⟨hframe, -⟩ := List.cons.inj hstack
  obtain ⟨rfl, -⟩ := List.cons.inj hframe
  exact hstmt hrests

/-- The outcomes of a statement at which no signal comes. -/
theorem goes_run (hstmt : ¬ stmt.Rests)
    (h : ∀ malloc unlinked record t, (∀ p ∈ malloc, p ∉ s.alloc ∧ p ∉ timers.heap) →
      Whole ⟨b, (stmt :: code) :: tail, ⟨timers, s, unlinked⟩, record⟩ (.run malloc) →
      Ran ⟨b, (stmt :: code) :: tail, ⟨timers, s, unlinked⟩, record⟩ malloc code tail stmt t →
      Safe wholeSystem Rests good t) : Goes good b ((stmt :: code) :: tail) timers s := by
  constructor
  intro unlinked record
  refine Safe.of_next (not_rests hstmt) ?_
  rintro op t ⟨hwhole, hst⟩
  cases hst with
  | tick => exact absurd hwhole (not_rests hstmt)
  | sigreturn hstack => cases (List.cons.inj hstack).1
  | call _ hstack =>
    obtain ⟨rfl, -⟩ := List.cons.inj (List.cons.inj hstack).1
    exact absurd trivial hstmt
  | ret _ hstack =>
    obtain ⟨rfl, -⟩ := List.cons.inj (List.cons.inj hstack).1
    exact absurd trivial hstmt
  | @run malloc stmt' code' tail' t hfresh hstack hexec =>
    obtain ⟨hframe, rfl⟩ := List.cons.inj hstack
    obtain ⟨rfl, rfl⟩ := List.cons.inj hframe
    exact h malloc unlinked record t (fun p hp => ⟨(hfresh p hp).1, (hfresh p hp).2.1⟩) hwhole
      (ran_of_exec hexec)

/-- An endless loop rests nowhere. -/
lemma safe_spin {m : Memory} {r : Record} {why : Stop} :
    Safe wholeSystem Rests good ⟨b, (.spin why :: code) :: tail, m, r⟩ := by
  refine safe_of_restless (P := fun s => ∃ code tail, s.stack = (.spin why :: code) :: tail)
    ?_ ?_ ?_
  · rintro s ⟨code, tail, hstack⟩ ⟨stmt, code', tail', hstack', hrests⟩
    rw [hstack] at hstack'
    obtain ⟨rfl, -⟩ := List.cons.inj (List.cons.inj hstack').1
    exact hrests
  · rintro s op t ⟨code, tail, hspin⟩ ⟨hwhole, hst⟩
    cases hst with
    | tick =>
      obtain ⟨stmt, code', tail', hstack, hrests⟩ := hwhole
      rw [hspin] at hstack
      obtain ⟨rfl, -⟩ := List.cons.inj (List.cons.inj hstack).1
      exact hrests.elim
    | sigreturn hstack =>
      rw [hspin] at hstack
      cases (List.cons.inj hstack).1
    | call _ hstack =>
      rw [hspin] at hstack
      cases (List.cons.inj (List.cons.inj hstack).1).1
    | ret _ hstack =>
      rw [hspin] at hstack
      cases (List.cons.inj (List.cons.inj hstack).1).1
    | run _ hstack hexec =>
      rw [hspin] at hstack
      obtain ⟨hframe, rfl⟩ := List.cons.inj hstack
      obtain ⟨rfl, rfl⟩ := List.cons.inj hframe
      cases ran_of_exec hexec with
      | plain _ heff => exact ⟨code, tail, rfl⟩
      | stuck _ herr => cases herr
  · exact ⟨code, tail, rfl⟩

/-- A statement that only acts on the data. -/
theorem goes_plain (hstmt : ¬ stmt.Rests) (hplain : stmt.Plain)
    (h : ∀ malloc unlinked memory, (∀ p ∈ malloc, p ∉ s.alloc ∧ p ∉ timers.heap) →
      (∀ fn pParam due period, stmt = .createTimer fn pParam due period → malloc ≠ none) →
      stmt.effect malloc ⟨timers, s, unlinked⟩ = .ok memory →
      Goes good (stmt.mask b) ((stmt.next malloc b s ++ code) :: tail) memory.timers memory.sched) :
    Goes good b ((stmt :: code) :: tail) timers s := by
  apply goes_run hstmt
  intro malloc unlinked record t hfresh hwhole hran
  cases hran with
  | plain _ heff =>
    refine (h malloc unlinked _ hfresh ?_ heff).safe _ _
    rintro fn pParam due period rfl
    exact hwhole fn pParam due period code tail rfl
  | stuck => exact safe_spin
  | saveFrame | loadFrame | contextSwap | contextSet => exact hplain.elim

/-- The statements that act on the tasks, semaphores and locks and never rest. -/
def Stmt.Acts : Stmt → Prop
  | .user | .hookSpin | .semaTest _ => False
  | .saveFrame _ | .loadFrame | .contextSwap _ _ | .contextSet => False
  | .timerLoop _ | .createTimer .. | .timerAdd .. => False
  | _ => True

lemma Stmt.Acts.rests (h : stmt.Acts) : ¬ stmt.Rests := by
  cases stmt <;> first | exact id | exact h.elim

lemma Stmt.Acts.plain (h : stmt.Acts) : stmt.Plain := by
  cases stmt <;> trivial

lemma Stmt.Acts.effect (h : stmt.Acts) (malloc : Option ℕ) (m : Memory) :
    stmt.effect malloc m =
      stmt.act malloc m.sched >>= fun sched => .ok { m with sched := sched } := by
  cases stmt <;> first | rfl | exact h.elim

/-- What is said of the effect on the tasks. -/
theorem goes_act (hacts : stmt.Acts)
    (h : ∀ malloc s', (∀ p ∈ malloc, p ∉ s.alloc ∧ p ∉ timers.heap) →
      stmt.act malloc s = .ok s' →
      Goes good (stmt.mask b) ((stmt.next malloc b s ++ code) :: tail) timers s') :
    Goes good b ((stmt :: code) :: tail) timers s := by
  apply goes_plain hacts.rests hacts.plain
  intro malloc unlinked memory hfresh _ hrun
  rw [hacts.effect, bind_eq_ok] at hrun
  obtain ⟨s', hact, hmemory⟩ := hrun
  obtain rfl := Except.ok.inj hmemory
  exact h malloc s' hfresh hact

/-- A statement that cannot fail. -/
theorem goes_set (hacts : stmt.Acts) (hact : ∀ malloc, stmt.act malloc s = .ok s')
    (hnext : ∀ malloc, stmt.next malloc b s = p)
    (h : Goes good (stmt.mask b) ((p ++ code) :: tail) timers s') :
    Goes good b ((stmt :: code) :: tail) timers s := by
  apply goes_act hacts
  intro malloc t _ hrun
  obtain rfl := Except.ok.inj ((hact malloc).symm.trans hrun)
  rw [hnext]
  exact h

/-- An assertion, and what is done if it holds. -/
theorem goes_assert {c : Prop} [Decidable c] (hacts : stmt.Acts)
    (hact : ∀ malloc, stmt.act malloc s = assert c >>= fun _ => .ok s')
    (hnext : ∀ malloc, stmt.next malloc b s = p)
    (h : c → Goes good (stmt.mask b) ((p ++ code) :: tail) timers s') :
    Goes good b ((stmt :: code) :: tail) timers s := by
  apply goes_act hacts
  intro malloc t _ hrun
  rw [hact] at hrun
  by_cases hc : c
  · rw [assert_of_true hc] at hrun
    obtain rfl := Except.ok.inj hrun
    rw [hnext]
    exact h hc
  · rw [assert_of_false hc] at hrun
    cases hrun

/-- The test of a semaphore of the library. -/
theorem goes_semaTest {psema : SemaId} (hown : ¬ Sched.Callers psema)
    (h : Goes good b (((if (s.sema psema).value = 0 then [.semaQueue psema] else [.semaTake psema])
      ++ code) :: tail) timers s) : Goes good b ((.semaTest psema :: code) :: tail) timers s := by
  have hrests : ¬ (Stmt.semaTest psema).Rests := hown
  apply goes_plain hrests trivial
  intro malloc unlinked memory _ _ hrun
  obtain rfl := Except.ok.inj hrun
  exact h

lemma goes_saveFrame {next : TaskAddr}
    (h : Goes good b ((.setCurrent next :: .loadFrame :: code) :: tail) timers
      (s.setTask s.currentTask fun p => { p with context := ⟨tail, false, true⟩ })) :
    Goes good b ((.saveFrame next :: code) :: tail) timers s := by
  apply goes_run id
  intro malloc unlinked record t _ _ hran
  cases hran with
  | plain hplain => exact hplain.elim
  | stuck hplain => exact hplain.elim
  | saveFrame => exact h.safe unlinked record

lemma goes_loadFrame (h : Goes good b (code :: s.current.context.stack) timers s) :
    Goes good b ((.loadFrame :: code) :: tail) timers s := by
  apply goes_run id
  intro malloc unlinked record t _ _ hran
  cases hran with
  | plain hplain => exact hplain.elim
  | stuck hplain => exact hplain.elim
  | loadFrame => exact h.safe unlinked record

lemma goes_contextSwap {temp next : TaskAddr}
    (h : Goes good b
      ((s.setTask temp fun p => { p with
        context := ⟨code :: tail, b, p.context.filled⟩ }).task next).context.stack
      timers (s.setTask temp fun p => { p with
        context := ⟨code :: tail, b, p.context.filled⟩ })) :
    Goes good b ((.contextSwap temp next :: code) :: tail) timers s := by
  apply goes_run id
  intro malloc unlinked record t _ _ hran
  cases hran with
  | plain hplain => exact hplain.elim
  | stuck hplain => exact hplain.elim
  | contextSwap => exact h.safe unlinked record

lemma goes_contextSet (h : Goes good b s.current.context.stack timers s) :
    Goes good b ((.contextSet :: code) :: tail) timers s := by
  apply goes_run id
  intro malloc unlinked record t _ _ hran
  cases hran with
  | plain hplain => exact hplain.elim
  | stuck hplain => exact hplain.elim
  | contextSet => exact h.safe unlinked record

/-- The return from a handler unblocks the signal. -/
lemma goes_sigreturn (h : Goes good false stack timers s) : Goes good b ([] :: stack) timers s := by
  constructor
  intro unlinked record
  have hrest : ¬ Rests ⟨b, [] :: stack, ⟨timers, s, unlinked⟩, record⟩ := by
    rintro ⟨stmt, code, tail, hstack, -⟩
    cases (List.cons.inj hstack).1
  refine Safe.of_next hrest ?_
  rintro op t ⟨hwhole, hst⟩
  cases hst with
  | tick => exact absurd hwhole hrest
  | sigreturn hstack =>
    obtain ⟨-, rfl⟩ := List.cons.inj hstack
    exact h.safe unlinked record
  | call _ hstack => cases (List.cons.inj hstack).1
  | ret _ hstack => cases (List.cons.inj hstack).1
  | run _ hstack => cases (List.cons.inj hstack).1

end Libtask.Machine
