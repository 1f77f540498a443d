import WsFanout.Lib.Run
import WsFanout.OutcrySource

/-!
# The lifetime of a server and its source threads

`Server` is a handle that holds a strong reference to `alive`; the last one to be dropped aborts
the accept loop.  Every source thread owns a clone of its own, and its loop goes on while
`alive.strong_count() > 1`.

`Lifetime` counts the clones outside the source threads, keeps the source threads and the strong
count, and `Step` is one clone, one start of a source, one drop, or one turn of one source thread.
The strong count is every handle there is, the other threads' clones included: two source threads
keep each other alive.  `stops_iff` says exactly when they do not.
-/

namespace WsFanout

open Lib

/-- Where a source thread stands. -/
inductive Stage where
  /-- The loop test is next. -/
  | testing
  /-- A pass of the loop is next. -/
  | reading
  /-- The loop is over; the thread's clone is dropped next. -/
  | stopping
  | ended
  deriving DecidableEq, Repr

/-- How far a thread is from its end, if it finds the loop test false. -/
def Stage.work : Stage → Nat
  | testing => 2
  | reading => 3
  | stopping => 1
  | ended => 0

structure SourceThread where
  idle : Idle
  stage : Stage := .testing
  source : Source := .new

namespace SourceThread

/-- The thread owns its clone. -/
def holds (t : SourceThread) : Bool :=
  t.stage ≠ .ended

/-- The thread is in its loop. -/
def Running (t : SourceThread) : Prop :=
  t.stage = .testing ∨ t.stage = .reading

theorem Running.holds {t : SourceThread} (running : t.Running) : t.holds = true := by
  rcases running with stage | stage <;> simp [SourceThread.holds, stage]

end SourceThread

/-- The handles of one server. -/
structure Lifetime where
  /-- Clones of the `Server` held outside the source threads. -/
  outside : Nat
  threads : List SourceThread
  /-- The strong count of `alive`. -/
  strong : Nat
  /-- The accept loop was aborted. -/
  aborted : Bool

/-- What happens next to the handles. -/
inductive Deed where
  | clone
  | consumeOutcry (idle : Idle)
  | drop
  | test (i : Nat)
  | read (i : Nat) (outcome : TryRead) (decode : List UInt8 → Option Decoded)
  | panic (i : Nat)
  | leave (i : Nat)

namespace Lifetime

/-- The handle that `bind` returns. -/
def start : Lifetime where
  outside := 1
  threads := []
  strong := 1
  aborted := false

/-- Replace thread `i`. -/
def put (l : Lifetime) (i : Nat) (t : SourceThread) : Lifetime :=
  { l with threads := l.threads.set i t }

/-- One strong reference is dropped, and the accept loop aborted with the last one. -/
def release (l : Lifetime) : Lifetime :=
  { l with strong := l.strong - 1, aborted := if l.strong = 1 then true else l.aborted }

/-- One step of the handles' lifetime. -/
inductive Step : Lifetime → Deed → Lifetime → Prop
  | clone {l : Lifetime} (held : 0 < l.outside) :
      Step l .clone { l with outside := l.outside + 1, strong := l.strong + 1 }
  | consumeOutcry {l : Lifetime} (idle : Idle) (held : 0 < l.outside) :
      Step l (.consumeOutcry idle)
        { l with threads := l.threads ++ [{ idle := idle }], strong := l.strong + 1 }
  | drop {l : Lifetime} (held : 0 < l.outside) :
      Step l .drop (release { l with outside := l.outside - 1 })
  | test {l : Lifetime} {i : Nat} {t : SourceThread} (found : l.threads[i]? = some t)
      (stage : t.stage = .testing) :
      Step l (.test i)
        (l.put i { t with stage := if 1 < l.strong then .reading else .stopping })
  | read {l : Lifetime} {i : Nat} {t : SourceThread} (outcome : TryRead)
      (decode : List UInt8 → Option Decoded) (found : l.threads[i]? = some t)
      (stage : t.stage = .reading) :
      Step l (.read i outcome decode)
        (l.put i
          { t with
            stage := if (t.source.pass t.idle decode outcome).2.goesOn then .testing else .stopping
            source := (t.source.pass t.idle decode outcome).1 })
  | panic {l : Lifetime} {i : Nat} {t : SourceThread} (found : l.threads[i]? = some t)
      (stage : t.stage = .reading) :
      Step l (.panic i) (l.put i { t with stage := .stopping })
  | leave {l : Lifetime} {i : Nat} {t : SourceThread} (found : l.threads[i]? = some t)
      (stage : t.stage = .stopping) :
      Step l (.leave i) (release (l.put i { t with stage := .ended }))

/-- The source threads that own their clone. -/
def holders (l : Lifetime) : Nat :=
  l.threads.countP SourceThread.holds

/-- At most one source thread owns its clone, or none is in its loop any more. -/
def Calm (l : Lifetime) : Prop :=
  l.holders ≤ 1 ∨ ∀ t ∈ l.threads, ¬ t.Running

/-- The source threads stop: each running one finds the loop test false when it evaluates it next,
whatever happens until then, and in every continuation all of them end and the accept loop is
aborted. -/
structure Stops (l : Lifetime) : Prop where
  testFails : ∀ (i : Nat) (t t' : SourceThread) (as : List Deed) (m : Lifetime),
    l.threads[i]? = some t → t.Running → Run Step l as m → .test i ∉ as →
    m.threads[i]? = some t' → t'.stage = .testing → ¬ 1 < m.strong
  bounded : ∃ n, ∀ (as : List Deed) (m : Lifetime), Run Step l as m → as.length ≤ n
  settled : ∀ (as : List Deed) (m : Lifetime), Run Step l as m → (∀ a m', ¬ Step m a m') →
    (∀ t ∈ m.threads, t.stage = .ended) ∧ m.aborted = true

/-! ## The strong count -/

/-- The strong count is every handle, and the accept loop is aborted when it is zero. -/
structure Accounted (l : Lifetime) : Prop where
  strong : l.strong = l.outside + l.holders
  aborted : l.aborted = true ↔ l.strong = 0

theorem accounted_start : Accounted start where
  strong := rfl
  aborted := by decide

/-- A thread and the list it is in, before and after it is replaced. -/
theorem exists_split {ts : List SourceThread} {i : Nat} {t : SourceThread}
    (found : ts[i]? = some t) (t' : SourceThread) :
    ∃ before after, ts = before ++ t :: after ∧ ts.set i t' = before ++ t' :: after := by
  obtain ⟨inside, rfl⟩ := List.getElem?_eq_some_iff.mp found
  refine ⟨ts.take i, ts.drop (i + 1), ?_, ?_⟩
  · rw [← List.drop_eq_getElem_cons inside, List.take_append_drop]
  · rw [List.set_eq_take_append_cons_drop, if_pos inside]

/-- A thread that goes on owning its clone changes no count. -/
theorem holders_put {l : Lifetime} {i : Nat} {t t' : SourceThread}
    (found : l.threads[i]? = some t) (before : t.holds = true) (after : t'.holds = true) :
    (l.put i t').holders = l.holders := by
  obtain ⟨left, right, split, set⟩ := exists_split found t'
  simp only [holders, put, set]
  rw [split]
  simp [List.countP_append, before, after]

/-- A thread that ends was one of the holders. -/
theorem holders_put_ended {l : Lifetime} {i : Nat} {t t' : SourceThread}
    (found : l.threads[i]? = some t) (before : t.holds = true) (after : t'.holds = false) :
    l.holders = (l.put i t').holders + 1 := by
  obtain ⟨left, right, split, set⟩ := exists_split found t'
  simp only [holders, put, set]
  rw [split]
  simp only [List.countP_append, List.countP_cons, before, after]
  simp
  omega

/-- What a step does: a clone outside the threads is copied, lent to a new thread or dropped; or a
thread goes on owning its clone and comes nearer to its end, unless the loop test was true; or a
thread drops its clone. -/
theorem Step.inversion {l m : Lifetime} {a : Deed} (step : Step l a m) :
    (0 < l.outside ∧
      (m = { l with outside := l.outside + 1, strong := l.strong + 1 } ∨
        (∃ idle, m =
          { l with threads := l.threads ++ [{ idle := idle }], strong := l.strong + 1 }) ∨
        m = release { l with outside := l.outside - 1 })) ∨
      (∃ i t t', l.threads[i]? = some t ∧ t.Running ∧ t'.holds = true ∧
        (t'.stage.work < t.stage.work ∨ 1 < l.strong) ∧ m = l.put i t') ∨
      (∃ i t t', l.threads[i]? = some t ∧ t.stage = .stopping ∧ t'.stage = .ended ∧
        m = release (l.put i t')) := by
  cases step with
  | clone held => exact .inl ⟨held, .inl rfl⟩
  | consumeOutcry idle held => exact .inl ⟨held, .inr (.inl ⟨idle, rfl⟩)⟩
  | drop held => exact .inl ⟨held, .inr (.inr rfl)⟩
  | @test i t found stage =>
      refine .inr (.inl ⟨i, t, _, found, .inl stage, ?_, ?_, rfl⟩)
      · simp only [SourceThread.holds]
        split <;> simp
      · rcases Nat.lt_or_ge 1 l.strong with more | atMost
        · exact .inr more
        · have fails : ¬ 1 < l.strong := by omega
          simp [stage, fails, Stage.work]
  | @read i t outcome decode found stage =>
      refine .inr (.inl ⟨i, t, _, found, .inr stage, ?_, .inl ?_, rfl⟩)
      · simp only [SourceThread.holds]
        split <;> simp
      · dsimp only
        rw [stage]
        split <;> simp [Stage.work]
  | @panic i t found stage =>
      exact .inr (.inl ⟨i, t, _, found, .inr stage, rfl, .inl (by simp [stage, Stage.work]), rfl⟩)
  | @leave i t found stage => exact .inr (.inr ⟨i, t, _, found, stage, rfl, rfl⟩)

/-- Only a drop takes the last clone outside the threads. -/
theorem Step.last_drop {l m : Lifetime} {a : Deed} (step : Step l a m) (held : 0 < l.outside)
    (alone : m.outside = 0) : a = .drop ∧ l.outside = 1 := by
  cases step with
  | clone _ =>
      change l.outside + 1 = 0 at alone
      omega
  | drop _ =>
      change l.outside - 1 = 0 at alone
      exact ⟨rfl, by omega⟩
  | consumeOutcry _ _ | test _ _ | read _ _ _ _ | panic _ _ | leave _ _ =>
      change l.outside = 0 at alone
      omega

/-- Dropping one of the counted references keeps the account. -/
theorem accounted_release {l : Lifetime} (count : l.strong = l.outside + l.holders + 1)
    (last : l.aborted = true ↔ l.strong = 0) : Accounted l.release where
  strong := by
    change l.strong - 1 = l.outside + l.holders
    omega
  aborted := by
    change (if l.strong = 1 then true else l.aborted) = true ↔ l.strong - 1 = 0
    split
    · simp
      omega
    · rw [last]
      omega

/-- Every handle is counted, whatever happens. -/
theorem accounted_step {l m : Lifetime} {a : Deed} (acc : Accounted l) (step : Step l a m) :
    Accounted m := by
  obtain ⟨count, last⟩ := acc
  rcases step.inversion with ⟨held, rfl | ⟨idle, rfl⟩ | rfl⟩ |
    ⟨i, t, t', found, running, owns, -, rfl⟩ | ⟨i, t, t', found, stage, stage', rfl⟩
  · refine ⟨?_, by simp [last, count]; omega⟩
    change l.strong + 1 = l.outside + 1 + l.holders
    omega
  · refine ⟨?_, by simp [last, count]; omega⟩
    have grown : (l.threads ++ [({ idle := idle } : SourceThread)]).countP SourceThread.holds =
        l.holders + 1 := by
      simp [holders, SourceThread.holds]
    change l.strong + 1 = l.outside + (l.threads ++ [_]).countP SourceThread.holds
    omega
  · refine accounted_release ?_ last
    change l.strong = l.outside - 1 + l.holders + 1
    omega
  · refine ⟨?_, last⟩
    have same := holders_put found running.holds owns
    change l.strong = l.outside + _
    omega
  · refine accounted_release ?_ last
    have fewer := holders_put_ended found (by simp [SourceThread.holds, stage])
      (by simp [SourceThread.holds, stage'] : t'.holds = false)
    change l.strong = l.outside + _ + 1
    omega

theorem accounted_run {l : Lifetime} {as : List Deed} (run : Run Step start as l) : Accounted l :=
  run.invariant accounted_step accounted_start

/-! ## Without a clone outside the threads -/

/-- The state once the last clone outside the threads is gone, while the threads cannot keep each
other alive. -/
structure Closing (l : Lifetime) : Prop where
  alone : l.outside = 0
  accounted : Accounted l
  calm : Calm l

/-- A running thread finds at most its own clone. -/
theorem Closing.strong_le {l : Lifetime} (closing : Closing l) {i : Nat} {t : SourceThread}
    (found : l.threads[i]? = some t) (running : t.Running) : l.strong ≤ 1 := by
  have count := closing.accounted.strong
  have alone := closing.alone
  rcases closing.calm with few | none
  · omega
  · exact absurd running (none t (List.mem_of_getElem? found))

theorem closing_step {l m : Lifetime} {a : Deed} (closing : Closing l) (step : Step l a m) :
    Closing m := by
  have accounted := accounted_step closing.accounted step
  have alone := closing.alone
  have count := closing.accounted.strong
  rcases step.inversion with ⟨held, -⟩ | ⟨i, t, t', found, running, owns, -, rfl⟩ |
    ⟨i, t, t', found, stage, stage', rfl⟩
  · omega
  · have few := closing.strong_le found running
    have same := holders_put found running.holds owns
    refine ⟨alone, accounted, .inl ?_⟩
    omega
  · refine ⟨alone, accounted, ?_⟩
    have fewer := holders_put_ended found (by simp [SourceThread.holds, stage])
      (by simp [SourceThread.holds, stage'] : t'.holds = false)
    rcases closing.calm with few | none
    · refine .inl ?_
      change (l.put i t').holders ≤ 1
      omega
    · refine .inr fun u among => ?_
      rcases List.mem_or_eq_of_mem_set among with old | rfl
      · exact none u old
      · simp [SourceThread.Running, stage']

/-- What the threads still have to do. -/
def work (l : Lifetime) : Nat :=
  (l.threads.map fun t => t.stage.work).sum

theorem work_put {l : Lifetime} {i : Nat} {t t' : SourceThread}
    (found : l.threads[i]? = some t) (less : t'.stage.work < t.stage.work) :
    (l.put i t').work < l.work := by
  obtain ⟨left, right, split, set⟩ := exists_split found t'
  simp only [work, put, set]
  rw [split]
  simp [List.sum_append]
  omega

/-- Every step brings some thread nearer to its end. -/
theorem work_step {l m : Lifetime} {a : Deed} (closing : Closing l) (step : Step l a m) :
    m.work < l.work := by
  have alone := closing.alone
  rcases step.inversion with ⟨held, -⟩ | ⟨i, t, t', found, running, -, less, rfl⟩ |
    ⟨i, t, t', found, stage, stage', rfl⟩
  · omega
  · have few := closing.strong_le found running
    exact work_put found (by omega)
  · have less : t'.stage.work < t.stage.work := by simp [stage, stage', Stage.work]
    exact work_put found less

/-- A thread that has not ended can take its turn. -/
theorem ended_of_stuck {l : Lifetime} (stuck : ∀ a m, ¬ Step l a m) :
    ∀ t ∈ l.threads, t.stage = .ended := by
  intro t among
  obtain ⟨i, found⟩ := List.mem_iff_getElem?.mp among
  cases stage : t.stage with
  | testing => exact absurd (.test found stage) (stuck _ _)
  | reading => exact absurd (.panic found stage) (stuck _ _)
  | stopping => exact absurd (.leave found stage) (stuck _ _)
  | ended => rfl

/-- Threads that cannot keep each other alive stop. -/
theorem Closing.stops {l : Lifetime} (closing : Closing l) : Stops l where
  testFails := by
    intro i _ t as m _ _ run _ found stage
    have final := run.invariant (I := Closing) closing_step closing
    have few := final.strong_le found (.inl stage)
    omega
  bounded :=
    ⟨l.work, fun _ _ run => run.length_le (I := Closing) work closing_step work_step closing⟩
  settled := by
    intro as m run stuck
    have ended := ended_of_stuck stuck
    have final := run.invariant (I := Closing) closing_step closing
    have gone : m.holders = 0 := by
      refine List.countP_eq_zero.mpr fun t among => ?_
      simp [SourceThread.holds, ended t among]
    have count := final.accounted.strong
    have alone := final.alone
    exact ⟨ended, final.accounted.aborted.mpr (by omega)⟩

/-- Two threads that own their clones keep the loop test of a running one true. -/
theorem Stops.calm {l : Lifetime} (stops : Stops l) (accounted : Accounted l) : Calm l := by
  by_contra restless
  obtain ⟨many, some_running⟩ := not_or.mp restless
  push Not at some_running
  obtain ⟨t, among, running⟩ := some_running
  obtain ⟨i, found⟩ := List.mem_iff_getElem?.mp among
  have count := accounted.strong
  rcases running with stage | stage
  · have few := stops.testFails i t t [] l found (.inl stage) (.nil l) (by simp) found stage
    omega
  · -- An empty queue brings the thread back to its test with every clone still there.
    have step := Step.read .empty (fun _ => none) found stage
    have goesOn : (t.source.pass t.idle (fun _ => none) .empty).2.goesOn = true := by
      by_contra stops
      rw [Bool.not_eq_true, Source.goesOn_pass] at stops
      simp at stops
    have there := List.getElem?_set_self (l := l.threads) (i := i)
      (a := { t with
        stage := if (t.source.pass t.idle (fun _ => none) .empty).2.goesOn then .testing
          else .stopping
        source := (t.source.pass t.idle (fun _ => none) .empty).1 })
      (List.getElem?_eq_some_iff.mp found).1
    have few := stops.testFails i t _ _ _ found (.inr stage) (.single step) (by simp) there
      (by simp [goesOn])
    change ¬ 1 < l.strong at few
    omega

/-- Without a clone outside, the source threads stop exactly when they cannot keep each other
alive. -/
theorem stops_iff_calm {l : Lifetime} (accounted : Accounted l) (alone : l.outside = 0) :
    Stops l ↔ Calm l :=
  ⟨fun stops => stops.calm accounted, fun calm => Closing.stops ⟨alone, accounted, calm⟩⟩

/-! ## Runs -/

/-- The drop of the last clone outside the threads is a step of every run that ends without one. -/
theorem exists_last_drop {l m : Lifetime} {as : List Deed} (run : Run Step l as m)
    (held : 0 < l.outside) (alone : m.outside = 0) :
    ∃ bs cs u v, as = bs ++ .drop :: cs ∧ Run Step l bs u ∧ u.outside = 1 ∧ Step u .drop v ∧
      Run Step v cs m := by
  induction run with
  | nil => omega
  | @cons l v m a as step rest ih =>
      rcases Nat.eq_zero_or_pos v.outside with zero | more
      · obtain ⟨rfl, one⟩ := step.last_drop held zero
        exact ⟨[], as, l, v, rfl, .nil l, one, step, rest⟩
      · obtain ⟨bs, cs, u, w, rfl, before, one, dropped, after⟩ := ih more alone
        exact ⟨a :: bs, cs, u, w, rfl, .cons step before, one, dropped, after⟩

/-- Along every schedule, the source threads stop from every state without a clone outside them
exactly when the last of these clones is dropped while at most one source thread owns its clone or
none is in its loop. -/
theorem stops_iff (as : List Deed) :
    (∀ bs cs m, as = bs ++ cs → Run Step start bs m → m.outside = 0 → Stops m) ↔
      ∀ bs cs m, as = bs ++ .drop :: cs → Run Step start bs m → m.outside = 1 → Calm m := by
  constructor
  · intro stop bs cs m split before one
    have dropped : Step m .drop (release { m with outside := m.outside - 1 }) :=
      .drop (by omega)
    have through := before.append (.single dropped)
    have alone : (release { m with outside := m.outside - 1 }).outside = 0 := by
      change m.outside - 1 = 0
      omega
    have stops := stop (bs ++ [.drop]) cs _ (by simp [split]) through alone
    exact stops.calm (accounted_run through)
  · intro calm bs cs m split before alone
    obtain ⟨bs', cs', u, v, rfl, first, one, dropped, after⟩ :=
      exists_last_drop before (by decide) alone
    have calmBefore := calm bs' (cs' ++ cs) u (by simp [split]) first one
    have closing : Closing v := by
      refine ⟨?_, accounted_step (accounted_run first) dropped, ?_⟩
      · cases dropped
        change u.outside - 1 = 0
        omega
      · cases dropped
        exact calmBefore
    exact (after.invariant (I := Closing) closing_step closing).stops

/-- One source, started and left alone with its clone. -/
theorem stops_iff_one_source :
    ∃ m, Run Step start [.consumeOutcry .spin, .drop] m ∧ m.outside = 0 ∧ Stops m := by
  have run := (Run.single (Step.consumeOutcry .spin (by decide : 0 < start.outside))).append
    (.single (.drop (by decide)))
  refine ⟨_, run, rfl, ?_⟩
  refine (stops_iff [.consumeOutcry .spin, .drop]).mpr ?_ _ [] _ rfl run rfl
  intro bs cs u split before _
  rcases bs with _ | ⟨first, _ | ⟨second, rest⟩⟩
  · simp at split
  · obtain ⟨rfl, -⟩ := List.cons.inj split
    obtain ⟨v, step, last⟩ := before.of_cons
    obtain rfl := last.eq_of_nil
    cases step
    exact .inl (by decide)
  · have lengths := congrArg List.length split
    simp at lengths

/-- Two sources on one server: with no clone outside their threads, each finds the other's clone
and neither stops. -/
theorem stops_iff_two_sources : ∃ m,
    Run Step start [.consumeOutcry .spin, .consumeOutcry .spin, .drop] m ∧ m.outside = 0 ∧
      m.threads.map SourceThread.stage = [.testing, .testing] ∧ m.strong = 2 ∧ ¬ Stops m := by
  have run := (Run.single (Step.consumeOutcry .spin (by decide : 0 < start.outside))).append
    ((Run.single (Step.consumeOutcry .spin (by decide))).append (.single (.drop (by decide))))
  refine ⟨_, run, rfl, rfl, rfl, fun stops => ?_⟩
  exact stops.testFails 0 _ _ [] _ rfl (.inl rfl) (.nil _) (by simp) rfl rfl (by decide)

end Lifetime

end WsFanout
