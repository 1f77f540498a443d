import WsFanout.OutcryTrace

/-!
# The pace of the outcry source

What the locals of the loop come to over a whole run.  `Drain.Paced` relates them to the passes made
so far: the idle polls are the empty reads since the last frame, as far as a `u32` counts, the
buffer is as long as the largest frame asked for, and the undecodable frames are counted in a
`u64`.  `Drain.paced_run` says when the source sleeps: not before a thousand empty reads without a
frame in between, and at every empty read from then on.
-/

namespace WsFanout

open Lib

namespace Reading

/-- The decoder rejected the frame. -/
def rejected (e : Reading) : Bool :=
  match e.pass with
  | .decoded _ none => true
  | _ => false

/-- The empty reads in a row, as this pass leaves them: errors neither count nor end them. -/
def idled (n : Nat) (e : Reading) : Nat :=
  match e.outcome with
  | .frame _ _ => 0
  | .empty => n + 1
  | _ => n

/-- The length asked for, if the buffer was too small. -/
def needed? (e : Reading) : Option Nat :=
  match e.outcome with
  | .bufferTooSmall needed => some needed
  | _ => none

end Reading

/-- The empty reads since the last frame. -/
def emptySince (es : List Reading) : Nat :=
  es.foldl Reading.idled 0

theorem emptySince_append (es : List Reading) (e : Reading) :
    emptySince (es ++ [e]) = e.idled (emptySince es) := by
  rw [emptySince, List.foldl_append]
  rfl

namespace Drain

variable {δ : Type} {frames : Nat → List UInt8}
  {decode : δ → List UInt8 → δ × Option Decoded} {idle : Idle}

/-- The locals of the loop after the passes `es`. -/
structure Paced (es : List Reading) (s : Source) : Prop where
  idlePolls : s.idlePolls = min (emptySince es) (2 ^ 32 - 1)
  undecodable : s.undecodable = UInt64.ofNat (es.countP Reading.rejected)
  buf : s.buf.length = ((es.filterMap Reading.needed?).foldl max (64 * 1024))

namespace Paced

variable {es : List Reading} {s s' : Source} {e : Reading}

/-- A pass that moves one of the locals as the passes made so far say. -/
theorem snoc (paced : Paced es s)
    (polls : s'.idlePolls = min (e.idled s.idlePolls) (2 ^ 32 - 1))
    (rejects : s'.undecodable = if e.rejected then s.undecodable + 1 else s.undecodable)
    (length : s'.buf.length = (e.needed?.toList).foldl max s.buf.length) :
    Paced (es ++ [e]) s' := by
  refine ⟨?_, ?_, ?_⟩
  · rw [polls, emptySince_append, paced.idlePolls]
    unfold Reading.idled
    split <;> omega
  · rw [rejects, paced.undecodable, List.countP_append, List.countP_singleton]
    split <;> simp
  · rw [length, paced.buf, List.filterMap_append, List.foldl_append]
    cases needed : e.needed? <;> simp [needed]

end Paced

/-- What one pass does to the locals, and whether it sleeps. -/
theorem Paced.step {es : List Reading} {s s' : Drain δ} {e : Reading}
    (paced : Paced es s.source) (step : Step frames decode idle s e s') :
    Paced (es ++ [e]) s'.source ∧
      ∀ d, e.pass = .sleep d ↔ idle = .sleep d ∧ e.outcome = .empty ∧ 1000 ≤ emptySince es := by
  have polls := paced.idlePolls
  have capped : s.source.idlePolls = min s.source.idlePolls (2 ^ 32 - 1) := by omega
  cases step with
  | pass running reads passed =>
      cases reads with
      | frame length fits bytes =>
          rw [← length] at fits
          simp only [Source.pass, fits, ↓reduceIte, bytes] at passed
          cases answer : (decode s.decoder (frames s.pos)).2 with
          | none =>
              rw [answer] at passed
              cases passed
              exact ⟨paced.snoc rfl rfl length, by simp⟩
          | some d =>
              rw [answer] at passed
              cases passed
              exact ⟨paced.snoc rfl rfl length, by simp⟩
      | empty =>
          simp only [Source.pass] at passed
          cases idle with
          | spin =>
              cases passed
              exact ⟨paced.snoc rfl rfl rfl, by simp⟩
          | sleep d =>
              cases passed
              refine ⟨paced.snoc rfl ?_ rfl, fun d' => ?_⟩
              · simp only [Reading.rejected]
                split <;> rfl
              · simp only
                split
                · simp only [Pass.sleep.injEq, Idle.sleep.injEq, true_and]
                  omega
                · simp only [reduceCtorEq, true_and, false_iff]
                  omega
      | bufferTooSmall short =>
          cases passed
          refine ⟨paced.snoc capped rfl ?_, by simp⟩
          rw [Source.length_resize _ short]
          exact (Nat.max_eq_right short.le).symm
      | overrun behind later =>
          cases passed
          exact ⟨paced.snoc capped rfl rfl, by simp⟩
      | failed detail =>
          cases passed
          exact ⟨paced.snoc capped rfl rfl, by simp⟩

/-- **The pace of the source.**  In every run of the loop, for every queue, every decoder and every
sequence of outcomes the consumer may return: a pass sleeps exactly when the source is to sleep,
the read was empty, and at least a thousand reads before it were empty without a frame in between,
however long that has been; the buffer is as long as the largest frame asked for and never shrinks
below what it started with; and `undecodable` counts what the decoder rejected, modulo `2 ^ 64`. -/
theorem paced_run (frames : Nat → List UInt8) (decode : δ → List UInt8 → δ × Option Decoded)
    (idle : Idle) (first : Nat) (d : δ) (es : List Reading) (s : Drain δ)
    (run : Run (Step frames decode idle) { pos := first, decoder := d } es s) :
    (∀ before e after, es = before ++ e :: after → ∀ n, e.pass = .sleep n ↔
      idle = .sleep n ∧ e.outcome = .empty ∧ 1000 ≤ emptySince before) ∧
    s.source.buf.length = (es.filterMap Reading.needed?).foldl max (64 * 1024) ∧
    s.source.undecodable = UInt64.ofNat (es.countP Reading.rejected) := by
  have start : Paced [] Source.new := ⟨rfl, rfl, List.length_replicate⟩
  have reached : ∀ {bs t}, Run (Step frames decode idle) { pos := first, decoder := d } bs t →
      Paced bs t.source :=
    fun run => run.invariant_trace (I := fun es s => Paced es s.source)
      (fun paced step => (paced.step step).1) start
  refine ⟨?_, (reached run).buf, (reached run).undecodable⟩
  rintro before e after rfl
  obtain ⟨t, earlier, later⟩ := run.of_append
  obtain ⟨u, step, -⟩ := later.of_cons
  exact ((reached earlier).step step).2

/-- A source that finds its queue empty spins up to a thousand times. -/
theorem run_idling (frames : Nat → List UInt8) (decode : δ → List UInt8 → δ × Option Decoded)
    (n : Nat) (d : δ) {k : Nat} (few : k ≤ 1000) :
    Run (Step frames decode (.sleep n)) { pos := 0, decoder := d }
      (List.replicate k ⟨0, .empty, 0, .spin⟩)
      { source := { Source.new with idlePolls := k }, pos := 0, decoder := d } := by
  induction k with
  | zero => exact .nil _
  | succ k ih =>
      rw [List.replicate_succ']
      refine (ih (by omega)).append (.single (.pass rfl .empty ?_))
      have counted : min (k + 1) (2 ^ 32 - 1) = k + 1 := by omega
      have awake : ¬ 1000 < k + 1 := by omega
      simp only [Source.pass, counted, if_neg awake]

/-- Then it sleeps. -/
theorem paced_run_idle :
    ∃ s, Run (Step (fun _ => []) (fun (_ : Unit) _ => ((), none)) (.sleep 5))
        { pos := 0, decoder := () }
        (List.replicate 1000 ⟨0, .empty, 0, .spin⟩ ++ [⟨0, .empty, 0, .sleep 5⟩]) s ∧
      1000 ≤ emptySince (List.replicate 1000 ⟨0, .empty, 0, .spin⟩) := by
  have run := (run_idling (fun _ => []) (fun (_ : Unit) _ => ((), none)) 5 ()
    (Nat.le_refl 1000)).append (.single (.pass rfl .empty rfl))
  refine ⟨_, run, ?_⟩
  exact (((paced_run _ _ _ _ _ _ _ run).1 _ ⟨0, .empty, 0, .sleep 5⟩ [] rfl 5).mp rfl).2.2

end Drain

end WsFanout
