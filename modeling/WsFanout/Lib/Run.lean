import Mathlib.Data.List.Basic

/-!
# Labelled runs

`Run R s as t` is a finite run of a labelled transition relation `R` from `s` to `t` over the
labels `as`, in order.  Every label is arbitrary data, so a scheduler's choices are part of the
run and a statement about all interleavings is a statement about all label lists.

* `Run.invariant`: what every step preserves, every run preserves.
* `Run.invariant_count`: the same for an invariant indexed by the number of labels of one kind
  taken so far, while that number stays below a bound.
* `Run.invariant_trace`: the same for an invariant that speaks of the labels taken so far.
* `Run.guarded`: the invariant of `Run.invariant_count` as a guard on every step.
* `Run.observed`: a run seen through a partial view of its states and labels is a run of what the
  view allows.
* `Run.metered`: a run can be had with a meter that its steps move on.
* `Run.holds_iff`, `Run.holds_iff_avoids`: a property that only `bad` steps break holds at the end
  exactly when no step of the run was bad.
* `Run.length_le`: a run is no longer than a measure that every step lowers.
-/

namespace WsFanout.Lib

universe u v w x

variable {S : Type u} {A : Type v}

/-- A finite run of `R` from one state to another, with the labels it takes in order. -/
inductive Run (R : S → A → S → Prop) : S → List A → S → Prop
  | nil (s : S) : Run R s [] s
  | cons {s t u : S} {a : A} {as : List A} : R s a t → Run R t as u → Run R s (a :: as) u

namespace Run

variable {R : S → A → S → Prop} {s t u : S} {a : A} {as bs : List A}

theorem append (left : Run R s as t) (right : Run R t bs u) : Run R s (as ++ bs) u := by
  induction left with
  | nil => exact right
  | cons step _ ih => exact .cons step (ih right)

theorem single (step : R s a t) : Run R s [a] t :=
  .cons step (.nil t)

theorem of_cons (run : Run R s (a :: as) u) : ∃ t, R s a t ∧ Run R t as u := by
  cases run with
  | cons step rest => exact ⟨_, step, rest⟩

theorem of_append (run : Run R s (as ++ bs) u) : ∃ t, Run R s as t ∧ Run R t bs u := by
  induction as generalizing s with
  | nil => exact ⟨s, .nil s, run⟩
  | cons a as ih =>
      obtain ⟨t, step, rest⟩ := of_cons run
      obtain ⟨m, left, right⟩ := ih rest
      exact ⟨m, .cons step left, right⟩

theorem eq_of_nil (run : Run R s [] t) : t = s := by
  cases run
  rfl

/-- A run of one relation is a run of every relation that allows its steps. -/
theorem mono {R' : S → A → S → Prop} (allowed : ∀ {s a t}, R s a t → R' s a t)
    (run : Run R s as t) : Run R' s as t := by
  induction run with
  | nil => exact .nil _
  | cons step _ ih => exact .cons (allowed step) ih

/-- What holds at the start and is preserved by every step holds at the end of every run. -/
theorem invariant {I : S → Prop} (preserved : ∀ {s a t}, I s → R s a t → I t)
    (run : Run R s as t) (start : I s) : I t := by
  induction run with
  | nil => exact start
  | cons step _ ih => exact ih (preserved start step)

theorem invariant_after {I : List A → S → Prop}
    (preserved : ∀ {bs s a t}, I bs s → R s a t → I (bs ++ [a]) t)
    (run : Run R s as t) (bs : List A) (start : I bs s) : I (bs ++ as) t := by
  induction run generalizing bs with
  | nil => rwa [List.append_nil]
  | @cons s t u a as step _ ih =>
      have later := ih (bs ++ [a]) (preserved start step)
      rwa [List.append_assoc, List.singleton_append] at later

/-- The invariant rule for a property that relates the state to the labels taken so far. -/
theorem invariant_trace {I : List A → S → Prop}
    (preserved : ∀ {bs s a t}, I bs s → R s a t → I (bs ++ [a]) t)
    (run : Run R s as t) (start : I [] s) : I as t :=
  run.invariant_after preserved [] start

/-- The invariant rule for a property indexed by how many labels satisfying `p` were taken, while
that number stays at most `bound`. -/
theorem invariant_count {I : Nat → S → Prop} (p : A → Bool) (bound : Nat)
    (preserved : ∀ {n s a t}, n + [a].countP p ≤ bound → I n s → R s a t → I (n + [a].countP p) t)
    (run : Run R s as t) {n : Nat} (within : n + as.countP p ≤ bound) (start : I n s) :
    I (n + as.countP p) t := by
  induction run generalizing n with
  | nil => exact start
  | @cons s t u a as step rest ih =>
      have split : (a :: as).countP p = [a].countP p + as.countP p := by
        rw [← List.countP_append, List.singleton_append]
      rw [split, ← Nat.add_assoc] at within ⊢
      exact ih within (preserved (Nat.le_trans (Nat.le_add_right _ _) within) start step)

/-- Under the same conditions every step of the run starts in a state with the invariant. -/
theorem guarded {I : Nat → S → Prop} (p : A → Bool) (bound : Nat)
    (preserved : ∀ {n s a t}, n + [a].countP p ≤ bound → I n s → R s a t → I (n + [a].countP p) t)
    (run : Run R s as t) {n : Nat} (within : n + as.countP p ≤ bound) (start : I n s) :
    Run (fun s a t => R s a t ∧ ∃ n, n + [a].countP p ≤ bound ∧ I n s) s as t := by
  induction run generalizing n with
  | nil => exact .nil _
  | @cons s t u a as step rest ih =>
      have split : (a :: as).countP p = [a].countP p + as.countP p := by
        rw [← List.countP_append, List.singleton_append]
      rw [split, ← Nat.add_assoc] at within
      have room := Nat.le_trans (Nat.le_add_right _ _) within
      exact .cons ⟨step, n, room, start⟩ (ih within (preserved room start step))

/-- Simulation with labels that may be forgotten: where a step shows nothing the view stays as it
is, and where it shows something the view makes a step of `Q`. -/
theorem observed {V : Type w} {B : Type x} {Q : V → B → V → Prop} (view : S → V)
    (part : A → Option B) (hidden : ∀ {s a t}, R s a t → part a = none → view t = view s)
    (shown : ∀ {s a t b}, R s a t → part a = some b → Q (view s) b (view t))
    (run : Run R s as t) : Run Q (view s) (as.filterMap part) (view t) := by
  induction run with
  | nil => exact .nil _
  | @cons s t u a as step _ ih =>
      cases seen : part a with
      | none =>
          rw [List.filterMap_cons_none seen, ← hidden step seen]
          exact ih
      | some b =>
          rw [List.filterMap_cons_some seen]
          exact .cons (shown step seen) ih

/-- Every run is the run of its states beside a meter that each step moves on. -/
theorem metered {M : Type w} (cost : S → A → M → M) (run : Run R s as t) (m : M) :
    ∃ n, Run (fun p a q => R p.1 a q.1 ∧ q.2 = cost p.1 a p.2) (s, m) as (t, n) := by
  induction run generalizing m with
  | nil s => exact ⟨m, .nil _⟩
  | @cons s t u a as step _ ih =>
      obtain ⟨n, rest⟩ := ih (cost s a m)
      exact ⟨n, .cons ⟨step, rfl⟩ rest⟩

/-- A run along which an invariant holds and every step lowers a measure is no longer than the
measure at its start. -/
theorem length_le {I : S → Prop} (measure : S → Nat)
    (preserved : ∀ {s a t}, I s → R s a t → I t)
    (lowered : ∀ {s a t}, I s → R s a t → measure t < measure s)
    (run : Run R s as t) (start : I s) : as.length ≤ measure s := by
  induction run with
  | nil => exact Nat.zero_le _
  | cons step _ ih =>
      have rest := ih (preserved start step)
      have less := lowered start step
      rw [List.length_cons]
      omega

/-- A property that each step keeps exactly when the step is not `bad` holds at the end of a run
exactly when it held at the start and no step of the run was bad. -/
theorem holds_iff {I P : S → Prop} (bad : S → A → Prop)
    (deterministic : ∀ {s a t u}, R s a t → R s a u → t = u)
    (preserved : ∀ {s a t}, I s → R s a t → I t)
    (turn : ∀ {s a t}, I s → R s a t → (P t ↔ P s ∧ ¬ bad s a))
    (run : Run R s as t) (start : I s) :
    P t ↔ P s ∧ ∀ bs a cs u, as = bs ++ a :: cs → Run R s bs u → ¬ bad u a := by
  induction run with
  | nil => simp
  | @cons s t u a as step rest ih =>
      rw [ih (preserved start step), turn start step, and_assoc]
      refine and_congr_right fun _ => ⟨?_, fun good => ⟨?_, ?_⟩⟩
      · rintro ⟨first, later⟩ bs b cs v split before
        cases bs with
        | nil =>
            obtain rfl := eq_of_nil before
            obtain ⟨rfl, -⟩ := List.cons.inj split
            exact first
        | cons b' bs =>
            obtain ⟨rfl, tails⟩ := List.cons.inj split
            obtain ⟨w, step', remaining⟩ := of_cons before
            obtain rfl := deterministic step step'
            exact later bs b cs v tails remaining
      · exact good [] a as s rfl (.nil s)
      · intro bs b cs v split before
        exact good (a :: bs) b cs v (congrArg (a :: ·) split) (.cons step before)

/-- The same without determinism: a property that each step keeps exactly when it is not `bad` holds
at the end of a run exactly when it held at the start and the run can be had without a bad step. -/
theorem holds_iff_avoids {I P : S → Prop} (bad : S → A → Prop)
    (preserved : ∀ {s a t}, I s → R s a t → I t)
    (turn : ∀ {s a t}, I s → R s a t → (P t ↔ P s ∧ ¬ bad s a))
    (run : Run R s as t) (start : I s) :
    P t ↔ P s ∧ Run (fun s a t => R s a t ∧ ¬ bad s a) s as t := by
  constructor
  · intro holds
    induction run with
    | nil => exact ⟨holds, .nil _⟩
    | cons step rest ih =>
        obtain ⟨before, good⟩ := ih (preserved start step) holds
        obtain ⟨first, fine⟩ := (turn start step).mp before
        exact ⟨first, .cons ⟨step, fine⟩ good⟩
  · rintro ⟨holds, good⟩
    have kept : I t ∧ P t := good.invariant (I := fun s => I s ∧ P s)
      (fun inv step => ⟨preserved inv.1 step.1, (turn inv.1 step.1).mpr ⟨inv.2, step.2⟩⟩)
      ⟨start, holds⟩
    exact kept.2

/-- A partial step function that computes steps of `R` computes runs of `R`. -/
theorem of_foldlM {f : S → A → Option S} (sound : ∀ {s a t}, f s a = some t → R s a t)
    (computed : as.foldlM f s = some t) : Run R s as t := by
  induction as generalizing s with
  | nil =>
      cases computed
      exact .nil _
  | cons a as ih =>
      rw [List.foldlM_cons, Option.bind_eq_bind, Option.bind_eq_some_iff] at computed
      obtain ⟨m, first, rest⟩ := computed
      exact .cons (sound first) (ih rest)

/-- Folding a total step function over the labels is a run of its graph. -/
theorem of_foldl (f : S → A → S) (s : S) (as : List A) :
    Run (fun s a t => t = f s a) s as (as.foldl f s) := by
  induction as generalizing s with
  | nil => exact .nil s
  | cons a as ih => exact .cons rfl (ih (f s a))

end Run

/-- What a partial view keeps of one label more. -/
theorem filterMap_concat {B : Type w} (part : A → Option B) (as : List A) (a : A) :
    (as ++ [a]).filterMap part = as.filterMap part ++ (part a).toList := by
  rw [List.filterMap_append]
  cases kept : part a <;> simp [kept]

end WsFanout.Lib
