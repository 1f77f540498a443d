import WsFanout.RegistryInterleaving

/-!
# Calls that do not overlap

`Registry.step` makes a call of the registry one step.  `Threads.run_serial` says when that is what
the code does: in every run in which no call begins while another is under way, in whatever order a
fan-out visits its connections, the calls leave the registry that `Registry.run` computes, and each
of them returns what `Registry.step` returns.
-/

namespace WsFanout

open Lib ConnectionId Registry Threads

variable {F : Type}

namespace Threads

/-- The call that begins with this step. -/
def Action.starts? : Action F → Option (Op F)
  | issue _ subject sendQueue => some (.add subject sendQueue)
  | whole _ op _ => some op
  | begin _ op _ => some op
  | _ => none

/-- What the call returns by this step, if anything, is what `op` returns when it is one step. -/
def Action.Returns (r : Registry F) (op : Op F) : Action F → Prop
  | insert _ _ _ id => (r.step op).2 = .id id
  | whole _ _ reply => (r.step op).2 = reply
  | finish _ delivered => r.returned op = delivered
  | _ => True

/-- The step is one of the calls `ops`, and what that call returns by it, if anything, is what it
returns when each of them is one step. -/
def Action.Fits (ops : List (Op F)) (a : Action F) : Prop :=
  ∃ op, ops[a.call]? = some op ∧ a.Returns (Registry.new.run (ops.take a.call)) op

theorem Action.Fits.append {ops : List (Op F)} {a : Action F} (fits : a.Fits ops)
    (more : List (Op F)) : a.Fits (ops ++ more) := by
  obtain ⟨op, found, returns⟩ := fits
  obtain ⟨inside, -⟩ := List.getElem?_eq_some_iff.mp found
  refine ⟨op, ?_, ?_⟩
  · rwa [List.getElem?_append_left inside]
  · rwa [List.take_append_of_le_length (Nat.le_of_lt inside)]

/-- A step of the last call. -/
theorem Action.fits_last {ops : List (Op F)} {op : Op F} {a : Action F}
    (last : a.call = ops.length) (returns : a.Returns (Registry.new.run ops) op) :
    a.Fits (ops ++ [op]) := by
  refine ⟨op, ?_, ?_⟩
  · rw [last, List.getElem?_concat_length]
  · rwa [last, List.take_left]

/-- No call begins while another is under way. -/
def Alone (s : Threads F) (a : Action F) : Prop :=
  a.starts?.isSome → ∀ c ∈ s.calls, c = .done

instance [DecidableEq F] (s : Threads F) (a : Action F) : Decidable (Alone s a) :=
  inferInstanceAs (Decidable (a.starts?.isSome → ∀ c ∈ s.calls, c = .done))

end Threads

/-! ## What is left to do of a call -/

namespace Call

/-- The turns of a fan-out that are left lead from `acc` to what `op` does and returns in one step
from `r₀`. -/
def Leads (r₀ : Registry F) (op : Op F) (frame : F) (rest : Finset ConnectionId)
    (acc : Registry F × Nat) : Prop :=
  rest.val.foldl (deliverTo frame) acc = ((r₀.step op).1, r₀.returned op)

/-- What is left to do of a call of `op` that began in `r₀` leads to what `op` does in one step. -/
def Completes (r₀ : Registry F) (op : Op F) (r : Registry F) : Call F → Prop
  | adding subject sendQueue id =>
    op = .add subject sendQueue ∧ id = ⟨r₀.nextId⟩ ∧ r = { r₀ with nextId := r₀.nextId + 1 }
  | totalling _ =>
    { r with
      metrics :=
        { r.metrics with
          connectionsTotal := r.metrics.connectionsTotal + 1
          connectionsActive := r.metrics.connectionsActive + 1 } } = (r₀.step op).1
  | activating _ =>
    { r with
      metrics :=
        { r.metrics with
          connectionsActive := r.metrics.connectionsActive + 1 } } = (r₀.step op).1
  | visiting d rest delivered => Leads r₀ op d.frame rest (r, delivered)
  | tallying d rest delivered id outcome =>
    Leads r₀ op d.frame rest
      ((r.tally outcome).mark id outcome, if outcome = .ok then delivered + 1 else delivered)
  | marking d rest delivered id outcome =>
    Leads r₀ op d.frame rest
      (r.mark id outcome, if outcome = .ok then delivered + 1 else delivered)
  | done => False

variable {r₀ r : Registry F} {op : Op F} {rest : Finset ConnectionId} {delivered : Nat}

/-- A fan-out may visit next whichever connection it likes. -/
theorem Leads.visit {frame : F} {acc : Registry F × Nat} {id : ConnectionId}
    (leads : Leads r₀ op frame rest acc) (ahead : id ∈ rest) :
    Leads r₀ op frame (rest.erase id) (deliverTo frame acc id) := by
  rw [Leads, ← Finset.insert_erase ahead, Finset.insert_val_of_notMem (Finset.notMem_erase id rest),
    Multiset.foldl_cons] at leads
  exact leads

/-- The attempt on a queue, with what is left of its turn. -/
theorem Completes.visit {d : Delivery F} {id : ConnectionId}
    (completes : Completes r₀ op r (.visiting d rest delivered)) (ahead : id ∈ rest) :
    Completes r₀ op (r.push id d.frame)
      (visited d (rest.erase id) delivered id (r.pushed? id d.frame)) := by
  have leads : Leads r₀ op d.frame rest (r, delivered) := completes
  have after := leads.visit ahead
  cases registered : r.connections.lookup id with
  | none =>
      have missed : r.pushed? id d.frame = none := by simp [pushed?, registered]
      rw [deliverTo_of_none registered] at after
      rw [missed, push_of_none registered]
      exact after
  | some conn =>
      have met : r.pushed? id d.frame = some (conn.tx.trySend d.frame).2 := by
        simp [pushed?, registered]
      cases outcome : (conn.tx.trySend d.frame).2 with
      | closed =>
          rw [deliverTo_of_closed registered outcome] at after
          rw [met, outcome]
          exact after
      | ok | full =>
          rw [deliverTo_eq_steps registered outcome] at after
          rw [met, outcome]
          exact after

end Call

namespace Threads

/-! ## One step -/

/-- After the calls of `ops`, one after the other: all have returned, or the last is under way. -/
inductive Sequential : List (Op F) → Threads F → Prop
  | idle (ops : List (Op F)) :
      Sequential ops
        { registry := Registry.new.run ops
          calls := List.replicate ops.length .done }
  | busy {ops : List (Op F)} {op : Op F} {r : Registry F} {c : Call F}
      (left : c.Completes (Registry.new.run ops) op r) :
      Sequential (ops ++ [op])
        { registry := r
          calls := List.replicate ops.length .done ++ [c] }

/-- The last call has returned. -/
theorem Sequential.ended (ops : List (Op F)) (op : Op F) :
    Sequential (ops ++ [op])
      { registry := ((Registry.new.run ops).step op).1
        calls := List.replicate ops.length .done ++ [.done] } := by
  have after := Sequential.idle (ops ++ [op])
  rwa [run_append, List.length_append, List.length_singleton, List.replicate_succ'] at after

/-- Only the last call is under way. -/
theorem last_of_found {n k : Nat} {c x : Call F}
    (found : (List.replicate n .done ++ [c])[k]? = some x) (going : x ≠ .done) :
    k = n ∧ x = c := by
  rcases Nat.lt_trichotomy k n with earlier | rfl | later
  · rw [List.getElem?_append_left (by simpa using earlier), List.getElem?_replicate,
      if_pos earlier] at found
    exact absurd (Option.some.inj found).symm going
  · rw [List.getElem?_append_right (by simp)] at found
    simp at found
    exact ⟨rfl, found.symm⟩
  · rw [List.getElem?_eq_none (by simp; omega)] at found
    cases found

/-- The last call goes on. -/
theorem set_last (n : Nat) (c c' : Call F) :
    (List.replicate n Call.done ++ [c]).set n c' = List.replicate n Call.done ++ [c'] := by
  simp [List.set_append_right]

/-- Once all calls have returned, the registry is the one they leave as single steps. -/
theorem Sequential.registry_eq {ops : List (Op F)} {s : Threads F} (sequential : Sequential ops s)
    (idle : ∀ c ∈ s.calls, c = .done) : s.registry = Registry.new.run ops := by
  cases sequential with
  | idle ops => rfl
  | @busy ops op r c left =>
      rw [idle c (by simp)] at left
      exact left.elim

/-- What one step preserves. -/
theorem Sequential.step {ops : List (Op F)} {s t : Threads F} {a : Action F}
    (sequential : Sequential ops s) (step : Step s a t) (alone : Alone s a) :
    Sequential (ops ++ a.starts?.toList) t ∧ a.Fits (ops ++ a.starts?.toList) := by
  cases sequential with
  | idle ops =>
      have last : (List.replicate ops.length (Call.done : Call F)).length = ops.length :=
        List.length_replicate
      have returned : ∀ {k : Nat} {c : Call F}, c ≠ .done →
          (List.replicate ops.length (Call.done : Call F))[k]? ≠ some c := by
        intro k c going found
        rw [List.getElem?_replicate] at found
        split at found
        · exact going (Option.some.inj found).symm
        · cases found
      cases step with
      | issue subject sendQueue =>
          exact ⟨.busy ⟨rfl, rfl, rfl⟩, Action.fits_last last trivial⟩
      | whole op silent notAdd lock =>
          exact ⟨.ended ops op, Action.fits_last last rfl⟩
      | begin d =>
          obtain ⟨left, count⟩ := step_eq_fanOut (Registry.new.run ops) d.carries
          exact ⟨.busy (Prod.ext left.symm count.symm), Action.fits_last last trivial⟩
      | insert found _ | total found | activate found | visit found _ | tally found | mark found
      | finish found => exact absurd found (returned (by simp))
  | @busy ops op r c left =>
      have fits : ∀ {a : Action F}, a.call = ops.length →
          a.Returns (Registry.new.run ops) op → a.Fits (ops ++ [op] ++ []) := by
        intro a last returns
        exact (Action.fits_last last returns).append []
      have going : ¬ ∀ x ∈ List.replicate ops.length Call.done ++ [c], x = .done := by
        intro done
        rw [done c (by simp)] at left
        exact left
      have goesOn : ∀ {r' : Registry F} {c' : Call F}, c'.Completes (Registry.new.run ops) op r' →
          Sequential (ops ++ [op] ++ [])
            ⟨r', (List.replicate ops.length Call.done ++ [c]).set ops.length c'⟩ := by
        intro r' c' left
        rw [List.append_nil, set_last]
        exact .busy left
      have ends : ∀ {r' : Registry F}, r' = ((Registry.new.run ops).step op).1 →
          Sequential (ops ++ [op] ++ [])
            ⟨r', (List.replicate ops.length Call.done ++ [c]).set ops.length .done⟩ := by
        rintro r' rfl
        rw [List.append_nil, set_last]
        exact .ended ops op
      cases step with
      | issue _ _ | whole _ _ _ _ | begin _ => exact absurd (alone rfl) going
      | insert found lock =>
          obtain ⟨rfl, rfl⟩ := last_of_found found (by simp)
          obtain ⟨rfl, rfl, rfl⟩ := left
          exact ⟨goesOn rfl, fits rfl rfl⟩
      | total found =>
          obtain ⟨rfl, rfl⟩ := last_of_found found (by simp)
          exact ⟨goesOn left, fits rfl trivial⟩
      | activate found =>
          obtain ⟨rfl, rfl⟩ := last_of_found found (by simp)
          exact ⟨ends left, fits rfl trivial⟩
      | visit found ahead =>
          obtain ⟨rfl, rfl⟩ := last_of_found found (by simp)
          exact ⟨goesOn (left.visit ahead), fits rfl trivial⟩
      | tally found =>
          obtain ⟨rfl, rfl⟩ := last_of_found found (by simp)
          exact ⟨goesOn left, fits rfl trivial⟩
      | mark found =>
          obtain ⟨rfl, rfl⟩ := last_of_found found (by simp)
          exact ⟨goesOn left, fits rfl trivial⟩
      | finish found =>
          obtain ⟨rfl, rfl⟩ := last_of_found found (by simp)
          obtain ⟨registry, count⟩ := Prod.ext_iff.mp left
          exact ⟨ends registry, fits rfl count.symm⟩

/-! ## Whole runs -/

/-- **Calls that do not overlap are single steps.**  In every run of the registry's steps in which
no call begins while another is under way, in whatever order the fan-outs visit their connections:
each call returns what the operation returns that makes it a single step after the calls before it,
and once all calls have returned the registry is the one these operations leave, its counters
included. -/
theorem run_serial {as : List (Action F)} {s : Threads F}
    (run : Run (fun s a t => Step s a t ∧ Alone s a) start as s) :
    (∀ a ∈ as, a.Fits (as.filterMap Action.starts?)) ∧
    ((∀ c ∈ s.calls, c = .done) →
      s.registry = Registry.new.run (as.filterMap Action.starts?)) := by
  have reached : Sequential (as.filterMap Action.starts?) s ∧
      ∀ a ∈ as, a.Fits (as.filterMap Action.starts?) := by
    refine run.invariant_trace
      (I := fun as s => Sequential (as.filterMap Action.starts?) s ∧
        ∀ a ∈ as, a.Fits (as.filterMap Action.starts?)) ?_ ⟨.idle [], by simp⟩
    rintro bs s a t ⟨sequential, fits⟩ ⟨step, alone⟩
    obtain ⟨after, last⟩ := sequential.step step alone
    rw [filterMap_concat]
    refine ⟨after, fun b taken => ?_⟩
    rcases List.mem_append.mp taken with earlier | now
    · exact (fits b earlier).append _
    · rwa [List.mem_singleton.mp now]
  exact ⟨reached.2, reached.1.registry_eq⟩

/-- A connection is added, subscribes and is published to. -/
def inTurn : List (Action String) :=
  [.issue 0 "a" 2, .insert 0 "a" 2 ⟨1⟩, .total 0, .activate 0,
    .whole 1 (.subscribe ⟨1⟩ ["x"] 1) (.subscribed ["x"] []),
    .begin 2 (.publish "x" "m") {⟨1⟩}, .visit 2 (.publish "x" "m") ⟨1⟩ (some .ok), .tally 2 .ok,
    .mark 2 ⟨1⟩ .ok, .finish 2 1]

/-- Its three calls leave what three operations leave. -/
theorem run_serial_inTurn :
    ∃ s, Run (fun s a t => Step s a t ∧ Alone s a) start inTurn s ∧ (∀ c ∈ s.calls, c = .done) ∧
      s.registry =
        Registry.new.run [.add "a" 2, .subscribe ⟨1⟩ ["x"] 1, .publish "x" "m"] := by
  have computed : ∃ s, inTurn.foldlM (fun s a => if Alone s a then exec s a else none) start =
      some s ∧ ∀ c ∈ s.calls, c = .done := ⟨_, rfl, by decide⟩
  obtain ⟨s, computed, idle⟩ := computed
  have run : Run (fun s a t => Step s a t ∧ Alone s a) start inTurn s := by
    refine Run.of_foldlM (fun taken => ?_) computed
    rw [Option.ite_none_right_eq_some] at taken
    exact ⟨step_of_exec taken.2, taken.1⟩
  exact ⟨s, run, idle, (run_serial run).2 idle⟩

end Threads

end WsFanout
