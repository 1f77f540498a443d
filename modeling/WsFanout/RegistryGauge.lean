import WsFanout.RegistryProgress

/-!
# The counters under several threads

The counters are updated outside the steps they count: `add` inserts under the lock and counts after
it, a delivery tries the queue and counts then.  `Threads.Books` says what a reader of the counters
may find in between: each is behind by the calls that owe it.  `Threads.run_books` is the state of
the books in every interleaving, and `Threads.run_gauge` the gauge of open connections, which does
not go below zero because nobody removes a connection before its `add` has returned.
-/

namespace WsFanout

open Lib ConnectionId

variable {F : Type}

/-- The counters that only grow. -/
inductive Counter where
  | total
  | sent
  | dropped
  deriving DecidableEq

/-- The value of a counter. -/
def Metrics.read (m : Metrics) : Counter → UInt64
  | .total => m.connectionsTotal
  | .sent => m.framesSent
  | .dropped => m.framesDropped

namespace Call

/-- The call has done what the counter counts, and has yet to count it. -/
def owes : Counter → Call F → Bool
  | .total, totalling _ => true
  | .sent, tallying _ _ _ _ outcome => decide (outcome = .ok)
  | .dropped, tallying _ _ _ _ outcome => decide (outcome = .full)
  | _, _ => false

/-- The connection a call of `add` has registered but not counted as open. -/
def entering? : Call F → Option ConnectionId
  | totalling id => some id
  | activating id => some id
  | _ => none

end Call

namespace Threads

open Registry

/-- The step does what the counter counts. -/
def Action.incurs : Counter → Action F → Bool
  | .total, insert _ _ _ _ => true
  | .sent, visit _ _ _ outcome => decide (outcome = some .ok)
  | .dropped, visit _ _ _ outcome => decide (outcome = some .full)
  | _, _ => false

/-- The step counts. -/
def Action.pays : Counter → Action F → Bool
  | .total, total _ => true
  | .sent, tally _ outcome => decide (outcome = .ok)
  | .dropped, tally _ outcome => decide (outcome = .full)
  | _, _ => false

/-- A word that is behind its number by what is owed stays so when both change alike. -/
theorem behind {m m' : UInt64} {owed owed' n n' : Nat} (paid back : Nat)
    (exact : m + UInt64.ofNat owed = UInt64.ofNat n)
    (word : m' + UInt64.ofNat back = m + UInt64.ofNat paid)
    (number : owed' + paid + n = owed + n' + back) :
    m' + UInt64.ofNat owed' = UInt64.ofNat n' := by
  have words := congrArg UInt64.ofNat number
  simp only [UInt64.ofNat_add] at words
  grind

/-- The counters that only grow are left alone by requests and receivers. -/
theorem read_step (r : Registry F) {op : Op F} (silent : op.frame? = none)
    (notAdd : op.isAdd = false) (counter : Counter) :
    (r.step op).1.metrics.read counter = r.metrics.read counter := by
  by_cases removes : ∃ id, op = .remove id
  · obtain ⟨id, rfl⟩ := removes
    change (r.remove id).metrics.read counter = _
    unfold remove
    cases r.connections.lookup id with
    | none => rfl
    | some conn => cases counter <;> rfl
  · rw [metrics_step_quiet r silent notAdd fun id same => removes ⟨id, same⟩]

/-- What one step does to a counter that only grows and to what it is owed. -/
theorem owed_step {s t : Threads F} {a : Action F} (step : Step s a t) (counter : Counter) :
    t.registry.metrics.read counter =
      s.registry.metrics.read counter + UInt64.ofNat (if a.pays counter then 1 else 0) ∧
    t.calls.countP (Call.owes counter) + (if a.pays counter then 1 else 0) =
      s.calls.countP (Call.owes counter) + if a.incurs counter then 1 else 0 := by
  have joined : ∀ c : Call F, (s.calls ++ [c]).countP (Call.owes counter) =
      s.calls.countP (Call.owes counter) + if c.owes counter then 1 else 0 := by
    intro c
    rw [List.countP_append, List.countP_singleton]
  cases step with
  | issue subject sendQueue =>
      rw [joined]
      cases counter <;> simp [Action.pays, Action.incurs, Call.owes]
  | whole op silent notAdd lock =>
      rw [joined, read_step s.registry silent notAdd]
      cases counter <;> simp [Action.pays, Action.incurs, Call.owes]
  | begin d =>
      rw [joined]
      cases counter <;> simp [Action.pays, Action.incurs, Call.owes]
  | @insert k subject sendQueue id found lock =>
      have moved := Tickets.countP_set (Call.owes counter) (.totalling id) found
      cases counter <;> simpa [Action.pays, Action.incurs, Call.owes, enter] using moved
  | @total k id found =>
      have moved := Tickets.countP_set (Call.owes counter) (.activating id) found
      cases counter <;> simpa [Action.pays, Action.incurs, Call.owes, Metrics.read] using moved
  | activate found =>
      have moved := Tickets.countP_set (Call.owes counter) .done found
      cases counter <;> simpa [Action.pays, Action.incurs, Call.owes, Metrics.read] using moved
  | @visit k d rest delivered id found ahead =>
      have moved := Tickets.countP_set (Call.owes counter) (.visited d (rest.erase id) delivered id
        (s.registry.pushed? id d.frame)) found
      refine ⟨by cases counter <;> simp [Action.pays, push, alter], ?_⟩
      have owed : (Call.visited d (rest.erase id) delivered id (s.registry.pushed? id d.frame)).owes
          counter = (Action.visit k d.op id (s.registry.pushed? id d.frame)).incurs counter := by
        cases counter <;> cases s.registry.pushed? id d.frame with
        | none => rfl
        | some outcome => cases outcome <;> rfl
      rw [owed] at moved
      cases counter <;> simpa [Action.pays, Call.owes] using moved
  | @tally k d rest delivered id outcome found =>
      have moved := Tickets.countP_set (Call.owes counter) (.marking d rest delivered id outcome)
        found
      cases counter <;> cases outcome <;>
        simpa [Action.pays, Action.incurs, Call.owes, Registry.tally, Metrics.tally, Metrics.read]
          using moved
  | @mark k d rest delivered id outcome found =>
      have moved := Tickets.countP_set (Call.owes counter) (.visiting d rest
        (if outcome = .ok then delivered + 1 else delivered)) found
      cases counter <;>
        simpa [Action.pays, Action.incurs, Call.owes, Registry.mark, alter] using moved
  | finish found =>
      have moved := Tickets.countP_set (Call.owes counter) .done found
      cases counter <;> simpa [Action.pays, Action.incurs, Call.owes] using moved

theorem entering?_visited (d : Delivery F) (rest : Finset ConnectionId) (delivered : Nat)
    (id : ConnectionId) (outcome : Option TrySend) :
    (Call.visited d rest delivered id outcome).entering? = none := by
  cases outcome with
  | none => rfl
  | some outcome => cases outcome <;> rfl

theorem keys_enter (r : Registry F) (id : ConnectionId) (subject : String) (sendQueue : Nat) :
    (r.enter id subject sendQueue).connections.keys = insert id r.connections.keys := by
  ext other
  change other ∈ (r.connections.insert id _).keys ↔ _
  rw [Finmap.mem_keys, Finmap.mem_insert, Finset.mem_insert, Finmap.mem_keys]

theorem len_alter (r : Registry F) (id : ConnectionId) (f : Connection F → Connection F) :
    (r.alter id f).len = r.len := by
  rw [len, keys_alter, len]

/-- A request or a receiver's action lowers the gauge and the number of entries together, or neither
of them. -/
theorem active_step (r : Registry F) {op : Op F} (silent : op.frame? = none)
    (notAdd : op.isAdd = false) :
    ∃ back, (r.step op).1.metrics.connectionsActive + UInt64.ofNat back =
      r.metrics.connectionsActive ∧ (r.step op).1.len + back = r.len := by
  have keys := keys_step r op
  cases op with
  | add _ _ => cases notAdd
  | publish _ _ | broadcast _ | send _ _ => cases silent
  | subscribe _ _ _ | unsubscribe _ _ | recv _ | close _ =>
      refine ⟨0, ?_, ?_⟩
      · rw [metrics_step_quiet r rfl rfl (by simp)]
        exact UInt64.add_zero _
      · rw [len, keys]
        rfl
  | remove id =>
      rw [len, keys]
      change ∃ back, (r.remove id).metrics.connectionsActive + _ = _ ∧
        (r.connections.keys.erase id).card + back = _
      unfold remove
      cases found : r.connections.lookup id with
      | none =>
          have absent : id ∉ r.connections.keys := by simp [Finmap.mem_keys_iff, found]
          rw [Finset.erase_eq_of_notMem absent]
          exact ⟨0, UInt64.add_zero _, rfl⟩
      | some conn =>
          have listed : id ∈ r.connections.keys := Finmap.mem_keys_iff.mpr ⟨conn, found⟩
          exact ⟨1, UInt64.sub_add_cancel _ _, Finset.card_erase_add_one listed⟩

/-- The calls of `add` that have registered a connection and not counted it as open. -/
def entering (s : Threads F) : Nat :=
  s.calls.countP fun c => c.entering?.isSome

theorem entering_set {s : Threads F} {k : Nat} {c : Call F} (r : Registry F) (c' : Call F)
    (found : s.calls[k]? = some c) :
    entering ⟨r, s.calls.set k c'⟩ + (if c.entering?.isSome then 1 else 0) =
      s.entering + if c'.entering?.isSome then 1 else 0 :=
  Tickets.countP_set _ _ found

theorem entering_set_same {s : Threads F} {k : Nat} {c : Call F} (r : Registry F) (c' : Call F)
    (found : s.calls[k]? = some c) (alike : c.entering?.isSome = c'.entering?.isSome) :
    entering ⟨r, s.calls.set k c'⟩ = s.entering := by
  have moved := entering_set r c' found
  rw [alike] at moved
  exact Nat.add_right_cancel moved

theorem entering_concat (s : Threads F) (r : Registry F) {c : Call F} (idle : c.entering? = none) :
    entering ⟨r, s.calls ++ [c]⟩ = s.entering := by
  simp [entering, List.countP_append, idle]

/-- The gauge is behind the number of entries by the calls of `add` that have yet to count. -/
def Gauged (s : Threads F) : Prop :=
  s.registry.metrics.connectionsActive + UInt64.ofNat s.entering = UInt64.ofNat s.registry.len

theorem Gauged.same {s t : Threads F} (gauged : s.Gauged)
    (active : t.registry.metrics.connectionsActive = s.registry.metrics.connectionsActive)
    (entering : t.entering = s.entering) (len : t.registry.len = s.registry.len) : t.Gauged := by
  rw [Gauged, active, entering, len]
  exact gauged

theorem Gauged.step {n : Nat} {s t : Threads F} {a : Action F} (gauged : s.Gauged) (inv : Sound n s)
    (step : Step s a t) : t.Gauged := by
  cases step with
  | issue _ _ | begin _ => exact gauged.same rfl (entering_concat s _ rfl) rfl
  | @insert k subject sendQueue id found lock =>
      have more : entering ⟨s.registry.enter id subject sendQueue, s.calls.set k (.totalling id)⟩ +
          0 = s.entering + 1 := entering_set _ _ found
      have absent : id ∉ s.registry.connections.keys := by
        simp [Finmap.mem_keys_iff, (inv.waiting found rfl).2]
      refine behind 0 0 gauged rfl ?_
      rw [len, len, keys_enter, Finset.card_insert_of_notMem absent]
      omega
  | activate found =>
      have fewer := entering_set (s.registry) .done found
      exact behind 1 0 gauged (UInt64.add_zero _) (congrArg (· + s.registry.len) fewer)
  | whole op silent notAdd lock =>
      obtain ⟨back, word, entries⟩ := active_step s.registry silent notAdd
      refine behind 0 back gauged (word.trans (UInt64.add_zero _).symm) ?_
      rw [entering_concat s _ rfl]
      change s.entering + 0 + _ = s.entering + (s.registry.step op).1.len + back
      omega
  | total found | finish found => exact gauged.same rfl (entering_set_same _ _ found rfl) rfl
  | visit found _ =>
      exact gauged.same rfl (entering_set_same _ _ found (by rw [entering?_visited]; rfl))
        (len_alter _ _ _)
  | @tally k d rest delivered id outcome found =>
      refine gauged.same ?_ (entering_set_same _ _ found rfl) rfl
      cases outcome <;> rfl
  | mark found => exact gauged.same rfl (entering_set_same _ _ found rfl) (len_alter _ _ _)

theorem Gauged.of_run {as : List (Action F)} {s : Threads F} (run : Run Step start as s)
    (ids : as.countP Action.isIssue ≤ 2 ^ 64) : s.Gauged :=
  (Sound.guarded run ids).invariant
    (fun gauged step => step.2.elim fun _ sound => gauged.step sound.2 step.1) rfl

/-- **The books in every interleaving.**  With at most `2 ^ 64` calls of `add`: each counter that
only grows is behind the number of what it counts by the calls that have done it and not counted it
yet, and the gauge of open connections is behind the number of entries by the calls of `add` that
have yet to count theirs; once all calls have returned, all four are exact, modulo `2 ^ 64`. -/
theorem run_books {as : List (Action F)} {s : Threads F} (run : Run Step start as s)
    (ids : as.countP Action.isIssue ≤ 2 ^ 64) :
    (∀ counter, s.registry.metrics.read counter +
      UInt64.ofNat (s.calls.countP (Call.owes counter)) =
        UInt64.ofNat (as.countP (Action.incurs counter))) ∧
    s.registry.metrics.connectionsActive + UInt64.ofNat s.entering =
      UInt64.ofNat s.registry.len ∧
    ((∀ c ∈ s.calls, c = .done) →
      (∀ counter, s.registry.metrics.read counter =
        UInt64.ofNat (as.countP (Action.incurs counter))) ∧
      s.registry.metrics.connectionsActive = UInt64.ofNat s.registry.len) := by
  have books : ∀ counter, s.registry.metrics.read counter +
      UInt64.ofNat (s.calls.countP (Call.owes counter)) =
        UInt64.ofNat (as.countP (Action.incurs counter)) := by
    intro counter
    refine run.invariant_trace (I := fun as s => s.registry.metrics.read counter +
      UInt64.ofNat (s.calls.countP (Call.owes counter)) =
        UInt64.ofNat (as.countP (Action.incurs counter))) ?_ (by cases counter <;> rfl)
    intro bs s a t exact step
    obtain ⟨word, number⟩ := owed_step step counter
    refine behind (if a.pays counter then 1 else 0) 0 exact
      ((UInt64.add_zero _).trans word) ?_
    rw [List.countP_append, List.countP_singleton]
    omega
  have gauged := Gauged.of_run run ids
  refine ⟨books, gauged, fun settled => ⟨fun counter => ?_, ?_⟩⟩
  · have none : s.calls.countP (Call.owes counter) = 0 := by
      rw [List.countP_eq_zero]
      intro c member
      rw [settled c member]
      cases counter <;> simp [Call.owes]
    have exact := books counter
    rw [none] at exact
    exact (UInt64.add_zero _).symm.trans exact
  · have none : s.entering = 0 := by
      rw [entering, List.countP_eq_zero]
      intro c member
      rw [settled c member]
      simp [Call.entering?]
    rw [Gauged, none] at gauged
    exact (UInt64.add_zero _).symm.trans gauged

/-- After the overlap the counters are exact. -/
theorem run_books_overlap :
    ∃ s, Run Step start overlap s ∧ overlap.countP Action.isIssue ≤ 2 ^ 64 ∧
      s.registry.metrics.read .dropped +
        UInt64.ofNat (s.calls.countP (Call.owes .dropped)) = UInt64.ofNat 1 := by
  obtain ⟨s, computed⟩ := overlap_computed
  have run := Run.of_foldlM step_of_exec computed
  exact ⟨s, run, by decide, (run_books run (by decide)).1 .dropped⟩

/-! ## Connections are removed after their `add` has returned -/

/-- The connection that the step removes. -/
def Action.removes? : Action F → Option ConnectionId
  | whole _ (.remove id) _ => some id
  | _ => none

/-- The step removes no connection whose `add` is still under way. -/
def Returned (s : Threads F) (a : Action F) : Prop :=
  ∀ id ∈ a.removes?, ∀ c ∈ s.calls, c.entering? ≠ some id

instance (s : Threads F) (a : Action F) : Decidable (Returned s a) :=
  inferInstanceAs (Decidable (∀ id ∈ a.removes?, ∀ c ∈ s.calls, c.entering? ≠ some id))

/-- The connections of the calls of `add` that have yet to count are registered, and different. -/
structure Entered (s : Threads F) : Prop where
  registered : ∀ {c id}, c ∈ s.calls → c.entering? = some id → id ∈ s.registry.connections.keys
  apart : ∀ {j k : Nat} {b c : Call F} {id}, s.calls[j]? = some b → s.calls[k]? = some c →
    b.entering? = some id → c.entering? = some id → j = k

namespace Entered

variable {n : Nat} {s t : Threads F}

/-- A call moves on with the connection it had, or with none. -/
theorem advance (entered : Entered s) {r : Registry F} {k : Nat} {c c' : Call F}
    (found : s.calls[k]? = some c)
    (kept : ∀ {id}, c'.entering? = some id → c.entering? = some id)
    (keys : ∀ {c id}, c ∈ s.calls → c.entering? = some id →
      id ∈ s.registry.connections.keys → id ∈ r.connections.keys) :
    Entered ⟨r, s.calls.set k c'⟩ where
  registered {b id} member enters := by
    rcases List.mem_or_eq_of_mem_set member with old | rfl
    · exact keys old enters (entered.registered old enters)
    · have here := List.mem_of_getElem? found
      exact keys here (kept enters) (entered.registered here (kept enters))
  apart here there first second := by
    rcases Tickets.of_set here with ⟨rfl, rfl⟩ | ⟨-, old⟩
    · rcases Tickets.of_set there with ⟨rfl, -⟩ | ⟨-, old'⟩
      · rfl
      · exact entered.apart found old' (kept first) second
    · rcases Tickets.of_set there with ⟨rfl, rfl⟩ | ⟨-, old'⟩
      · exact entered.apart old found first (kept second)
      · exact entered.apart old old' first second

/-- A call begins that registers nothing. -/
theorem join (entered : Entered s) {r : Registry F} {c' : Call F} (idle : c'.entering? = none)
    (keys : ∀ {c id}, c ∈ s.calls → c.entering? = some id →
      id ∈ s.registry.connections.keys → id ∈ r.connections.keys) :
    Entered ⟨r, s.calls ++ [c']⟩ where
  registered {b id} member enters := by
    rcases List.mem_append.mp member with old | new
    · exact keys old enters (entered.registered old enters)
    · rw [List.mem_singleton.mp new, idle] at enters
      cases enters
  apart here there first second := by
    rcases Tickets.of_concat here with ⟨-, rfl⟩ | ⟨-, old⟩
    · rw [idle] at first
      cases first
    · rcases Tickets.of_concat there with ⟨-, rfl⟩ | ⟨-, old'⟩
      · rw [idle] at second
        cases second
      · exact entered.apart old old' first second

theorem step {a : Action F} (entered : Entered s) (inv : Sound n s) (step : Step s a t)
    (returned : Returned s a) : Entered t := by
  cases step with
  | issue _ _ | begin _ => exact entered.join rfl fun _ _ listed => listed
  | @insert k subject sendQueue id found lock =>
      have absent : id ∉ s.registry.connections.keys := by
        simp [Finmap.mem_keys_iff, (inv.waiting found rfl).2]
      have alone : ∀ {b : Call F}, b ∈ s.calls → b.entering? ≠ some id := fun member enters =>
        absent (entered.registered member enters)
      refine ⟨?_, ?_⟩
      · intro b other member enters
        change other ∈ (s.registry.enter id subject sendQueue).connections.keys
        rw [keys_enter]
        rcases List.mem_or_eq_of_mem_set member with old | rfl
        · exact Finset.mem_insert_of_mem (entered.registered old enters)
        · cases enters
          exact Finset.mem_insert_self _ _
      · intro i j b c other here there first second
        rcases Tickets.of_set here with ⟨rfl, rfl⟩ | ⟨-, old⟩
        · rcases Tickets.of_set there with ⟨rfl, -⟩ | ⟨-, old'⟩
          · rfl
          · cases first
            exact absurd second (alone (List.mem_of_getElem? old'))
        · rcases Tickets.of_set there with ⟨rfl, rfl⟩ | ⟨-, old'⟩
          · cases second
            exact absurd first (alone (List.mem_of_getElem? old))
          · exact entered.apart old old' first second
  | total found => exact entered.advance found (fun same => same) fun _ _ listed => listed
  | activate found | finish found | tally found =>
      exact entered.advance found (fun enters => by cases enters) fun _ _ listed => listed
  | whole op silent notAdd lock =>
      refine entered.join rfl fun {c id} member enters listed => ?_
      rw [keys_step]
      cases op with
      | add _ _ => cases notAdd
      | remove i =>
          refine Finset.mem_erase.mpr ⟨?_, listed⟩
          rintro rfl
          exact returned _ rfl c member enters
      | publish _ _ | broadcast _ | send _ _ | subscribe _ _ _ | unsubscribe _ _ | recv _
      | close _ => exact listed
  | visit found _ =>
      refine entered.advance found (fun enters => ?_) fun _ _ listed => ?_
      · rw [entering?_visited] at enters
        cases enters
      · rwa [push, keys_alter]
  | mark found =>
      refine entered.advance found (fun enters => by cases enters) fun _ _ listed => ?_
      rwa [mark, keys_alter]

end Entered

/-- There are no more entries than ids taken. -/
theorem len_le {n : Nat} {r : Registry F} (inv : r.Consistent n) : r.len ≤ n := by
  have covered : r.connections.keys ⊆ (Finset.range n).image nth := by
    intro id listed
    obtain ⟨conn, found⟩ := Finmap.mem_keys_iff.mp listed
    obtain ⟨k, earlier, rfl⟩ := inv.issued found
    exact Finset.mem_image_of_mem _ (Finset.mem_range.mpr earlier)
  calc r.len ≤ ((Finset.range n).image nth).card := Finset.card_le_card covered
    _ ≤ (Finset.range n).card := Finset.card_image_le
    _ = n := Finset.card_range n

/-- **The gauge does not go below zero.**  Where a connection is removed only after its `add` has
returned, in every interleaving of fewer than `2 ^ 64` calls of `add` the gauge of open connections
and the calls of `add` that have yet to count add up to the number of entries, as numbers. -/
theorem run_gauge {as : List (Action F)} {s : Threads F}
    (run : Run (fun s a t => Step s a t ∧ Returned s a) start as s)
    (ids : as.countP Action.isIssue < 2 ^ 64) :
    s.registry.metrics.connectionsActive.toNat + s.entering = s.registry.len := by
  have guarded := run.guarded (I := Sound) Action.isIssue (2 ^ 64)
    (fun within inv step => inv.step step.1 within) (by omega) Sound.start
  have entered : Entered s := guarded.invariant
    (fun entered step => step.2.elim fun _ sound => entered.step sound.2 step.1.1 step.1.2)
    ⟨fun member => (by cases member), fun found => (by cases found)⟩
  have plain : Run Step start as s := run.mono fun step => step.1
  have sound := Sound.of_run plain ids.le
  have fewer : s.entering ≤ s.registry.len :=
    Tickets.countP_le_card entered.apart entered.registered
  have gauged := Gauged.of_run plain ids.le
  have less := len_le sound.consistent
  have word : s.registry.metrics.connectionsActive =
      UInt64.ofNat (s.registry.len - s.entering) := by
    have sum : s.registry.len = s.registry.len - s.entering + s.entering := by omega
    rw [Gauged, sum, UInt64.ofNat_add] at gauged
    exact (UInt64.add_left_inj _).mp gauged
  rw [word, UInt64.toNat_ofNat', Nat.mod_eq_of_lt (by omega)]
  omega

/-- The one connection of the overlap is removed after its `add` has returned. -/
theorem run_gauge_overlap :
    ∃ s, Run (fun s a t => Step s a t ∧ Returned s a) start overlap s ∧
      overlap.countP Action.isIssue < 2 ^ 64 ∧
      s.registry.metrics.connectionsActive.toNat + s.entering = s.registry.len := by
  have computed : ∃ s, overlap.foldlM
      (fun s a => if Returned s a then exec s a else none) start = some s :=
    Option.isSome_iff_exists.mp (by decide)
  obtain ⟨s, computed⟩ := computed
  have run : Run (fun s a t => Step s a t ∧ Returned s a) start overlap s := by
    refine Run.of_foldlM (fun taken => ?_) computed
    rw [Option.ite_none_right_eq_some] at taken
    exact ⟨step_of_exec taken.2, taken.1⟩
  exact ⟨s, run, by decide, run_gauge run (by decide)⟩

end Threads

end WsFanout
