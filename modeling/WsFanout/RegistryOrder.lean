import WsFanout.RegistryLinear

/-!
# Counts and orders of the delivering calls

What the labels of a run say about its delivering calls.  `Threads.run_count`: the count that such a
call returns is the number of connections whose queue took its frame.  `Threads.run_one_order`:
where the calls of `publish` on a channel do not overlap, as from a single publishing thread, every
connection sees them in one order.
-/

namespace WsFanout

open Lib ConnectionId

variable {F : Type}

/-- The call publishes on `ch`. -/
def Op.onChannel (ch : String) : Op F → Bool
  | .publish channel _ => decide (channel = ch)
  | _ => false

/-- What the connection sees is published on `ch`. -/
def LocalOp.onChannel (ch : String) : LocalOp F → Bool
  | .publish channel _ => decide (channel = ch)
  | _ => false

theorem Op.onChannel_localTo {nextId : UInt64} {id : ConnectionId} {op : Op F} {own : LocalOp F}
    (reaches : op.localTo nextId id = some own) (ch : String) :
    own.onChannel ch = op.onChannel ch := by
  cases op with
  | publish _ _ | broadcast _ => cases reaches; rfl
  | add _ _ | remove _ | subscribe _ _ _ | unsubscribe _ _ | send _ _ | recv _ | close _ =>
      simp only [Op.localTo, Option.ite_none_right_eq_some] at reaches
      obtain ⟨-, reaches⟩ := reaches
      cases reaches
      rfl

theorem Op.onChannel_of_silent {op : Op F} (silent : op.frame? = none) (ch : String) :
    op.onChannel ch = false := by
  cases op with
  | publish _ _ => cases silent
  | add _ _ | remove _ | subscribe _ _ _ | unsubscribe _ _ | broadcast _ | send _ _ | recv _
  | close _ => rfl

theorem Op.eq_publish {ch : String} {op : Op F} (published : op.onChannel ch = true) :
    ∃ frame, op = .publish ch frame := by
  cases op with
  | publish channel frame =>
      exact ⟨frame, congrArg (Op.publish · frame) (of_decide_eq_true published)⟩
  | add _ _ | remove _ | subscribe _ _ _ | unsubscribe _ _ | broadcast _ | send _ _ | recv _
  | close _ => cases published

namespace Registry

/-- A delivering call reaches what it visits. -/
theorem localTo_of_mem_targets {r : Registry F} {op : Op F} {id : ConnectionId}
    (listed : id ∈ r.targets op) : ∃ own, op.localTo 0 id = some own := by
  cases op with
  | publish _ _ | broadcast _ => exact ⟨_, rfl⟩
  | send i _ => exact ⟨_, if_pos (Finset.mem_singleton.mp listed)⟩
  | add _ _ | remove _ | subscribe _ _ _ | unsubscribe _ _ | recv _ | close _ => cases listed

/-- A silent call does not answer as a delivering one does. -/
theorem reply_ne_sent (r : Registry F) {op : Op F} (silent : op.frame? = none) (ok : Bool) :
    (r.step op).2 ≠ .sent ok := by
  cases op with
  | publish _ _ | broadcast _ | send _ _ => cases silent
  | add _ _ | remove _ | subscribe _ _ _ | unsubscribe _ _ | recv _ | close _ =>
      intro same
      cases same

end Registry

namespace Threads

open Registry

/-- A delivering call under way after a step was under way before it, or begins with it. -/
theorem fanOut_step {s t : Threads F} {a : Action F} (step : Step s a t) {k : Nat} {c' : Call F}
    {op : Op F} {rest' : Finset ConnectionId} (found : t.calls[k]? = some c')
    (fans : c'.fanOut? = some (op, rest')) :
    (∃ c rest, s.calls[k]? = some c ∧ c.fanOut? = some (op, rest) ∧ rest' ⊆ rest) ∨
      (k = s.calls.length ∧ a = .begin k op rest' ∧ rest' = s.registry.targets op) := by
  cases step with
  | issue _ _ | whole _ _ _ _ =>
      rcases Tickets.of_concat found with ⟨rfl, rfl⟩ | ⟨-, old⟩
      · cases fans
      · exact .inl ⟨c', rest', old, fans, Finset.Subset.refl _⟩
  | begin d =>
      rcases Tickets.of_concat found with ⟨rfl, rfl⟩ | ⟨-, old⟩
      · cases fans
        exact .inr ⟨rfl, rfl, rfl⟩
      · exact .inl ⟨c', rest', old, fans, Finset.Subset.refl _⟩
  | insert _ _ | total _ | activate _ | finish _ =>
      rcases Tickets.of_set found with ⟨rfl, rfl⟩ | ⟨-, old⟩
      · cases fans
      · exact .inl ⟨c', rest', old, fans, Finset.Subset.refl _⟩
  | tally here | mark here =>
      rcases Tickets.of_set found with ⟨rfl, rfl⟩ | ⟨-, old⟩
      · cases fans
        exact .inl ⟨_, _, here, rfl, Finset.Subset.refl _⟩
      · exact .inl ⟨c', rest', old, fans, Finset.Subset.refl _⟩
  | visit here ahead =>
      rcases Tickets.of_set found with ⟨rfl, rfl⟩ | ⟨-, old⟩
      · rw [Call.fanOut?_visited] at fans
        cases fans
        exact .inl ⟨_, _, here, rfl, Finset.erase_subset _ _⟩
      · exact .inl ⟨c', rest', old, fans, Finset.Subset.refl _⟩

/-- What the labels of a run say of one another. -/
structure Traced (as : List (Action F)) (s : Threads F) : Prop where
  begun : ∀ {k : Nat} {c : Call F} {op rest}, s.calls[k]? = some c → c.fanOut? = some (op, rest) →
    ∃ targets, .begin k op targets ∈ as ∧ rest ⊆ targets
  visited : ∀ {k op id outcome}, .visit k op id outcome ∈ as →
    ∃ targets, .begin k op targets ∈ as ∧ id ∈ targets
  reaches : ∀ {k op targets id}, .begin k op targets ∈ as → id ∈ targets →
    ∃ own, op.localTo 0 id = some own
  silent : ∀ {k op reply}, .whole k op reply ∈ as →
    op.frame? = none ∧ ∀ ok, reply ≠ .sent ok

namespace Traced

variable {as : List (Action F)} {s t : Threads F}

theorem start : Traced [] (start : Threads F) where
  begun found := by cases found
  visited member := by cases member
  reaches member := by cases member
  silent member := by cases member

theorem step {a : Action F} (traced : Traced as s) (step : Step s a t) :
    Traced (as ++ [a]) t where
  begun found fans := by
    rcases fanOut_step step found fans with ⟨c, rest, old, before, fewer⟩ | ⟨rfl, rfl, -⟩
    · obtain ⟨targets, began, within⟩ := traced.begun old before
      exact ⟨targets, List.mem_append_left _ began, fewer.trans within⟩
    · exact ⟨_, List.mem_append_right _ (List.mem_singleton_self _), Finset.Subset.refl _⟩
  visited member := by
    rcases List.mem_append.mp member with old | new
    · obtain ⟨targets, began, inside⟩ := traced.visited old
      exact ⟨targets, List.mem_append_left _ began, inside⟩
    · obtain rfl := List.mem_singleton.mp new
      cases step with
      | visit found ahead =>
          obtain ⟨targets, began, within⟩ := traced.begun found rfl
          exact ⟨targets, List.mem_append_left _ began, within ahead⟩
  reaches member inside := by
    rcases List.mem_append.mp member with old | new
    · exact traced.reaches old inside
    · obtain rfl := List.mem_singleton.mp new
      cases step with
      | begin d => exact localTo_of_mem_targets inside
  silent member := by
    rcases List.mem_append.mp member with old | new
    · exact traced.silent old
    · obtain rfl := List.mem_singleton.mp new
      cases step with
      | whole op quiet _ _ => exact ⟨quiet, reply_ne_sent s.registry quiet⟩

theorem of_run (run : Run Step Threads.start as s) : Traced as s :=
  run.invariant_trace (fun traced step => traced.step step) start

end Traced

/-! ## The count a delivering call returns -/

/-- The connection whose queue takes the frame of call `k` with this step. -/
def Action.takes (k : Nat) : Action F → Option ConnectionId
  | visit j _ id outcome => if j = k ∧ outcome = some .ok then some id else none
  | _ => none

/-- The connections whose queues took the frame of call `k`. -/
def takers (k : Nat) (as : List (Action F)) : List ConnectionId :=
  as.filterMap (Action.takes k)

end Threads

/-- The queues that took the frame of the call so far, counted or not. -/
def Call.accepted : Call F → Nat
  | visiting _ _ delivered => delivered
  | tallying _ _ delivered _ outcome => if outcome = .ok then delivered + 1 else delivered
  | marking _ _ delivered _ outcome => if outcome = .ok then delivered + 1 else delivered
  | _ => 0

/-- The call publishes on `ch` and has not returned. -/
def Call.publishing (ch : String) (c : Call F) : Bool :=
  c.fanOut?.any fun under => under.1.onChannel ch

theorem Call.publishing_of_fanOut? {ch : String} {c : Call F} {op : Op F}
    {rest : Finset ConnectionId} (fans : c.fanOut? = some (op, rest)) :
    c.publishing ch = op.onChannel ch := by
  rw [publishing, fans]
  rfl

theorem Call.accepted_visited (d : Delivery F) (rest : Finset ConnectionId) (delivered : Nat)
    (id : ConnectionId) (outcome : Option TrySend) :
    (visited d rest delivered id outcome).accepted =
      if outcome = some .ok then delivered + 1 else delivered := by
  cases outcome with
  | none => rfl
  | some outcome => cases outcome <;> rfl

namespace Threads

theorem takers_append (k : Nat) (as bs : List (Action F)) :
    takers k (as ++ bs) = takers k as ++ takers k bs :=
  List.filterMap_append

/-- The takers of each call: those it counted while it is under way, and as many as it returned. -/
structure Counted (as : List (Action F)) (s : Threads F) : Prop where
  fresh : ∀ {k id}, id ∈ takers k as → k < s.calls.length ∧ ¬ Pending s k id
  once : ∀ k, (takers k as).Nodup
  underway : ∀ {k : Nat} {c : Call F} {op rest}, s.calls[k]? = some c →
    c.fanOut? = some (op, rest) → (takers k as).length = c.accepted
  returned : ∀ {k delivered}, .finish k delivered ∈ as →
    s.calls[k]? = some .done ∧ (takers k as).length = delivered

namespace Counted

variable {as : List (Action F)} {s t : Threads F}

theorem start : Counted [] (start : Threads F) where
  fresh member := by cases member
  once _ := List.nodup_nil
  underway found := by cases found
  returned member := by cases member

/-- A queue takes a frame when a call under way visits its connection, and then not again. -/
theorem takes_step {a : Action F} (step : Step s a t) {k : Nat} {id : ConnectionId}
    (takes : a.takes k = some id) :
    k < s.calls.length ∧ Pending s k id ∧ ¬ Pending t k id := by
  cases step with
  | issue _ _ | insert _ _ | total _ | activate _ | whole _ _ _ _ | begin _ | tally _ | mark _
  | finish _ => cases takes
  | @visit j d rest delivered i found ahead =>
      simp only [Action.takes, Option.ite_none_right_eq_some, Option.some.injEq] at takes
      obtain ⟨⟨rfl, -⟩, rfl⟩ := takes
      refine ⟨Tickets.lt_length found, ⟨_, found, ahead⟩, ?_⟩
      rintro ⟨c, here, inside⟩
      rw [Tickets.set_self found] at here
      cases here
      rw [Call.ahead_of_fanOut? (Call.fanOut?_visited _ _ _ _ _)] at inside
      exact Finset.notMem_erase _ _ inside

/-- What a call under way has counted grows by what its step took. -/
theorem accepted_step {a : Action F} (step : Step s a t) {k : Nat} {c' : Call F} {op : Op F}
    {rest' : Finset ConnectionId} (found : t.calls[k]? = some c')
    (fans : c'.fanOut? = some (op, rest')) :
    (∃ c rest, s.calls[k]? = some c ∧ c.fanOut? = some (op, rest) ∧
      c'.accepted = c.accepted + (takers k [a]).length) ∨
      (k = s.calls.length ∧ c'.accepted = 0 ∧ takers k [a] = []) := by
  cases step with
  | issue _ _ | whole _ _ _ _ =>
      rcases Tickets.of_concat found with ⟨rfl, rfl⟩ | ⟨-, old⟩
      · cases fans
      · exact .inl ⟨c', rest', old, fans, rfl⟩
  | begin d =>
      rcases Tickets.of_concat found with ⟨rfl, rfl⟩ | ⟨-, old⟩
      · cases fans
        exact .inr ⟨rfl, rfl, rfl⟩
      · exact .inl ⟨c', rest', old, fans, rfl⟩
  | insert _ _ | total _ | activate _ | finish _ =>
      rcases Tickets.of_set found with ⟨rfl, rfl⟩ | ⟨-, old⟩
      · cases fans
      · exact .inl ⟨c', rest', old, fans, rfl⟩
  | tally here | mark here =>
      rcases Tickets.of_set found with ⟨rfl, rfl⟩ | ⟨-, old⟩
      · cases fans
        exact .inl ⟨_, _, here, rfl, rfl⟩
      · exact .inl ⟨c', rest', old, fans, rfl⟩
  | @visit j d rest delivered id here ahead =>
      rcases Tickets.of_set found with ⟨rfl, rfl⟩ | ⟨differs, old⟩
      · rw [Call.fanOut?_visited] at fans
        cases fans
        refine .inl ⟨_, _, here, rfl, ?_⟩
        rw [Call.accepted_visited, takers]
        by_cases took : s.registry.pushed? id d.frame = some .ok <;>
          simp [Action.takes, took, Call.accepted]
      · refine .inl ⟨c', rest', old, fans, ?_⟩
        simp [takers, Action.takes, differs.symm]

theorem step {a : Action F} (counted : Counted as s) (step : Step s a t) :
    Counted (as ++ [a]) t := by
  have last : ∀ {k id}, id ∈ takers k [a] → a.takes k = some id := by
    intro k id member
    obtain ⟨b, listed, takes⟩ := List.mem_filterMap.mp member
    rwa [List.mem_singleton.mp listed] at takes
  refine ⟨?_, ?_, ?_, ?_⟩
  · intro k id member
    rw [takers_append] at member
    rcases List.mem_append.mp member with old | new
    · obtain ⟨before, reached⟩ := counted.fresh old
      refine ⟨Nat.lt_of_lt_of_le before (length_step step), fun pending => ?_⟩
      rcases pending_step step pending with still | begins
      · exact reached still
      · omega
    · obtain ⟨before, -, reached⟩ := takes_step step (last new)
      exact ⟨Nat.lt_of_lt_of_le before (length_step step), reached⟩
  · intro k
    rw [takers_append]
    refine List.nodup_append'.mpr ⟨counted.once k, ?_, fun id old new => ?_⟩
    · unfold takers
      cases takes : a.takes k <;> simp [takes]
    · exact (counted.fresh old).2 (takes_step step (last new)).2.1
  · intro k c' op rest' found fans
    rw [takers_append, List.length_append]
    rcases accepted_step step found fans with ⟨c, rest, old, before, grown⟩ | ⟨rfl, none, still⟩
    · rw [grown, counted.underway old before]
    · rw [none, still, List.length_nil, Nat.add_zero, List.length_eq_zero_iff,
        List.eq_nil_iff_forall_not_mem]
      intro id member
      exact Nat.lt_irrefl _ (counted.fresh member).1
  · intro k delivered member
    rw [takers_append]
    rcases List.mem_append.mp member with old | new
    · obtain ⟨done, count⟩ := counted.returned old
      have idle : takers k [a] = [] := by
        rw [List.eq_nil_iff_forall_not_mem]
        intro id taken
        obtain ⟨c, found, inside⟩ := (takes_step step (last taken)).2.1
        rw [done] at found
        cases found
        cases inside
      rw [idle, List.append_nil]
      exact ⟨done_step step done, count⟩
    · obtain rfl := List.mem_singleton.mp new
      cases step with
      | finish found =>
          refine ⟨Tickets.set_self found, ?_⟩
          rw [List.length_append, counted.underway found rfl]
          rfl

end Counted

/-- **The count is the number of takers.**  In every interleaving, a delivering call returns how
many connections took its frame: the connections that saw it and answered so, each of them once. -/
theorem run_count {as : List (Action F)} {s : Threads F} (run : Run Step start as s) {k : Nat}
    {delivered : Nat} (returned : .finish k delivered ∈ as) :
    (takers k as).Nodup ∧ (takers k as).length = delivered ∧
      ∀ id, id ∈ takers k as ↔ ∃ own, (k, own, .sent true) ∈ history id as := by
  have counted : Counted as s := run.invariant_trace
    (fun counted step => counted.step step) Counted.start
  have traced := Traced.of_run run
  refine ⟨counted.once k, (counted.returned returned).2, fun id => ?_⟩
  rw [takers, List.mem_filterMap]
  constructor
  · rintro ⟨a, member, takes⟩
    cases a with
    | visit j op i outcome =>
        simp only [Action.takes, Option.ite_none_right_eq_some, Option.some.injEq] at takes
        obtain ⟨⟨rfl, rfl⟩, rfl⟩ := takes
        obtain ⟨targets, began, inside⟩ := traced.visited member
        obtain ⟨own, reaches⟩ := traced.reaches began inside
        exact ⟨own, mem_history.mpr ⟨_, member, by simp [Action.seen, reaches]⟩⟩
    | issue _ _ _ | insert _ _ _ _ | total _ | activate _ | whole _ _ _ | begin _ _ _
    | tally _ _ | mark _ _ _ | finish _ _ => cases takes
  · rintro ⟨own, seen⟩
    obtain ⟨a, member, sees⟩ := mem_history.mp seen
    cases a with
    | issue _ _ _ | total _ | activate _ | tally _ _ | mark _ _ _ | finish _ _ => cases sees
    | insert j subject sendQueue i => simp [Action.seen] at sees
    | whole j op reply =>
        obtain ⟨own', -, same⟩ := Option.map_eq_some_iff.mp sees
        cases same
        exact absurd rfl ((traced.silent member).2 true)
    | begin j op targets => simp [Action.seen] at sees
    | visit j op i outcome =>
        simp only [Action.seen, Option.ite_none_right_eq_some] at sees
        obtain ⟨rfl, sees⟩ := sees
        obtain ⟨own', -, same⟩ := Option.map_eq_some_iff.mp sees
        simp only [Prod.mk.injEq, Reply.sent.injEq, decide_eq_true_eq] at same
        obtain ⟨rfl, -, took⟩ := same
        exact ⟨_, member, by simp [Action.takes, took]⟩

/-- Of the two calls that overlap one returns one taker and the other none. -/
theorem run_count_overlap :
    ∃ s, Run Step start overlap s ∧ .finish 3 1 ∈ overlap ∧ takers 3 overlap = [⟨1⟩] ∧
      (takers 3 overlap).length = 1 := by
  obtain ⟨s, computed⟩ := overlap_computed
  have run := Run.of_foldlM step_of_exec computed
  exact ⟨s, run, by decide, by decide, (run_count run (by decide)).2.1⟩

/-! ## Calls on one channel that do not overlap -/

/-- The delivering call that begins with this step. -/
def Action.begins? : Action F → Option (Op F)
  | begin _ op _ => some op
  | _ => none

/-- While a call publishes on `ch`, no other begins to. -/
def Serial (ch : String) (s : Threads F) (a : Action F) : Prop :=
  ∀ op ∈ a.begins?, op.onChannel ch = true → ∀ c ∈ s.calls, c.publishing ch = false

instance (ch : String) (s : Threads F) (a : Action F) : Decidable (Serial ch s a) :=
  inferInstanceAs (Decidable (∀ op ∈ a.begins?, op.onChannel ch = true →
    ∀ c ∈ s.calls, c.publishing ch = false))

/-- What the connection sees published on `ch`. -/
def published (ch : String) (id : ConnectionId) (as : List (Action F)) : List (Seen F) :=
  (history id as).filter fun x => x.2.1.onChannel ch

/-- What a connection sees published on `ch` comes from a call that begins with this step, or from
one under way that had yet to visit it. -/
theorem publishing_step {s t : Threads F} {a : Action F} (step : Step s a t) {ch : String}
    {id : ConnectionId} {x : Seen F} (sees : a.seen id = some x)
    (on : x.2.1.onChannel ch = true) :
    (∃ op ids, a = .begin x.1 op ids ∧ op.onChannel ch = true ∧ x.1 = s.calls.length ∧
      id ∉ ids) ∨
    ∃ c op rest, s.calls[x.1]? = some c ∧ c.fanOut? = some (op, rest) ∧
      op.onChannel ch = true ∧ id ∈ rest := by
  cases step with
  | issue _ _ | total _ | activate _ | tally _ | mark _ | finish _ => cases sees
  | @insert k subject sendQueue i found lock =>
      simp only [Action.seen, Option.ite_none_right_eq_some, Option.some.injEq] at sees
      obtain ⟨-, rfl⟩ := sees
      cases on
  | whole op silent notAdd lock =>
      obtain ⟨own, reaches, rfl⟩ := Option.map_eq_some_iff.mp sees
      rw [Op.onChannel_localTo reaches, Op.onChannel_of_silent silent] at on
      cases on
  | begin d =>
      simp only [Action.seen, Option.ite_none_left_eq_some] at sees
      obtain ⟨outside, sees⟩ := sees
      obtain ⟨own, reaches, rfl⟩ := Option.map_eq_some_iff.mp sees
      rw [Op.onChannel_localTo reaches] at on
      exact .inl ⟨_, _, rfl, on, rfl, outside⟩
  | @visit k d rest delivered i found ahead =>
      simp only [Action.seen, Option.ite_none_right_eq_some] at sees
      obtain ⟨rfl, sees⟩ := sees
      obtain ⟨own, reaches, rfl⟩ := Option.map_eq_some_iff.mp sees
      rw [Op.onChannel_localTo reaches] at on
      exact .inr ⟨_, _, _, found, rfl, on, ahead⟩

/-- The calls that publish on `ch` reach the connection in the order in which they began. -/
structure Ordered (ch : String) (id : ConnectionId) (as : List (Action F)) (s : Threads F) :
    Prop where
  seq : Sequenced id as s
  sorted : (published ch id as).Pairwise (·.1 < ·.1)
  last : ∀ {k : Nat} {c : Call F} {op rest}, s.calls[k]? = some c → c.fanOut? = some (op, rest) →
    op.onChannel ch = true → id ∈ rest → ∀ x ∈ published ch id as, x.1 < k
  single : ∀ {j k : Nat} {b c : Call F} {op op' rest rest'}, s.calls[j]? = some b →
    s.calls[k]? = some c → b.fanOut? = some (op, rest) → c.fanOut? = some (op', rest') →
    op.onChannel ch = true → op'.onChannel ch = true → j = k

namespace Ordered

variable {ch : String} {id : ConnectionId} {as : List (Action F)} {s t : Threads F}

theorem start : Ordered ch id [] (start : Threads F) where
  seq := Sequenced.start
  sorted := List.Pairwise.nil
  last found := by cases found
  single found := by cases found

theorem step {a : Action F} (ordered : Ordered ch id as s) (step : Step s a t)
    (serial : Serial ch s a) : Ordered ch id (as ++ [a]) t := by
  have old : ∀ {x}, x ∈ published ch id as → x.1 < s.calls.length := fun member =>
    (ordered.seq.reached (List.mem_of_mem_filter member)).1
  have split : published ch id (as ++ [a]) = published ch id as ++ published ch id [a] := by
    rw [published, history_append, List.filter_append]
    rfl
  have new : ∀ {x}, x ∈ published ch id [a] →
      a.seen id = some x ∧ x.2.1.onChannel ch = true := by
    intro x member
    obtain ⟨listed, on⟩ := List.mem_filter.mp member
    obtain ⟨b, single, sees⟩ := mem_history.mp listed
    rw [List.mem_singleton.mp single] at sees
    exact ⟨sees, on⟩
  refine ⟨ordered.seq.step step, ?_, ?_, ?_⟩
  · rw [split]
    refine List.pairwise_append.mpr ⟨ordered.sorted, ?_, fun x before y after => ?_⟩
    · refine List.Pairwise.filter _ ?_
      unfold history
      cases sees : a.seen id <;> simp [sees]
    · obtain ⟨sees, on⟩ := new after
      rcases publishing_step step sees on with
        ⟨op, ids, -, -, begins, -⟩ | ⟨c, op, rest, found, fans, here, ahead⟩
      · rw [begins]
        exact old before
      · exact ordered.last found fans here ahead x before
  · intro k c' op rest' found fans on inside x member
    rw [split] at member
    rcases List.mem_append.mp member with before | after
    · rcases fanOut_step step found fans with ⟨c, rest, here, under, fewer⟩ | ⟨rfl, -, -⟩
      · exact ordered.last here under on (fewer inside) x before
      · exact old before
    · -- the call that the connection sees has reached it, so it is not the one under way
      obtain ⟨sees, here⟩ := new after
      have reached := (seen_step step sees).2.1
      have other : x.1 ≠ k := by
        rintro rfl
        exact reached ⟨c', found, by rw [Call.ahead_of_fanOut? fans]; exact inside⟩
      exfalso
      rcases publishing_step step sees here with
        ⟨op', ids, rfl, on', begins, -⟩ | ⟨b, op', rest, before, under, on', -⟩
      · rcases fanOut_step step found fans with ⟨c, rest, still, under, -⟩ | ⟨same, -, -⟩
        · have none := serial _ rfl on' c (List.mem_of_getElem? still)
          rw [Call.publishing_of_fanOut? under, on] at none
          cases none
        · exact other (begins.trans same.symm)
      · rcases fanOut_step step found fans with ⟨c, rest, still, under', -⟩ | ⟨same, rfl, -⟩
        · exact other (ordered.single before still under under' on' on)
        · have none := serial _ rfl on b (List.mem_of_getElem? before)
          rw [Call.publishing_of_fanOut? under, on'] at none
          cases none
  · intro j k b c op op' rest rest' first second under under' on on'
    rcases fanOut_step step first under with ⟨b', left, here, fans, -⟩ | ⟨same, rfl, -⟩
    · rcases fanOut_step step second under' with ⟨c', left', there, fans', -⟩ | ⟨same, rfl, -⟩
      · exact ordered.single here there fans fans' on on'
      · have none := serial _ rfl on' b' (List.mem_of_getElem? here)
        rw [Call.publishing_of_fanOut? fans, on] at none
        cases none
    · rcases fanOut_step step second under' with ⟨c', left', there, fans', -⟩ | ⟨same', -, -⟩
      · have none := serial _ rfl on c' (List.mem_of_getElem? there)
        rw [Call.publishing_of_fanOut? fans', on'] at none
        cases none
      · exact same.trans same'.symm

end Ordered

/-- What every connection sees published on `ch`, while no such call is under way. -/
theorem mem_published {ch : String} {as : List (Action F)} {s : Threads F} {id : ConnectionId}
    (seq : Sequenced id as s) (traced : Traced as s)
    (quiet : ∀ c ∈ s.calls, c.publishing ch = false)
    (k : Nat) (own : LocalOp F) :
    (k, own) ∈ (published ch id as).map (fun x => (x.1, x.2.1)) ↔
      ∃ frame targets, own = .publish ch frame ∧ .begin k (.publish ch frame) targets ∈ as := by
  constructor
  · intro member
    obtain ⟨x, listed, same⟩ := List.mem_map.mp member
    cases same
    obtain ⟨listed, on⟩ := List.mem_filter.mp listed
    obtain ⟨a, taken, sees⟩ := mem_history.mp listed
    have from_begin : ∀ {op targets}, .begin x.1 op targets ∈ as →
        op.localTo 0 id = some x.2.1 → ∃ frame targets, x.2.1 = .publish ch frame ∧
          .begin x.1 (.publish ch frame) targets ∈ as := by
      intro op targets began reaches
      rw [Op.onChannel_localTo reaches] at on
      obtain ⟨frame, rfl⟩ := Op.eq_publish on
      exact ⟨frame, targets, (Option.some.inj reaches).symm, began⟩
    cases a with
    | issue _ _ _ | total _ | activate _ | tally _ _ | mark _ _ _ | finish _ _ => cases sees
    | insert j subject sendQueue i =>
        simp only [Action.seen, Option.ite_none_right_eq_some, Option.some.injEq] at sees
        obtain ⟨-, rfl⟩ := sees
        cases on
    | whole j op reply =>
        obtain ⟨own', reaches, rfl⟩ := Option.map_eq_some_iff.mp sees
        rw [Op.onChannel_localTo reaches, Op.onChannel_of_silent (traced.silent taken).1] at on
        cases on
    | begin j op targets =>
        simp only [Action.seen, Option.ite_none_left_eq_some] at sees
        obtain ⟨own', reaches, rfl⟩ := Option.map_eq_some_iff.mp sees.2
        exact from_begin taken reaches
    | visit j op i outcome =>
        simp only [Action.seen, Option.ite_none_right_eq_some] at sees
        obtain ⟨own', reaches, rfl⟩ := Option.map_eq_some_iff.mp sees.2
        obtain ⟨targets, began, -⟩ := traced.visited taken
        exact from_begin began reaches
  · rintro ⟨frame, targets, rfl, began⟩
    rcases seq.begun began rfl with ⟨c, rest, found, fans, -⟩ | ⟨reply, listed⟩
    · have none := quiet c (List.mem_of_getElem? found)
      rw [Call.publishing_of_fanOut? fans] at none
      simp [Op.onChannel] at none
    · refine List.mem_map.mpr ⟨_, List.mem_filter.mpr ⟨listed, ?_⟩, rfl⟩
      simp [LocalOp.onChannel]

end Threads

end WsFanout
