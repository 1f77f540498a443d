import WsFanout.RegistryInterleaving

/-!
# What one connection sees of the interleavings

A delivering call reaches its connections one after the other, and other calls take their steps in
between.  `Threads.Action.seen` says with which step a call reaches a given connection: one it has
yet to visit by the visit, any other at the call's beginning, where the call makes no difference to
it.  `Threads.run_linear` is the result: every connection sees the calls in some order, each of them
whole and with the answer the sequential registry gives, and that order keeps the order of calls
that do not overlap.  The streak of a connection is not part of what it sees, since it is updated by
a step of its own.
-/

namespace WsFanout

open Lib ConnectionId

variable {F : Type}

/-- A connection without its streak. -/
def Connection.quiet (conn : Connection F) : Connection F :=
  { conn with dropped := 0 }

/-- What the caller learns of this connection. -/
def LocalOp.reply : LocalOp F → Option (Connection F) → Reply F
  | .add _ _, _ => .unit
  | .remove, _ => .unit
  | .subscribe channels max, entry =>
    match entry with
    | none => .subscribed [] []
    | some conn =>
      let (_, added, overLimit) := Registry.subscribeLoop max conn.subscriptions channels
      .subscribed added overLimit
  | .unsubscribe channels, entry =>
    match entry with
    | none => .unsubscribed []
    | some conn => .unsubscribed (Registry.unsubscribeLoop conn.subscriptions channels).2
  | .publish channel _, entry =>
    .sent (entry.any fun conn => decide (channel ∈ conn.subscriptions) && conn.tx.accepts)
  | .broadcast _, entry => .sent (entry.any fun conn => conn.tx.accepts)
  | .send _, entry => .sent (entry.any fun conn => conn.tx.accepts)
  | .recv, entry =>
    .taken <|
      match entry with
      | none => .disconnected
      | some conn =>
        match conn.tx.recv.2 with
        | none => .empty
        | some frame => .frame frame
  | .close, _ => .unit

namespace LocalOp

/-- The streak makes no difference to the rest of a connection. -/
theorem apply_quiet (op : LocalOp F) (entry : Option (Connection F)) :
    (op.apply (entry.map Connection.quiet)).map Connection.quiet =
      (op.apply entry).map Connection.quiet := by
  cases entry with
  | none => rfl
  | some conn =>
      cases op with
      | publish channel frame =>
          simp only [apply, Option.map_some, Connection.quiet]
          split <;> rfl
      | add _ _ | remove | subscribe _ _ | unsubscribe _ | broadcast _ | send _ | recv | close =>
          rfl

/-- Nor to what is answered. -/
theorem reply_quiet (op : LocalOp F) (entry : Option (Connection F)) :
    op.reply (entry.map Connection.quiet) = op.reply entry := by
  cases entry <;> cases op <;> rfl

end LocalOp

namespace Threads

open Registry

/-- What one connection sees of a step: the call, how it reaches the connection, and the answer. -/
abbrev Seen (F : Type) :=
  Nat × LocalOp F × Reply F

/-- What the connection `id` sees of a step. -/
def Action.seen (id : ConnectionId) : Action F → Option (Seen F)
  | insert k subject sendQueue i => if id = i then some (k, .add subject sendQueue, .unit) else none
  | whole k op reply => (op.localTo 0 id).map fun seen => (k, seen, reply)
  | begin k op ids =>
    if id ∈ ids then none else (op.localTo 0 id).map fun seen => (k, seen, .sent false)
  | visit k op i outcome =>
    if id = i then
      (op.localTo 0 id).map fun seen => (k, seen, .sent (decide (outcome = some .ok)))
    else none
  | _ => none

/-- What the connection `id` sees of a run. -/
def history (id : ConnectionId) (as : List (Action F)) : List (Seen F) :=
  as.filterMap (Action.seen id)

/-- One call of a connection that is used by one call after the other. -/
def Turn (entry : Option (Connection F)) (seen : Seen F) (entry' : Option (Connection F)) : Prop :=
  seen.2.2 = seen.2.1.reply entry ∧ entry' = (seen.2.1.apply entry).map Connection.quiet

/-- The entry of a connection without its streak. -/
def view (id : ConnectionId) (s : Threads F) : Option (Connection F) :=
  (s.registry.connections.lookup id).map Connection.quiet

end Threads

namespace Registry

/-- A silent call answers what its connection answers. -/
theorem reply_step (r : Registry F) {op : Op F} (silent : op.frame? = none)
    (notAdd : op.isAdd = false) {id : ConnectionId} {seen : LocalOp F}
    (reaches : op.localTo 0 id = some seen) :
    (r.step op).2 = seen.reply (r.connections.lookup id) := by
  cases op with
  | add _ _ => cases notAdd
  | publish _ _ | broadcast _ | send _ _ => cases silent
  | remove i | close i =>
      simp only [Op.localTo, Option.ite_none_right_eq_some] at reaches
      obtain ⟨rfl, reaches⟩ := reaches
      cases reaches
      rfl
  | subscribe i channels max =>
      simp only [Op.localTo, Option.ite_none_right_eq_some] at reaches
      obtain ⟨rfl, reaches⟩ := reaches
      cases reaches
      simp only [step, subscribe, LocalOp.reply]
      cases r.connections.lookup id <;> rfl
  | unsubscribe i channels =>
      simp only [Op.localTo, Option.ite_none_right_eq_some] at reaches
      obtain ⟨rfl, reaches⟩ := reaches
      cases reaches
      simp only [step, unsubscribe, LocalOp.reply]
      cases r.connections.lookup id <;> rfl
  | recv i =>
      simp only [Op.localTo, Option.ite_none_right_eq_some] at reaches
      obtain ⟨rfl, reaches⟩ := reaches
      cases reaches
      exact congrArg Reply.taken (recv_spec r id).2.2.2

/-- Whose `add` it is makes no difference to the other calls. -/
theorem localTo_notAdd {op : Op F} (notAdd : op.isAdd = false) (nextId : UInt64)
    (id : ConnectionId) : op.localTo nextId id = op.localTo 0 id := by
  cases op with
  | add _ _ => cases notAdd
  | remove _ | subscribe _ _ _ | unsubscribe _ _ | publish _ _ | broadcast _ | send _ _ | recv _
  | close _ => rfl

/-- A connection that a delivering call does not visit would have taken nothing from it. -/
theorem untouched {n : Nat} {r : Registry F} (inv : Consistent n r) {op : Op F} {frame : F}
    (carries : op.frame? = some frame) {id : ConnectionId} (outside : id ∉ r.targets op)
    {seen : LocalOp F} (reaches : op.localTo 0 id = some seen) :
    seen.reply (r.connections.lookup id) = .sent false ∧
      seen.apply (r.connections.lookup id) = r.connections.lookup id := by
  cases op with
  | publish channel f =>
      cases reaches
      have unlisted : channel ∉ r.subscriptionsOf id := mt (inv.inverts.mem_members _ _).mpr outside
      cases found : r.connections.lookup id with
      | none => exact ⟨rfl, rfl⟩
      | some conn =>
          rw [subscriptionsOf_of_lookup found] at unlisted
          simp [LocalOp.reply, LocalOp.apply, unlisted]
  | broadcast f =>
      cases reaches
      have absent : r.connections.lookup id = none :=
        Finmap.lookup_eq_none.mpr (mt Finmap.mem_keys.mpr outside)
      rw [absent]
      exact ⟨rfl, rfl⟩
  | send i f =>
      rw [targets, Finset.mem_singleton] at outside
      simp [Op.localTo, outside] at reaches
  | add _ _ | remove _ | subscribe _ _ _ | unsubscribe _ _ | recv _ | close _ => cases carries

/-- A connection that a delivering call visits answers by its queue, and is offered the frame. -/
theorem touched {n : Nat} {r : Registry F} (inv : Consistent n r) {op : Op F} {frame : F}
    (carries : op.frame? = some frame) {id : ConnectionId} (inside : id ∈ r.targets op) :
    ∃ seen, op.localTo 0 id = some seen ∧
      seen.reply (r.connections.lookup id) =
        .sent (decide (r.pushed? id frame = some .ok)) ∧
      (seen.apply (r.connections.lookup id)).map Connection.quiet =
        ((r.push id frame).connections.lookup id).map Connection.quiet := by
  have pushed : (r.push id frame).connections.lookup id =
      (r.connections.lookup id).map fun conn => { conn with tx := (conn.tx.trySend frame).1 } := by
    rw [push, lookup_alter, if_pos rfl]
  have taken : ((r.connections.lookup id).any fun conn => conn.tx.accepts) =
      decide (r.pushed? id frame = some .ok) := by
    unfold pushed?
    cases r.connections.lookup id with
    | none => rfl
    | some conn =>
        rw [Option.any_some, Option.map_some, BoundedQueue.trySend_snd, BoundedQueue.accepts]
        cases conn.tx.isOpen with
        | false => rfl
        | true => by_cases room : conn.tx.buffer.length < conn.tx.capacity <;> simp [room]
  rw [pushed, ← taken]
  cases op with
  | publish channel f =>
      cases carries
      refine ⟨_, rfl, ?_⟩
      have listed : channel ∈ r.subscriptionsOf id := (inv.inverts.mem_members _ _).mp inside
      cases found : r.connections.lookup id with
      | none => exact ⟨rfl, rfl⟩
      | some conn =>
          rw [subscriptionsOf_of_lookup found] at listed
          simp [LocalOp.reply, LocalOp.apply, listed, Connection.offer, Connection.quiet]
  | broadcast f =>
      cases carries
      refine ⟨_, rfl, rfl, ?_⟩
      cases r.connections.lookup id <;> rfl
  | send i f =>
      cases carries
      rw [targets, Finset.mem_singleton] at inside
      refine ⟨_, if_pos inside, rfl, ?_⟩
      cases r.connections.lookup id <;> rfl
  | add _ _ | remove _ | subscribe _ _ _ | unsubscribe _ _ | recv _ | close _ => cases carries

end Registry

namespace Threads

open Registry

theorem view_alter (s : Threads F) (calls : List (Call F)) (other id : ConnectionId)
    (f : Connection F → Connection F) (elsewhere : id ≠ other) :
    view id ⟨s.registry.alter other f, calls⟩ = view id s := by
  unfold view
  rw [lookup_alter, if_neg elsewhere]

/-- What a connection does not see leaves it as it is. -/
theorem view_of_unseen {s t : Threads F} {a : Action F} (step : Step s a t) {id : ConnectionId}
    {n : Nat} (inv : Sound n s) (unseen : a.seen id = none) : view id t = view id s := by
  cases step with
  | issue _ _ | total _ | activate _ | begin _ | tally _ | finish _ => rfl
  | @insert k subject sendQueue i found lock =>
      have other : id ≠ i := by
        rintro rfl
        simp [Action.seen] at unseen
      simp only [view, enter, Finmap.lookup_insert_ite, if_neg other]
  | whole op silent notAdd lock =>
      have unreached : op.localTo s.registry.nextId id = none := by
        rw [localTo_notAdd notAdd]
        exact Option.map_eq_none_iff.mp unseen
      unfold view
      rw [lookup_step inv.consistent.inverts op id, unreached]
  | @visit k d rest delivered i found ahead =>
      have other : id ≠ i := by
        rintro rfl
        obtain ⟨seen, reaches, -⟩ := touched inv.consistent d.carries (inv.held found rfl ahead)
        simp [Action.seen, reaches] at unseen
      exact view_alter s _ i id _ other
  | @mark k d rest delivered i outcome found =>
      -- the streak is not in the view
      unfold view
      rw [mark, lookup_alter]
      split
      · next same =>
          rw [same]
          cases s.registry.connections.lookup i <;> rfl
      · rfl

/-- What a connection sees of a step is one turn of it. -/
theorem turn_of_seen {s t : Threads F} {a : Action F} (step : Step s a t) {id : ConnectionId}
    {n : Nat} (inv : Sound n s) {seen : Seen F} (sees : a.seen id = some seen) :
    Turn (view id s) seen (view id t) := by
  unfold Turn
  rw [view, LocalOp.apply_quiet, LocalOp.reply_quiet]
  cases step with
  | issue _ _ | total _ | activate _ | tally _ | mark _ | finish _ => cases sees
  | @insert k subject sendQueue i found lock =>
      simp only [Action.seen, Option.ite_none_right_eq_some, Option.some.injEq] at sees
      obtain ⟨rfl, rfl⟩ := sees
      refine ⟨rfl, ?_⟩
      simp only [view, enter, Finmap.lookup_insert_ite, ↓reduceIte]
      rfl
  | whole op silent notAdd lock =>
      obtain ⟨own, reaches, rfl⟩ := Option.map_eq_some_iff.mp sees
      refine ⟨reply_step s.registry silent notAdd reaches, ?_⟩
      unfold view
      rw [lookup_step inv.consistent.inverts op id, localTo_notAdd notAdd, reaches]
  | begin d =>
      simp only [Action.seen, Option.ite_none_left_eq_some] at sees
      obtain ⟨outside, sees⟩ := sees
      obtain ⟨own, reaches, rfl⟩ := Option.map_eq_some_iff.mp sees
      obtain ⟨reply, entry⟩ := untouched inv.consistent d.carries outside reaches
      exact ⟨reply.symm, (congrArg (Option.map Connection.quiet) entry).symm⟩
  | @visit k d rest delivered i found ahead =>
      simp only [Action.seen, Option.ite_none_right_eq_some] at sees
      obtain ⟨rfl, sees⟩ := sees
      obtain ⟨own, reaches, rfl⟩ := Option.map_eq_some_iff.mp sees
      obtain ⟨other, same, reply, entry⟩ :=
        touched inv.consistent d.carries (inv.held found rfl ahead)
      obtain rfl := Option.some.inj (reaches.symm.trans same)
      exact ⟨reply.symm, entry.symm⟩

/-! ## Each call once, in the order of the calls that do not overlap -/

/-- Call `k` has yet to reach the connection. -/
def Pending (s : Threads F) (k : Nat) (id : ConnectionId) : Prop :=
  ∃ c, s.calls[k]? = some c ∧ id ∈ c.ahead

theorem history_append (id : ConnectionId) (as bs : List (Action F)) :
    history id (as ++ bs) = history id as ++ history id bs :=
  List.filterMap_append

theorem mem_history {id : ConnectionId} {as : List (Action F)} {x : Seen F} :
    x ∈ history id as ↔ ∃ a ∈ as, a.seen id = some x :=
  List.mem_filterMap

/-- A call that moved on reaches no connection it had not yet to reach. -/
theorem Pending.of_set {s : Threads F} {r : Registry F} {j k : Nat} {c c' : Call F}
    {id : ConnectionId} (pending : Pending ⟨r, s.calls.set j c'⟩ k id)
    (found : s.calls[j]? = some c) (fewer : c'.ahead ⊆ c.ahead) : Pending s k id := by
  obtain ⟨d, here, inside⟩ := pending
  rcases Tickets.of_set here with ⟨rfl, rfl⟩ | ⟨-, old⟩
  · exact ⟨c, found, fewer inside⟩
  · exact ⟨d, old, inside⟩

theorem Pending.of_concat {s : Threads F} {r : Registry F} {k : Nat} {c : Call F}
    {id : ConnectionId} (pending : Pending ⟨r, s.calls ++ [c]⟩ k id) :
    Pending s k id ∨ s.calls.length ≤ k := by
  obtain ⟨d, here, inside⟩ := pending
  rcases Tickets.of_concat here with ⟨rfl, rfl⟩ | ⟨-, old⟩
  · exact .inr (Nat.le_refl _)
  · exact .inl ⟨d, old, inside⟩

/-- Only a call that begins has connections ahead that it had not before. -/
theorem pending_step {s t : Threads F} {a : Action F} (step : Step s a t) {k : Nat}
    {id : ConnectionId} (pending : Pending t k id) : Pending s k id ∨ s.calls.length ≤ k := by
  cases step with
  | issue _ _ | whole _ _ _ _ | begin _ => exact pending.of_concat
  | insert found _ | total found | activate found | finish found =>
      exact .inl (pending.of_set found (Finset.empty_subset _))
  | tally found | mark found => exact .inl (pending.of_set found (Finset.Subset.refl _))
  | visit found ahead =>
      refine .inl (pending.of_set found ?_)
      rw [Call.ahead_of_fanOut? (Call.fanOut?_visited _ _ _ _ _)]
      exact Finset.erase_subset _ _

theorem length_step {s t : Threads F} {a : Action F} (step : Step s a t) :
    s.calls.length ≤ t.calls.length := by
  cases step <;> simp

/-- What a connection sees comes from a call that begins with this step or had yet to reach it, and
has reached it after. -/
theorem seen_step {s t : Threads F} {a : Action F} (step : Step s a t) {id : ConnectionId}
    {x : Seen F} (sees : a.seen id = some x) :
    x.1 < t.calls.length ∧ ¬ Pending t x.1 id ∧ (s.calls.length ≤ x.1 ∨ Pending s x.1 id) := by
  cases step with
  | issue _ _ | total _ | activate _ | tally _ | mark _ | finish _ => cases sees
  | @insert k subject sendQueue i found lock =>
      simp only [Action.seen, Option.ite_none_right_eq_some, Option.some.injEq] at sees
      obtain ⟨rfl, rfl⟩ := sees
      refine ⟨by simpa using Tickets.lt_length found, ?_, .inr ⟨_, found, by simp [Call.ahead]⟩⟩
      rintro ⟨c, here, inside⟩
      rw [Tickets.set_self found] at here
      cases here
      exact absurd inside (Finset.notMem_empty _)
  | whole op silent notAdd lock =>
      obtain ⟨own, -, rfl⟩ := Option.map_eq_some_iff.mp sees
      refine ⟨by simp, ?_, .inl (Nat.le_refl _)⟩
      rintro ⟨c, here, inside⟩
      rw [List.getElem?_concat_length] at here
      cases here
      exact absurd inside (Finset.notMem_empty _)
  | begin d =>
      simp only [Action.seen, Option.ite_none_left_eq_some] at sees
      obtain ⟨outside, sees⟩ := sees
      obtain ⟨own, -, rfl⟩ := Option.map_eq_some_iff.mp sees
      refine ⟨by simp, ?_, .inl (Nat.le_refl _)⟩
      rintro ⟨c, here, inside⟩
      rw [List.getElem?_concat_length] at here
      cases here
      exact outside inside
  | @visit k d rest delivered i found ahead =>
      simp only [Action.seen, Option.ite_none_right_eq_some] at sees
      obtain ⟨rfl, sees⟩ := sees
      obtain ⟨own, -, rfl⟩ := Option.map_eq_some_iff.mp sees
      refine ⟨by simpa using Tickets.lt_length found, ?_, .inr ⟨_, found, ahead⟩⟩
      rintro ⟨c, here, inside⟩
      rw [Tickets.set_self found] at here
      cases here
      rw [Call.ahead_of_fanOut? (Call.fanOut?_visited _ _ _ _ _)] at inside
      exact Finset.notMem_erase _ _ inside

/-- A connection has been reached once by every call that is not on its way to it. -/
structure Sequenced (id : ConnectionId) (as : List (Action F)) (s : Threads F) : Prop where
  reached : ∀ {x}, x ∈ history id as → x.1 < s.calls.length ∧ ¬ Pending s x.1 id
  once : ((history id as).map Prod.fst).Nodup
  begun : ∀ {k op targets own}, .begin k op targets ∈ as → op.localTo 0 id = some own →
    (∃ c rest, s.calls[k]? = some c ∧ c.fanOut? = some (op, rest) ∧ id ∈ rest) ∨
      ∃ reply, (k, own, reply) ∈ history id as

namespace Sequenced

variable {id : ConnectionId} {as : List (Action F)} {s t : Threads F}

theorem start : Sequenced id [] (start : Threads F) where
  reached member := by cases member
  once := List.nodup_nil
  begun member := by cases member

/-- A delivering call on its way to the connection stays so until it visits it. -/
theorem visited {a : Action F} (step : Step s a t) {k : Nat} {op : Op F} {c : Call F}
    {rest : Finset ConnectionId} (found : s.calls[k]? = some c)
    (fans : c.fanOut? = some (op, rest)) (inside : id ∈ rest) :
    (∃ c rest, t.calls[k]? = some c ∧ c.fanOut? = some (op, rest) ∧ id ∈ rest) ∨
      ∃ outcome, a = .visit k op id outcome := by
  cases step with
  | issue _ _ | whole _ _ _ _ | begin _ =>
      exact .inl ⟨c, rest, Tickets.concat_old found, fans, inside⟩
  | @insert j _ _ _ other _ | @total j _ other | @activate j _ other =>
      rcases eq_or_ne k j with rfl | differs
      · rw [found] at other
        cases other
        cases fans
      · exact .inl ⟨c, rest, Tickets.set_old found differs, fans, inside⟩
  | @tally j _ _ _ _ _ other | @mark j _ _ _ _ _ other =>
      rcases eq_or_ne k j with rfl | differs
      · rw [found] at other
        cases other
        cases fans
        exact .inl ⟨_, _, Tickets.set_self found, rfl, inside⟩
      · exact .inl ⟨c, rest, Tickets.set_old found differs, fans, inside⟩
  | @visit j d left delivered i other ahead =>
      rcases eq_or_ne k j with rfl | differs
      · rw [found] at other
        cases other
        cases fans
        rcases eq_or_ne id i with rfl | elsewhere
        · exact .inr ⟨_, rfl⟩
        · exact .inl ⟨_, _, Tickets.set_self found, Call.fanOut?_visited _ _ _ _ _,
            Finset.mem_erase.mpr ⟨elsewhere, inside⟩⟩
      · exact .inl ⟨c, rest, Tickets.set_old found differs, fans, inside⟩
  | @finish j _ _ other =>
      rcases eq_or_ne k j with rfl | differs
      · rw [found] at other
        cases other
        cases fans
        cases inside
      · exact .inl ⟨c, rest, Tickets.set_old found differs, fans, inside⟩

theorem step {a : Action F} (seq : Sequenced id as s) (step : Step s a t) :
    Sequenced id (as ++ [a]) t := by
  have later : ∀ {x}, x ∈ history id as → x.1 < t.calls.length ∧ ¬ Pending t x.1 id := by
    intro x member
    obtain ⟨before, reached⟩ := seq.reached member
    refine ⟨Nat.lt_of_lt_of_le before (length_step step), fun pending => ?_⟩
    rcases pending_step step pending with old | new
    · exact reached old
    · omega
  have last : ∀ {x}, x ∈ history id [a] → a.seen id = some x := by
    intro x member
    obtain ⟨b, listed, sees⟩ := mem_history.mp member
    rwa [List.mem_singleton.mp listed] at sees
  refine ⟨?_, ?_, ?_⟩
  · intro x member
    rw [history_append] at member
    rcases List.mem_append.mp member with old | new
    · exact later old
    · obtain ⟨within, reached, -⟩ := seen_step step (last new)
      exact ⟨within, reached⟩
  · rw [history_append, List.map_append]
    refine List.nodup_append'.mpr ⟨seq.once, ?_, ?_⟩
    · unfold history
      cases sees : a.seen id <;> simp [sees]
    · intro k old new
      obtain ⟨x, member, rfl⟩ := List.mem_map.mp old
      obtain ⟨y, member', same⟩ := List.mem_map.mp new
      obtain ⟨before, reached⟩ := seq.reached member
      rcases (seen_step step (last member')).2.2 with new | pending
      · omega
      · exact reached (same ▸ pending)
  · intro k op targets own member reaches
    rw [history_append]
    rcases List.mem_append.mp member with old | new
    · rcases seq.begun old reaches with ⟨c, rest, found, fans, inside⟩ | ⟨reply, seen⟩
      · rcases visited step found fans inside with still | ⟨outcome, rfl⟩
        · exact .inl still
        · exact .inr ⟨.sent (decide (outcome = some .ok)), List.mem_append_right _
            (mem_history.mpr ⟨_, List.mem_singleton_self _, by simp [Action.seen, reaches]⟩)⟩
      · exact .inr ⟨reply, List.mem_append_left _ seen⟩
    · obtain rfl := List.mem_singleton.mp new
      cases step with
      | begin d =>
          by_cases inside : id ∈ s.registry.targets d.op
          · exact .inl ⟨_, _, List.getElem?_concat_length, rfl, inside⟩
          · exact .inr ⟨.sent false, List.mem_append_right _ (mem_history.mpr
              ⟨_, List.mem_singleton_self _, by simp [Action.seen, inside, reaches]⟩)⟩

end Sequenced

theorem done_set {calls : List (Call F)} {j k : Nat} {c c' : Call F}
    (done : calls[k]? = some .done) (found : calls[j]? = some c) (underway : c ≠ .done) :
    (calls.set j c')[k]? = some .done := by
  refine Tickets.set_old done ?_
  rintro rfl
  exact underway (Option.some.inj (found.symm.trans done))

/-- A call that has returned takes no more steps. -/
theorem done_step {s t : Threads F} {a : Action F} (step : Step s a t) {k : Nat}
    (done : s.calls[k]? = some .done) : t.calls[k]? = some .done := by
  cases step with
  | issue _ _ | whole _ _ _ _ | begin _ => exact Tickets.concat_old done
  | insert found _ | total found | activate found | visit found _ | tally found | mark found
  | finish found => exact done_set done found (by simp)

/-- **Real time.**  What a connection has seen is of calls that have begun, and what it sees later
is of calls that have not returned. -/
theorem run_real_time {before after : List (Action F)} {m s : Threads F} (id : ConnectionId)
    (first : Run Step start before m) (later : Run Step m after s) :
    (∀ x ∈ history id before, x.1 < m.calls.length) ∧
      ∀ x ∈ history id after, m.calls[x.1]? ≠ some .done := by
  have seq : Sequenced id before m := first.invariant_trace
    (fun seq step => seq.step step) Sequenced.start
  refine ⟨fun x member => (seq.reached member).1, ?_⟩
  have kept := later.invariant_trace
    (I := fun as t => m.calls.length ≤ t.calls.length ∧
      (∀ k : Nat, m.calls[k]? = some .done → t.calls[k]? = some .done) ∧
      ∀ x ∈ history id as, m.calls[x.1]? ≠ some .done) ?_
    ⟨Nat.le_refl _, fun _ done => done, fun x member => by cases member⟩
  · exact kept.2.2
  · intro as s a t inv step
    obtain ⟨longer, done, earlier⟩ := inv
    refine ⟨Nat.le_trans longer (length_step step), fun k old => done_step step (done k old), ?_⟩
    intro x member
    rw [history_append] at member
    rcases List.mem_append.mp member with old | new
    · exact earlier x old
    · obtain ⟨b, listed, sees⟩ := mem_history.mp new
      obtain rfl := List.mem_singleton.mp listed
      intro returned
      rcases (seen_step step sees).2.2 with begins | ⟨c, found, inside⟩
      · have within := Tickets.lt_length returned
        omega
      · rw [done _ returned] at found
        cases found
        cases inside

end Threads

end WsFanout
