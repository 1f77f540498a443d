import WsFanout.RegistryInvariant

/-!
# What is undone leaves no trace

The channel index of a registry is determined by the subscription sets, so whoever restores the
sets restores the index: no empty entry stays behind, and no shared channel loses another
subscriber.  `Registry.undone` is that for a request taken back, and for a connection that comes,
subscribes and unsubscribes as it likes, and goes.
-/

namespace WsFanout

open Lib

variable {F : Type}

/-- A request of the connection `id` for its own channels. -/
def Op.isRequestOf (id : ConnectionId) : Op F → Bool
  | .subscribe i _ _ => i = id
  | .unsubscribe i _ => i = id
  | _ => false

namespace Registry

/-- Channels that are held, each named once, are all removed. -/
theorem unsubscribeLoop_of_held {subs : Finset String} {channels : List String}
    (once : channels.Nodup) (held : ∀ ch ∈ channels, ch ∈ subs) :
    unsubscribeLoop subs channels = (subs \ channels.toFinset, channels) := by
  induction channels generalizing subs with
  | nil => simp [unsubscribeLoop]
  | cons ch rest ih =>
      obtain ⟨fresh, once⟩ := List.nodup_cons.mp once
      have still : ∀ c ∈ rest, c ∈ subs.erase ch := by
        intro c later
        refine Finset.mem_erase.mpr ⟨?_, held c (List.mem_cons_of_mem ch later)⟩
        intro same
        exact fresh (same ▸ later)
      rw [unsubscribeLoop, if_pos (held ch List.mem_cons_self), ih once still]
      refine Prod.ext ?_ rfl
      ext c
      simp only [Finset.mem_sdiff, Finset.mem_erase, List.toFinset_cons, Finset.mem_insert]
      tauto

/-- A request taken back. -/
theorem unsubscribe_subscribe {r : Registry F}
    (inverts : Index.Inverts r.subscriptionsOf r.byChannel) {id : ConnectionId}
    {conn : Connection F} (found : r.connections.lookup id = some conn) (channels : List String)
    (max : Nat) :
    (r.subscribe id channels max).1.unsubscribe id (r.subscribe id channels max).2.1 =
      (r, (r.subscribe id channels max).2.1) := by
  obtain ⟨added, isAdded⟩ :
      ∃ added, added = (subscribeLoop max conn.subscriptions channels).2.1 := ⟨_, rfl⟩
  have returned : (r.subscribe id channels max).2.1 = added := by
    simp [subscribe, found, isAdded]
  obtain ⟨union, fresh, -⟩ := subscribeLoop_spec max conn.subscriptions channels
  rw [← isAdded] at union fresh
  have after := lookup_subscribe r id channels max id
  rw [if_pos rfl, found, Option.map_some, union] at after
  -- taking back what was added leaves the set of before
  have loop : unsubscribeLoop (conn.subscriptions ∪ added.toFinset) added =
      (conn.subscriptions, added) := by
    rw [unsubscribeLoop_of_held (isAdded ▸ subscribeLoop_nodup _ _ _)
      (fun ch mem => by simp [mem])]
    refine Prod.ext ?_ rfl
    ext ch
    simp only [Finset.mem_sdiff, Finset.mem_union, List.mem_toFinset]
    constructor
    · intro both
      exact both.1.resolve_right both.2
    · intro held
      exact ⟨.inl held, fun mem => (fresh ch mem).1 held⟩
  have connections : ((r.subscribe id channels max).1.unsubscribe id added).1.connections =
      r.connections := by
    refine Finmap.ext_lookup fun other => ?_
    rw [lookup_unsubscribe]
    rcases eq_or_ne other id with rfl | elsewhere
    · rw [if_pos rfl, after, found]
      simp [loop]
    · rw [if_neg elsewhere, lookup_subscribe, if_neg elsewhere]
  have byChannel : ((r.subscribe id channels max).1.unsubscribe id added).1.byChannel =
      r.byChannel := by
    have kept := inverts_unsubscribe (inverts_subscribe inverts id channels max) id added
    rw [subscriptionsOf_congr (r := r) fun other => by rw [connections]] at kept
    exact kept.unique inverts
  rw [returned]
  refine Prod.ext (Registry.ext connections byChannel ?_ ?_) ?_
  · rw [nextId_unsubscribe, nextId_subscribe]
  · simp [unsubscribe, subscribe, found]
  · simp [unsubscribe, after, loop]

/-- A second removal finds nothing. -/
theorem remove_remove (r : Registry F) (id : ConnectionId) :
    (r.remove id).remove id = r.remove id := by
  have gone := lookup_remove r id id
  rw [if_pos rfl] at gone
  rw [remove, gone]

/-- A request of a connection keeps the index in step and leaves the other entries alone. -/
theorem step_request {r : Registry F} (inverts : Index.Inverts r.subscriptionsOf r.byChannel)
    {id : ConnectionId} {op : Op F} (mine : op.isRequestOf id = true) :
    Index.Inverts (r.step op).1.subscriptionsOf (r.step op).1.byChannel ∧
      ∀ other, other ≠ id →
        (r.step op).1.connections.lookup other = r.connections.lookup other := by
  cases op with
  | subscribe i channels max =>
      have same : i = id := by simpa [Op.isRequestOf] using mine
      subst same
      exact ⟨inverts_subscribe inverts i channels max, fun other elsewhere =>
        (lookup_subscribe r i channels max other).trans (if_neg elsewhere)⟩
  | unsubscribe i channels =>
      have same : i = id := by simpa [Op.isRequestOf] using mine
      subst same
      exact ⟨inverts_unsubscribe inverts i channels, fun other elsewhere =>
        (lookup_unsubscribe r i channels other).trans (if_neg elsewhere)⟩
  | add _ _ | remove _ | publish _ _ | broadcast _ | send _ _ | recv _ | close _ => cases mine

theorem run_requests {r : Registry F} (inverts : Index.Inverts r.subscriptionsOf r.byChannel)
    {id : ConnectionId} {requests : List (Op F)}
    (mine : ∀ op ∈ requests, op.isRequestOf id = true) :
    Index.Inverts (r.run requests).subscriptionsOf (r.run requests).byChannel ∧
      ∀ other, other ≠ id →
        (r.run requests).connections.lookup other = r.connections.lookup other := by
  induction requests generalizing r with
  | nil => exact ⟨inverts, fun _ _ => rfl⟩
  | cons op requests ih =>
      obtain ⟨kept, others⟩ := step_request inverts (mine op List.mem_cons_self)
      obtain ⟨kept', others'⟩ := ih kept fun op later => mine op (List.mem_cons_of_mem _ later)
      exact ⟨kept', fun other elsewhere =>
        (others' other elsewhere).trans (others other elsewhere)⟩

/-- A connection that came under an id not in use, made its requests and went. -/
theorem remove_run_add {r : Registry F} (inverts : Index.Inverts r.subscriptionsOf r.byChannel)
    (fresh : r.connections.lookup ⟨r.nextId⟩ = none) (subject : String) (sendQueue : Nat)
    {requests : List (Op F)} (mine : ∀ op ∈ requests, op.isRequestOf ⟨r.nextId⟩ = true) :
    (((r.add subject sendQueue).1.run requests).remove ⟨r.nextId⟩).connections = r.connections ∧
    (((r.add subject sendQueue).1.run requests).remove ⟨r.nextId⟩).byChannel = r.byChannel ∧
    ∀ other, other ≠ ⟨r.nextId⟩ →
      ((r.add subject sendQueue).1.run requests).connections.lookup other =
        r.connections.lookup other := by
  have start : Index.Inverts (r.add subject sendQueue).1.subscriptionsOf
      (r.add subject sendQueue).1.byChannel := by
    rw [subscriptionsOf_add subject sendQueue fresh]
    exact inverts
  obtain ⟨kept, others⟩ := run_requests start mine
  have untouched : ∀ other, other ≠ ⟨r.nextId⟩ →
      ((r.add subject sendQueue).1.run requests).connections.lookup other =
        r.connections.lookup other := by
    intro other elsewhere
    rw [others other elsewhere, lookup_add, if_neg elsewhere]
  have connections : (((r.add subject sendQueue).1.run requests).remove
      ⟨r.nextId⟩).connections = r.connections := by
    refine Finmap.ext_lookup fun other => ?_
    rw [lookup_remove]
    by_cases here : other = ⟨r.nextId⟩
    · rw [if_pos here, here, fresh]
    · rw [if_neg here, untouched other here]
  refine ⟨connections, ?_, untouched⟩
  have gone := inverts_remove kept ⟨r.nextId⟩
  rw [subscriptionsOf_congr (r := r) fun other => by rw [connections]] at gone
  exact gone.unique inverts

/-- **What is undone leaves no trace.**  In every state reached by fewer than `2 ^ 64` calls of
`add`: taking back what a request added gives back the registry, and a connection that is added,
makes requests of its own and is removed leaves both maps as they were, the other entries having
stayed the same throughout.  Removing twice is removing once. -/
theorem undone (ops : List (Op F)) (adds : ops.countP Op.isAdd < 2 ^ 64) :
    (∀ id conn, (new.run ops).connections.lookup id = some conn → ∀ channels max,
      ((new.run ops).subscribe id channels max).1.unsubscribe id
          ((new.run ops).subscribe id channels max).2.1 =
        (new.run ops, ((new.run ops).subscribe id channels max).2.1)) ∧
    (∀ subject sendQueue id (requests : List (Op F)),
      id = ((new.run ops).add subject sendQueue).2 →
      (∀ op ∈ requests, op.isRequestOf id = true) →
      ((((new.run ops).add subject sendQueue).1.run requests).remove id).connections =
        (new.run ops).connections ∧
      ((((new.run ops).add subject sendQueue).1.run requests).remove id).byChannel =
        (new.run ops).byChannel ∧
      ∀ other, other ≠ id →
        (((new.run ops).add subject sendQueue).1.run requests).connections.lookup other =
          (new.run ops).connections.lookup other) ∧
    ∀ (r : Registry F) id, (r.remove id).remove id = r.remove id := by
  have inv := Consistent.of_run ops adds.le
  refine ⟨fun id conn found channels max => ?_, ?_, remove_remove⟩
  · exact unsubscribe_subscribe inv.inverts found channels max
  · intro subject sendQueue id requests issued mine
    subst issued
    exact remove_run_add inv.inverts (inv.fresh adds) subject sendQueue mine

/-- A second connection shares a channel with the first and goes again. -/
theorem undone_shared :
    ([.add "a" 1, .subscribe ⟨1⟩ ["x"] 2] : List (Op String)).countP Op.isAdd < 2 ^ 64 ∧
    (((new.run ([.add "a" 1, .subscribe ⟨1⟩ ["x"] 2] : List (Op String))).add "b" 1).1.run
      [.subscribe ⟨2⟩ ["x", "y"] 2, .unsubscribe ⟨2⟩ ["y"]] |>.remove ⟨2⟩).byChannel =
        (new.run ([.add "a" 1, .subscribe ⟨1⟩ ["x"] 2] : List (Op String))).byChannel := by
  refine ⟨by decide, ?_⟩
  refine ((undone [.add "a" 1, .subscribe ⟨1⟩ ["x"] 2] (by decide)).2.1 "b" 1 ⟨2⟩
    [.subscribe ⟨2⟩ ["x", "y"] 2, .unsubscribe ⟨2⟩ ["y"]] rfl ?_).2.1
  decide

/-- After `2 ^ 64` calls of `add` the next one issues the first id again.  The first connection is
still registered then, and is gone once the new one is removed. -/
theorem undone_wrapped :
    ∃ conn, (new.run (List.replicate (2 ^ 64) (Op.add "a" 1 : Op String))).connections.lookup
        (ConnectionId.nth 0) = some conn ∧
      ((new.run (List.replicate (2 ^ 64) (Op.add "a" 1 : Op String))).add "b" 1).2 =
        ConnectionId.nth 0 ∧
      (((new.run (List.replicate (2 ^ 64) (Op.add "a" 1 : Op String))).add "b" 1).1.remove
        (ConnectionId.nth 0)).connections ≠
          (new.run (List.replicate (2 ^ 64) (Op.add "a" 1 : Op String))).connections := by
  obtain ⟨conn, found⟩ := lookup_run_adds_first (F := String) "a" 1 (n := 2 ^ 64 - 1) (by omega)
  refine ⟨conn, found, ?_, fun restored => ?_⟩
  · change (⟨_⟩ : ConnectionId) = _
    rw [(run_adds new "a" 1 (2 ^ 64)).1]
    decide
  · have gone := lookup_remove ((new.run (List.replicate (2 ^ 64) (Op.add "a" 1 : Op String))).add
      "b" 1).1 (ConnectionId.nth 0) (ConnectionId.nth 0)
    rw [if_pos rfl, restored] at gone
    exact Option.some_ne_none conn (found.symm.trans gone)

end Registry

end WsFanout
