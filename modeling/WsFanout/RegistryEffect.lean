import WsFanout.Registry

/-!
# What each registry operation does

One specification for each method of the registry: what it leaves at every connection, what it
does to the channel index and to the id counter, and what it returns.  Nothing downstream unfolds
the loops of `WsFanout.Registry`.
-/

namespace WsFanout

open Lib

namespace Registry

variable {F : Type}

/-- The channels a connection holds; none for an id that is not registered. -/
def subscriptionsOf (r : Registry F) (id : ConnectionId) : Finset String :=
  ((r.connections.lookup id).map Connection.subscriptions).getD ∅

theorem subscriptionsOf_of_lookup {r : Registry F} {id : ConnectionId} {conn : Connection F}
    (found : r.connections.lookup id = some conn) : r.subscriptionsOf id = conn.subscriptions := by
  simp [subscriptionsOf, found]

theorem mem_subscriptionsOf {r : Registry F} {id : ConnectionId} {ch : String} :
    ch ∈ r.subscriptionsOf id ↔
      ∃ conn, r.connections.lookup id = some conn ∧ ch ∈ conn.subscriptions := by
  unfold subscriptionsOf
  cases r.connections.lookup id <;> simp

/-- Subscription sets are the same wherever the connections kept theirs. -/
theorem subscriptionsOf_congr {r r' : Registry F}
    (kept : ∀ id, (r'.connections.lookup id).map Connection.subscriptions =
      (r.connections.lookup id).map Connection.subscriptions) :
    r'.subscriptionsOf = r.subscriptionsOf :=
  funext fun id => by rw [subscriptionsOf, subscriptionsOf, kept id]

/-- Storing a connection with other subscriptions changes that connection's set only. -/
theorem subscriptionsOf_insert {r r' : Registry F} {id : ConnectionId} {conn : Connection F}
    (stored : r'.connections = r.connections.insert id conn) :
    r'.subscriptionsOf = Function.update r.subscriptionsOf id conn.subscriptions := by
  funext other
  rw [subscriptionsOf, stored, Finmap.lookup_insert_ite]
  rcases eq_or_ne other id with rfl | same
  · simp
  · simp [same, subscriptionsOf]

/-! ## Deliveries -/

/-- The queue of `id` would take a frame. -/
def accepts (r : Registry F) (id : ConnectionId) : Bool :=
  (r.connections.lookup id).any fun conn => conn.tx.accepts

/-- Everything a fan-out over `ids` does: each registered connection of `ids` is offered the frame
once, nothing else changes, and the count is the number of queues that took it. -/
theorem fanOut_spec (r : Registry F) (frame : F) (ids : Finset ConnectionId) :
    (∀ id, (r.fanOut frame ids).1.connections.lookup id =
      if id ∈ ids then (r.connections.lookup id).map (·.offer frame)
      else r.connections.lookup id) ∧
    (r.fanOut frame ids).1.byChannel = r.byChannel ∧
    (r.fanOut frame ids).1.nextId = r.nextId ∧
    (r.fanOut frame ids).2 = (ids.filter fun id => r.accepts id).card := by
  refine ids.foldl_induction (deliverTo frame)
    (P := fun done acc =>
      (∀ id, acc.1.connections.lookup id =
        if id ∈ done then (r.connections.lookup id).map (·.offer frame)
        else r.connections.lookup id) ∧
      acc.1.byChannel = r.byChannel ∧ acc.1.nextId = r.nextId ∧
      acc.2 = (done.filter fun id => r.accepts id).card) (r, 0) (by simp) ?_
  rintro done acc a fresh ⟨lookups, byChannel, nextId, count⟩
  have here : acc.1.connections.lookup a = r.connections.lookup a := by
    rw [lookups, if_neg fresh]
  cases found : r.connections.lookup a with
  | none =>
      rw [deliverTo_of_none (here.trans found)]
      refine ⟨fun id => ?_, byChannel, nextId, ?_⟩
      · rw [lookups]
        rcases eq_or_ne id a with rfl | same
        · simp [fresh, found]
        · simp [same]
      · rw [count, Finset.filter_insert, if_neg (by simp [accepts, found])]
  | some conn =>
      rw [deliverTo_of_some (here.trans found)]
      refine ⟨fun id => ?_, byChannel, nextId, ?_⟩
      · rw [Finmap.lookup_insert_ite]
        rcases eq_or_ne id a with rfl | same
        · simp [found]
        · simp [same, lookups]
      · have accepted : r.accepts a = conn.tx.accepts := by simp [accepts, found]
        rw [count, Finset.filter_insert, accepted]
        cases conn.tx.accepts with
        | false => rfl
        | true => simp [Finset.card_insert_of_notMem, fresh]

/-- A publish is a fan-out over the channel's entry in the index. -/
theorem publish_eq (r : Registry F) (channel : String) (frame : F) :
    r.publish channel frame = r.fanOut frame (r.byChannel.members channel) := by
  unfold publish Index.members
  cases r.byChannel.lookup channel with
  | none => rfl
  | some ids => rfl

/-- A send is a fan-out over one connection. -/
theorem send_eq (r : Registry F) (id : ConnectionId) (frame : F) :
    (r.send id frame).1 = (r.fanOut frame {id}).1 ∧
      (r.send id frame).2 = r.accepts id := by
  have once : r.fanOut frame {id} = deliverTo frame (r, 0) id := rfl
  rw [once]
  unfold send accepts
  cases found : r.connections.lookup id with
  | none => exact ⟨by rw [deliverTo_of_none found], rfl⟩
  | some conn =>
      rw [deliverTo_of_some found]
      simp [deliver_eq found]

/-! ## The receiver -/

/-- What the receiver's taking of a frame does. -/
theorem recv_spec (r : Registry F) (id : ConnectionId) :
    (∀ other, (r.recv id).1.connections.lookup other =
      if other = id then
        (r.connections.lookup id).map fun conn => { conn with tx := conn.tx.recv.1 }
      else r.connections.lookup other) ∧
    (r.recv id).1.byChannel = r.byChannel ∧ (r.recv id).1.nextId = r.nextId ∧
    (r.recv id).2 =
      match r.connections.lookup id with
      | none => .disconnected
      | some conn =>
        match conn.tx.recv.2 with
        | none => .empty
        | some frame => .frame frame := by
  unfold recv
  cases found : r.connections.lookup id with
  | none => exact ⟨Finmap.lookup_of_absent found, rfl, rfl, rfl⟩
  | some conn =>
      cases taken : conn.tx.recv with
      | mk tx frame =>
          cases frame with
          | none =>
              have same : tx = conn.tx := by
                have empty : conn.tx.buffer = [] := by
                  simpa [BoundedQueue.recv] using congrArg Prod.snd taken
                have queue : tx = conn.tx.recv.1 := (congrArg Prod.fst taken).symm
                rw [queue]
                ext1 <;> simp [BoundedQueue.recv, empty]
              simp only [taken, and_true]
              intro other
              rcases eq_or_ne other id with rfl | here
              · simp [found, taken, same]
              · simp [here]
          | some frame =>
              simp only [taken, and_true]
              intro other
              rw [Finmap.lookup_insert_ite]
              by_cases here : other = id <;> simp [here, taken]

theorem lookup_close (r : Registry F) (id other : ConnectionId) :
    (r.close id).connections.lookup other =
      if other = id then
        (r.connections.lookup id).map fun conn => { conn with tx := conn.tx.close }
      else r.connections.lookup other := by
  unfold close
  cases found : r.connections.lookup id with
  | none => exact Finmap.lookup_of_absent found other
  | some conn => simp [Finmap.lookup_insert_ite]

theorem close_frame (r : Registry F) (id : ConnectionId) :
    (r.close id).byChannel = r.byChannel ∧ (r.close id).nextId = r.nextId := by
  unfold close
  cases r.connections.lookup id <;> exact ⟨rfl, rfl⟩

/-- Taking a frame changes neither the index nor any subscription set. -/
theorem recv_frame (r : Registry F) (id : ConnectionId) :
    (r.recv id).1.byChannel = r.byChannel ∧ (r.recv id).1.subscriptionsOf = r.subscriptionsOf := by
  obtain ⟨lookups, byChannel, -, -⟩ := recv_spec r id
  refine ⟨byChannel, subscriptionsOf_congr fun other => ?_⟩
  rw [lookups]
  split
  · next same =>
      subst same
      cases r.connections.lookup other <;> rfl
  · rfl

/-- Neither does dropping the receiver. -/
theorem close_subscriptions (r : Registry F) (id : ConnectionId) :
    (r.close id).byChannel = r.byChannel ∧ (r.close id).subscriptionsOf = r.subscriptionsOf := by
  refine ⟨(close_frame r id).1, subscriptionsOf_congr fun other => ?_⟩
  rw [lookup_close]
  split
  · next same =>
      subst same
      cases r.connections.lookup other <;> rfl
  · rfl

/-! ## Subscriptions -/

/-- What the first loop of `subscribe` computes: it adds distinct requested channels that were not
held, and the set never grows past the limit. -/
theorem subscribeLoop_spec (max : Nat) (subs : Finset String) (channels : List String) :
    (subscribeLoop max subs channels).1 =
      subs ∪ (subscribeLoop max subs channels).2.1.toFinset ∧
    (∀ ch ∈ (subscribeLoop max subs channels).2.1, ch ∉ subs ∧ ch ∈ channels) ∧
    (subs.card ≤ max → (subscribeLoop max subs channels).1.card ≤ max) := by
  induction channels generalizing subs with
  | nil => exact ⟨by simp [subscribeLoop], by simp [subscribeLoop], by simp [subscribeLoop]⟩
  | cons ch rest ih =>
      unfold subscribeLoop
      by_cases held : ch ∈ subs
      · rw [if_pos held]
        obtain ⟨union, added, bound⟩ := ih subs
        exact ⟨union, fun c hc => ⟨(added c hc).1, List.mem_cons_of_mem _ (added c hc).2⟩, bound⟩
      · rw [if_neg held]
        by_cases full : max ≤ subs.card
        · rw [if_pos full]
          obtain ⟨union, added, bound⟩ := ih subs
          exact ⟨union, fun c hc => ⟨(added c hc).1, List.mem_cons_of_mem _ (added c hc).2⟩,
            bound⟩
        · rw [if_neg full]
          obtain ⟨union, added, bound⟩ := ih (insert ch subs)
          refine ⟨?_, ?_, fun _ => bound ?_⟩
          · rw [union]
            simp
          · intro c hc
            rcases List.mem_cons.mp hc with rfl | later
            · exact ⟨held, List.mem_cons_self⟩
            · obtain ⟨fresh, requested⟩ := added c later
              exact ⟨fun old => fresh (Finset.mem_insert_of_mem old),
                List.mem_cons_of_mem _ requested⟩
          · rw [Finset.card_insert_of_notMem held]
            omega

/-- No channel is added twice. -/
theorem subscribeLoop_nodup (max : Nat) (subs : Finset String) (channels : List String) :
    (subscribeLoop max subs channels).2.1.Nodup := by
  induction channels generalizing subs with
  | nil => exact List.nodup_nil
  | cons ch rest ih =>
      unfold subscribeLoop
      by_cases held : ch ∈ subs
      · rw [if_pos held]
        exact ih subs
      · rw [if_neg held]
        by_cases full : max ≤ subs.card
        · rw [if_pos full]
          exact ih subs
        · rw [if_neg full]
          refine List.nodup_cons.mpr ⟨fun again => ?_, ih (insert ch subs)⟩
          exact ((subscribeLoop_spec max (insert ch subs) rest).2.1 ch again).1
            (Finset.mem_insert_self ch subs)

/-- What the first loop of `unsubscribe` computes. -/
theorem unsubscribeLoop_spec (subs : Finset String) (channels : List String) :
    (unsubscribeLoop subs channels).1 = subs \ (unsubscribeLoop subs channels).2.toFinset ∧
    (∀ ch ∈ (unsubscribeLoop subs channels).2, ch ∈ subs ∧ ch ∈ channels) := by
  induction channels generalizing subs with
  | nil => exact ⟨by simp [unsubscribeLoop], by simp [unsubscribeLoop]⟩
  | cons ch rest ih =>
      unfold unsubscribeLoop
      by_cases held : ch ∈ subs
      · rw [if_pos held]
        obtain ⟨diff, removed⟩ := ih (subs.erase ch)
        refine ⟨?_, ?_⟩
        · rw [diff]
          ext c
          simp only [Finset.mem_sdiff, Finset.mem_erase, List.toFinset_cons, Finset.mem_insert]
          tauto
        · intro c hc
          rcases List.mem_cons.mp hc with rfl | later
          · exact ⟨held, List.mem_cons_self⟩
          · obtain ⟨old, requested⟩ := removed c later
            exact ⟨Finset.mem_of_mem_erase old, List.mem_cons_of_mem _ requested⟩
      · rw [if_neg held]
        obtain ⟨diff, removed⟩ := ih subs
        exact ⟨diff, fun c hc => ⟨(removed c hc).1, List.mem_cons_of_mem _ (removed c hc).2⟩⟩

/-- The connection an id has after `subscribe`. -/
theorem lookup_subscribe (r : Registry F) (id : ConnectionId) (channels : List String) (max : Nat)
    (other : ConnectionId) :
    (r.subscribe id channels max).1.connections.lookup other =
      if other = id then
        (r.connections.lookup id).map fun conn =>
          { conn with subscriptions := (subscribeLoop max conn.subscriptions channels).1 }
      else r.connections.lookup other := by
  unfold subscribe
  cases found : r.connections.lookup id with
  | none => exact Finmap.lookup_of_absent found other
  | some conn => simp [Finmap.lookup_insert_ite]

theorem nextId_subscribe (r : Registry F) (id : ConnectionId) (channels : List String)
    (max : Nat) : (r.subscribe id channels max).1.nextId = r.nextId := by
  unfold subscribe
  cases r.connections.lookup id <;> rfl

/-- The connection an id has after `unsubscribe`. -/
theorem lookup_unsubscribe (r : Registry F) (id : ConnectionId) (channels : List String)
    (other : ConnectionId) :
    (r.unsubscribe id channels).1.connections.lookup other =
      if other = id then
        (r.connections.lookup id).map fun conn =>
          { conn with subscriptions := (unsubscribeLoop conn.subscriptions channels).1 }
      else r.connections.lookup other := by
  unfold unsubscribe
  cases found : r.connections.lookup id with
  | none => exact Finmap.lookup_of_absent found other
  | some conn => simp [Finmap.lookup_insert_ite]

theorem nextId_unsubscribe (r : Registry F) (id : ConnectionId) (channels : List String) :
    (r.unsubscribe id channels).1.nextId = r.nextId := by
  unfold unsubscribe
  cases r.connections.lookup id <;> rfl

theorem lookup_remove (r : Registry F) (id other : ConnectionId) :
    (r.remove id).connections.lookup other =
      if other = id then none else r.connections.lookup other := by
  unfold remove
  cases found : r.connections.lookup id with
  | none => exact Finmap.lookup_of_absent found other
  | some conn => exact Finmap.lookup_erase_ite _ _ _

theorem nextId_remove (r : Registry F) (id : ConnectionId) : (r.remove id).nextId = r.nextId := by
  unfold remove
  cases r.connections.lookup id <;> rfl

theorem lookup_add (r : Registry F) (subject : String) (sendQueue : Nat) (other : ConnectionId) :
    (r.add subject sendQueue).1.connections.lookup other =
      if other = ⟨r.nextId⟩ then
        some { subject, subscriptions := ∅, tx := BoundedQueue.new sendQueue, dropped := 0 }
      else r.connections.lookup other :=
  Finmap.lookup_insert_ite _ _ _ _

theorem byChannel_add (r : Registry F) (subject : String) (sendQueue : Nat) :
    (r.add subject sendQueue).1.byChannel = r.byChannel := rfl

/-! ## The index after an operation -/

theorem subscriptionsOf_fanOut (r : Registry F) (frame : F) (ids : Finset ConnectionId) :
    (r.fanOut frame ids).1.subscriptionsOf = r.subscriptionsOf := by
  refine subscriptionsOf_congr fun id => ?_
  rw [(fanOut_spec r frame ids).1]
  split
  · cases r.connections.lookup id <;> rfl
  · rfl

/-- A fan-out leaves the index as it was. -/
theorem inverts_fanOut {r : Registry F}
    (inverts : Index.Inverts r.subscriptionsOf r.byChannel) (frame : F)
    (ids : Finset ConnectionId) :
    Index.Inverts (r.fanOut frame ids).1.subscriptionsOf (r.fanOut frame ids).1.byChannel := by
  rw [subscriptionsOf_fanOut, (fanOut_spec r frame ids).2.1]
  exact inverts

theorem inverts_subscribe {r : Registry F}
    (inverts : Index.Inverts r.subscriptionsOf r.byChannel) (id : ConnectionId)
    (channels : List String) (max : Nat) :
    Index.Inverts (r.subscribe id channels max).1.subscriptionsOf
      (r.subscribe id channels max).1.byChannel := by
  unfold subscribe
  cases found : r.connections.lookup id with
  | none => exact inverts
  | some conn =>
      have union := (subscribeLoop_spec max conn.subscriptions channels).1
      have linked := inverts.link_list id (subscribeLoop max conn.subscriptions channels).2.1
      rw [subscriptionsOf_of_lookup found, ← union] at linked
      rw [subscriptionsOf_insert rfl]
      exact linked

theorem inverts_unsubscribe {r : Registry F}
    (inverts : Index.Inverts r.subscriptionsOf r.byChannel) (id : ConnectionId)
    (channels : List String) :
    Index.Inverts (r.unsubscribe id channels).1.subscriptionsOf
      (r.unsubscribe id channels).1.byChannel := by
  unfold unsubscribe
  cases found : r.connections.lookup id with
  | none => exact inverts
  | some conn =>
      have diff := (unsubscribeLoop_spec conn.subscriptions channels).1
      have unlinked := inverts.unlink_list id (unsubscribeLoop conn.subscriptions channels).2
      rw [subscriptionsOf_of_lookup found, ← diff] at unlinked
      rw [subscriptionsOf_insert rfl]
      exact unlinked

theorem inverts_remove {r : Registry F}
    (inverts : Index.Inverts r.subscriptionsOf r.byChannel) (id : ConnectionId) :
    Index.Inverts (r.remove id).subscriptionsOf (r.remove id).byChannel := by
  have gone : (r.remove id).subscriptionsOf = Function.update r.subscriptionsOf id ∅ := by
    funext other
    rw [subscriptionsOf, lookup_remove]
    by_cases same : other = id
    · simp [same]
    · simp [same, subscriptionsOf]
  rw [gone]
  unfold remove
  cases found : r.connections.lookup id with
  | none =>
      refine inverts.congr fun other => ?_
      rcases eq_or_ne other id with rfl | same
      · simp [subscriptionsOf, found]
      · simp [same]
  | some conn =>
      have unlinked := inverts.unlink_finset id conn.subscriptions
      rw [subscriptionsOf_of_lookup found, Finset.sdiff_self] at unlinked
      exact unlinked

/-- Registering under an id that is not in use leaves every subscription set as it was. -/
theorem subscriptionsOf_add {r : Registry F} (subject : String) (sendQueue : Nat)
    (fresh : r.connections.lookup ⟨r.nextId⟩ = none) :
    (r.add subject sendQueue).1.subscriptionsOf = r.subscriptionsOf := by
  funext other
  rw [subscriptionsOf, lookup_add]
  rcases eq_or_ne other ⟨r.nextId⟩ with rfl | same
  · simp [subscriptionsOf, fresh]
  · simp [same, subscriptionsOf]

end Registry

end WsFanout
