import WsFanout.RegistryRefinement

/-!
# What a delivery does to one connection

The results here hold in every state, whether or not the index inverts the subscription sets: a
delivering operation offers its frame to the connections it `reaches`, a publish to the ones the
index lists.  `Registry.Joined` is a connection whose entry and receiver are there, and
`Registry.Joined.deliver` is what such a connection's queue gains from an operation that does not
meet it full.
-/

namespace WsFanout

open Lib

variable {F : Type}

/-- The connection an operation is called for. -/
def Op.target? : Op F → Option ConnectionId
  | .remove id => some id
  | .subscribe id _ _ => some id
  | .unsubscribe id _ => some id
  | .send id _ => some id
  | .recv id => some id
  | .close id => some id
  | _ => none

namespace Registry

/-- The operation offers its frame to `id`, if that is registered. -/
def reaches (r : Registry F) (id : ConnectionId) : Op F → Bool
  | .publish channel _ => id ∈ r.byChannel.members channel
  | .broadcast _ => true
  | .send i _ => id = i
  | _ => false

/-- The operation drops its frame for `id`, because its queue is full. -/
def dropsFor (r : Registry F) (id : ConnectionId) (op : Op F) : Bool :=
  r.reaches id op && (r.connections.lookup id).any fun conn => conn.tx.isFull

/-- The entry of `id` after a delivering operation, and what the operation leaves alone. -/
theorem deliver_spec (r : Registry F) (op : Op F) {frame : F} (carries : op.frame? = some frame)
    (id : ConnectionId) :
    ((r.step op).1.connections.lookup id =
      if r.reaches id op then (r.connections.lookup id).map (·.offer frame)
      else r.connections.lookup id) ∧
    (r.step op).1.byChannel = r.byChannel ∧
    (r.step op).1.subscriptionsOf = r.subscriptionsOf := by
  cases op with
  | publish channel f =>
      cases carries
      obtain ⟨lookups, byChannel, -, -⟩ := fanOut_spec r frame (r.byChannel.members channel)
      simp only [Registry.step, publish_eq, reaches, decide_eq_true_eq]
      exact ⟨lookups id, byChannel, subscriptionsOf_fanOut r frame _⟩
  | broadcast f =>
      cases carries
      obtain ⟨lookups, byChannel, -, -⟩ := fanOut_spec r frame r.connections.keys
      simp only [Registry.step, broadcast, reaches, ↓reduceIte]
      refine ⟨?_, byChannel, subscriptionsOf_fanOut r frame _⟩
      rw [lookups]
      cases found : r.connections.lookup id with
      | none => simp
      | some conn => rw [if_pos (Finmap.mem_keys_iff.mpr ⟨conn, found⟩)]
  | send i f =>
      cases carries
      obtain ⟨lookups, byChannel, -, -⟩ := fanOut_spec r frame {i}
      simp only [Registry.step, (send_eq r i frame).1, reaches, decide_eq_true_eq]
      refine ⟨?_, byChannel, subscriptionsOf_fanOut r frame _⟩
      rw [lookups]
      simp only [Finset.mem_singleton]
  | add _ _ | remove _ | subscribe _ _ _ | unsubscribe _ _ | recv _ | close _ => cases carries

/-- How one operation can change the entry of `id`. -/
inductive Change (id : ConnectionId) : Op F → Connection F → Connection F → Prop
  | kept {op : Op F} {conn : Connection F} : Change id op conn conn
  | offered {op : Op F} {conn : Connection F} {frame : F} (carries : op.frame? = some frame) :
      Change id op conn (conn.offer frame)
  | subscribed {conn : Connection F} (channels : List String) (max : Nat) :
      Change id (.subscribe id channels max) conn
        { conn with subscriptions := (subscribeLoop max conn.subscriptions channels).1 }
  | unsubscribed {conn : Connection F} (channels : List String) :
      Change id (.unsubscribe id channels) conn
        { conn with subscriptions := (unsubscribeLoop conn.subscriptions channels).1 }
  | taken {conn : Connection F} :
      Change id (.recv id) conn { conn with tx := conn.tx.recv.1 }
  | closed {conn : Connection F} :
      Change id (.close id) conn { conn with tx := conn.tx.close }

/-- An entry that is looked up among those changed at one id, and kept elsewhere. -/
theorem change_of_ite {r : Registry F} {op : Op F} {id i : ConnectionId} {conn' : Connection F}
    {g : Connection F → Connection F}
    (found : (if id = i then (r.connections.lookup i).map g else r.connections.lookup id) =
      some conn')
    (changed : ∀ conn, id = i → Change id op conn (g conn)) :
    ∃ conn, r.connections.lookup id = some conn ∧ Change id op conn conn' := by
  split at found
  · next mine =>
      obtain ⟨conn, old, rfl⟩ := Option.map_eq_some_iff.mp found
      rw [← mine] at old
      exact ⟨conn, old, changed conn mine⟩
  · exact ⟨conn', found, .kept⟩

/-- Where the entry of `id` after an operation comes from: an `add` that issued the id, or the entry
before it. -/
theorem entry_cases (r : Registry F) (op : Op F) {id : ConnectionId} {conn' : Connection F}
    (found : (r.step op).1.connections.lookup id = some conn') :
    (∃ subject sendQueue, op = .add subject sendQueue ∧ id = ⟨r.nextId⟩ ∧
      conn' = { subject, subscriptions := ∅, tx := BoundedQueue.new sendQueue, dropped := 0 }) ∨
    ∃ conn, r.connections.lookup id = some conn ∧ Change id op conn conn' := by
  cases op with
  | publish _ frame | broadcast frame | send _ frame =>
      rw [(deliver_spec r _ rfl id).1] at found
      split at found
      · obtain ⟨conn, old, rfl⟩ := Option.map_eq_some_iff.mp found
        exact .inr ⟨conn, old, .offered rfl⟩
      · exact .inr ⟨conn', found, .kept⟩
  | add subject sendQueue =>
      change (r.add subject sendQueue).1.connections.lookup id = _ at found
      rw [lookup_add] at found
      split at found
      · next mine => exact .inl ⟨subject, sendQueue, rfl, mine, (Option.some.inj found).symm⟩
      · exact .inr ⟨conn', found, .kept⟩
  | remove i =>
      change (r.remove i).connections.lookup id = _ at found
      rw [lookup_remove] at found
      split at found
      · cases found
      · exact .inr ⟨conn', found, .kept⟩
  | subscribe i channels max =>
      exact .inr (change_of_ite ((lookup_subscribe r i channels max id).symm.trans found)
        fun _ mine => mine ▸ .subscribed channels max)
  | unsubscribe i channels =>
      exact .inr (change_of_ite ((lookup_unsubscribe r i channels id).symm.trans found)
        fun _ mine => mine ▸ .unsubscribed channels)
  | recv i =>
      exact .inr (change_of_ite (((recv_spec r i).1 id).symm.trans found)
        fun _ mine => mine ▸ .taken)
  | close i =>
      exact .inr (change_of_ite ((lookup_close r i id).symm.trans found)
        fun _ mine => mine ▸ .closed)

/-- The subject of an entry is that of its `add`, and its queue holds nothing new but the
operation's frame. -/
theorem entry_step (r : Registry F) (op : Op F) {id : ConnectionId} {conn' : Connection F}
    (found : (r.step op).1.connections.lookup id = some conn') :
    (∃ sendQueue, op = .add conn'.subject sendQueue ∧ id = ⟨r.nextId⟩ ∧ conn'.tx.buffer = []) ∨
    ∃ conn, r.connections.lookup id = some conn ∧ conn'.subject = conn.subject ∧
      ∀ frame ∈ conn'.tx.buffer, frame ∈ conn.tx.buffer ∨ op.frame? = some frame := by
  rcases entry_cases r op found with ⟨subject, sendQueue, rfl, mine, rfl⟩ | ⟨conn, old, change⟩
  · exact .inl ⟨sendQueue, rfl, mine, rfl⟩
  · refine .inr ⟨conn, old, ?_⟩
    cases change with
    | kept => exact ⟨rfl, fun f mem => .inl mem⟩
    | offered carries =>
        refine ⟨rfl, fun f mem => ?_⟩
        rw [buffer_offer] at mem
        rcases List.mem_append.mp mem with before | new
        · exact .inl before
        · split at new
          · rw [List.mem_singleton.mp new]
            exact .inr carries
          · cases new
    | subscribed _ _ | unsubscribed _ => exact ⟨rfl, fun f mem => .inl mem⟩
    | taken => exact ⟨rfl, fun f mem => .inl (List.mem_of_mem_tail mem)⟩
    | closed => exact ⟨rfl, fun f mem => by cases mem⟩

/-- How the set of a connection changes: it starts empty, it grows only by a request of its own,
and otherwise it only shrinks. -/
theorem subscriptions_step (r : Registry F) (op : Op F) {id : ConnectionId}
    {conn' : Connection F} (found : (r.step op).1.connections.lookup id = some conn') :
    conn'.subscriptions = ∅ ∨
    ∃ conn, r.connections.lookup id = some conn ∧
      (conn'.subscriptions ⊆ conn.subscriptions ∨
        ∃ channels max, op = .subscribe id channels max ∧
          conn'.subscriptions = (subscribeLoop max conn.subscriptions channels).1) := by
  rcases entry_cases r op found with ⟨subject, sendQueue, -, -, rfl⟩ | ⟨conn, old, change⟩
  · exact .inl rfl
  · refine .inr ⟨conn, old, ?_⟩
    cases change with
    | kept | offered _ | taken | closed => exact .inl (Finset.Subset.refl _)
    | subscribed channels max => exact .inr ⟨channels, max, rfl, rfl⟩
    | unsubscribed channels =>
        refine .inl ?_
        change (unsubscribeLoop conn.subscriptions channels).1 ⊆ _
        rw [(unsubscribeLoop_spec conn.subscriptions channels).1]
        exact Finset.sdiff_subset

/-- A request adds only what it asks for. -/
theorem mem_of_added (r : Registry F) (id : ConnectionId) (channels : List String) (max : Nat)
    {ch : String} (isAdded : ch ∈ (r.subscribe id channels max).2.1) : ch ∈ channels := by
  unfold Registry.subscribe at isAdded
  cases found : r.connections.lookup id with
  | none => simp [found] at isAdded
  | some conn =>
      rw [found] at isAdded
      exact ((subscribeLoop_spec max conn.subscriptions channels).2.1 ch isAdded).2

/-- A queue gains nothing but the operation's frame. -/
theorem mem_queueOf_step (r : Registry F) (op : Op F) {id : ConnectionId} {frame : F}
    (mem : frame ∈ (r.step op).1.queueOf id) :
    frame ∈ r.queueOf id ∨ op.frame? = some frame := by
  cases found : (r.step op).1.connections.lookup id with
  | none => simp [queueOf, found] at mem
  | some conn' =>
      rw [queueOf_of_lookup found] at mem
      rcases entry_step r op found with ⟨_, _, _, empty⟩ | ⟨conn, old, -, frames⟩
      · rw [empty] at mem
        cases mem
      · rw [queueOf_of_lookup old]
        exact frames frame mem

/-- What a receiver takes was on its queue. -/
theorem mem_queueOf_of_taken {r : Registry F} {id : ConnectionId} {frame : F}
    (taken : (r.step (.recv id)).2 = .taken (.frame frame)) : frame ∈ r.queueOf id := by
  have outcome := (recv_spec r id).2.2.2
  simp only [Registry.step, Reply.taken.injEq] at taken
  rw [taken] at outcome
  cases found : r.connections.lookup id with
  | none => simp [found] at outcome
  | some conn =>
      rw [queueOf_of_lookup found]
      cases held : conn.tx.buffer with
      | nil => simp [found, BoundedQueue.recv, held] at outcome
      | cons f rest =>
          simp only [found, BoundedQueue.recv, held, List.head?_cons, Taken.frame.injEq] at outcome
          simp [outcome]

/-- An operation that carries no frame puts nothing on any queue. -/
theorem drop_queueOf_of_silent (r : Registry F) {op : Op F} (silent : op.frame? = none)
    (id : ConnectionId) : ((r.step op).1.queueOf id).drop (r.queueOf id).length = [] := by
  refine List.drop_eq_nil_of_le ?_
  cases found : (r.step op).1.connections.lookup id with
  | none => simp [queueOf, found]
  | some conn' =>
      rw [queueOf_of_lookup found]
      rcases entry_cases r op found with ⟨_, _, -, -, rfl⟩ | ⟨conn, old, change⟩
      · exact Nat.zero_le _
      · rw [queueOf_of_lookup old]
        cases change with
        | kept | subscribed _ _ | unsubscribed _ => exact Nat.le_refl _
        | offered carries =>
            rw [silent] at carries
            cases carries
        | taken => simp [BoundedQueue.recv]
        | closed => exact Nat.zero_le _

/-- What an operation puts on a queue is its frame, and it reaches the connection. -/
theorem reaches_of_mem_drop (r : Registry F) (op : Op F) {id : ConnectionId} {frame : F}
    (enqueued : frame ∈ ((r.step op).1.queueOf id).drop (r.queueOf id).length) :
    op.frame? = some frame ∧ r.reaches id op = true := by
  cases carries : op.frame? with
  | none =>
      rw [drop_queueOf_of_silent r carries] at enqueued
      cases enqueued
  | some f =>
      have after := (deliver_spec r op carries id).1
      cases reached : r.reaches id op with
      | false =>
          rw [reached, if_neg Bool.false_ne_true] at after
          simp only [queueOf, after, List.drop_length] at enqueued
          cases enqueued
      | true =>
          rw [reached, if_pos rfl] at after
          cases found : r.connections.lookup id with
          | none => simp [queueOf, after, found] at enqueued
          | some conn =>
              rw [found, Option.map_some] at after
              rw [queueOf_of_lookup after, queueOf_of_lookup found, buffer_offer,
                List.drop_left] at enqueued
              split at enqueued
              · rw [List.mem_singleton.mp enqueued]
                exact ⟨rfl, rfl⟩
              · cases enqueued

/-- `id` is registered and its receiver is there. -/
def Joined (r : Registry F) (id : ConnectionId) : Prop :=
  ∃ conn, r.connections.lookup id = some conn ∧ conn.tx.isOpen = true

namespace Joined

variable {r : Registry F} {id : ConnectionId}

/-- A delivery that does not meet the queue full puts its frame on it, if it reaches it. -/
theorem deliver (joined : r.Joined id) (op : Op F) {frame : F} (carries : op.frame? = some frame)
    (kept : r.dropsFor id op = false) :
    (r.step op).1.Joined id ∧
      (r.step op).1.queueOf id = r.queueOf id ++ if r.reaches id op then [frame] else [] := by
  obtain ⟨conn, found, opened⟩ := joined
  have after := (deliver_spec r op carries id).1
  rw [found] at after
  cases reached : r.reaches id op with
  | false =>
      rw [reached, if_neg Bool.false_ne_true] at after
      refine ⟨⟨conn, after, opened⟩, ?_⟩
      rw [queueOf_of_lookup after, queueOf_of_lookup found]
      simp
  | true =>
      rw [reached, if_pos rfl, Option.map_some] at after
      have room : conn.tx.isFull = false := by simpa [dropsFor, reached, found] using kept
      have taken := BoundedQueue.accepts_of_not_isFull opened room
      refine ⟨⟨_, after, ?_⟩, ?_⟩
      · rw [Connection.offer, BoundedQueue.isOpen_trySend]
        exact opened
      · rw [queueOf_of_lookup after, queueOf_of_lookup found, buffer_offer, taken]

theorem publish (joined : r.Joined id) (ch : String) (frame : F)
    (kept : r.dropsFor id (.publish ch frame) = false) :
    (r.publish ch frame).1.Joined id ∧
      (r.publish ch frame).1.queueOf id =
        r.queueOf id ++ if id ∈ r.byChannel.members ch then [frame] else [] := by
  have delivered := joined.deliver (.publish ch frame) rfl kept
  simpa only [Registry.step, reaches, decide_eq_true_eq] using delivered

theorem send (joined : r.Joined id) (frame : F) (kept : r.dropsFor id (.send id frame) = false) :
    (r.send id frame).1.Joined id ∧
      (r.send id frame).1.queueOf id = r.queueOf id ++ [frame] := by
  have delivered := joined.deliver (.send id frame) rfl kept
  simpa only [Registry.step, reaches, decide_true, ↓reduceIte] using delivered

/-- Subscribing leaves the queue alone. -/
theorem subscribe (joined : r.Joined id) (channels : List String) (max : Nat) :
    (r.subscribe id channels max).1.Joined id ∧
      (r.subscribe id channels max).1.queueOf id = r.queueOf id := by
  obtain ⟨conn, found, opened⟩ := joined
  have after := lookup_subscribe r id channels max id
  rw [if_pos rfl, found, Option.map_some] at after
  exact ⟨⟨_, after, opened⟩, by rw [queueOf_of_lookup after, queueOf_of_lookup found]⟩

end Joined

/-- The channels a request adds, computed from the set the connection holds. -/
theorem added_subscribe {r : Registry F} {id : ConnectionId} (joined : r.Joined id)
    (channels : List String) (max : Nat) :
    (r.subscribe id channels max).2.1 =
      (subscribeLoop max (r.subscriptionsOf id) channels).2.1 := by
  obtain ⟨conn, found, -⟩ := joined
  rw [subscriptionsOf_of_lookup found]
  simp [Registry.subscribe, found]

/-- The set a request leaves. -/
theorem subscriptionsOf_subscribe {r : Registry F} {id : ConnectionId} (joined : r.Joined id)
    (channels : List String) (max : Nat) :
    (r.subscribe id channels max).1.subscriptionsOf id =
      r.subscriptionsOf id ∪
        (subscribeLoop max (r.subscriptionsOf id) channels).2.1.toFinset := by
  obtain ⟨conn, found, -⟩ := joined
  have after := lookup_subscribe r id channels max id
  rw [if_pos rfl, found, Option.map_some] at after
  rw [subscriptionsOf_of_lookup after, subscriptionsOf_of_lookup found]
  exact (subscribeLoop_spec max conn.subscriptions channels).1

/-- A request lists nobody under a channel it does not add. -/
theorem listed_of_subscribe {r : Registry F} {id other : ConnectionId} {channels : List String}
    {max : Nat} {ch : String}
    (listed : other ∈ (r.subscribe id channels max).1.byChannel.members ch) :
    other ∈ r.byChannel.members ch ∨ other = id ∧ ch ∈ (r.subscribe id channels max).2.1 := by
  unfold Registry.subscribe at listed ⊢
  cases found : r.connections.lookup id with
  | none =>
      rw [found] at listed
      exact .inl listed
  | some conn =>
      rw [found] at listed
      rcases Index.mem_members_foldl_link.mp listed with ⟨added, same⟩ | old
      · exact .inr ⟨same, added⟩
      · exact .inl old

/-- Unsubscribing takes the connection off the lists of the channels removed, and puts nobody on
any. -/
theorem listed_of_unsubscribe {r : Registry F} {id other : ConnectionId} {channels : List String}
    {ch : String} (listed : other ∈ (r.unsubscribe id channels).1.byChannel.members ch) :
    other ∈ r.byChannel.members ch ∧ ¬ (other = id ∧ ch ∈ (r.unsubscribe id channels).2) := by
  unfold Registry.unsubscribe at listed ⊢
  cases found : r.connections.lookup id with
  | none =>
      rw [found] at listed
      exact ⟨listed, by simp⟩
  | some conn =>
      rw [found] at listed
      obtain ⟨kept, old⟩ := Index.mem_members_foldl_unlink.mp listed
      exact ⟨old, fun gone => kept gone.symm⟩

/-! ## Operations of others -/

section Others

variable {r : Registry F} {id : ConnectionId} {op : Op F}

/-- The operation is not called for `id` and does not issue it. -/
def Spares (r : Registry F) (id : ConnectionId) (op : Op F) : Prop :=
  op.target? ≠ some id ∧ (op.isAdd = true → id ≠ ⟨r.nextId⟩)

/-- Such an operation leaves the entry alone, unless it delivers to it. -/
theorem Spares.lookup (spares : r.Spares id op) (silent : op.frame? = none) :
    (r.step op).1.connections.lookup id = r.connections.lookup id := by
  obtain ⟨elsewhere, notIssued⟩ := spares
  cases op with
  | publish _ _ | broadcast _ | send _ _ => cases silent
  | add subject sendQueue =>
      exact (lookup_add r subject sendQueue id).trans (if_neg (notIssued rfl))
  | remove i =>
      exact (lookup_remove r i id).trans (if_neg fun same => elsewhere (congrArg some same.symm))
  | subscribe i channels max =>
      exact (lookup_subscribe r i channels max id).trans
        (if_neg fun same => elsewhere (congrArg some same.symm))
  | unsubscribe i channels =>
      exact (lookup_unsubscribe r i channels id).trans
        (if_neg fun same => elsewhere (congrArg some same.symm))
  | recv i =>
      exact ((recv_spec r i).1 id).trans (if_neg fun same => elsewhere (congrArg some same.symm))
  | close i =>
      exact (lookup_close r i id).trans (if_neg fun same => elsewhere (congrArg some same.symm))

/-- Nor does it list the connection anywhere. -/
theorem Spares.members (spares : r.Spares id op) {ch : String}
    (listed : id ∈ (r.step op).1.byChannel.members ch) : id ∈ r.byChannel.members ch := by
  obtain ⟨elsewhere, -⟩ := spares
  cases op with
  | add _ _ => exact listed
  | publish _ _ | broadcast _ | send _ _ =>
      rwa [(deliver_spec r _ rfl id).2.1] at listed
  | recv i => rwa [← (recv_frame r i).1]
  | close i => rwa [← (close_frame r i).1]
  | remove i =>
      change id ∈ (r.remove i).byChannel.members ch at listed
      unfold Registry.remove at listed
      cases found : r.connections.lookup i with
      | none => rwa [found] at listed
      | some conn =>
          rw [found] at listed
          exact (Index.mem_members_foldl_unlink_finset.mp listed).2
  | subscribe i channels max =>
      rcases listed_of_subscribe listed with old | ⟨same, -⟩
      · exact old
      · exact absurd (congrArg some same.symm) elsewhere
  | unsubscribe i channels => exact (listed_of_unsubscribe listed).1

/-- What another's operation does to a connection that is there and not full: it may put its frame
on the queue, and nothing else. -/
theorem Joined.spared (joined : r.Joined id) (spares : r.Spares id op)
    (kept : r.dropsFor id op = false) :
    (r.step op).1.Joined id ∧
      (r.step op).1.subscriptionsOf id = r.subscriptionsOf id ∧
      (r.step op).1.queueOf id =
        r.queueOf id ++ (if r.reaches id op then op.frame? else none).toList := by
  cases carries : op.frame? with
  | some frame =>
      obtain ⟨joined', queue⟩ := joined.deliver op carries kept
      refine ⟨joined', congrFun (deliver_spec r op carries id).2.2 id, ?_⟩
      rw [queue]
      cases r.reaches id op <;> rfl
  | none =>
      have same := spares.lookup carries
      refine ⟨?_, by simp only [subscriptionsOf, same], ?_⟩
      · obtain ⟨conn, found, opened⟩ := joined
        exact ⟨conn, same.trans found, opened⟩
      · rw [queueOf, same, ite_self, Option.toList_none, List.append_nil]
        rfl

/-- The receiver's taking of a frame leaves the connection there. -/
theorem Joined.recv (joined : r.Joined id) :
    (r.step (.recv id)).1.Joined id ∧
      (r.step (.recv id)).1.subscriptionsOf id = r.subscriptionsOf id ∧
      ((r.step (.recv id)).1.queueOf id).drop (r.queueOf id).length = [] := by
  obtain ⟨conn, found, opened⟩ := joined
  have after : (r.step (.recv id)).1.connections.lookup id =
      some { conn with tx := conn.tx.recv.1 } := by
    have taken := (recv_spec r id).1 id
    rwa [if_pos rfl, found, Option.map_some] at taken
  refine ⟨⟨_, after, opened⟩, congrFun (recv_frame r id).2 id, ?_⟩
  rw [queueOf_of_lookup after, queueOf_of_lookup found]
  exact List.drop_eq_nil_of_le (by simp [BoundedQueue.recv])

/-- A request of the connection leaves its queue alone. -/
theorem Joined.unsubscribe (joined : r.Joined id) (channels : List String) :
    (r.unsubscribe id channels).1.Joined id ∧
      (r.unsubscribe id channels).1.queueOf id = r.queueOf id ∧
      (r.unsubscribe id channels).1.subscriptionsOf id =
        (unsubscribeLoop (r.subscriptionsOf id) channels).1 ∧
      (r.unsubscribe id channels).2 = (unsubscribeLoop (r.subscriptionsOf id) channels).2 := by
  obtain ⟨conn, found, opened⟩ := joined
  have after := lookup_unsubscribe r id channels id
  rw [if_pos rfl, found, Option.map_some] at after
  refine ⟨⟨_, after, opened⟩, ?_, ?_, ?_⟩
  · rw [queueOf_of_lookup after, queueOf_of_lookup found]
  · rw [subscriptionsOf_of_lookup after, subscriptionsOf_of_lookup found]
  · rw [subscriptionsOf_of_lookup found]
    simp [Registry.unsubscribe, found]

end Others

/-! ## Listed in every state -/

/-- The index lists every connection under each channel it holds.  It may list more: an `add` that
overwrites an entry leaves the old one's places in the index. -/
def Listed (r : Registry F) : Prop :=
  ∀ id ch, ch ∈ r.subscriptionsOf id → id ∈ r.byChannel.members ch

/-- A request lists the connection under the channels it adds. -/
theorem listed_added (r : Registry F) (id : ConnectionId) (channels : List String) (max : Nat)
    {ch : String} (isAdded : ch ∈ (r.subscribe id channels max).2.1) :
    id ∈ (r.subscribe id channels max).1.byChannel.members ch := by
  unfold Registry.subscribe at isAdded ⊢
  cases found : r.connections.lookup id with
  | none => simp [found] at isAdded
  | some conn =>
      rw [found] at isAdded
      exact Index.mem_members_foldl_link.mpr (.inl ⟨isAdded, rfl⟩)

/-- A request takes no connection off any list. -/
theorem members_subscribe (r : Registry F) (id : ConnectionId) (channels : List String)
    (max : Nat) {other : ConnectionId} {ch : String} (listed : other ∈ r.byChannel.members ch) :
    other ∈ (r.subscribe id channels max).1.byChannel.members ch := by
  unfold Registry.subscribe
  cases r.connections.lookup id with
  | none => exact listed
  | some conn => exact Index.mem_members_foldl_link.mpr (.inr listed)

theorem Listed.subscribe {r : Registry F} (listed : r.Listed) (id : ConnectionId)
    (channels : List String) (max : Nat) : (r.subscribe id channels max).1.Listed := by
  intro other ch held
  unfold Registry.subscribe at held ⊢
  cases found : r.connections.lookup id with
  | none =>
      rw [found] at held
      exact listed _ _ held
  | some conn =>
      simp only [found] at held
      rw [subscriptionsOf_insert rfl] at held
      refine Index.mem_members_foldl_link.mpr ?_
      rcases eq_or_ne other id with rfl | mine
      · rw [Function.update_self, (subscribeLoop_spec max conn.subscriptions channels).1,
          Finset.mem_union, List.mem_toFinset] at held
        rcases held with old | new
        · exact .inr (listed _ _ (by rwa [subscriptionsOf_of_lookup found]))
        · exact .inl ⟨new, rfl⟩
      · rw [Function.update_of_ne mine] at held
        exact .inr (listed _ _ held)

theorem Listed.unsubscribe {r : Registry F} (listed : r.Listed) (id : ConnectionId)
    (channels : List String) : (r.unsubscribe id channels).1.Listed := by
  intro other ch held
  unfold Registry.unsubscribe at held ⊢
  cases found : r.connections.lookup id with
  | none =>
      rw [found] at held
      exact listed _ _ held
  | some conn =>
      simp only [found] at held
      rw [subscriptionsOf_insert rfl] at held
      refine Index.mem_members_foldl_unlink.mpr ?_
      rcases eq_or_ne other id with rfl | mine
      · rw [Function.update_self, (unsubscribeLoop_spec conn.subscriptions channels).1,
          Finset.mem_sdiff, List.mem_toFinset] at held
        exact ⟨fun gone => held.2 gone.1,
          listed _ _ (by rw [subscriptionsOf_of_lookup found]; exact held.1)⟩
      · rw [Function.update_of_ne mine] at held
        exact ⟨fun gone => mine gone.2, listed _ _ held⟩

theorem Listed.remove {r : Registry F} (listed : r.Listed) (id : ConnectionId) :
    (r.remove id).Listed := by
  intro other ch held
  obtain ⟨conn, found, old⟩ := mem_subscriptionsOf.mp held
  rw [lookup_remove] at found
  split at found
  · cases found
  · next mine =>
      have before := listed _ _ (mem_subscriptionsOf.mpr ⟨conn, found, old⟩)
      unfold Registry.remove
      cases r.connections.lookup id with
      | none => exact before
      | some gone =>
          exact Index.mem_members_foldl_unlink_finset.mpr ⟨fun both => mine both.2, before⟩

/-- No operation takes a connection off the list of a channel it holds. -/
theorem Listed.step {r : Registry F} (listed : r.Listed) (op : Op F) : (r.step op).1.Listed := by
  have unchanged : ∀ r' : Registry F, r'.byChannel = r.byChannel →
      (∀ id, r'.subscriptionsOf id ⊆ r.subscriptionsOf id) → r'.Listed := by
    intro r' byChannel fewer id ch held
    rw [byChannel]
    exact listed _ _ (fewer id held)
  cases op with
  | add subject sendQueue =>
      refine unchanged _ rfl fun id ch held => ?_
      obtain ⟨conn, found, old⟩ := mem_subscriptionsOf.mp held
      change (r.add subject sendQueue).1.connections.lookup id = _ at found
      rw [lookup_add] at found
      split at found
      · cases found
        simp at old
      · exact mem_subscriptionsOf.mpr ⟨conn, found, old⟩
  | remove id => exact listed.remove id
  | subscribe id channels max => exact listed.subscribe id channels max
  | unsubscribe id channels => exact listed.unsubscribe id channels
  | publish channel frame =>
      obtain ⟨-, byChannel, subs⟩ := r.deliver_spec (.publish channel frame) rfl ⟨0⟩
      exact unchanged _ byChannel fun id => (congrFun subs id).subset
  | broadcast frame =>
      obtain ⟨-, byChannel, subs⟩ := r.deliver_spec (.broadcast frame) rfl ⟨0⟩
      exact unchanged _ byChannel fun id => (congrFun subs id).subset
  | send i frame =>
      obtain ⟨-, byChannel, subs⟩ := r.deliver_spec (.send i frame) rfl ⟨0⟩
      exact unchanged _ byChannel fun id => (congrFun subs id).subset
  | recv i =>
      obtain ⟨byChannel, subs⟩ := recv_frame r i
      exact unchanged _ byChannel fun id => (congrFun subs id).subset
  | close i =>
      obtain ⟨byChannel, subs⟩ := close_subscriptions r i
      exact unchanged _ byChannel fun id => (congrFun subs id).subset

theorem Listed.run {r : Registry F} (listed : r.Listed) (ops : List (Op F)) :
    (r.run ops).Listed := by
  induction ops generalizing r with
  | nil => exact listed
  | cons op ops ih => exact ih (listed.step op)

theorem listed_new : (new : Registry F).Listed := by
  intro id ch held
  simp [subscriptionsOf, new] at held

end Registry

end WsFanout
