import WsFanout.Protocol
import WsFanout.RegistrySpec
import WsFanout.RegistryWrap

/-!
# The indexed registry refines the plain one

`Registry.abs_step`: while the index inverts the subscription sets, one operation of the registry
is the same operation of the plain registry, with the same result.  The publish of the registry
reads one index entry where the plain one scans every connection.  `Registry.abs_run` is the same
for runs.

`Registry.queueOf_step` spells out what that means for the queues, and `Registry.enqueued_data`
what it means over a run: the `data` frames a connection accepts on a channel are, in order, the
publishes on the channel made while it was subscribed and its queue took them.
-/

namespace WsFanout

open Lib

variable {F : Type}

/-- How many queues took a frame, as the caller of a delivering operation learns it. -/
def Reply.accepted? : Reply F → Option Nat
  | .delivered count => some count
  | .sent ok => some (if ok then 1 else 0)
  | _ => none

namespace Registry

theorem lookup_abs (r : Registry F) (id : ConnectionId) :
    r.abs.connections.lookup id = (r.connections.lookup id).map Connection.abs :=
  Finmap.lookup_mapVals _ _ _

/-- A plain registry with the same connections and counter is the abstraction. -/
theorem eq_abs_of_lookup {s : SpecRegistry F} {r : Registry F}
    (lookups : ∀ id, s.connections.lookup id = (r.connections.lookup id).map Connection.abs)
    (nextId : s.nextId = r.nextId) : s = r.abs := by
  refine SpecRegistry.ext (Finmap.ext_lookup fun id => ?_) nextId
  rw [lookups, lookup_abs]

/-- A fan-out is a scan for the connections it visits. -/
theorem abs_fanOut (r : Registry F) (ids : Finset ConnectionId)
    (wanted : SpecConnection F → Bool)
    (selects : ∀ id conn, r.connections.lookup id = some conn →
      (id ∈ ids ↔ wanted conn.abs = true))
    (live : ∀ id ∈ ids, ∃ conn, r.connections.lookup id = some conn) (frame : F) :
    r.abs.scan wanted frame = ((r.fanOut frame ids).1.abs, (r.fanOut frame ids).2) := by
  obtain ⟨lookups, -, nextId, count⟩ := fanOut_spec r frame ids
  refine Prod.ext (eq_abs_of_lookup (fun id => ?_) nextId.symm) ?_
  · rw [lookups]
    simp only [SpecRegistry.scan, Finmap.lookup_mapVals, lookup_abs]
    cases found : r.connections.lookup id with
    | none => simp
    | some conn =>
        by_cases visited : id ∈ ids
        · have chosen := (selects id conn found).mp visited
          simp [visited, chosen]
        · have passed : wanted conn.abs = false := by
            simpa using fun chosen => visited ((selects id conn found).mpr chosen)
          simp [visited, passed]
  · rw [count]
    simp only [SpecRegistry.scan, Registry.abs, Finmap.keys_mapVals, Finmap.lookup_mapVals]
    congr 1
    ext id
    rw [Finset.mem_filter, Finset.mem_filter, Finmap.mem_keys_iff, accepts]
    constructor
    · rintro ⟨⟨conn, found⟩, chosen⟩
      simp only [found, Option.map_some, Option.any_some, Connection.hasRoom_abs,
        Bool.and_eq_true] at chosen ⊢
      exact ⟨(selects id conn found).mpr chosen.1, chosen.2⟩
    · rintro ⟨visited, room⟩
      obtain ⟨conn, found⟩ := live id visited
      simp only [found, Option.map_some, Option.any_some, Connection.hasRoom_abs,
        Bool.and_eq_true] at room ⊢
      exact ⟨⟨conn, rfl⟩, (selects id conn found).mp visited, room⟩

/-- An operation that changes one connection is an update of the plain registry. -/
theorem update_abs {r r' : Registry F} {id : ConnectionId} {g : Connection F → Connection F}
    {f : SpecConnection F → SpecConnection F}
    (lookups : ∀ other, r'.connections.lookup other =
      if other = id then (r.connections.lookup id).map g else r.connections.lookup other)
    (nextId : r'.nextId = r.nextId)
    (changed : ∀ conn, r.connections.lookup id = some conn → (g conn).abs = f conn.abs) :
    r.abs.update id f = r'.abs := by
  refine eq_abs_of_lookup (fun other => ?_) ?_
  · rw [lookups, SpecRegistry.lookup_update, lookup_abs, lookup_abs]
    split
    · cases found : r.connections.lookup id with
      | none => rfl
      | some conn => simp [changed conn found]
    · rfl
  · rw [nextId]
    exact SpecRegistry.nextId_update _ _ _

/-- **One operation of the registry is that operation of the plain registry.** -/
theorem abs_step {r : Registry F} (inverts : Index.Inverts r.subscriptionsOf r.byChannel)
    (op : Op F) : r.abs.step op = ((r.step op).1.abs, (r.step op).2) := by
  cases op with
  | add subject sendQueue =>
      refine Prod.ext (eq_abs_of_lookup (fun id => ?_) rfl) rfl
      change (Finmap.insert _ _ r.abs.connections).lookup id =
        ((r.add subject sendQueue).1.connections.lookup id).map Connection.abs
      rw [lookup_add, Finmap.lookup_insert_ite, lookup_abs]
      by_cases mine : id = ⟨r.nextId⟩
      · have mine' : id = ⟨r.abs.nextId⟩ := mine
        rw [if_pos mine, if_pos mine']
        rfl
      · have mine' : ¬ id = ⟨r.abs.nextId⟩ := mine
        rw [if_neg mine, if_neg mine']
  | remove id =>
      refine Prod.ext (eq_abs_of_lookup (fun other => ?_) ?_) rfl
      · change (Finmap.erase id r.abs.connections).lookup other =
          ((r.remove id).connections.lookup other).map Connection.abs
        rw [lookup_remove, Finmap.lookup_erase_ite, lookup_abs]
        split <;> rfl
      · exact (nextId_remove r id).symm
  | subscribe id channels max =>
      simp only [SpecRegistry.step, Registry.step, lookup_abs]
      cases found : r.connections.lookup id with
      | none => simp [subscribe, found]
      | some conn =>
          refine Prod.ext (update_abs (lookup_subscribe r id channels max)
            (nextId_subscribe r id channels max) fun conn' found' => ?_) ?_
          · rw [found] at found'
            cases found'
            rfl
          · simp [subscribe, found, Connection.abs]
  | unsubscribe id channels =>
      simp only [SpecRegistry.step, Registry.step, lookup_abs]
      cases found : r.connections.lookup id with
      | none => simp [unsubscribe, found]
      | some conn =>
          refine Prod.ext (update_abs (lookup_unsubscribe r id channels)
            (nextId_unsubscribe r id channels) fun conn' found' => ?_) ?_
          · rw [found] at found'
            cases found'
            rfl
          · simp [unsubscribe, found, Connection.abs]
  | publish channel frame =>
      have scanned := abs_fanOut r (r.byChannel.members channel)
        (fun c => channel ∈ c.subscriptions) ?selects ?live frame
      · simp only [SpecRegistry.step, Registry.step, publish_eq, scanned]
      case selects =>
        intro id conn found
        rw [inverts.mem_members, subscriptionsOf_of_lookup found]
        exact decide_eq_true_iff.symm
      case live =>
        intro id listed
        rw [inverts.mem_members, mem_subscriptionsOf] at listed
        obtain ⟨conn, found, -⟩ := listed
        exact ⟨conn, found⟩
  | broadcast frame =>
      have scanned := abs_fanOut r r.connections.keys (fun _ => true)
        (fun id conn found => by simp [Finmap.mem_keys_iff, found])
        (fun id listed => Finmap.mem_keys_iff.mp listed) frame
      simp only [SpecRegistry.step, Registry.step, broadcast, scanned]
  | send id frame =>
      obtain ⟨sent, ok⟩ := send_eq r id frame
      obtain ⟨lookups, -, nextId, -⟩ := fanOut_spec r frame {id}
      simp only [SpecRegistry.step, Registry.step, sent, ok]
      refine Prod.ext (update_abs (g := fun conn => conn.offer frame) (fun other => ?_) nextId
        fun conn _ => conn.abs_offer frame) ?_
      · rw [lookups]
        rcases eq_or_ne other id with rfl | same
        · cases r.connections.lookup other <;> simp
        · cases r.connections.lookup other <;> simp [same]
      · simp only [lookup_abs, accepts]
        cases r.connections.lookup id <;> rfl
  | recv id =>
      obtain ⟨lookups, -, nextId, -⟩ := recv_spec r id
      simp only [SpecRegistry.step, Registry.step, lookup_abs]
      cases found : r.connections.lookup id with
      | none => simp [recv, found]
      | some conn =>
          cases held : conn.tx.buffer with
          | nil => simp [recv, found, BoundedQueue.recv, Connection.abs, held]
          | cons frame rest =>
              have queue : conn.abs.queue = frame :: rest := held
              simp only [Option.map_some, queue]
              refine Prod.ext (update_abs lookups nextId fun conn' found' => ?_) ?_
              · rw [found] at found'
                cases found'
                simp [Connection.abs, BoundedQueue.recv, held]
              · simp [recv, found, BoundedQueue.recv, held]
  | close id =>
      exact Prod.ext (update_abs (lookup_close r id) (close_frame r id).2 fun _ _ => rfl) rfl

/-- **A run of the registry is a run of the plain registry**, as long as no id is issued twice. -/
theorem abs_run (ops : List (Op F)) (adds : ops.countP Op.isAdd ≤ 2 ^ 64) :
    (new.run ops).abs = (new : Registry F).abs.run ops := by
  induction ops using List.reverseRecOn with
  | nil => rfl
  | append_singleton ops op ih =>
      have earlier : ops.countP Op.isAdd ≤ 2 ^ 64 := by
        rw [List.countP_append] at adds
        omega
      have inv := Consistent.of_run ops earlier
      calc (new.run (ops ++ [op])).abs
          = ((new.run ops).step op).1.abs := by rw [run_append, run_cons, run_nil]
        _ = ((new.run ops).abs.step op).1 := by rw [abs_step inv.inverts]
        _ = (((new : Registry F).abs.run ops).step op).1 := by rw [ih earlier]
        _ = (new : Registry F).abs.run (ops ++ [op]) := by
          rw [SpecRegistry.run, SpecRegistry.run, List.foldl_append]
          rfl

/-! ## What a delivery puts on the queues -/

/-- The frames waiting for a connection's receiver. -/
def queueOf (r : Registry F) (id : ConnectionId) : List F :=
  ((r.connections.lookup id).map fun conn => conn.tx.buffer).getD []

/-- The operation tries to push its frame on the queue of `id`, if that is registered. -/
def wants (r : Registry F) (id : ConnectionId) : Op F → Bool
  | .publish channel _ => channel ∈ r.subscriptionsOf id
  | .broadcast _ => true
  | .send i _ => id = i
  | _ => false

/-- The connections whose queue takes the operation's frame. -/
def acceptors (r : Registry F) (op : Op F) : Finset ConnectionId :=
  r.connections.keys.filter fun id => r.wants id op && r.accepts id

theorem mem_acceptors {r : Registry F} {op : Op F} {id : ConnectionId} :
    id ∈ r.acceptors op ↔ r.wants id op = true ∧ r.accepts id = true := by
  rw [acceptors, Finset.mem_filter, Finmap.mem_keys_iff, Bool.and_eq_true]
  constructor
  · exact fun listed => listed.2
  · rintro ⟨wanted, room⟩
    refine ⟨?_, wanted, room⟩
    unfold accepts at room
    cases found : r.connections.lookup id with
    | none => simp [found] at room
    | some conn => exact ⟨conn, rfl⟩

/-- A delivering operation returns how many queues took its frame. -/
theorem accepted_step {r : Registry F} (inverts : Index.Inverts r.subscriptionsOf r.byChannel)
    {op : Op F} {frame : F} (carries : op.frame? = some frame) :
    (r.step op).2.accepted? = some (r.acceptors op).card := by
  cases op with
  | add _ _ | remove _ | subscribe _ _ _ | unsubscribe _ _ | recv _ | close _ => cases carries
  | publish channel f =>
      simp only [Registry.step, publish_eq, (fanOut_spec r f _).2.2.2, Reply.accepted?]
      congr 2
      ext id
      rw [Finset.mem_filter, mem_acceptors, inverts.mem_members]
      exact and_congr_left fun _ => decide_eq_true_iff.symm
  | broadcast f =>
      simp only [Registry.step, broadcast, (fanOut_spec r f _).2.2.2, Reply.accepted?]
      congr 2
  | send i f =>
      simp only [Registry.step, (send_eq r i f).2, Reply.accepted?]
      cases room : r.accepts i with
      | false =>
          have none : r.acceptors (.send i f) = ∅ := by
            refine Finset.eq_empty_of_forall_notMem fun id listed => ?_
            obtain ⟨here, accepted⟩ := mem_acceptors.mp listed
            rw [of_decide_eq_true here, room] at accepted
            cases accepted
          simp [none]
      | true =>
          have one : r.acceptors (.send i f) = {i} := by
            ext id
            rw [mem_acceptors, Finset.mem_singleton]
            constructor
            · exact fun listed => of_decide_eq_true listed.1
            · rintro rfl
              exact ⟨decide_eq_true rfl, room⟩
          simp [one]

theorem queueOf_of_lookup {r : Registry F} {id : ConnectionId} {conn : Connection F}
    (found : r.connections.lookup id = some conn) : r.queueOf id = conn.tx.buffer := by
  simp [queueOf, found]

theorem buffer_offer (conn : Connection F) (frame : F) :
    (conn.offer frame).tx.buffer =
      conn.tx.buffer ++ if conn.tx.accepts then [frame] else [] := by
  simp only [Connection.offer, BoundedQueue.buffer_trySend]
  split <;> simp

/-- A delivering operation appends its frame once to the queues that take it and leaves every
other queue as it was. -/
theorem queueOf_step {r : Registry F} (inverts : Index.Inverts r.subscriptionsOf r.byChannel)
    {op : Op F} {frame : F} (carries : op.frame? = some frame) (id : ConnectionId) :
    (r.step op).1.queueOf id =
      r.queueOf id ++ if r.wants id op && r.accepts id then [frame] else [] := by
  rw [queueOf, lookup_step inverts]
  cases found : r.connections.lookup id with
  | none =>
      have refused : r.accepts id = false := by simp [accepts, found]
      have empty : r.queueOf id = [] := by simp [queueOf, found]
      rw [refused, empty, Bool.and_false]
      cases op with
      | publish channel _ => rfl
      | broadcast _ => rfl
      | send i _ => by_cases mine : id = i <;> simp [Op.localTo, mine, LocalOp.apply]
      | add _ _ | remove _ | subscribe _ _ _ | unsubscribe _ _ | recv _ | close _ => cases carries
  | some conn =>
      have room : r.accepts id = conn.tx.accepts := by simp [accepts, found]
      rw [room, queueOf_of_lookup found]
      cases op with
      | publish channel f =>
          cases carries
          simp only [Op.localTo, LocalOp.apply, wants, subscriptionsOf_of_lookup found]
          by_cases held : channel ∈ conn.subscriptions
          · simp [held, buffer_offer]
          · simp [held]
      | broadcast f =>
          cases carries
          simp [Op.localTo, LocalOp.apply, wants, buffer_offer]
      | send i f =>
          cases carries
          by_cases mine : id = i
          · simp [Op.localTo, LocalOp.apply, wants, mine, buffer_offer]
          · simp [Op.localTo, wants, mine]
      | add _ _ | remove _ | subscribe _ _ _ | unsubscribe _ _ | recv _ | close _ => cases carries

/-- No other operation puts anything on a queue. -/
theorem queueOf_step_le {r : Registry F} (inverts : Index.Inverts r.subscriptionsOf r.byChannel)
    {op : Op F} (carries : op.frame? = none) (id : ConnectionId) :
    ((r.step op).1.queueOf id).length ≤ (r.queueOf id).length := by
  rw [queueOf, lookup_step inverts, queueOf]
  cases reaches : op.localTo r.nextId id with
  | none => exact Nat.le_refl _
  | some seen =>
      have silent : seen.frame? = none := (Op.frame?_localTo reaches).trans carries
      cases r.connections.lookup id <;> cases seen <;>
        simp_all [LocalOp.apply, LocalOp.frame?, BoundedQueue.recv, BoundedQueue.close]

/-! ## The log of a run -/

/-- The frames a run puts on the queue of `id`, in order: what each operation's step appends. -/
def enqueued (id : ConnectionId) : Registry F → List (Op F) → List F
  | _, [] => []
  | r, op :: ops =>
    ((r.step op).1.queueOf id).drop (r.queueOf id).length ++ enqueued id (r.step op).1 ops

/-- One operation's part of the log. -/
theorem drop_queueOf_step {r : Registry F}
    (inverts : Index.Inverts r.subscriptionsOf r.byChannel) (op : Op F) (id : ConnectionId) :
    ((r.step op).1.queueOf id).drop (r.queueOf id).length =
      match op.frame? with
      | none => []
      | some frame => if r.wants id op && r.accepts id then [frame] else [] := by
  cases carries : op.frame? with
  | none => exact List.drop_eq_nil_of_le (queueOf_step_le inverts carries id)
  | some frame => rw [queueOf_step inverts carries, List.drop_left]

end Registry

/-- The payload an operation publishes on `ch` as the server's `publish` does. -/
def Op.publishOn? (ch : String) : Op ServerMessage → Option RawValue
  | .publish channel frame => if channel = ch then frame.dataOn? ch else none
  | _ => none

/-- `data` frames enter the registry only through the server's `publish`, which builds the frame
from the channel it publishes on. -/
def Op.PublishesData : Op ServerMessage → Prop
  | .publish channel (.data c _) => c = channel
  | .broadcast (.data _ _) => False
  | .send _ (.data _ _) => False
  | _ => True

namespace Registry

/-- The payloads published on `ch` at a moment when `id` was subscribed and its queue had room and
a receiver. -/
def publishedTo (id : ConnectionId) (ch : String) :
    Registry ServerMessage → List (Op ServerMessage) → List RawValue
  | _, [] => []
  | r, op :: ops =>
    (match op.publishOn? ch with
      | none => []
      | some payload => if ch ∈ r.subscriptionsOf id ∧ r.accepts id then [payload] else []) ++
    publishedTo id ch (r.step op).1 ops

theorem publishedTo_sublist (id : ConnectionId) (ch : String) (r : Registry ServerMessage)
    (ops : List (Op ServerMessage)) :
    (publishedTo id ch r ops).Sublist (ops.filterMap (Op.publishOn? ch)) := by
  induction ops generalizing r with
  | nil => exact List.Sublist.slnil
  | cons op ops ih =>
      have later := ih (r.step op).1
      rw [publishedTo]
      cases published : op.publishOn? ch with
      | none =>
          rw [List.filterMap_cons_none published]
          exact later
      | some payload =>
          rw [List.filterMap_cons_some published]
          by_cases taken : ch ∈ r.subscriptionsOf id ∧ r.accepts id = true
          · simp only [taken, and_self, ↓reduceIte]
            exact later.cons_cons payload
          · simp only [taken, ↓reduceIte]
            exact later.cons payload

/-- One operation puts a `data` frame of `ch` on the queue exactly when it publishes on `ch`. -/
theorem dataOn_step {r : Registry ServerMessage}
    (inverts : Index.Inverts r.subscriptionsOf r.byChannel) {op : Op ServerMessage}
    (published : op.PublishesData) (id : ConnectionId) (ch : String) :
    (((r.step op).1.queueOf id).drop (r.queueOf id).length).filterMap
        (ServerMessage.dataOn? ch) =
      match op.publishOn? ch with
      | none => []
      | some payload =>
        if ch ∈ r.subscriptionsOf id ∧ r.accepts id then [payload] else [] := by
  rw [drop_queueOf_step inverts]
  cases op with
  | add _ _ | remove _ | subscribe _ _ _ | unsubscribe _ _ | recv _ | close _ => rfl
  | publish channel frame =>
      cases frame with
      | data c payload =>
          obtain rfl : c = channel := published
          have iff : (r.wants id (.publish c (.data c payload)) && r.accepts id) = true ↔
              c ∈ r.subscriptionsOf id ∧ r.accepts id = true := by
            rw [Bool.and_eq_true]
            exact and_congr_left fun _ => decide_eq_true_iff
          change List.filterMap _ (if _ then [ServerMessage.data c payload] else []) = _
          by_cases taken : (r.wants id (.publish c (.data c payload)) && r.accepts id) = true
          · rw [if_pos taken]
            rcases eq_or_ne c ch with rfl | here
            · simp [Op.publishOn?, ServerMessage.dataOn?, iff.mp taken]
            · simp [Op.publishOn?, ServerMessage.dataOn?, here]
          · rw [if_neg taken, List.filterMap_nil]
            rcases eq_or_ne c ch with rfl | here
            · have refused := fun both => taken (iff.mpr both)
              simp only [Op.publishOn?, ServerMessage.dataOn?, ↓reduceIte, if_neg refused]
            · simp [Op.publishOn?, here]
      | _ =>
          simp only [Op.frame?, Op.publishOn?, ServerMessage.dataOn?, ite_self]
          split <;> rfl
  | broadcast frame | send _ frame =>
      cases frame with
      | data _ _ => exact published.elim
      | _ =>
          simp only [Op.frame?, Op.publishOn?]
          split <;> rfl

/-- **Accepted data over a run.**  The `data` frames of `ch` that a run puts on a connection's
queue are, in order, the publishes on `ch` made while it was subscribed and its queue took them. -/
theorem enqueued_data {n : Nat} {r : Registry ServerMessage} (inv : Consistent n r)
    (ops : List (Op ServerMessage)) (below : n + ops.countP Op.isAdd ≤ 2 ^ 64)
    (published : ∀ op ∈ ops, op.PublishesData) (id : ConnectionId) (ch : String) :
    (enqueued id r ops).filterMap (ServerMessage.dataOn? ch) = publishedTo id ch r ops := by
  induction ops generalizing n r with
  | nil => rfl
  | cons op ops ih =>
      have split : (op :: ops).countP Op.isAdd =
          [op].countP Op.isAdd + ops.countP Op.isAdd := by
        rw [← List.countP_append, List.singleton_append]
      rw [split] at below
      have later := ih (inv.step op (by omega)) (by omega)
        (fun o mem => published o (List.mem_cons_of_mem _ mem))
      rw [enqueued, publishedTo, List.filterMap_append, later,
        dataOn_step inv.inverts (published op List.mem_cons_self)]

/-- **The indexed fan-out refines the plain one.**  In every state reached with at most `2 ^ 64`
calls of `add`, each operation is that operation of the plain registry; a delivering operation
appends its frame once to exactly the queues that accept it and returns their number; and the
`data` frames a connection accepted on a channel are the publishes on it made while it was
subscribed and its queue had room, in order. -/
theorem indexed_refines_plain (ops : List (Op ServerMessage))
    (adds : ops.countP Op.isAdd ≤ 2 ^ 64) :
    (∀ op, (new.run ops).abs.step op =
      (((new.run ops).step op).1.abs, ((new.run ops).step op).2)) ∧
    (∀ op frame, op.frame? = some frame →
      (∀ id, ((new.run ops).step op).1.queueOf id =
        (new.run ops).queueOf id ++ if id ∈ (new.run ops).acceptors op then [frame] else []) ∧
      ((new.run ops).step op).2.accepted? = some ((new.run ops).acceptors op).card) ∧
    ((∀ op ∈ ops, op.PublishesData) → ∀ id ch,
      (enqueued id new ops).filterMap (ServerMessage.dataOn? ch) = publishedTo id ch new ops ∧
      (publishedTo id ch new ops).Sublist (ops.filterMap (Op.publishOn? ch))) := by
  have inv := Consistent.of_run ops adds
  refine ⟨fun op => abs_step inv.inverts op, fun op frame carries => ⟨fun id => ?_, ?_⟩, ?_⟩
  · rw [queueOf_step inv.inverts carries]
    simp only [mem_acceptors, Bool.and_eq_true]
  · exact accepted_step inv.inverts carries
  · intro published id ch
    exact ⟨enqueued_data Consistent.initial ops (by omega) published id ch,
      publishedTo_sublist id ch new ops⟩

/-- Two subscribers with room and one without. -/
theorem indexed_refines_plain_three :
    ((new : Registry ServerMessage).run
        [.add "a" 1, .add "b" 1, .add "c" 0, .subscribe ⟨1⟩ ["x"] 9, .subscribe ⟨2⟩ ["x", "y"] 9,
          .subscribe ⟨3⟩ ["x"] 9]).abs.step (.publish "x" (.data "x" ⟨"1"⟩)) =
      ((((new : Registry ServerMessage).run
        [.add "a" 1, .add "b" 1, .add "c" 0, .subscribe ⟨1⟩ ["x"] 9, .subscribe ⟨2⟩ ["x", "y"] 9,
          .subscribe ⟨3⟩ ["x"] 9]).publish "x" (.data "x" ⟨"1"⟩)).1.abs, .delivered 2) :=
  (indexed_refines_plain _ (by decide)).1 (.publish "x" (.data "x" ⟨"1"⟩))

/-- A publish reads a stale index entry where the plain registry scans. -/
theorem abs_step_ne_of_stale {r : Registry ServerMessage}
    (found : r.connections.lookup ⟨1⟩ =
      some { subject := "b", subscriptions := ∅, tx := BoundedQueue.new 1, dropped := 0 })
    (stale : r.byChannel.members "x" = {⟨1⟩}) (frame : ServerMessage) :
    r.abs.step (.publish "x" frame) ≠
      ((r.step (.publish "x" frame)).1.abs, (r.step (.publish "x" frame)).2) := by
  intro refines
  have queues := congrArg (fun out => (out.1.connections.lookup ⟨1⟩).map SpecConnection.queue)
    refines
  have plain : ((r.abs.step (.publish "x" frame)).1.connections.lookup ⟨1⟩).map
      SpecConnection.queue = some [] := by
    simp [SpecRegistry.step, SpecRegistry.scan, lookup_abs, found, Connection.abs]
  have indexed : ((r.step (.publish "x" frame)).1.abs.connections.lookup ⟨1⟩).map
      SpecConnection.queue = some [frame] := by
    simp only [lookup_abs, Registry.step, publish_eq, (fanOut_spec r frame _).1, stale, found]
    simp [Connection.abs, buffer_offer, BoundedQueue.accepts, BoundedQueue.new]
  simp only [plain, indexed] at queues
  cases queues

/-- Once the counter has gone round, a publish reaches a connection that is not subscribed. -/
theorem indexed_refines_plain_wrapped :
    (new.run (wrapOps : List (Op ServerMessage))).abs.step (.publish "x" (.data "x" ⟨"1"⟩)) ≠
      (((new.run (wrapOps : List (Op ServerMessage))).step
          (.publish "x" (.data "x" ⟨"1"⟩))).1.abs,
        ((new.run (wrapOps : List (Op ServerMessage))).step
          (.publish "x" (.data "x" ⟨"1"⟩))).2) :=
  abs_step_ne_of_stale run_wrapOps.1 run_wrapOps.2 _

end Registry

end WsFanout
