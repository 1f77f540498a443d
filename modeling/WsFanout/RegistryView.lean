import WsFanout.RegistryEffect

/-!
# What one connection sees of an operation

A registry operation reaches a given connection in one of nine ways, or not at all.  `Op.localTo`
says which, and `LocalOp.apply` what that does to the connection.  `Registry.lookup_step` is the
one statement about all operations: while the index agrees with the subscription sets, the entry of
a connection after an operation is a function of its entry before it and of what it sees.
-/

namespace WsFanout

open Lib

variable {F : Type}

/-- An operation as it reaches one connection. -/
inductive LocalOp (F : Type) where
  | add (subject : String) (sendQueue : Nat)
  | remove
  | subscribe (channels : List String) (max : Nat)
  | unsubscribe (channels : List String)
  | publish (channel : String) (frame : F)
  | broadcast (frame : F)
  | send (frame : F)
  | recv
  | close
  deriving DecidableEq, Repr

/-- How an operation reaches the connection `id`; `nextId` decides whose `add` it is. -/
def Op.localTo (nextId : UInt64) (id : ConnectionId) : Op F → Option (LocalOp F)
  | .add subject sendQueue => if id = ⟨nextId⟩ then some (.add subject sendQueue) else none
  | .remove i => if id = i then some .remove else none
  | .subscribe i channels max => if id = i then some (.subscribe channels max) else none
  | .unsubscribe i channels => if id = i then some (.unsubscribe channels) else none
  | .publish channel frame => some (.publish channel frame)
  | .broadcast frame => some (.broadcast frame)
  | .send i frame => if id = i then some (.send frame) else none
  | .recv i => if id = i then some .recv else none
  | .close i => if id = i then some .close else none

/-- What the operation makes of the connection's entry. -/
def LocalOp.apply : LocalOp F → Option (Connection F) → Option (Connection F)
  | .add subject sendQueue, _ =>
    some { subject, subscriptions := ∅, tx := BoundedQueue.new sendQueue, dropped := 0 }
  | .remove, _ => none
  | .subscribe channels max, entry => entry.map fun conn =>
    { conn with subscriptions := (Registry.subscribeLoop max conn.subscriptions channels).1 }
  | .unsubscribe channels, entry => entry.map fun conn =>
    { conn with subscriptions := (Registry.unsubscribeLoop conn.subscriptions channels).1 }
  | .publish channel frame, entry => entry.map fun conn =>
    if channel ∈ conn.subscriptions then conn.offer frame else conn
  | .broadcast frame, entry => entry.map fun conn => conn.offer frame
  | .send frame, entry => entry.map fun conn => conn.offer frame
  | .recv, entry => entry.map fun conn => { conn with tx := conn.tx.recv.1 }
  | .close, entry => entry.map fun conn => { conn with tx := conn.tx.close }

/-- The frame a delivering operation carries. -/
def LocalOp.frame? : LocalOp F → Option F
  | .publish _ frame => some frame
  | .broadcast frame => some frame
  | .send frame => some frame
  | _ => none

theorem Op.frame?_localTo {nextId : UInt64} {id : ConnectionId} {op : Op F} {seen : LocalOp F}
    (reaches : op.localTo nextId id = some seen) : seen.frame? = op.frame? := by
  cases op with
  | publish _ _ | broadcast _ => cases reaches; rfl
  | add _ _ =>
      simp only [Op.localTo, Option.ite_none_right_eq_some] at reaches
      obtain ⟨-, reaches⟩ := reaches
      cases reaches
      rfl
  | remove _ | subscribe _ _ _ | unsubscribe _ _ | send _ _ | recv _ | close _ =>
      simp only [Op.localTo, Option.ite_none_right_eq_some] at reaches
      obtain ⟨-, reaches⟩ := reaches
      cases reaches
      rfl

namespace Registry

/-- The entry of `id` after an operation. -/
theorem lookup_step {r : Registry F} (inverts : Index.Inverts r.subscriptionsOf r.byChannel)
    (op : Op F) (id : ConnectionId) :
    (r.step op).1.connections.lookup id =
      match op.localTo r.nextId id with
      | none => r.connections.lookup id
      | some seen => seen.apply (r.connections.lookup id) := by
  cases op with
  | add subject sendQueue =>
      change (r.add subject sendQueue).1.connections.lookup id = _
      rw [lookup_add]
      by_cases mine : id = ⟨r.nextId⟩ <;> simp [Op.localTo, mine, LocalOp.apply]
  | remove i =>
      change (r.remove i).connections.lookup id = _
      rw [lookup_remove]
      by_cases mine : id = i <;> simp [Op.localTo, mine, LocalOp.apply]
  | subscribe i channels max =>
      change (r.subscribe i channels max).1.connections.lookup id = _
      rw [lookup_subscribe]
      rcases eq_or_ne id i with rfl | mine
      · simp [Op.localTo, LocalOp.apply]
      · simp [Op.localTo, mine]
  | unsubscribe i channels =>
      change (r.unsubscribe i channels).1.connections.lookup id = _
      rw [lookup_unsubscribe]
      rcases eq_or_ne id i with rfl | mine
      · simp [Op.localTo, LocalOp.apply]
      · simp [Op.localTo, mine]
  | publish channel frame =>
      change (r.publish channel frame).1.connections.lookup id = _
      rw [publish_eq, (fanOut_spec r frame _).1]
      -- the index lists exactly the connections that hold the channel
      simp only [Op.localTo, LocalOp.apply, inverts.mem_members]
      cases found : r.connections.lookup id with
      | none => simp
      | some conn =>
          rw [subscriptionsOf_of_lookup found]
          by_cases held : channel ∈ conn.subscriptions <;> simp [held]
  | broadcast frame =>
      change (r.broadcast frame).1.connections.lookup id = _
      rw [broadcast, (fanOut_spec r frame _).1]
      simp only [Op.localTo, LocalOp.apply]
      cases found : r.connections.lookup id with
      | none => simp
      | some conn => rw [if_pos (Finmap.mem_keys_iff.mpr ⟨conn, found⟩)]
  | send i frame =>
      change (r.send i frame).1.connections.lookup id = _
      rw [(send_eq r i frame).1, (fanOut_spec r frame _).1]
      rcases eq_or_ne id i with rfl | mine
      · simp [Op.localTo, LocalOp.apply]
      · simp [Op.localTo, mine]
  | recv i =>
      change (r.recv i).1.connections.lookup id = _
      rw [(recv_spec r i).1]
      rcases eq_or_ne id i with rfl | mine
      · simp [Op.localTo, LocalOp.apply]
      · simp [Op.localTo, mine]
  | close i =>
      change (r.close i).connections.lookup id = _
      rw [lookup_close]
      rcases eq_or_ne id i with rfl | mine
      · simp [Op.localTo, LocalOp.apply]
      · simp [Op.localTo, mine]

/-- Only `add` moves the id counter. -/
theorem nextId_step (r : Registry F) (op : Op F) :
    (r.step op).1.nextId = if op.isAdd then r.nextId + 1 else r.nextId := by
  cases op with
  | add subject sendQueue => rfl
  | remove id => exact nextId_remove r id
  | subscribe id channels max => exact nextId_subscribe r id channels max
  | unsubscribe id channels => exact nextId_unsubscribe r id channels
  | publish channel frame =>
      change (r.publish channel frame).1.nextId = r.nextId
      rw [publish_eq]
      exact (fanOut_spec r frame _).2.2.1
  | broadcast frame => exact (fanOut_spec r frame _).2.2.1
  | send id frame =>
      change (r.send id frame).1.nextId = r.nextId
      rw [(send_eq r id frame).1]
      exact (fanOut_spec r frame _).2.2.1
  | recv id => exact (recv_spec r id).2.2.1
  | close id => exact (close_frame r id).2

/-- Every operation keeps the index in step, an `add` as long as its id is not in use. -/
theorem inverts_step {r : Registry F} (inverts : Index.Inverts r.subscriptionsOf r.byChannel)
    (op : Op F) (fresh : op.isAdd = true → r.connections.lookup ⟨r.nextId⟩ = none) :
    Index.Inverts (r.step op).1.subscriptionsOf (r.step op).1.byChannel := by
  cases op with
  | add subject sendQueue =>
      change Index.Inverts (r.add subject sendQueue).1.subscriptionsOf r.byChannel
      rw [subscriptionsOf_add subject sendQueue (fresh rfl)]
      exact inverts
  | remove id => exact inverts_remove inverts id
  | subscribe id channels max => exact inverts_subscribe inverts id channels max
  | unsubscribe id channels => exact inverts_unsubscribe inverts id channels
  | publish channel frame =>
      change Index.Inverts (r.publish channel frame).1.subscriptionsOf
        (r.publish channel frame).1.byChannel
      rw [publish_eq]
      exact inverts_fanOut inverts frame _
  | broadcast frame => exact inverts_fanOut inverts frame _
  | send id frame =>
      change Index.Inverts (r.send id frame).1.subscriptionsOf (r.send id frame).1.byChannel
      rw [(send_eq r id frame).1]
      exact inverts_fanOut inverts frame _
  | recv id =>
      obtain ⟨byChannel, subs⟩ := recv_frame r id
      change Index.Inverts (r.recv id).1.subscriptionsOf (r.recv id).1.byChannel
      rw [byChannel, subs]
      exact inverts
  | close id =>
      obtain ⟨byChannel, subs⟩ := close_subscriptions r id
      change Index.Inverts (r.close id).subscriptionsOf (r.close id).byChannel
      rw [byChannel, subs]
      exact inverts

end Registry

end WsFanout
