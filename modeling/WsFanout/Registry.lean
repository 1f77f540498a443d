import WsFanout.Lib.BoundedQueue
import WsFanout.Lib.InvertedIndex
import WsFanout.Lib.Run

/-!
# Connections and their subscriptions

The registry of `registry.rs`, one definition for each of its methods.  Frames are opaque to it, so
they are a type parameter.  `HashMap` and `HashSet` are finite maps and finite sets; a loop over one
of them is a commutative fold, because the source visits the elements in no particular order.

Every `mpsc::channel` has one sender, owned by the registry entry, and one receiver, owned by the
connection's task.  A connection therefore holds the channel itself, and the receiver's two actions
(taking a frame, being dropped) are operations on the entry.  The counters are `AtomicU64`, whose
additions wrap.
-/

namespace WsFanout

open Lib

/-- Opaque connection identifier. -/
structure ConnectionId where
  val : UInt64
  deriving DecidableEq, Repr

/-- One registered connection. -/
structure Connection (F : Type) where
  subject : String
  subscriptions : Finset String
  tx : BoundedQueue F
  /-- Consecutive failed deliveries. -/
  dropped : UInt64
  deriving DecidableEq

/-- The counters the registry updates. -/
structure Metrics where
  connectionsActive : UInt64 := 0
  connectionsTotal : UInt64 := 0
  framesSent : UInt64 := 0
  framesDropped : UInt64 := 0
  deriving DecidableEq, Repr

/-- All connections by id, and the subscribers of each channel. -/
@[ext] structure Registry (F : Type) where
  connections : Finmap fun _ : ConnectionId => Connection F
  byChannel : Index String ConnectionId
  nextId : UInt64
  metrics : Metrics
  deriving DecidableEq

/-- What one attempt to deliver `frame` makes of a connection. -/
def Connection.offer {F : Type} (conn : Connection F) (frame : F) : Connection F :=
  { conn with
    tx := (conn.tx.trySend frame).1
    dropped :=
      match (conn.tx.trySend frame).2 with
      | .ok => 0
      | .full => conn.dropped + 1
      | .closed => conn.dropped }

/-- What one attempt makes of the counters. -/
def Metrics.tally (m : Metrics) : TrySend → Metrics
  | .ok => { m with framesSent := m.framesSent + 1 }
  | .full => { m with framesDropped := m.framesDropped + 1 }
  | .closed => m

theorem Metrics.tally_comm (m : Metrics) (a b : TrySend) :
    (m.tally a).tally b = (m.tally b).tally a := by
  cases a <;> cases b <;> rfl

namespace Registry

variable {F : Type}

/-- No connection, no channel; ids start at one. -/
def new : Registry F where
  connections := ∅
  byChannel := ∅
  nextId := 1
  metrics := {}

/-- Register a connection whose channel has capacity `sendQueue`. -/
def add (r : Registry F) (subject : String) (sendQueue : Nat) : Registry F × ConnectionId :=
  let id : ConnectionId := ⟨r.nextId⟩
  let conn : Connection F :=
    { subject, subscriptions := ∅, tx := BoundedQueue.new sendQueue, dropped := 0 }
  ({ r with
      nextId := r.nextId + 1
      connections := r.connections.insert id conn
      metrics :=
        { r.metrics with
          connectionsTotal := r.metrics.connectionsTotal + 1
          connectionsActive := r.metrics.connectionsActive + 1 } }, id)

/-- Remove a connection and its id from every channel it was subscribed to. -/
def remove (r : Registry F) (id : ConnectionId) : Registry F :=
  match r.connections.lookup id with
  | none => r
  | some conn =>
    { r with
      connections := r.connections.erase id
      byChannel := conn.subscriptions.val.foldl (Index.unlink id) r.byChannel
      metrics := { r.metrics with connectionsActive := r.metrics.connectionsActive - 1 } }

/-- Number of open connections. -/
def len (r : Registry F) : Nat :=
  r.connections.keys.card

/-- Number of subscribers to `channel`. -/
def subscribers (r : Registry F) (channel : String) : Nat :=
  ((r.byChannel.lookup channel).map Finset.card).getD 0

/-- The first loop of `subscribe`: the set it leaves, the channels added and the ones over the
limit, both in request order. -/
def subscribeLoop (max : Nat) :
    Finset String → List String → Finset String × List String × List String
  | subs, [] => (subs, [], [])
  | subs, ch :: rest =>
    if ch ∈ subs then subscribeLoop max subs rest
    else if max ≤ subs.card then
      let (subs', added, overLimit) := subscribeLoop max subs rest
      (subs', added, ch :: overLimit)
    else
      let (subs', added, overLimit) := subscribeLoop max (insert ch subs) rest
      (subs', ch :: added, overLimit)

/-- Add subscriptions up to `max` for the connection.  Returns the channels newly added and the
ones refused for the limit. -/
def subscribe (r : Registry F) (id : ConnectionId) (channels : List String) (max : Nat) :
    Registry F × List String × List String :=
  match r.connections.lookup id with
  | none => (r, [], [])
  | some conn =>
    let (subs, added, overLimit) := subscribeLoop max conn.subscriptions channels
    ({ r with
        connections := r.connections.insert id { conn with subscriptions := subs }
        byChannel := added.foldl (Index.link id) r.byChannel }, added, overLimit)

/-- The first loop of `unsubscribe`: the set it leaves and the channels removed. -/
def unsubscribeLoop : Finset String → List String → Finset String × List String
  | subs, [] => (subs, [])
  | subs, ch :: rest =>
    if ch ∈ subs then
      let (subs', removed) := unsubscribeLoop (subs.erase ch) rest
      (subs', ch :: removed)
    else unsubscribeLoop subs rest

/-- Remove subscriptions.  Returns the channels that were held. -/
def unsubscribe (r : Registry F) (id : ConnectionId) (channels : List String) :
    Registry F × List String :=
  match r.connections.lookup id with
  | none => (r, [])
  | some conn =>
    let (subs, removed) := unsubscribeLoop conn.subscriptions channels
    ({ r with
        connections := r.connections.insert id { conn with subscriptions := subs }
        byChannel := removed.foldl (Index.unlink id) r.byChannel }, removed)

/-- Try to push `frame` on one connection's queue; the streak of failures ends with a success. -/
def deliver (r : Registry F) (id : ConnectionId) (conn : Connection F) (frame : F) :
    Registry F × Bool :=
  match conn.tx.trySend frame with
  | (tx, .ok) =>
    ({ r with
        connections := r.connections.insert id { conn with tx, dropped := 0 }
        metrics := { r.metrics with framesSent := r.metrics.framesSent + 1 } }, true)
  | (tx, .full) =>
    ({ r with
        connections := r.connections.insert id { conn with tx, dropped := conn.dropped + 1 }
        metrics := { r.metrics with framesDropped := r.metrics.framesDropped + 1 } }, false)
  | (_, .closed) => (r, false)

/-- One turn of a fan-out loop: deliver to `id` if it is registered, counting successes. -/
def deliverTo (frame : F) (acc : Registry F × Nat) (id : ConnectionId) : Registry F × Nat :=
  match acc.1.connections.lookup id with
  | none => acc
  | some conn =>
    let out := acc.1.deliver id conn frame
    (out.1, if out.2 then acc.2 + 1 else acc.2)

theorem deliver_eq {r : Registry F} {id : ConnectionId} {conn : Connection F}
    (found : r.connections.lookup id = some conn) (frame : F) :
    r.deliver id conn frame =
      ({ r with
          connections := r.connections.insert id (conn.offer frame)
          metrics := r.metrics.tally (conn.tx.trySend frame).2 }, conn.tx.accepts) := by
  have outcome := conn.tx.trySend_snd frame
  unfold deliver Connection.offer Metrics.tally
  cases result : conn.tx.trySend frame with
  | mk tx o =>
      rw [result] at outcome
      cases o with
      | ok =>
          have taken : conn.tx.accepts = true := by
            by_contra refused
            simp only [refused, ↓reduceIte] at outcome
            split at outcome <;> cases outcome
          simp only [taken]
      | full =>
          have refused : conn.tx.accepts = false := by
            by_contra taken
            simp only [Bool.not_eq_false] at taken
            simp only [taken, ↓reduceIte] at outcome
            split at outcome <;> cases outcome
          simp only [refused]
      | closed =>
          have gone : conn.tx.isOpen = false := by
            by_contra opened
            simp only [opened, ↓reduceIte] at outcome
            split at outcome <;> cases outcome
          have refused : conn.tx.accepts = false := by simp [BoundedQueue.accepts, gone]
          have same : tx = conn.tx := by
            simpa [result] using BoundedQueue.trySend_of_not_accepts frame refused
          simp only [same, refused, Finmap.insert_lookup_self found]

theorem deliverTo_of_none {acc : Registry F × Nat} {id : ConnectionId}
    (absent : acc.1.connections.lookup id = none) (frame : F) :
    deliverTo frame acc id = acc := by
  simp [deliverTo, absent]

theorem deliverTo_of_some {acc : Registry F × Nat} {id : ConnectionId} {conn : Connection F}
    (found : acc.1.connections.lookup id = some conn) (frame : F) :
    deliverTo frame acc id =
      ({ acc.1 with
          connections := acc.1.connections.insert id (conn.offer frame)
          metrics := acc.1.metrics.tally (conn.tx.trySend frame).2 },
        acc.2 + if conn.tx.accepts then 1 else 0) := by
  simp only [deliverTo, found, deliver_eq found]
  split <;> rfl

instance deliverTo_rightCommutative (frame : F) : RightCommutative (deliverTo frame) where
  right_comm acc a b := by
    by_cases hab : a = b
    · rw [hab]
    cases foundA : acc.1.connections.lookup a with
    | none =>
        rw [deliverTo_of_none foundA]
        cases foundB : acc.1.connections.lookup b with
        | none => rw [deliverTo_of_none foundB, deliverTo_of_none foundA]
        | some connB =>
            rw [deliverTo_of_some foundB, deliverTo_of_none]
            simp [hab, foundA]
    | some connA =>
        cases foundB : acc.1.connections.lookup b with
        | none =>
            rw [deliverTo_of_none foundB, deliverTo_of_some foundA, deliverTo_of_none]
            simp [Ne.symm hab, foundB]
        | some connB =>
            have afterA : (deliverTo frame acc a).1.connections.lookup b = some connB := by
              simp [deliverTo_of_some foundA, Ne.symm hab, foundB]
            have afterB : (deliverTo frame acc b).1.connections.lookup a = some connA := by
              simp [deliverTo_of_some foundB, hab, foundA]
            rw [deliverTo_of_some afterA, deliverTo_of_some afterB, deliverTo_of_some foundA,
              deliverTo_of_some foundB]
            simp only [Finmap.insert_insert_of_ne _ hab, Metrics.tally_comm, Nat.add_right_comm]

/-- The fan-out loop over a set of connections. -/
def fanOut (r : Registry F) (frame : F) (ids : Finset ConnectionId) : Registry F × Nat :=
  ids.val.foldl (deliverTo frame) (r, 0)

/-- Deliver `frame` to every subscriber of `channel`.  Returns how many received it. -/
def publish (r : Registry F) (channel : String) (frame : F) : Registry F × Nat :=
  match r.byChannel.lookup channel with
  | none => (r, 0)
  | some ids => r.fanOut frame ids

/-- Deliver `frame` to every connection, subscribed or not. -/
def broadcast (r : Registry F) (frame : F) : Registry F × Nat :=
  r.fanOut frame r.connections.keys

/-- Deliver to one connection. -/
def send (r : Registry F) (id : ConnectionId) (frame : F) : Registry F × Bool :=
  match r.connections.lookup id with
  | none => (r, false)
  | some conn => r.deliver id conn frame

/-- Frames dropped in a row for this connection. -/
def drops (r : Registry F) (id : ConnectionId) : UInt64 :=
  ((r.connections.lookup id).map Connection.dropped).getD 0

/-- What the receiver of a connection's channel gets when it takes a frame. -/
inductive Taken (F : Type) where
  | frame (frame : F)
  | empty
  | disconnected
  deriving DecidableEq, Repr

/-- The receiver takes the oldest frame.  A connection's task drops its receiver before the entry is
removed, so without an entry there is no frame left to take. -/
def recv (r : Registry F) (id : ConnectionId) : Registry F × Taken F :=
  match r.connections.lookup id with
  | none => (r, .disconnected)
  | some conn =>
    match conn.tx.recv with
    | (tx, some frame) =>
      ({ r with connections := r.connections.insert id { conn with tx } }, .frame frame)
    | (_, none) => (r, .empty)

/-- The receiver is dropped. -/
def close (r : Registry F) (id : ConnectionId) : Registry F :=
  match r.connections.lookup id with
  | none => r
  | some conn =>
    { r with connections := r.connections.insert id { conn with tx := conn.tx.close } }

end Registry

/-- One call on the registry, or one action of a connection's receiver. -/
inductive Op (F : Type) where
  | add (subject : String) (sendQueue : Nat)
  | remove (id : ConnectionId)
  | subscribe (id : ConnectionId) (channels : List String) (max : Nat)
  | unsubscribe (id : ConnectionId) (channels : List String)
  | publish (channel : String) (frame : F)
  | broadcast (frame : F)
  | send (id : ConnectionId) (frame : F)
  | recv (id : ConnectionId)
  | close (id : ConnectionId)
  deriving DecidableEq, Repr

/-- What the call returns. -/
inductive Reply (F : Type) where
  | unit
  | id (id : ConnectionId)
  | subscribed (added overLimit : List String)
  | unsubscribed (removed : List String)
  | delivered (count : Nat)
  | sent (ok : Bool)
  | taken (taken : Registry.Taken F)
  deriving DecidableEq, Repr

namespace Op

variable {F : Type}

/-- The call takes the next id. -/
def isAdd : Op F → Bool
  | add _ _ => true
  | _ => false

/-- The frame a delivering call carries. -/
def frame? : Op F → Option F
  | publish _ frame => some frame
  | broadcast frame => some frame
  | send _ frame => some frame
  | _ => none

end Op

namespace Registry

variable {F : Type}

/-- One operation: the registry it leaves and what it returns. -/
def step (r : Registry F) : Op F → Registry F × Reply F
  | .add subject sendQueue =>
    let (r', id) := r.add subject sendQueue
    (r', .id id)
  | .remove id => (r.remove id, .unit)
  | .subscribe id channels max =>
    let (r', added, overLimit) := r.subscribe id channels max
    (r', .subscribed added overLimit)
  | .unsubscribe id channels =>
    let (r', removed) := r.unsubscribe id channels
    (r', .unsubscribed removed)
  | .publish channel frame =>
    let (r', count) := r.publish channel frame
    (r', .delivered count)
  | .broadcast frame =>
    let (r', count) := r.broadcast frame
    (r', .delivered count)
  | .send id frame =>
    let (r', ok) := r.send id frame
    (r', .sent ok)
  | .recv id =>
    let (r', taken) := r.recv id
    (r', .taken taken)
  | .close id => (r.close id, .unit)

/-- The registry after a sequence of operations. -/
def run (r : Registry F) (ops : List (Op F)) : Registry F :=
  ops.foldl (fun r op => (r.step op).1) r

end Registry

end WsFanout
