import WsFanout.Registry

/-!
# The plain registry

What the registry is for, said without an index: a finite map from connection ids to a
subscription set, a bounded first-in first-out queue, whether the receiver is there, and the streak
of dropped frames.  A publish scans every connection.  This is the specification that the registry
of `WsFanout.Registry` is compared with; it is not translated from the source.
-/

namespace WsFanout

variable {F : Type}

/-- One connection of the plain registry. -/
@[ext] structure SpecConnection (F : Type) where
  subscriptions : Finset String
  queue : List F
  capacity : Nat
  isOpen : Bool
  streak : UInt64

/-- The queue has room and somebody reads it. -/
def SpecConnection.hasRoom (c : SpecConnection F) : Bool :=
  c.isOpen && decide (c.queue.length < c.capacity)

/-- Try once to put `frame` at the tail of the queue. -/
def SpecConnection.tryPush (c : SpecConnection F) (frame : F) : SpecConnection F :=
  if c.hasRoom then { c with queue := c.queue ++ [frame], streak := 0 }
  else if c.isOpen then { c with streak := c.streak + 1 }
  else c

/-- The plain registry. -/
@[ext] structure SpecRegistry (F : Type) where
  connections : Finmap fun _ : ConnectionId => SpecConnection F
  nextId : UInt64

namespace SpecRegistry

/-- Change one connection, if it is registered. -/
def update (s : SpecRegistry F) (id : ConnectionId)
    (f : SpecConnection F → SpecConnection F) : SpecRegistry F :=
  match s.connections.lookup id with
  | none => s
  | some c => { s with connections := s.connections.insert id (f c) }

/-- Try to push `frame` once on every connection that `wanted` selects; the count is the number of
queues that accepted it. -/
def scan (s : SpecRegistry F) (wanted : SpecConnection F → Bool) (frame : F) :
    SpecRegistry F × Nat :=
  ({ s with connections := s.connections.mapVals fun c => if wanted c then c.tryPush frame else c },
    (s.connections.keys.filter fun id =>
      (s.connections.lookup id).any fun c => wanted c && c.hasRoom).card)

/-- One operation of the plain registry. -/
def step (s : SpecRegistry F) : Op F → SpecRegistry F × Reply F
  | .add _ sendQueue =>
    ({ connections := s.connections.insert ⟨s.nextId⟩
        { subscriptions := ∅, queue := [], capacity := sendQueue, isOpen := true, streak := 0 }
       nextId := s.nextId + 1 }, .id ⟨s.nextId⟩)
  | .remove id => ({ s with connections := s.connections.erase id }, .unit)
  | .subscribe id channels max =>
    match s.connections.lookup id with
    | none => (s, .subscribed [] [])
    | some c =>
      let (subs, added, overLimit) := Registry.subscribeLoop max c.subscriptions channels
      (s.update id fun c => { c with subscriptions := subs }, .subscribed added overLimit)
  | .unsubscribe id channels =>
    match s.connections.lookup id with
    | none => (s, .unsubscribed [])
    | some c =>
      let (subs, removed) := Registry.unsubscribeLoop c.subscriptions channels
      (s.update id fun c => { c with subscriptions := subs }, .unsubscribed removed)
  | .publish channel frame =>
    let (s', count) := s.scan (fun c => channel ∈ c.subscriptions) frame
    (s', .delivered count)
  | .broadcast frame =>
    let (s', count) := s.scan (fun _ => true) frame
    (s', .delivered count)
  | .send id frame =>
    (s.update id fun c => c.tryPush frame,
      .sent ((s.connections.lookup id).any SpecConnection.hasRoom))
  | .recv id =>
    match s.connections.lookup id with
    | none => (s, .taken .disconnected)
    | some c =>
      match c.queue with
      | [] => (s, .taken .empty)
      | frame :: rest => (s.update id fun c => { c with queue := rest }, .taken (.frame frame))
  | .close id => (s.update id fun c => { c with queue := [], isOpen := false }, .unit)

/-- The plain registry after a sequence of operations. -/
def run (s : SpecRegistry F) (ops : List (Op F)) : SpecRegistry F :=
  ops.foldl (fun s op => (s.step op).1) s

theorem lookup_update (s : SpecRegistry F) (id other : ConnectionId)
    (f : SpecConnection F → SpecConnection F) :
    (s.update id f).connections.lookup other =
      if other = id then (s.connections.lookup id).map f else s.connections.lookup other := by
  unfold update
  cases found : s.connections.lookup id with
  | none => exact Finmap.lookup_of_absent found other
  | some c => simp [Finmap.lookup_insert_ite]

theorem nextId_update (s : SpecRegistry F) (id : ConnectionId)
    (f : SpecConnection F → SpecConnection F) : (s.update id f).nextId = s.nextId := by
  unfold update
  cases s.connections.lookup id <;> rfl

end SpecRegistry

/-! ## The registry seen as a plain one -/

/-- A connection without its subject and its place in the index. -/
def Connection.abs (conn : Connection F) : SpecConnection F where
  subscriptions := conn.subscriptions
  queue := conn.tx.buffer
  capacity := conn.tx.capacity
  isOpen := conn.tx.isOpen
  streak := conn.dropped

/-- The registry without its index and its counters. -/
def Registry.abs (r : Registry F) : SpecRegistry F where
  connections := r.connections.mapVals Connection.abs
  nextId := r.nextId

@[simp] theorem Connection.hasRoom_abs (conn : Connection F) :
    conn.abs.hasRoom = conn.tx.accepts := rfl

/-- Offering a frame is trying to push it. -/
@[simp] theorem Connection.abs_offer (conn : Connection F) (frame : F) :
    (conn.offer frame).abs = conn.abs.tryPush frame := by
  have outcome := conn.tx.trySend_snd frame
  unfold SpecConnection.tryPush
  rw [Connection.hasRoom_abs]
  cases taken : conn.tx.accepts with
  | true =>
      have opened : conn.tx.isOpen = true := (Lib.BoundedQueue.accepts_iff.mp taken).1
      rw [opened, taken] at outcome
      simp [Connection.abs, Connection.offer, outcome, taken]
  | false =>
      cases opened : conn.tx.isOpen with
      | true =>
          rw [opened, taken] at outcome
          simp [Connection.abs, Connection.offer, outcome, taken, opened]
      | false =>
          rw [opened] at outcome
          simp [Connection.abs, Connection.offer, outcome, taken, opened]

end WsFanout
