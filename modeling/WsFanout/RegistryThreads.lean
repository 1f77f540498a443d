import WsFanout.Lib.Tickets
import WsFanout.RegistryAccounting

/-!
# The registry under several threads

`registry.rs` at the grain of its lock and its atomic counters.  Every call is under way from its
first step to its last, and other calls take their steps in between:

* `add` takes an id, takes the write lock for the insertion, and then counts twice;
* `remove`, `subscribe` and `unsubscribe` are one section under the write lock;
* `publish`, `broadcast` and `send` hold the read lock from the look-up of their connections to
  their return, and `deliver` is three steps: the queue, the counter of frames, the streak;
* a receiver takes a frame or is dropped without a lock.

`Threads.Step` is one step of one call, and `Threads.exec` computes it.  Each counter and each
streak is one atomic location, and what a step reads of it is its last value.
-/

namespace WsFanout

open Lib ConnectionId

variable {F : Type}

/-- The receiver's actions take no lock. -/
def Op.ofReceiver : Op F → Bool
  | .recv _ => true
  | .close _ => true
  | _ => false

/-! ## The sections of the calls -/

/-- The streak after an attempt that met `outcome`. -/
def Connection.streak (conn : Connection F) : TrySend → UInt64
  | .ok => 0
  | .full => conn.dropped + 1
  | .closed => conn.dropped

namespace Registry

/-- The section of `add` under the write lock; the id was taken before. -/
def enter (r : Registry F) (id : ConnectionId) (subject : String) (sendQueue : Nat) : Registry F :=
  { r with
    connections := r.connections.insert id
      { subject, subscriptions := ∅, tx := BoundedQueue.new sendQueue, dropped := 0 } }

/-- Change one connection, if it is registered. -/
def alter (r : Registry F) (id : ConnectionId) (f : Connection F → Connection F) : Registry F :=
  { r with
    connections :=
      match r.connections.lookup id with
      | none => r.connections
      | some conn => r.connections.insert id (f conn) }

/-- `try_send` on the queue of `id`. -/
def push (r : Registry F) (id : ConnectionId) (frame : F) : Registry F :=
  r.alter id fun conn => { conn with tx := (conn.tx.trySend frame).1 }

/-- What `try_send` on the queue of `id` returns, if there is a connection. -/
def pushed? (r : Registry F) (id : ConnectionId) (frame : F) : Option TrySend :=
  (r.connections.lookup id).map fun conn => (conn.tx.trySend frame).2

/-- Count a frame after an attempt that met `outcome`. -/
def tally (r : Registry F) (outcome : TrySend) : Registry F :=
  { r with metrics := r.metrics.tally outcome }

/-- End or lengthen the streak of `id` after an attempt that met `outcome`. -/
def mark (r : Registry F) (id : ConnectionId) (outcome : TrySend) : Registry F :=
  r.alter id fun conn => { conn with dropped := conn.streak outcome }

theorem lookup_alter (r : Registry F) (id : ConnectionId) (f : Connection F → Connection F)
    (other : ConnectionId) :
    (r.alter id f).connections.lookup other =
      if other = id then (r.connections.lookup id).map f else r.connections.lookup other := by
  unfold alter
  cases found : r.connections.lookup id with
  | none => exact Finmap.lookup_of_absent found other
  | some conn => exact Finmap.lookup_insert_ite _ _ _ _

theorem keys_alter (r : Registry F) (id : ConnectionId) (f : Connection F → Connection F) :
    (r.alter id f).connections.keys = r.connections.keys := by
  ext other
  rw [Finmap.mem_keys_iff, Finmap.mem_keys_iff, lookup_alter]
  split
  · next same =>
      rw [same]
      cases r.connections.lookup id <;> simp
  · rfl

/-- A change that keeps the subscriptions keeps them all. -/
theorem subscriptionsOf_alter (r : Registry F) (id : ConnectionId)
    {f : Connection F → Connection F} (kept : ∀ conn, (f conn).subscriptions = conn.subscriptions) :
    (r.alter id f).subscriptionsOf = r.subscriptionsOf := by
  refine subscriptionsOf_congr fun other => ?_
  rw [lookup_alter]
  split
  · next same =>
      rw [same, Option.map_map]
      exact congrArg (Option.map · _) (funext kept)
  · rfl

/-- The three steps of a delivery, taken one after the other, are `deliver`. -/
theorem deliver_eq_steps {r : Registry F} {id : ConnectionId} {conn : Connection F}
    (found : r.connections.lookup id = some conn) (frame : F) :
    (((r.push id frame).tally (conn.tx.trySend frame).2).mark id (conn.tx.trySend frame).2) =
      (r.deliver id conn frame).1 := by
  rw [deliver_eq found]
  refine Registry.ext ?_ rfl rfl rfl
  refine Finmap.ext_lookup fun other => ?_
  change (((r.push id frame).tally _).alter id _).connections.lookup other = _
  rw [lookup_alter]
  change (if other = id then ((r.push id frame).connections.lookup id).map _
    else (r.push id frame).connections.lookup other) = _
  rw [push, lookup_alter, lookup_alter, if_pos rfl, found, Finmap.lookup_insert_ite]
  by_cases same : other = id
  · rw [if_pos same, if_pos same]
    rfl
  · rw [if_neg same, if_neg same, if_neg same]

end Registry

/-! ## Calls under way -/

/-- A call of `publish`, `broadcast` or `send`, with the frame it carries. -/
structure Delivery (F : Type) where
  op : Op F
  frame : F
  carries : op.frame? = some frame
  deriving DecidableEq

/-- How far a call has come. -/
inductive Call (F : Type) where
  /-- `add` has taken its id; the write lock is next. -/
  | adding (subject : String) (sendQueue : Nat) (id : ConnectionId)
  /-- The connection is registered; `connections_total` is next. -/
  | totalling (id : ConnectionId)
  /-- `connections_active` is next. -/
  | activating (id : ConnectionId)
  /-- Under the read lock, with the connections of `rest` still to visit. -/
  | visiting (d : Delivery F) (rest : Finset ConnectionId) (delivered : Nat)
  /-- The attempt on `id` met `outcome`; the counter of frames is next. -/
  | tallying (d : Delivery F) (rest : Finset ConnectionId) (delivered : Nat) (id : ConnectionId)
      (outcome : TrySend)
  /-- The streak of `id` is next. -/
  | marking (d : Delivery F) (rest : Finset ConnectionId) (delivered : Nat) (id : ConnectionId)
      (outcome : TrySend)
  | done
  deriving DecidableEq

namespace Call

/-- The call holds the read lock. -/
def reads : Call F → Bool
  | visiting _ _ _ => true
  | tallying _ _ _ _ _ => true
  | marking _ _ _ _ _ => true
  | _ => false

/-- The id under which `add` is about to register. -/
def awaits? : Call F → Option ConnectionId
  | adding _ _ id => some id
  | _ => none

/-- The delivering call and the connections it has yet to visit. -/
def fanOut? : Call F → Option (Op F × Finset ConnectionId)
  | visiting d rest _ => some (d.op, rest)
  | tallying d rest _ _ _ => some (d.op, rest)
  | marking d rest _ _ _ => some (d.op, rest)
  | _ => none

/-- The connections the call has yet to reach. -/
def ahead : Call F → Finset ConnectionId
  | adding _ _ id => {id}
  | visiting _ rest _ => rest
  | tallying _ rest _ _ _ => rest
  | marking _ rest _ _ _ => rest
  | _ => ∅

/-- An attempt on a queue has been made: a taken frame and a full queue are counted, and a closed
queue is left alone. -/
def visited (d : Delivery F) (rest : Finset ConnectionId) (delivered : Nat) (id : ConnectionId) :
    Option TrySend → Call F
  | some .ok => tallying d rest delivered id .ok
  | some .full => tallying d rest delivered id .full
  | _ => visiting d rest delivered

end Call

/-- The registry and every call made so far; a call is named by its place. -/
structure Threads (F : Type) where
  registry : Registry F
  calls : List (Call F)

namespace Threads

/-- A step of call `k`, with what it is about. -/
inductive Action (F : Type) where
  | issue (k : Nat) (subject : String) (sendQueue : Nat)
  | insert (k : Nat) (subject : String) (sendQueue : Nat) (id : ConnectionId)
  | total (k : Nat)
  | activate (k : Nat)
  | whole (k : Nat) (op : Op F) (reply : Reply F)
  | begin (k : Nat) (op : Op F) (ids : Finset ConnectionId)
  | visit (k : Nat) (op : Op F) (id : ConnectionId) (outcome : Option TrySend)
  | tally (k : Nat) (outcome : TrySend)
  | mark (k : Nat) (id : ConnectionId) (outcome : TrySend)
  | finish (k : Nat) (delivered : Nat)
  deriving DecidableEq

/-- The call that takes the step. -/
def Action.call : Action F → Nat
  | issue k _ _ => k
  | insert k _ _ _ => k
  | total k => k
  | activate k => k
  | whole k _ _ => k
  | begin k _ _ => k
  | visit k _ _ _ => k
  | tally k _ => k
  | mark k _ _ => k
  | finish k _ => k

/-- The step takes the next id. -/
def Action.isIssue : Action F → Bool
  | issue _ _ _ => true
  | _ => false

/-- Nobody holds the read lock. -/
def Unlocked (s : Threads F) : Prop :=
  ∀ c ∈ s.calls, c.reads = false

/-- No connection, no call. -/
def start : Threads F where
  registry := Registry.new
  calls := []

/-- One step of one call.  What takes the write lock waits until nobody reads. -/
inductive Step : Threads F → Action F → Threads F → Prop
  | issue {s : Threads F} (subject : String) (sendQueue : Nat) :
      Step s (.issue s.calls.length subject sendQueue)
        { registry := { s.registry with nextId := s.registry.nextId + 1 }
          calls := s.calls ++ [.adding subject sendQueue ⟨s.registry.nextId⟩] }
  | insert {s : Threads F} {k : Nat} {subject : String} {sendQueue : Nat} {id : ConnectionId}
      (found : s.calls[k]? = some (.adding subject sendQueue id)) (lock : s.Unlocked) :
      Step s (.insert k subject sendQueue id)
        { registry := s.registry.enter id subject sendQueue
          calls := s.calls.set k (.totalling id) }
  | total {s : Threads F} {k : Nat} {id : ConnectionId}
      (found : s.calls[k]? = some (.totalling id)) :
      Step s (.total k)
        { registry :=
            { s.registry with
              metrics :=
                { s.registry.metrics with
                  connectionsTotal := s.registry.metrics.connectionsTotal + 1 } }
          calls := s.calls.set k (.activating id) }
  | activate {s : Threads F} {k : Nat} {id : ConnectionId}
      (found : s.calls[k]? = some (.activating id)) :
      Step s (.activate k)
        { registry :=
            { s.registry with
              metrics :=
                { s.registry.metrics with
                  connectionsActive := s.registry.metrics.connectionsActive + 1 } }
          calls := s.calls.set k .done }
  | whole {s : Threads F} (op : Op F) (silent : op.frame? = none) (notAdd : op.isAdd = false)
      (lock : op.ofReceiver = false → s.Unlocked) :
      Step s (.whole s.calls.length op (s.registry.step op).2)
        { registry := (s.registry.step op).1
          calls := s.calls ++ [.done] }
  | begin {s : Threads F} (d : Delivery F) :
      Step s (.begin s.calls.length d.op (s.registry.targets d.op))
        { s with calls := s.calls ++ [.visiting d (s.registry.targets d.op) 0] }
  | visit {s : Threads F} {k : Nat} {d : Delivery F} {rest : Finset ConnectionId}
      {delivered : Nat} {id : ConnectionId}
      (found : s.calls[k]? = some (.visiting d rest delivered)) (ahead : id ∈ rest) :
      Step s (.visit k d.op id (s.registry.pushed? id d.frame))
        { registry := s.registry.push id d.frame
          calls := s.calls.set k
            (.visited d (rest.erase id) delivered id (s.registry.pushed? id d.frame)) }
  | tally {s : Threads F} {k : Nat} {d : Delivery F} {rest : Finset ConnectionId}
      {delivered : Nat} {id : ConnectionId} {outcome : TrySend}
      (found : s.calls[k]? = some (.tallying d rest delivered id outcome)) :
      Step s (.tally k outcome)
        { registry := s.registry.tally outcome
          calls := s.calls.set k (.marking d rest delivered id outcome) }
  | mark {s : Threads F} {k : Nat} {d : Delivery F} {rest : Finset ConnectionId}
      {delivered : Nat} {id : ConnectionId} {outcome : TrySend}
      (found : s.calls[k]? = some (.marking d rest delivered id outcome)) :
      Step s (.mark k id outcome)
        { registry := s.registry.mark id outcome
          calls := s.calls.set k
            (.visiting d rest (if outcome = .ok then delivered + 1 else delivered)) }
  | finish {s : Threads F} {k : Nat} {d : Delivery F} {delivered : Nat}
      (found : s.calls[k]? = some (.visiting d ∅ delivered)) :
      Step s (.finish k delivered) { s with calls := s.calls.set k .done }

instance (s : Threads F) : Decidable s.Unlocked :=
  inferInstanceAs (Decidable (∀ c ∈ s.calls, c.reads = false))

/-- The state after a step, where the step can be taken. -/
def exec [DecidableEq F] (s : Threads F) : Action F → Option (Threads F)
  | .issue k subject sendQueue =>
    if k = s.calls.length then
      some
        { registry := { s.registry with nextId := s.registry.nextId + 1 }
          calls := s.calls ++ [.adding subject sendQueue ⟨s.registry.nextId⟩] }
    else none
  | .insert k subject sendQueue id =>
    if s.calls[k]? = some (.adding subject sendQueue id) ∧ s.Unlocked then
      some
        { registry := s.registry.enter id subject sendQueue
          calls := s.calls.set k (.totalling id) }
    else none
  | .total k =>
    match s.calls[k]? with
    | some (.totalling id) =>
      some
        { registry :=
            { s.registry with
              metrics :=
                { s.registry.metrics with
                  connectionsTotal := s.registry.metrics.connectionsTotal + 1 } }
          calls := s.calls.set k (.activating id) }
    | _ => none
  | .activate k =>
    match s.calls[k]? with
    | some (.activating _) =>
      some
        { registry :=
            { s.registry with
              metrics :=
                { s.registry.metrics with
                  connectionsActive := s.registry.metrics.connectionsActive + 1 } }
          calls := s.calls.set k .done }
    | _ => none
  | .whole k op reply =>
    if k = s.calls.length ∧ op.frame? = none ∧ op.isAdd = false ∧
        (op.ofReceiver = false → s.Unlocked) ∧ reply = (s.registry.step op).2 then
      some
        { registry := (s.registry.step op).1
          calls := s.calls ++ [.done] }
    else none
  | .begin k op ids =>
    match carries : op.frame? with
    | some frame =>
      if k = s.calls.length ∧ ids = s.registry.targets op then
        some { s with calls := s.calls ++ [.visiting ⟨op, frame, carries⟩ ids 0] }
      else none
    | none => none
  | .visit k op id outcome =>
    match s.calls[k]? with
    | some (.visiting d rest delivered) =>
      if op = d.op ∧ id ∈ rest ∧ outcome = s.registry.pushed? id d.frame then
        some
          { registry := s.registry.push id d.frame
            calls := s.calls.set k (.visited d (rest.erase id) delivered id outcome) }
      else none
    | _ => none
  | .tally k outcome =>
    match s.calls[k]? with
    | some (.tallying d rest delivered id met) =>
      if outcome = met then
        some
          { registry := s.registry.tally outcome
            calls := s.calls.set k (.marking d rest delivered id outcome) }
      else none
    | _ => none
  | .mark k id outcome =>
    match s.calls[k]? with
    | some (.marking d rest delivered visited met) =>
      if id = visited ∧ outcome = met then
        some
          { registry := s.registry.mark id outcome
            calls := s.calls.set k
              (.visiting d rest (if outcome = .ok then delivered + 1 else delivered)) }
      else none
    | _ => none
  | .finish k delivered =>
    match s.calls[k]? with
    | some (.visiting _ rest counted) =>
      if rest = ∅ ∧ delivered = counted then some { s with calls := s.calls.set k .done } else none
    | _ => none

/-- What `exec` computes is a step. -/
theorem step_of_exec [DecidableEq F] {s t : Threads F} {a : Action F}
    (taken : s.exec a = some t) : Step s a t := by
  cases a with
  | issue k subject sendQueue =>
      simp only [exec, Option.ite_none_right_eq_some, Option.some.injEq] at taken
      obtain ⟨rfl, rfl⟩ := taken
      exact .issue subject sendQueue
  | insert k subject sendQueue id =>
      simp only [exec, Option.ite_none_right_eq_some, Option.some.injEq] at taken
      obtain ⟨⟨found, lock⟩, rfl⟩ := taken
      exact .insert found lock
  | total k =>
      simp only [exec] at taken
      split at taken
      · next id found =>
          cases taken
          exact .total found
      · cases taken
  | activate k =>
      simp only [exec] at taken
      split at taken
      · next id found =>
          cases taken
          exact .activate found
      · cases taken
  | whole k op reply =>
      simp only [exec, Option.ite_none_right_eq_some, Option.some.injEq] at taken
      obtain ⟨⟨rfl, silent, notAdd, lock, rfl⟩, rfl⟩ := taken
      exact .whole op silent notAdd lock
  | begin k op ids =>
      simp only [exec] at taken
      split at taken
      · next frame carries =>
          simp only [Option.ite_none_right_eq_some, Option.some.injEq] at taken
          obtain ⟨⟨rfl, rfl⟩, rfl⟩ := taken
          exact .begin ⟨op, frame, carries⟩
      · cases taken
  | visit k op id outcome =>
      simp only [exec] at taken
      split at taken
      · next d rest delivered found =>
          simp only [Option.ite_none_right_eq_some, Option.some.injEq] at taken
          obtain ⟨⟨rfl, ahead, rfl⟩, rfl⟩ := taken
          exact .visit found ahead
      · cases taken
  | tally k outcome =>
      simp only [exec] at taken
      split at taken
      · next d rest delivered id met found =>
          simp only [Option.ite_none_right_eq_some, Option.some.injEq] at taken
          obtain ⟨rfl, rfl⟩ := taken
          exact .tally found
      · cases taken
  | mark k id outcome =>
      simp only [exec] at taken
      split at taken
      · next d rest delivered visited met found =>
          simp only [Option.ite_none_right_eq_some, Option.some.injEq] at taken
          obtain ⟨⟨rfl, rfl⟩, rfl⟩ := taken
          exact .mark found
      · cases taken
  | finish k delivered =>
      simp only [exec] at taken
      split at taken
      · next d rest counted found =>
          simp only [Option.ite_none_right_eq_some, Option.some.injEq] at taken
          obtain ⟨⟨rfl, rfl⟩, rfl⟩ := taken
          exact .finish found
      · cases taken

end Threads

end WsFanout
