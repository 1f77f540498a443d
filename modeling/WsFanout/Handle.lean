import WsFanout.RegistryDelivery
import WsFanout.Shared

/-!
# Handling one client message

`handle` is the function of `server.rs`, with the registry passed along.  It takes the registry's
lock once for each call it makes, so other threads may act between two of its calls: `Handling` is
the point the connection's task has reached, and `Handling.step` takes it to its next call on the
registry or on the snapshot source.  `Handling.run_handle` says that the steps taken without
interference are `handle` followed by the delivery of its reply.
-/

namespace WsFanout

open Lib

variable {σ : Type}

/-- The refused channels of a `subscribed` message: too long, not authorised, over the limit. -/
def rejections (oversized unauthorized overLimit : List String) : List Rejected :=
  oversized.map (⟨·, .invalid⟩) ++ unauthorized.map (⟨·, .unauthorized⟩) ++
    overLimit.map (⟨·, .limit⟩)

namespace Shared

/-- The requested channels of acceptable length, and the others. -/
def sized (shared : Shared σ) (channels : List String) : List String × List String :=
  channels.partition fun ch => ch.utf8ByteSize ≤ shared.config.maxChannelLen

/-- The requested channels passed on to the registry, and the ones the authorizer refuses. -/
def allowed (shared : Shared σ) (claims : Claims) (channels : List String) :
    List String × List String :=
  (shared.sized channels).1.partition (shared.maySubscribe claims)

/-- Only channels of acceptable length that the authorizer grants are passed on. -/
theorem mem_allowed (shared : Shared σ) {claims : Claims} {channels : List String} {ch : String} :
    ch ∈ (shared.allowed claims channels).1 ↔
      ch ∈ channels ∧ ch.utf8ByteSize ≤ shared.config.maxChannelLen ∧
        shared.maySubscribe claims ch = true := by
  simp only [allowed, sized, List.partition_eq_filter_filter, List.mem_filter, decide_eq_true_eq,
    and_assoc]

/-- The channels a request adds for `id`. -/
def newlyAdded (shared : Shared σ) (claims : Claims) (r : Registry ServerMessage)
    (id : ConnectionId) (channels : List String) : List String :=
  (r.subscribe id (shared.allowed claims channels).1 shared.config.maxSubscriptions).2.1

theorem length_newlyAdded (shared : Shared σ) (claims : Claims) (r : Registry ServerMessage)
    (id : ConnectionId) (channels : List String) :
    (shared.newlyAdded claims r id channels).length ≤ channels.length := by
  have few : (shared.allowed claims channels).1.length ≤ channels.length := by
    simp only [allowed, sized, List.partition_eq_filter_filter]
    exact (List.filter_sublist.trans List.filter_sublist).length_le
  refine Nat.le_trans ?_ few
  rw [newlyAdded, Registry.subscribe]
  cases r.connections.lookup id with
  | none => exact Nat.zero_le _
  | some conn =>
      have asked := (Registry.subscribeLoop_spec shared.config.maxSubscriptions conn.subscriptions
        (shared.allowed claims channels).1).2.1
      have once := Registry.subscribeLoop_nodup shared.config.maxSubscriptions conn.subscriptions
        (shared.allowed claims channels).1
      exact (List.subperm_of_subset once fun ch mem => (asked ch mem).2).length_le

/-- A publish leaves alone what a request would add. -/
theorem newlyAdded_publish (shared : Shared σ) (claims : Claims) {r : Registry ServerMessage}
    {id : ConnectionId} (joined : r.Joined id) (ch : String) (frame : ServerMessage)
    (joined' : (r.publish ch frame).1.Joined id) (channels : List String) :
    shared.newlyAdded claims (r.publish ch frame).1 id channels =
      shared.newlyAdded claims r id channels := by
  have subs := (r.deliver_spec (.publish ch frame) rfl id).2.2
  rw [newlyAdded, newlyAdded, Registry.added_subscribe joined', Registry.added_subscribe joined]
  exact congrArg (fun f => (Registry.subscribeLoop _ (f id) _).2.1) subs

end Shared

/-- The loop over the added channels: one snapshot for each channel that has one. -/
def sendSnapshots (shared : Shared σ) (source : σ) (id : ConnectionId) :
    Registry ServerMessage → List String → Registry ServerMessage
  | r, [] => r
  | r, ch :: rest =>
    match shared.snapshot source ch with
    | some payload => sendSnapshots shared source id (r.send id (.snapshot ch payload)).1 rest
    | none => sendSnapshots shared source id r rest

/-- Handle one client message; the reply, if any, goes back on the connection's queue. -/
def handle (shared : Shared σ) (source : σ) (r : Registry ServerMessage) (text : String)
    (id : ConnectionId) (claims : Claims) : Registry ServerMessage × Option ServerMessage :=
  match shared.fromStr text with
  | .error e => (r, some (.error .invalidMessage e))
  | .ok (.auth _) =>
    (r, some (.error .alreadyAuthenticated "auth is accepted only as the first message"))
  | .ok (.subscribe channels) =>
    let (_, oversized) := shared.sized channels
    let (allowed, unauthorized) := shared.allowed claims channels
    let (r, added, overLimit) := r.subscribe id allowed shared.config.maxSubscriptions
    let ack := .subscribed added (rejections oversized unauthorized overLimit)
    (sendSnapshots shared source id (r.send id ack).1 added, none)
  | .ok (.unsubscribe channels) =>
    let (r, removed) := r.unsubscribe id channels
    (r, some (.unsubscribed removed))
  | .ok (.ping timestamp) => (r, some (.pong timestamp))

/-- How far a connection's task has come with one message. -/
inductive Handling where
  /-- The message has arrived. -/
  | start (text : String)
  /-- The channels are added; the acknowledgement is next. -/
  | ack (added : List String) (rejected : List Rejected)
  /-- The snapshots of `rest` are still to be read and sent. -/
  | snapshots (rest : List String)
  /-- The snapshot of `ch` has been read and is about to be sent. -/
  | snapshot (ch : String) (payload : RawValue) (rest : List String)
  /-- The reply is about to be sent. -/
  | reply (frame : ServerMessage)
  | done
  deriving DecidableEq, Repr

namespace Handling

/-- The next call on the registry, or the next read of the snapshot source. -/
def step (shared : Shared σ) (id : ConnectionId) (claims : Claims) (source : σ)
    (r : Registry ServerMessage) : Handling → Registry ServerMessage × Handling
  | start text =>
    match shared.fromStr text with
    | .error e => (r, reply (.error .invalidMessage e))
    | .ok (.auth _) =>
      (r, reply (.error .alreadyAuthenticated "auth is accepted only as the first message"))
    | .ok (.subscribe channels) =>
      let (_, oversized) := shared.sized channels
      let (allowed, unauthorized) := shared.allowed claims channels
      let (r, added, overLimit) := r.subscribe id allowed shared.config.maxSubscriptions
      (r, ack added (rejections oversized unauthorized overLimit))
    | .ok (.unsubscribe channels) =>
      let (r, removed) := r.unsubscribe id channels
      (r, reply (.unsubscribed removed))
    | .ok (.ping timestamp) => (r, reply (.pong timestamp))
  | ack added rejected => ((r.send id (.subscribed added rejected)).1, snapshots added)
  | snapshots [] => (r, done)
  | snapshots (ch :: rest) =>
    match shared.snapshot source ch with
    | some payload => (r, snapshot ch payload rest)
    | none => (r, snapshots rest)
  | snapshot ch payload rest => ((r.send id (.snapshot ch payload)).1, snapshots rest)
  | reply frame => ((r.send id frame).1, done)
  | done => (r, done)

/-- The call on the registry that the next step makes, if it makes one. -/
def op? (shared : Shared σ) (id : ConnectionId) (claims : Claims) :
    Handling → Option (Op ServerMessage)
  | start text =>
    match shared.fromStr text with
    | .ok (.subscribe channels) =>
      some (.subscribe id (shared.allowed claims channels).1 shared.config.maxSubscriptions)
    | .ok (.unsubscribe channels) => some (.unsubscribe id channels)
    | _ => none
  | ack added rejected => some (.send id (.subscribed added rejected))
  | snapshots _ => none
  | snapshot ch payload _ => some (.send id (.snapshot ch payload))
  | reply frame => some (.send id frame)
  | done => none

variable (shared : Shared σ) (id : ConnectionId) (claims : Claims) (source : σ)

/-- A step changes the registry by its one call and in no other way. -/
theorem step_fst (r : Registry ServerMessage) (h : Handling) :
    (h.step shared id claims source r).1 =
      match h.op? shared id claims with
      | none => r
      | some op => (r.step op).1 := by
  cases h with
  | start text =>
      simp only [step, op?]
      cases shared.fromStr text with
      | error e => rfl
      | ok message => cases message <;> rfl
  | snapshots rest =>
      cases rest with
      | nil => rfl
      | cons ch rest =>
          simp only [step, op?]
          cases shared.snapshot source ch <;> rfl
  | ack _ _ | snapshot _ _ _ | reply _ | done => rfl

/-- How many steps the message at hand can still take. -/
def remaining : Handling → Nat
  | start text =>
    match shared.fromStr text with
    | .ok (.subscribe channels) => 2 * channels.length + 3
    | _ => 2
  | ack added _ => 2 * added.length + 2
  | snapshots rest => 2 * rest.length + 1
  | snapshot _ _ rest => 2 * rest.length + 2
  | reply _ => 1
  | done => 0

/-- Every step brings the message nearer to its end, whatever others have done to the registry. -/
theorem remaining_step (r : Registry ServerMessage) {h : Handling} (going : h ≠ done) :
    (h.step shared id claims source r).2.remaining shared < h.remaining shared := by
  cases h with
  | start text =>
      simp only [step, remaining]
      cases shared.fromStr text with
      | error e => exact Nat.lt_succ_self 1
      | ok message =>
          cases message with
          | subscribe channels =>
              have few := shared.length_newlyAdded claims r id channels
              change 2 * (shared.newlyAdded claims r id channels).length + 2 <
                2 * channels.length + 3
              omega
          | auth _ | unsubscribe _ | ping _ => exact Nat.lt_succ_self 1
  | snapshots rest =>
      cases rest with
      | nil => exact Nat.one_pos
      | cons ch rest =>
          simp only [step]
          cases shared.snapshot source ch with
          | none =>
              simp only [remaining, List.length_cons]
              omega
          | some payload =>
              simp only [remaining, List.length_cons]
              omega
  | ack _ _ | snapshot _ _ _ => exact Nat.lt_succ_self _
  | reply _ => exact Nat.one_pos
  | done => exact absurd rfl going

/-- Steps taken one after the other, nobody else acting in between. -/
def run : Nat → Registry ServerMessage × Handling → Registry ServerMessage × Handling
  | 0, s => s
  | n + 1, s => run n (s.2.step shared id claims source s.1)

theorem run_snapshots (r : Registry ServerMessage) (rest : List String) :
    ∃ n, run shared id claims source n (r, snapshots rest) =
      (sendSnapshots shared source id r rest, done) := by
  induction rest generalizing r with
  | nil => exact ⟨1, rfl⟩
  | cons ch rest ih =>
      cases read : shared.snapshot source ch with
      | none =>
          obtain ⟨n, later⟩ := ih r
          exact ⟨n + 1, by simp only [run, step, read, later, sendSnapshots]⟩
      | some payload =>
          obtain ⟨n, later⟩ := ih (r.send id (.snapshot ch payload)).1
          exact ⟨n + 2, by simp only [run, step, read, later, sendSnapshots]⟩

/-- Without interference the steps are `handle`, its reply delivered as `session` does. -/
theorem run_handle (r : Registry ServerMessage) (text : String) :
    ∃ n, run shared id claims source n (r, start text) =
      (match handle shared source r text id claims with
        | (r', none) => r'
        | (r', some frame) => (r'.send id frame).1, done) := by
  cases parsed : shared.fromStr text with
  | error e => exact ⟨2, by simp only [run, step, handle, parsed]⟩
  | ok message =>
      cases message with
      | subscribe channels =>
          obtain ⟨n, later⟩ := run_snapshots shared id claims source _ _
          exact ⟨n + 2, by simp only [run, step, handle, parsed]; exact later⟩
      | auth _ | unsubscribe _ | ping _ =>
          exact ⟨2, by simp only [run, step, handle, parsed]⟩

end Handling

end WsFanout
