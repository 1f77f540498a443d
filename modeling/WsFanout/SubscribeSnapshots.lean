import WsFanout.RegistryAccounting
import WsFanout.SubscribeOutcome

/-!
# The snapshots of a request

A request to subscribe puts its acknowledgement and one snapshot for each added channel that has
one on the connection's queue, all in the task that also empties the queue, so all of them have to
fit at once.  `caughtUp_iff` says when they do for a client that has read everything.

A snapshot follows only for a channel that was added.  A client that was told to resync and asks
again for a channel it holds gets none: `not_restores`.
-/

namespace WsFanout

open Lib

variable {σ : Type}

/-- The snapshot frames of the channels that have one, in order. -/
def Shared.snapshotsOf (shared : Shared σ) (source : σ) (channels : List String) :
    List ServerMessage :=
  channels.filterMap fun ch => (shared.snapshot source ch).map (.snapshot ch)

theorem Shared.length_snapshotsOf (shared : Shared σ) (source : σ) (channels : List String) :
    (shared.snapshotsOf source channels).length =
      channels.countP fun ch => (shared.snapshot source ch).isSome := by
  rw [Shared.snapshotsOf, List.length_filterMap_eq_countP]
  refine List.countP_congr fun ch _ => ?_
  rw [Option.isSome_map]

namespace Registry

variable {F : Type}

/-- A send to a queue with room is not dropped. -/
theorem framesDropped_send {r : Registry F} {id : ConnectionId} {conn : Connection F}
    (found : r.connections.lookup id = some conn) (room : conn.tx.accepts = true) (frame : F) :
    (r.send id frame).1.metrics.framesDropped = r.metrics.framesDropped := by
  have opened := (BoundedQueue.accepts_iff.mp room).1
  rw [(send_of_lookup found frame).2, BoundedQueue.trySend_snd, opened, room]
  rfl

/-- Every entry's queue has the capacity that all calls of `add` gave. -/
theorem capacity_run {ops : List (Op F)} {sendQueue : Nat}
    (given : ∀ subject n, .add subject n ∈ ops → n = sendQueue) {id : ConnectionId}
    {conn : Connection F} (found : (new.run ops).connections.lookup id = some conn) :
    conn.tx.capacity = sendQueue := by
  have all : ∀ (later : List (Op F)) (r : Registry F),
      (∀ subject n, .add subject n ∈ later → n = sendQueue) →
      (∀ id conn, r.connections.lookup id = some conn → conn.tx.capacity = sendQueue) →
      ∀ id conn, (r.run later).connections.lookup id = some conn →
        conn.tx.capacity = sendQueue := by
    intro later
    induction later with
    | nil => exact fun _ _ start => start
    | cons op later ih =>
        intro r given start
        refine ih (r.step op).1
          (fun subject n mem => given subject n (List.mem_cons_of_mem _ mem)) ?_
        intro id conn found
        rcases capacity_step r op found with rfl | ⟨before, old, -, same⟩
        · exact given _ _ List.mem_cons_self
        · exact same.trans (start id before old)
  refine all ops new given (fun id conn found => ?_) id conn found
  simp [new] at found

/-- Frames sent to one connection, one after the other. -/
def sendAll (r : Registry F) (id : ConnectionId) (frames : List F) : Registry F :=
  frames.foldl (fun r frame => (r.send id frame).1) r

/-- What that makes of the connection's queue: some of the frames are added to it, and all of them
if there is room, without a drop. -/
theorem sendAll_spec {r : Registry F} {id : ConnectionId} {conn : Connection F}
    (found : r.connections.lookup id = some conn) (frames : List F) :
    ∃ conn', (r.sendAll id frames).connections.lookup id = some conn' ∧
      conn'.tx.capacity = conn.tx.capacity ∧
      (∃ new, conn'.tx.buffer = conn.tx.buffer ++ new ∧ new.Sublist frames) ∧
      (conn.tx.isOpen = true → conn.tx.buffer.length + frames.length ≤ conn.tx.capacity →
        conn'.tx.buffer = conn.tx.buffer ++ frames ∧
        (r.sendAll id frames).metrics.framesDropped = r.metrics.framesDropped) := by
  induction frames generalizing r conn with
  | nil =>
      refine ⟨conn, found, rfl, ⟨[], (List.append_nil _).symm, List.nil_sublist _⟩, fun _ _ => ?_⟩
      exact ⟨(List.append_nil _).symm, rfl⟩
  | cons frame rest ih =>
      obtain ⟨conn', found', capacity, ⟨new, buffer, sub⟩, all⟩ := ih (send_of_lookup found frame).1
      have kept : (conn.offer frame).tx.capacity = conn.tx.capacity :=
        BoundedQueue.capacity_trySend _ _
      have stays : (conn.offer frame).tx.isOpen = conn.tx.isOpen :=
        BoundedQueue.isOpen_trySend _ _
      have offered := buffer_offer conn frame
      refine ⟨conn', found', capacity.trans kept, ?_, fun opened room => ?_⟩
      · rw [offered] at buffer
        cases taken : conn.tx.accepts with
        | true =>
            refine ⟨frame :: new, ?_, sub.cons_cons _⟩
            simpa [taken] using buffer
        | false =>
            refine ⟨new, ?_, sub.cons _⟩
            simpa [taken] using buffer
      · rw [List.length_cons] at room
        have taken : conn.tx.accepts = true := BoundedQueue.accepts_iff.mpr ⟨opened, by omega⟩
        rw [taken, if_pos rfl] at offered
        rw [offered, kept, stays, List.length_append, List.length_singleton] at all
        obtain ⟨queue, dropped⟩ := all opened (by omega)
        refine ⟨by simpa using queue, dropped.trans ?_⟩
        exact framesDropped_send found taken frame

end Registry

/-- The snapshot loop sends the snapshots one after the other. -/
theorem sendSnapshots_eq (shared : Shared σ) (source : σ) (id : ConnectionId)
    (r : Registry ServerMessage) (channels : List String) :
    sendSnapshots shared source id r channels =
      r.sendAll id (shared.snapshotsOf source channels) := by
  induction channels generalizing r with
  | nil => rfl
  | cons ch rest ih =>
      rw [sendSnapshots, Shared.snapshotsOf, List.filterMap_cons]
      cases shared.snapshot source ch with
      | none => exact ih r
      | some payload => exact ih (r.send id (.snapshot ch payload)).1

section Request

variable (shared : Shared σ) (source : σ) {r : Registry ServerMessage} {id : ConnectionId}
  (claims : Claims) {text : String} {channels : List String} {conn : Connection ServerMessage}

/-- The frames a request sends to its connection. -/
def Shared.answers (held : Finset String) (channels : List String) : List ServerMessage :=
  .subscribed (shared.outcome claims held channels).added
      (shared.outcome claims held channels).rejected ::
    shared.snapshotsOf source (shared.outcome claims held channels).added

/-- What a request makes of its connection's queue. -/
theorem queue_handle_subscribe (asks : shared.fromStr text = .ok (.subscribe channels))
    (found : r.connections.lookup id = some conn) :
    ∃ conn', (handle shared source r text id claims).1.connections.lookup id = some conn' ∧
      conn'.tx.capacity = conn.tx.capacity ∧
      (∃ new, conn'.tx.buffer = conn.tx.buffer ++ new ∧
        new.Sublist (shared.answers source claims conn.subscriptions channels)) ∧
      (conn.tx.isOpen = true →
        conn.tx.buffer.length +
          (shared.answers source claims conn.subscriptions channels).length ≤ conn.tx.capacity →
        conn'.tx.buffer =
          conn.tx.buffer ++ shared.answers source claims conn.subscriptions channels ∧
        (handle shared source r text id claims).1.metrics.framesDropped =
          r.metrics.framesDropped) := by
  have entry := r.lookup_enrolled id conn (shared.outcome claims conn.subscriptions channels)
  rw [handle_subscribe_eq shared source r claims asks found, sendSnapshots_eq]
  exact Registry.sendAll_spec entry (shared.answers source claims conn.subscriptions channels)

end Request

/-- The queue of a client that had read everything holds the acknowledgement of its request and
then one snapshot for each channel the acknowledgement names that has one, and nothing was
dropped. -/
def CaughtUp (shared : Shared σ) (source : σ) (r : Registry ServerMessage) (id : ConnectionId)
    (claims : Claims) (text : String) : Prop :=
  ∃ added rejected,
    ((Handling.start text).step shared id claims source r).2 = .ack added rejected ∧
    (handle shared source r text id claims).1.queueOf id =
      .subscribed added rejected :: shared.snapshotsOf source added ∧
    (handle shared source r text id claims).1.metrics.framesDropped = r.metrics.framesDropped

/-- **When a caught-up client gets every snapshot.**  In every state reached with the configured
queues: exactly when fewer channels have a snapshot than a queue holds frames, among the permitted
channels that the client does not hold, counted up to its quota.  The acknowledgement takes the
remaining place. -/
theorem caughtUp_iff (shared : Shared σ) (source : σ) (ops : List (Op ServerMessage))
    (given : ∀ subject n, .add subject n ∈ ops → n = shared.config.sendQueue)
    (id : ConnectionId) (claims : Claims) (text : String) (channels : List String)
    (asks : shared.fromStr text = .ok (.subscribe channels)) (conn : Connection ServerMessage)
    (found : (Registry.new.run ops).connections.lookup id = some conn)
    (opened : conn.tx.isOpen = true) (caughtUp : conn.tx.buffer = []) :
    CaughtUp shared source (Registry.new.run ops) id claims text ↔
      (granted shared.config.maxSubscriptions conn.subscriptions
        (channels.filter (shared.permits claims))).countP
          (fun ch => (shared.snapshot source ch).isSome) < shared.config.sendQueue := by
  have capacity := Registry.capacity_run given found
  have built := ack_handling shared source (Registry.new.run ops) claims asks found
  have frames : (shared.answers source claims conn.subscriptions channels).length =
      (granted shared.config.maxSubscriptions conn.subscriptions
        (channels.filter (shared.permits claims))).countP
          (fun ch => (shared.snapshot source ch).isSome) + 1 := by
    rw [Shared.answers, List.length_cons, Shared.length_snapshotsOf]
    rfl
  obtain ⟨conn', found', capacity', -, all⟩ :=
    queue_handle_subscribe shared source claims asks found
  simp only [CaughtUp, built, Registry.queueOf_of_lookup found', Handling.ack.injEq]
  constructor
  · intro complete
    obtain ⟨_, _, ⟨rfl, rfl⟩, queue, -⟩ := complete
    have bound := conn'.tx.bounded
    rw [queue, capacity', capacity] at bound
    change (shared.answers source claims conn.subscriptions channels).length ≤ _ at bound
    omega
  · intro few
    rw [caughtUp, List.length_nil, List.nil_append] at all
    obtain ⟨queue, dropped⟩ := all opened (by omega)
    exact ⟨_, _, ⟨rfl, rfl⟩, queue, dropped⟩

/-- Every channel has a snapshot, and the client that holds `x` asks for names of every kind: the
one channel it is given is counted. -/
theorem caughtUp_iff_mixed :
    CaughtUp strict (((LastValue.new.record "x" ⟨"1"⟩).record "y" ⟨"2"⟩).record "z" ⟨"3"⟩) holding
      ⟨1⟩ (Claims.new "alice") mixedText := by
  have asks : strict.fromStr mixedText =
      .ok (.subscribe ["x", "oversized", "y", "shut", "y", "z", "shut", "z"]) := by rfl
  have given : ∀ subject n, (.add subject n : Op ServerMessage) ∈
      [.add "alice" 4, .subscribe ⟨1⟩ ["x"] 2] → n = strict.config.sendQueue := by
    intro subject n mem
    simp only [List.mem_cons, List.not_mem_nil, or_false, Op.add.injEq, reduceCtorEq] at mem
    exact mem.2
  refine (caughtUp_iff strict _ [.add "alice" 4, .subscribe ⟨1⟩ ["x"] 2] given ⟨1⟩
    (Claims.new "alice") _ _ asks holder (by rfl) rfl rfl).mpr ?_
  decide

/-- With queues of one frame, which pass the check of the configuration, the acknowledgement fills
the queue and the snapshot is dropped. -/
theorem caughtUp_iff_one_frame :
    (demoWith { sendQueue := 1 }).config.validate = .ok () ∧
    (demoWith { sendQueue := 1 }).fromStr subscribeText = .ok (.subscribe ["x"]) ∧
    ¬ CaughtUp (demoWith { sendQueue := 1 }) (LastValue.new.record "x" ⟨"1"⟩)
      (Registry.new.run [.add "alice" 1]) ⟨1⟩ (Claims.new "alice") subscribeText := by
  refine ⟨by rfl, by rfl, ?_⟩
  intro complete
  obtain ⟨added, rejected, built, queue, -⟩ := complete
  have acked : ((Handling.start subscribeText).step (demoWith { sendQueue := 1 }) ⟨1⟩
      (Claims.new "alice") (LastValue.new.record "x" ⟨"1"⟩)
      (Registry.new.run [.add "alice" 1])).2 = .ack ["x"] [] := by decide
  rw [acked] at built
  obtain ⟨rfl, rfl⟩ := Handling.ack.inj built
  revert queue
  decide

/-! ## Asking again -/

/-- Handling the text puts a snapshot of `ch` on the connection's queue. -/
def Restores (shared : Shared σ) (source : σ) (r : Registry ServerMessage) (id : ConnectionId)
    (claims : Claims) (text : String) (ch : String) : Prop :=
  ∃ payload, .snapshot ch payload ∈
    ((handle shared source r text id claims).1.queueOf id).drop (r.queueOf id).length

/-- **Asking again restores nothing.**  In every state, whatever was enqueued before and however
much room there is, no request puts a snapshot of a channel on the queue of a connection that holds
the channel. -/
theorem not_restores (shared : Shared σ) (source : σ) (r : Registry ServerMessage)
    (id : ConnectionId) (claims : Claims) (text : String) (channels : List String)
    (asks : shared.fromStr text = .ok (.subscribe channels)) (ch : String)
    (held : ch ∈ r.subscriptionsOf id) : ¬ Restores shared source r id claims text ch := by
  intro restored
  obtain ⟨payload, gained⟩ := restored
  obtain ⟨conn, found, holds⟩ := Registry.mem_subscriptionsOf.mp held
  obtain ⟨conn', found', -, ⟨new, buffer, sub⟩, -⟩ :=
    queue_handle_subscribe shared source claims asks found
  rw [Registry.queueOf_of_lookup found', Registry.queueOf_of_lookup found, buffer,
    List.drop_left] at gained
  have sent := sub.subset gained
  simp only [Shared.answers, Shared.snapshotsOf, List.mem_cons, List.mem_filterMap,
    Option.map_eq_some_iff, reduceCtorEq, false_or] at sent
  obtain ⟨c, added, _, -, same⟩ := sent
  obtain ⟨rfl, -⟩ := ServerMessage.snapshot.inj same
  exact (shared.mem_added claims conn.subscriptions channels added).2.2 holds

/-- A client of the small server asks twice for its channel. -/
theorem not_restores_twice :
    demo.fromStr subscribeText = .ok (.subscribe ["x"]) ∧
    ¬ Restores demo (LastValue.new.record "x" ⟨"1"⟩)
      (Registry.new.run [.add "alice" 4, .subscribe ⟨1⟩ ["x"] 256]) ⟨1⟩ (Claims.new "alice")
      subscribeText "x" := by
  have asks : demo.fromStr subscribeText = .ok (.subscribe ["x"]) := by rfl
  have held : "x" ∈ (Registry.new.run [.add "alice" 4, .subscribe ⟨1⟩ ["x"] 256] :
      Registry ServerMessage).subscriptionsOf ⟨1⟩ := by decide
  exact ⟨asks, not_restores demo _ _ ⟨1⟩ _ _ ["x"] asks "x" held⟩

/-- A client that holds the channel was told to resync and asks again: the channel has a snapshot,
the client may have it and its queue has room, and no snapshot comes. -/
theorem not_restores_resynced :
    ∃ r, r = Registry.new.run
        [.add "alice" 4, .subscribe ⟨1⟩ ["x"] 256, .broadcast (.resync [])] ∧
      "x" ∈ r.subscriptionsOf ⟨1⟩ ∧ demo.maySubscribe (Claims.new "alice") "x" = true ∧
      demo.snapshot (LastValue.new.record "x" ⟨"1"⟩) "x" = some ⟨"1"⟩ ∧
      .resync [] ∈ r.queueOf ⟨1⟩ ∧ r.accepts ⟨1⟩ = true ∧
      demo.fromStr subscribeText = .ok (.subscribe ["x"]) ∧
      ¬ Restores demo (LastValue.new.record "x" ⟨"1"⟩) r ⟨1⟩ (Claims.new "alice") subscribeText
        "x" := by
  refine ⟨_, rfl, by decide, by decide, by decide, by decide, by decide, by rfl, ?_⟩
  intro restored
  obtain ⟨payload, gained⟩ := restored
  have acked : ((handle demo (LastValue.new.record "x" ⟨"1"⟩) (Registry.new.run
      [.add "alice" 4, .subscribe ⟨1⟩ ["x"] 256, .broadcast (.resync [])]) subscribeText ⟨1⟩
      (Claims.new "alice")).1.queueOf ⟨1⟩).drop ((Registry.new.run
      [.add "alice" 4, .subscribe ⟨1⟩ ["x"] 256, .broadcast (ServerMessage.resync [])]).queueOf
        ⟨1⟩).length =
        [ServerMessage.subscribed [] []] := by decide
  rw [acked] at gained
  cases List.mem_singleton.mp gained

end WsFanout
