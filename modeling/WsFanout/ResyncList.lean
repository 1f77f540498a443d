import WsFanout.RegistryAccounting

/-!
# Telling the subscribers of a list of channels to resync

`Server::resync` builds one frame from the whole list and publishes it on each channel of the list
in turn.  A connection is therefore offered the frame once for each position of the list that it is
listed under in the index, and every copy names the whole list.

* `reachesOnce_iff`: when that is one frame for each connection concerned.
* `resync_frames`: what two calls put on the queue of a connection they concern alike.
-/

namespace WsFanout

open Lib

namespace Registry

variable {F : Type}

/-- One frame published on each of the channels, and how many copies were received. -/
def publishAll (frame : F) : Registry F → List String → Registry F × Nat
  | r, [] => (r, 0)
  | r, ch :: rest =>
    let (r', n) := r.publish ch frame
    let (r'', m) := publishAll frame r' rest
    (r'', n + m)

/-- `Server::resync`: tell subscribers of `channels` that those channels lost data. -/
def resync (r : Registry ServerMessage) (channels : List String) :
    Registry ServerMessage × Nat :=
  publishAll (.resync channels) r channels

/-- How many positions of the list the index lists `id` under. -/
def listedUnder (r : Registry F) (id : ConnectionId) (channels : List String) : Nat :=
  channels.countP fun ch => id ∈ r.byChannel.members ch

/-- What the publishes leave of an entry: as many copies on its queue as there are positions that
list it and places for them. -/
theorem lookup_publishAll {r : Registry F} {id : ConnectionId} {conn : Connection F}
    (found : r.connections.lookup id = some conn) (frame : F) (channels : List String) :
    ∃ conn', (publishAll frame r channels).1.connections.lookup id = some conn' ∧
      conn'.tx.buffer =
        conn.tx.buffer ++ List.replicate (min (r.listedUnder id channels) conn.tx.room) frame := by
  induction channels generalizing r conn with
  | nil => exact ⟨conn, found, by simp [listedUnder]⟩
  | cons ch rest ih =>
      have after := (deliver_spec r (.publish ch frame) rfl id).1
      have byChannel := (deliver_spec r (.publish ch frame) rfl id).2.1
      change (r.publish ch frame).1.connections.lookup id = _ at after
      change (r.publish ch frame).1.byChannel = _ at byChannel
      have later : (r.publish ch frame).1.listedUnder id rest = r.listedUnder id rest := by
        rw [listedUnder, byChannel, listedUnder]
      rw [found, Option.map_some, reaches] at after
      by_cases listed : id ∈ r.byChannel.members ch
      · rw [if_pos (by simpa using listed)] at after
        obtain ⟨conn', found', buffer⟩ := ih after
        refine ⟨conn', found', ?_⟩
        have here : r.listedUnder id (ch :: rest) = r.listedUnder id rest + 1 := by
          simp [listedUnder, listed]
        have left : (conn.offer frame).tx.room = conn.tx.room - 1 :=
          BoundedQueue.room_trySend _ _
        rw [later, left, buffer_offer] at buffer
        rw [here, buffer]
        cases taken : conn.tx.accepts with
        | true =>
            have free := BoundedQueue.accepts_iff_room.mp taken
            obtain ⟨k, room⟩ : ∃ k, conn.tx.room = k + 1 := ⟨conn.tx.room - 1, by omega⟩
            rw [room, Nat.add_sub_cancel, Nat.add_min_add_right, List.replicate_succ]
            simp
        | false =>
            have full : conn.tx.room = 0 := by
              by_contra free
              rw [BoundedQueue.accepts_iff_room.mpr (by omega)] at taken
              cases taken
            simp [full]
      · rw [if_neg (by simpa using listed)] at after
        obtain ⟨conn', found', buffer⟩ := ih after
        refine ⟨conn', found', ?_⟩
        have here : r.listedUnder id (ch :: rest) = r.listedUnder id rest := by
          simp [listedUnder, listed]
        rwa [here, ← later]

/-- The connections stay the same ones. -/
theorem keys_publishAll (r : Registry F) (frame : F) (channels : List String) :
    (publishAll frame r channels).1.connections.keys = r.connections.keys := by
  induction channels generalizing r with
  | nil => rfl
  | cons ch rest ih =>
      refine (ih (r.publish ch frame).1).trans ?_
      ext id
      have after := (deliver_spec r (.publish ch frame) rfl id).1
      change (r.publish ch frame).1.connections.lookup id = _ at after
      rw [Finmap.mem_keys_iff, Finmap.mem_keys_iff, after]
      split <;> simp

/-- The call counts every copy that a queue took. -/
theorem queued_publishAll (r : Registry F) (frame : F) (channels : List String) :
    (publishAll frame r channels).1.queued = r.queued + (publishAll frame r channels).2 := by
  induction channels generalizing r with
  | nil => rfl
  | cons ch rest ih =>
      have first := queued_fanOut r frame (r.byChannel.members ch)
      rw [← publish_eq] at first
      have later := ih (r.publish ch frame).1
      rw [first] at later
      change (publishAll frame (r.publish ch frame).1 _).1.queued =
        r.queued + ((r.publish ch frame).2 + (publishAll frame (r.publish ch frame).1 _).2)
      omega

/-- The queue of a registered connection after the call. -/
theorem queueOf_resync {r : Registry ServerMessage} {id : ConnectionId}
    {conn : Connection ServerMessage} (found : r.connections.lookup id = some conn)
    (channels : List String) :
    (r.resync channels).1.queueOf id = r.queueOf id ++
      List.replicate (min (r.listedUnder id channels) conn.tx.room) (.resync channels) := by
  obtain ⟨conn', found', buffer⟩ := lookup_publishAll found (.resync channels) channels
  rw [queueOf_of_lookup found, ← buffer]
  exact queueOf_of_lookup found'

/-! ## One frame each -/

/-- The call puts one frame on the queue of each connection that holds a channel of the list and
none on any other, and returns how many connections those are. -/
def ReachesOnce (r : Registry ServerMessage) (channels : List String) : Prop :=
  (∀ id conn, r.connections.lookup id = some conn →
    (r.resync channels).1.queueOf id = r.queueOf id ++
      if ∃ ch ∈ channels, ch ∈ conn.subscriptions then [.resync channels] else []) ∧
  (r.resync channels).2 =
    (r.connections.keys.filter fun id => ∃ ch ∈ channels, ch ∈ r.subscriptionsOf id).card

/-- The count follows from the frames. -/
theorem reachesOnce_of_frames {r : Registry ServerMessage} {channels : List String}
    (frames : ∀ id conn, r.connections.lookup id = some conn →
      (r.resync channels).1.queueOf id = r.queueOf id ++
        if ∃ ch ∈ channels, ch ∈ conn.subscriptions then [.resync channels] else []) :
    ReachesOnce r channels := by
  refine ⟨frames, ?_⟩
  have total := queued_publishAll r (.resync channels) channels
  have grown : ∀ id ∈ r.connections.keys, ((r.resync channels).1.queueOf id).length =
      (r.queueOf id).length + if ∃ ch ∈ channels, ch ∈ r.subscriptionsOf id then 1 else 0 := by
    intro id registered
    obtain ⟨conn, found⟩ := Finmap.mem_keys_iff.mp registered
    rw [frames id conn found, subscriptionsOf_of_lookup found, List.length_append]
    split <;> rfl
  rw [queued, keys_publishAll, queued] at total
  change ∑ id ∈ r.connections.keys, ((r.resync channels).1.queueOf id).length =
    _ + (r.resync channels).2 at total
  rw [Finset.sum_congr rfl grown, Finset.sum_add_distrib, ← Finset.card_filter] at total
  omega

/-- **When a resync reaches each connection once.**  In every reachable state in which every queue
takes a frame: exactly when no connection is listed under two positions of the list, unless its
queue has one place left, and none is listed under the list that holds nothing of it.  The latter
cannot be before the ids wrap. -/
theorem reachesOnce_iff (ops : List (Op ServerMessage)) (channels : List String)
    (roomy : ∀ id conn, (new.run ops).connections.lookup id = some conn →
      conn.tx.accepts = true) :
    ReachesOnce (new.run ops) channels ↔
      ∀ id conn, (new.run ops).connections.lookup id = some conn →
        ((new.run ops).listedUnder id channels ≤ 1 ∨ conn.tx.room = 1) ∧
        (0 < (new.run ops).listedUnder id channels →
          ∃ ch ∈ channels, ch ∈ conn.subscriptions) := by
  have listed := listed_new.run ops
  have each : ∀ id conn, (new.run ops).connections.lookup id = some conn →
      ((((new.run ops).resync channels).1.queueOf id = (new.run ops).queueOf id ++
        if ∃ ch ∈ channels, ch ∈ conn.subscriptions then [.resync channels] else []) ↔
      ((new.run ops).listedUnder id channels ≤ 1 ∨ conn.tx.room = 1) ∧
        (0 < (new.run ops).listedUnder id channels →
          ∃ ch ∈ channels, ch ∈ conn.subscriptions)) := by
    intro id conn found
    have room := BoundedQueue.accepts_iff_room.mp (roomy id conn found)
    rw [queueOf_resync found, List.append_cancel_left_eq]
    by_cases concerned : ∃ ch ∈ channels, ch ∈ conn.subscriptions
    · -- the index lists a connection under what it holds
      have reached : 0 < (new.run ops).listedUnder id channels := by
        obtain ⟨ch, mem, held⟩ := concerned
        refine List.countP_pos_iff.mpr ⟨ch, mem, ?_⟩
        rw [← subscriptionsOf_of_lookup found] at held
        simpa using listed id ch held
      rw [if_pos concerned]
      constructor
      · intro once
        have length := congrArg List.length once
        rw [List.length_replicate, List.length_singleton] at length
        exact ⟨by omega, fun _ => concerned⟩
      · intro condition
        have one : min ((new.run ops).listedUnder id channels) conn.tx.room = 1 := by
          rcases condition.1 with few | last <;> omega
        rw [one, List.replicate_one]
    · rw [if_neg concerned]
      constructor
      · intro none
        have length := congrArg List.length none
        rw [List.length_replicate, List.length_nil] at length
        exact ⟨by omega, fun reached => by omega⟩
      · intro condition
        have zero : (new.run ops).listedUnder id channels = 0 := by
          by_contra reached
          exact concerned (condition.2 (by omega))
        rw [zero, Nat.zero_min, List.replicate_zero]
  constructor
  · intro once id conn found
    exact (each id conn found).mp (once.1 id conn found)
  · intro condition
    exact reachesOnce_of_frames fun id conn found =>
      (each id conn found).mpr (condition id conn found)

/-- Two connections, with one channel each. -/
def apart : List (Op ServerMessage) :=
  [.add "a" 4, .add "b" 4, .subscribe ⟨1⟩ ["x"] 2, .subscribe ⟨2⟩ ["y"] 2]

/-- A list that names both channels reaches both connections once. -/
theorem reachesOnce_iff_apart :
    (∀ id conn, (new.run apart).connections.lookup id = some conn → conn.tx.accepts = true) ∧
    ReachesOnce (new.run apart) ["x", "y"] := by
  have roomy : ∀ id conn, (new.run apart).connections.lookup id = some conn →
      conn.tx.accepts = true := by
    intro id conn found
    have all : ∀ id ∈ (new.run apart).connections.keys, (new.run apart).accepts id = true := by
      decide
    have here := all id (Finmap.mem_keys_iff.mpr ⟨conn, found⟩)
    rw [accepts, found] at here
    exact here
  refine ⟨roomy, (reachesOnce_iff _ _ roomy).mpr fun id conn found => ?_⟩
  have all : ∀ id ∈ (new.run apart).connections.keys,
      (new.run apart).listedUnder id ["x", "y"] ≤ 1 ∧
        ∃ ch ∈ ["x", "y"], ch ∈ (new.run apart).subscriptionsOf id := by decide
  obtain ⟨few, concerned⟩ := all id (Finmap.mem_keys_iff.mpr ⟨conn, found⟩)
  rw [subscriptionsOf_of_lookup found] at concerned
  exact ⟨.inl few, fun _ => concerned⟩

/-- One connection holds both channels of the list: it gets the frame twice, and the call returns
two. -/
theorem reachesOnce_iff_overlap :
    accepts (new.run [.add "a" 4, .subscribe ⟨1⟩ ["x", "y"] 2] : Registry ServerMessage) ⟨1⟩ =
      true ∧
    ¬ ReachesOnce (new.run [.add "a" 4, .subscribe ⟨1⟩ ["x", "y"] 2]) ["x", "y"] := by
  refine ⟨by decide, ?_⟩
  intro once
  have count := once.2
  revert count
  decide

/-! ## What the frames carry -/

/-- While the index agrees with the sets, a connection is listed under the positions it holds. -/
theorem listedUnder_eq {n : Nat} {r : Registry F} (inv : Consistent n r) {id : ConnectionId}
    {conn : Connection F} (found : r.connections.lookup id = some conn) (channels : List String) :
    r.listedUnder id channels = channels.countP (· ∈ conn.subscriptions) := by
  refine List.countP_congr fun ch _ => ?_
  rw [decide_eq_true_iff, decide_eq_true_iff, inv.inverts.mem_members,
    subscriptionsOf_of_lookup found]

/-- **What two resyncs enqueue alike.**  In every state reached by fewer than `2 ^ 64` calls of
`add`, two lists with the same channels of a connection's set in the same order put equally many
frames on its queue, one for each of these positions that there is a place for.  Each frame carries
the whole list of its call, so the frames are the same exactly when there are none or the lists are
equal. -/
theorem resync_frames (ops : List (Op ServerMessage)) (adds : ops.countP Op.isAdd < 2 ^ 64)
    (id : ConnectionId) (conn : Connection ServerMessage)
    (found : (new.run ops).connections.lookup id = some conn) (xs ys : List String)
    (alike : xs.filter (· ∈ conn.subscriptions) = ys.filter (· ∈ conn.subscriptions)) :
    ∃ n, n = min (xs.filter (· ∈ conn.subscriptions)).length conn.tx.room ∧
      ((new.run ops).resync xs).1.queueOf id =
        (new.run ops).queueOf id ++ List.replicate n (.resync xs) ∧
      ((new.run ops).resync ys).1.queueOf id =
        (new.run ops).queueOf id ++ List.replicate n (.resync ys) ∧
      (((new.run ops).resync xs).1.queueOf id = ((new.run ops).resync ys).1.queueOf id ↔
        n = 0 ∨ xs = ys) := by
  have inv := Consistent.of_run ops adds.le
  have left := queueOf_resync found xs
  have right := queueOf_resync found ys
  rw [listedUnder_eq inv found, List.countP_eq_length_filter] at left right
  rw [← alike] at right
  refine ⟨_, rfl, left, right, ?_⟩
  rw [left, right, List.append_cancel_left_eq]
  obtain ⟨n, count⟩ : ∃ n, n = min (xs.filter (· ∈ conn.subscriptions)).length conn.tx.room :=
    ⟨_, rfl⟩
  rw [← count]
  constructor
  · intro same
    cases n with
    | zero => exact .inl rfl
    | succ n =>
        rw [List.replicate_succ, List.replicate_succ] at same
        exact .inr (ServerMessage.resync.inj (List.cons.inj same).1)
  · intro either
    rcases either with none | same
    · rw [none]
      rfl
    · rw [same]

/-- A connection that holds `x` is told of two lists that name it. -/
theorem resync_frames_held :
    ([.add "a" 4, .subscribe ⟨1⟩ ["x"] 2] : List (Op ServerMessage)).countP Op.isAdd < 2 ^ 64 ∧
    ∃ n, n = 1 ∧ ((new.run [.add "a" 4, .subscribe ⟨1⟩ ["x"] 2]).resync ["x", "y"]).1.queueOf ⟨1⟩ =
      (new.run [.add "a" 4, .subscribe ⟨1⟩ ["x"] 2]).queueOf ⟨1⟩ ++
        List.replicate n (ServerMessage.resync ["x", "y"]) := by
  refine ⟨by decide, ?_⟩
  obtain ⟨n, count, left, -⟩ := resync_frames [.add "a" 4, .subscribe ⟨1⟩ ["x"] 2] (by decide) ⟨1⟩
    { subject := "a", subscriptions := {"x"}, tx := BoundedQueue.new 4, dropped := 0 } rfl
    ["x", "y"] ["x", "z"] (by decide)
  exact ⟨n, count, left⟩

/-- The frames of two lists that differ only in a channel the connection does not hold differ. -/
theorem resync_frames_reveal :
    (["x"].filter fun ch => ch ∈ subscriptionsOf (new.run [.add "a" 4, .subscribe ⟨1⟩ ["x"] 2] :
      Registry ServerMessage) ⟨1⟩) =
    (["x", "secret"].filter fun ch => ch ∈ subscriptionsOf (new.run [.add "a" 4,
      .subscribe ⟨1⟩ ["x"] 2] : Registry ServerMessage) ⟨1⟩) ∧
    ((new.run [.add "a" 4, .subscribe ⟨1⟩ ["x"] 2]).resync ["x"]).1.queueOf ⟨1⟩ ≠
      ((new.run [.add "a" 4, .subscribe ⟨1⟩ ["x"] 2]).resync ["x", "secret"]).1.queueOf ⟨1⟩ := by
  decide

end Registry

end WsFanout
