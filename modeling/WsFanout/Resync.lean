import WsFanout.OutcrySource
import WsFanout.RegistryDelivery

/-!
# Telling every client to resync

`Server::resync_all` broadcasts a `Resync` frame, and the outcry source calls it when its consumer
was overrun.  The broadcast goes through the bounded queues like any other frame, so a connection
whose queue is full at the call does not get it.  `Registry.NeverMissed` is the promise of the call
over every continuation, and `Registry.neverMissed_iff` is exactly when it is kept: when no
connection that is there has a full queue.
-/

namespace WsFanout

open Lib

/-- `Server::resync_all`, as the registry sees it. -/
def Op.resyncAll : Op ServerMessage :=
  .broadcast (.resync [])

/-- The registry call a pass of the outcry loop makes. -/
def Pass.op? : Pass → Option (Op ServerMessage)
  | .decoded _ (some d) => some (.publish d.channel (.data d.channel d.payload))
  | .resyncAll => some .resyncAll
  | _ => none

namespace Registry

/-- The frames one operation puts on the queue of `id`. -/
def gained (r : Registry ServerMessage) (id : ConnectionId) (op : Op ServerMessage) :
    List ServerMessage :=
  ((r.step op).1.queueOf id).drop (r.queueOf id).length

/-- Along the operations, the connection `id` is closed or gets a `Resync` before it gets any
`Data`.  An `add` that issues `id` again puts another connection in its place. -/
def Excused (id : ConnectionId) :
    Registry ServerMessage → List (Op ServerMessage) → Prop
  | _, [] => True
  | r, op :: ops =>
    ¬ r.Joined id ∨ (op.isAdd = true ∧ id = ⟨r.nextId⟩) ∨
    (∃ channels, .resync channels ∈ r.gained id op) ∨
    (∀ channel payload, .data channel payload ∉ r.gained id op) ∧
      Excused id (r.step op).1 ops

/-- What a call of `resync_all` in `r` promises: however the run goes on, each connection that was
registered has the frame on its queue, or is closed or resynced before its next `Data`. -/
def NeverMissed (r : Registry ServerMessage) : Prop :=
  ∀ later : List (Op ServerMessage), (∀ op ∈ later, op.PublishesData) →
    ∀ id conn, r.connections.lookup id = some conn →
      .resync [] ∈ r.gained id .resyncAll ∨ Excused id (r.step .resyncAll).1 later

variable {r : Registry ServerMessage} {id : ConnectionId} {conn : Connection ServerMessage}

/-- The entry of a registered connection after the call. -/
theorem lookup_resyncAll (found : r.connections.lookup id = some conn) :
    (r.step .resyncAll).1.connections.lookup id = some (conn.offer (.resync [])) := by
  have after := (deliver_spec r .resyncAll rfl id).1
  rw [found] at after
  exact after

/-- A queue with room and a receiver takes the frame. -/
theorem gained_resyncAll (found : r.connections.lookup id = some conn)
    (room : conn.tx.accepts = true) : r.gained id .resyncAll = [.resync []] := by
  rw [gained, queueOf_of_lookup (lookup_resyncAll found), queueOf_of_lookup found, buffer_offer,
    room]
  exact List.drop_left

/-- A connection whose receiver is gone is excused. -/
theorem excused_of_closed (gone : ¬ r.Joined id) (later : List (Op ServerMessage)) :
    Excused id r later := by
  cases later with
  | nil => trivial
  | cons op later => exact .inl gone

/-- A queue without capacity never gets any frame. -/
theorem excused_of_no_capacity (none : ∀ conn, r.connections.lookup id = some conn →
    conn.tx.capacity = 0) (later : List (Op ServerMessage)) : Excused id r later := by
  have empty : ∀ {r' : Registry ServerMessage}, (∀ conn, r'.connections.lookup id = some conn →
      conn.tx.capacity = 0) → r'.queueOf id = [] := by
    intro r' none
    cases found : r'.connections.lookup id with
    | none => simp [queueOf, found]
    | some conn =>
        have bound := conn.tx.bounded
        rw [none conn found] at bound
        rw [queueOf_of_lookup found]
        exact List.eq_nil_of_length_eq_zero (Nat.le_zero.mp bound)
  induction later generalizing r with
  | nil => trivial
  | cons op later ih =>
      by_cases reissued : op.isAdd = true ∧ id = ⟨r.nextId⟩
      · exact .inr (.inl reissued)
      · have still : ∀ conn, (r.step op).1.connections.lookup id = some conn →
            conn.tx.capacity = 0 := by
          intro conn found
          rcases entry_cases r op found with ⟨_, _, rfl, mine, -⟩ | ⟨before, old, change⟩
          · exact absurd ⟨rfl, mine⟩ reissued
          · have zero := none before old
            cases change with
            | offered _ => exact (BoundedQueue.capacity_trySend _ _).trans zero
            | kept | subscribed _ _ | unsubscribed _ | taken | closed => exact zero
        have nothing : r.gained id op = [] := by
          rw [gained, empty still, List.drop_nil]
        refine .inr (.inr (.inr ⟨fun channel payload => ?_, ih still⟩))
        rw [nothing]
        exact List.not_mem_nil

/-- An operation that puts nothing on the queue of a connection that stays excuses nobody. -/
theorem excused_step {op : Op ServerMessage} {later : List (Op ServerMessage)}
    (excused : Excused id r (op :: later)) (joined : r.Joined id) (notAdd : op.isAdd = false)
    (nothing : r.gained id op = []) : Excused id (r.step op).1 later := by
  rcases excused with gone | ⟨isAdd, -⟩ | ⟨channels, told⟩ | ⟨-, rest⟩
  · exact absurd joined gone
  · rw [notAdd] at isAdd
    cases isAdd
  · rw [nothing] at told
    cases told
  · exact rest

/-- A request for one channel, with room for one more, leaves the connection listed under it. -/
theorem listed_subscribe_one (listed : r.Listed) (joined : r.Joined id) (ch : String) :
    id ∈ (r.subscribe id [ch] ((r.subscriptionsOf id).card + 1)).1.byChannel.members ch := by
  by_cases held : ch ∈ r.subscriptionsOf id
  · exact members_subscribe r id _ _ (listed id ch held)
  · refine listed_added r id _ _ ?_
    rw [added_subscribe joined, subscribeLoop, if_neg held, if_neg (Nat.not_succ_le_self _)]
    exact List.mem_cons_self

/-- Data that reaches a connection with room on its queue is received without an excuse. -/
theorem not_excused_publish {ch : String} {payload : RawValue} {rest : List (Op ServerMessage)}
    (joined : r.Joined id) (member : id ∈ r.byChannel.members ch)
    (kept : r.dropsFor id (.publish ch (.data ch payload)) = false) :
    ¬ Excused id r (.publish ch (.data ch payload) :: rest) := by
  have got := (joined.publish ch (.data ch payload) kept).2
  rw [if_pos member] at got
  have data : r.gained id (.publish ch (.data ch payload)) = [.data ch payload] := by
    change ((r.publish ch (.data ch payload)).1.queueOf id).drop _ = _
    rw [got, List.drop_left]
  intro excused
  rcases excused with gone | ⟨isAdd, -⟩ | ⟨channels, told⟩ | ⟨never, -⟩
  · exact gone joined
  · cases isAdd
  · rw [data] at told
    simp at told
  · refine never ch payload ?_
    rw [data]
    exact List.mem_singleton_self _

/-- What may follow a resync that a full queue dropped: the receiver takes a frame, the connection
asks for a channel, and that channel is published on. -/
def afterDrop (r : Registry ServerMessage) (id : ConnectionId) : List (Op ServerMessage) :=
  [.recv id, .subscribe id ["x"] ((r.subscriptionsOf id).card + 1),
    .publish "x" (.data "x" ⟨"1"⟩)]

/-- A connection that is there can go on to receive data. -/
theorem not_excused_afterDrop (listed : r.Listed) (found : r.connections.lookup id = some conn)
    (opened : conn.tx.isOpen = true) (capacity : 0 < conn.tx.capacity) :
    ¬ Excused id r (afterDrop r id) := by
  intro excused
  -- the receiver makes room for one frame
  have taken : (r.step (.recv id)).1.connections.lookup id =
      some { conn with tx := conn.tx.recv.1 } := by
    have after := (recv_spec r id).1 id
    rwa [if_pos rfl, found, Option.map_some] at after
  have there : r.Joined id := ⟨conn, found, opened⟩
  obtain ⟨joined, subs, nothing⟩ := there.recv
  have second := excused_step excused there rfl nothing
  rw [← subs] at second
  -- it is listed under the channel, and its queue is still as the receiver left it
  have still := joined.subscribe ["x"] (((r.step (.recv id)).1.subscriptionsOf id).card + 1)
  have third := excused_step second joined rfl (by
    rw [gained]
    exact List.drop_eq_nil_of_le (Nat.le_of_eq (congrArg List.length still.2)))
  have member := listed_subscribe_one (listed.step (.recv id)) joined "x"
  have asked := lookup_subscribe (r.step (.recv id)).1 id ["x"]
    (((r.step (.recv id)).1.subscriptionsOf id).card + 1) id
  rw [if_pos rfl, taken, Option.map_some] at asked
  have room : conn.tx.recv.1.isFull = false := by
    have bound := conn.tx.bounded
    simp only [BoundedQueue.isFull, BoundedQueue.recv, List.length_tail, Bool.and_eq_false_iff,
      decide_eq_false_iff_not]
    omega
  have kept : ((r.step (.recv id)).1.subscribe id ["x"]
      (((r.step (.recv id)).1.subscriptionsOf id).card + 1)).1.dropsFor id
        (.publish "x" (.data "x" ⟨"1"⟩)) = false := by
    rw [dropsFor, asked, Option.any_some, room, Bool.and_false]
  exact not_excused_publish still.1 member kept third

/-- **When a resync reaches everyone.**  In every reachable state, and so at every overrun of the
outcry source, a call of `resync_all` keeps its promise over every continuation exactly when no
connection whose receiver is there has a full queue.  No channel has capacity zero. -/
theorem neverMissed_iff (ops : List (Op ServerMessage)) :
    (∀ (s : Source) idle decode behind,
      (s.pass idle decode (.overrun behind)).2.op? = some .resyncAll) ∧
    (NeverMissed (new.run ops) ↔
      ∀ id conn, (new.run ops).connections.lookup id = some conn → 0 < conn.tx.capacity →
        conn.tx.isFull = false) := by
  refine ⟨fun _ _ _ _ => rfl, fun never id conn found capacity => ?_, ?_⟩
  · by_contra blocked
    have full : conn.tx.isFull = true := by simpa using blocked
    obtain ⟨opened, noRoom⟩ :
        conn.tx.isOpen = true ∧ conn.tx.capacity ≤ conn.tx.buffer.length := by
      simpa [BoundedQueue.isFull] using full
    have refused : conn.tx.accepts = false := by simp [BoundedQueue.accepts, noRoom]
    have sameTx : (conn.offer (.resync [])).tx = conn.tx :=
      BoundedQueue.trySend_of_not_accepts _ refused
    have told := lookup_resyncAll found
    have published : ∀ op ∈ afterDrop ((new.run ops).step .resyncAll).1 id,
        op.PublishesData := by
      intro op listed
      simp only [afterDrop, List.mem_cons, List.not_mem_nil, or_false] at listed
      rcases listed with rfl | rfl | rfl
      · trivial
      · trivial
      · rfl
    rcases never _ published id conn found with here | excused
    · rw [gained, queueOf_of_lookup told, sameTx, queueOf_of_lookup found, List.drop_length] at here
      cases here
    · refine not_excused_afterDrop ((listed_new.run ops).step .resyncAll) told ?_ ?_ excused
      · rw [sameTx]
        exact opened
      · rw [sameTx]
        exact capacity
  · intro roomy later _ id conn found
    have told := lookup_resyncAll found
    rcases Nat.eq_zero_or_pos conn.tx.capacity with zero | capacity
    · refine .inr (excused_of_no_capacity (fun conn' found' => ?_) later)
      rw [told] at found'
      cases found'
      exact (BoundedQueue.capacity_trySend _ _).trans zero
    · cases opened : conn.tx.isOpen with
      | true =>
          have room := BoundedQueue.accepts_of_not_isFull opened (roomy id conn found capacity)
          rw [gained_resyncAll found room]
          exact .inl (List.mem_singleton_self _)
      | false =>
          refine .inr (excused_of_closed ?_ later)
          intro joined
          obtain ⟨conn', found', opened'⟩ := joined
          rw [told] at found'
          cases found'
          rw [Connection.offer, BoundedQueue.isOpen_trySend, opened] at opened'
          cases opened'

/-- A client's queue holds one unread frame and no more fits: the resync is dropped, and after the
client has read that frame it receives data again. -/
theorem neverMissed_iff_full :
    ¬ NeverMissed (new.run [.add "a" 1, .subscribe ⟨1⟩ ["x"] 1,
      .publish "x" (.data "x" ⟨"1"⟩)]) := by
  intro never
  have published : ∀ op ∈ ([.recv ⟨1⟩, .publish "x" (.data "x" ⟨"2"⟩)] : List (Op ServerMessage)),
      op.PublishesData := by
    intro op listed
    simp only [List.mem_cons, List.not_mem_nil, or_false] at listed
    rcases listed with rfl | rfl
    · trivial
    · rfl
  rcases never _ published ⟨1⟩ _ rfl with here | excused
  · revert here
    decide
  · have joined : ((new.run [.add "a" 1, .subscribe ⟨1⟩ ["x"] 1,
        .publish "x" (.data "x" ⟨"1"⟩)]).step .resyncAll).1.Joined ⟨1⟩ := ⟨_, rfl, rfl⟩
    have later := excused_step excused joined rfl (by decide)
    exact not_excused_publish ⟨_, rfl, rfl⟩ (by decide) (by decide) later

end Registry

end WsFanout
