import WsFanout.Handle

/-!
# The last value served as the snapshot

One publisher records each payload in a `LastValue` and then publishes it, while a connection
subscribes to the channel and is sent the recorded value as its snapshot.  `Racing.Step` lets the
two take their calls in any order, none of them meeting the connection's queue full.

* `Racing.no_update_lost`: every payload reaches the connection, itself or in a later snapshot.
* `Racing.lastState_iff`: the last frame about the channel carries the last payload, except when
  that payload was published while the task held an older snapshot that it had yet to send.
-/

namespace WsFanout

open Lib

/-- The payload of a `data` or a `snapshot` of `ch`. -/
def ServerMessage.stateOn? (ch : String) : ServerMessage → Option RawValue
  | data channel payload => if channel = ch then some payload else none
  | snapshot channel payload => if channel = ch then some payload else none
  | _ => none

/-- What the last frame about `ch` carries. -/
def lastState (ch : String) (queue : List ServerMessage) : Option RawValue :=
  (queue.filterMap (ServerMessage.stateOn? ch)).getLast?

/-- One call of the publisher. -/
inductive PublisherCall where
  | record (payload : RawValue)
  | publish (payload : RawValue)
  deriving DecidableEq, Repr

/-- The publisher's program: each payload is recorded, then published. -/
def publishing (ps : List RawValue) : List PublisherCall :=
  ps.flatMap fun p => [.record p, .publish p]

/-- The registry, the recorded values, and how far the two parties have come. -/
structure Racing where
  registry : Registry ServerMessage
  last : LastValue
  handling : Handling
  rest : List PublisherCall

namespace Racing

/-- Whose turn it is. -/
inductive Turn where
  | connection
  | publisher
  deriving DecidableEq, Repr

/-- One step of either party that drops nothing for `id`. -/
inductive Step (shared : Shared LastValue) (ch : String) (id : ConnectionId) (claims : Claims) :
    Racing → Turn → Racing → Prop
  | connection {s : Racing}
      (kept : ∀ op ∈ s.handling.op? shared id claims, s.registry.dropsFor id op = false) :
      Step shared ch id claims s .connection
        { s with
          registry := (s.handling.step shared id claims s.last s.registry).1
          handling := (s.handling.step shared id claims s.last s.registry).2 }
  | record {s : Racing} {payload : RawValue} {rest : List PublisherCall}
      (next : s.rest = .record payload :: rest) :
      Step shared ch id claims s .publisher
        { s with last := s.last.record ch payload, rest := rest }
  | publish {s : Racing} {payload : RawValue} {rest : List PublisherCall}
      (next : s.rest = .publish payload :: rest)
      (kept : s.registry.dropsFor id (.publish ch (.data ch payload)) = false) :
      Step shared ch id claims s .publisher
        { s with registry := (s.registry.publish ch (.data ch payload)).1, rest := rest }

/-- The publisher makes its last call, the publish of `latest`, while the task holds another
snapshot, read and not yet sent. -/
def Stale (latest : RawValue) (s : Racing) : Turn → Prop
  | .connection => False
  | .publisher => s.rest = [.publish latest] ∧
    ∃ c payload rest, s.handling = .snapshot c payload rest ∧ payload ≠ latest

variable {shared : Shared LastValue} {ch : String} {id : ConnectionId} {claims : Claims}

theorem Step.deterministic {s t u : Racing} {a : Turn} (left : Step shared ch id claims s a t)
    (right : Step shared ch id claims s a u) : t = u := by
  cases left with
  | connection _ =>
      cases right
      rfl
  | record next =>
      cases right with
      | record next' =>
          rw [next] at next'
          cases next'
          rfl
      | publish next' _ =>
          rw [next] at next'
          cases next'
  | publish next _ =>
      cases right with
      | record next' =>
          rw [next] at next'
          cases next'
      | publish next' _ =>
          rw [next] at next'
          cases next'
          rfl

/-! ## How far the publisher has come -/

/-- The payloads of `done` are published; the one after them may be recorded already. -/
def Position (ch : String) (ps : List RawValue) (last : LastValue) (rest : List PublisherCall)
    (done : List RawValue) : Prop :=
  (∃ todo, ps = done ++ todo ∧ rest = publishing todo ∧
    ∀ p, done.getLast? = some p → last.snapshot ch = some p) ∨
  ∃ p todo, ps = done ++ p :: todo ∧ rest = .publish p :: publishing todo ∧
    last.snapshot ch = some p

namespace Position

variable {ps : List RawValue} {last : LastValue} {rest : List PublisherCall}
  {done : List RawValue} {p : RawValue}

theorem start : Position ch ps last (publishing ps) [] :=
  .inl ⟨ps, rfl, rfl, by simp⟩

theorem record (pos : Position ch ps last (.record p :: rest) done) :
    Position ch ps (last.record ch p) rest done ∧ rest ≠ [] := by
  rcases pos with ⟨todo, split, program, -⟩ | ⟨_, _, _, program, _⟩
  · cases todo with
    | nil => cases program
    | cons q todo =>
        cases program
        exact ⟨.inr ⟨p, todo, split, rfl, by simp⟩, by simp⟩
  · cases program

theorem publish (pos : Position ch ps last (.publish p :: rest) done) :
    Position ch ps last rest (done ++ [p]) := by
  rcases pos with ⟨todo, split, program, -⟩ | ⟨q, todo, split, program, recorded⟩
  · cases todo <;> cases program
  · cases program
    exact .inl ⟨todo, by simp [split], rfl, by simp [recorded]⟩

/-- Every published payload is covered by what is recorded: by itself or a later one. -/
theorem fresh (pos : Position ch ps last rest done) {j : Nat} (published : done[j]? = some p) :
    ∃ m q, j ≤ m ∧ ps[m]? = some q ∧ last.snapshot ch = some q := by
  obtain ⟨inside, -⟩ := List.getElem?_eq_some_iff.mp published
  rcases pos with ⟨todo, rfl, -, recorded⟩ | ⟨q, todo, rfl, -, recorded⟩
  · refine ⟨done.length - 1, done.get ⟨done.length - 1, by omega⟩, by omega, ?_, recorded _ ?_⟩
    · rw [List.getElem?_append_left (by omega)]
      simp
    · rw [List.getLast?_eq_getElem?]
      simp
  · exact ⟨done.length, q, by omega, by simp, recorded⟩

/-- Once the program is over, everything is published. -/
theorem finished (pos : Position ch ps last [] done) : done = ps := by
  rcases pos with ⟨todo, rfl, program, -⟩ | ⟨_, _, _, program, _⟩
  · cases todo with
    | nil => simp
    | cons p todo => cases program
  · cases program

/-- Before the last publish, and after it, the last payload is the recorded one. -/
theorem latest (pos : Position ch ps last rest done) (isLast : ps.getLast? = some p)
    (near : rest = [] ∨ ∃ q, rest = [.publish q]) :
    last.snapshot ch = some p ∧ ∀ q, rest = [.publish q] → q = p := by
  rcases pos with ⟨todo, rfl, rfl, recorded⟩ | ⟨q, todo, rfl, rfl, recorded⟩
  · cases todo with
    | nil =>
        rw [List.append_nil] at isLast
        exact ⟨recorded p isLast, by simp [publishing]⟩
    | cons q todo => simp [publishing] at near
  · cases todo with
    | nil =>
        obtain rfl : q = p := by simpa using isLast
        exact ⟨recorded, by simp [publishing]⟩
    | cons q' todo => simp [publishing] at near

end Position

/-! ## How far the request has come -/

/-- The points a request for the one channel `ch` passes through. -/
def Shape (ch : String) (added : List String) : Handling → Prop
  | .start _ => True
  | .ack channels _ => channels = added
  | .snapshots rest => rest = added ∨ rest = []
  | .snapshot c _ rest => c = ch ∧ rest = []
  | .reply _ => False
  | .done => True

/-- The invariant of the race, `done` being the payloads published so far and `size` the length of
the queue the request started on. -/
structure Inv (shared : Shared LastValue) (ch : String) (id : ConnectionId) (claims : Claims)
    (added : List String) (ps : List RawValue) (size : Nat) (done : List RawValue) (s : Racing) :
    Prop where
  joined : s.registry.Joined id
  grown : size ≤ (s.registry.queueOf id).length
  /-- The index lists the connection from the request's first step on, or from before it. -/
  listed : (added = [] ∨ ∀ text, s.handling ≠ .start text) → id ∈ s.registry.byChannel.members ch
  requested : ∀ text, s.handling = .start text →
    shared.fromStr text = .ok (.subscribe [ch]) ∧
      shared.newlyAdded claims s.registry id [ch] = added
  shape : Shape ch added s.handling
  position : Position ch ps s.last s.rest done

/-- What the task's own step does: the frame it sends and the point it comes to. -/
inductive Turned (shared : Shared LastValue) (ch : String) (added : List String) (s : Racing)
    (sent : List ServerMessage) (h : Handling) : Prop
  | subscribe (text : String) (rejected : List Rejected) (was : s.handling = .start text)
      (none : sent = []) (now : h = .ack added rejected)
  | ack (rejected : List Rejected) (was : s.handling = .ack added rejected)
      (one : sent = [.subscribed added rejected]) (now : h = .snapshots added)
  | read (payload : RawValue) (was : s.handling = .snapshots [ch]) (none : sent = [])
      (found : shared.snapshot s.last ch = some payload) (now : h = .snapshot ch payload [])
  | pass (was : s.handling = .snapshots [ch]) (none : sent = [])
      (absent : shared.snapshot s.last ch = Option.none) (now : h = .snapshots [])
  | snapshot (payload : RawValue) (was : s.handling = .snapshot ch payload [])
      (one : sent = [.snapshot ch payload]) (now : h = .snapshots [])
  | complete (was : s.handling = .snapshots [] ∨ s.handling = .done) (none : sent = [])
      (now : h = .done)

namespace Inv

variable {added : List String} {ps done : List RawValue} {size : Nat} {s t : Racing}

/-- The task's own step. -/
theorem connection (inv : Inv shared ch id claims added ps size done s)
    (known : added = [ch] ∨ added = [])
    (kept : ∀ op ∈ s.handling.op? shared id claims, s.registry.dropsFor id op = false) :
    Inv shared ch id claims added ps size done
        { s with
          registry := (s.handling.step shared id claims s.last s.registry).1
          handling := (s.handling.step shared id claims s.last s.registry).2 } ∧
      ∃ sent, (s.handling.step shared id claims s.last s.registry).1.queueOf id =
          s.registry.queueOf id ++ sent ∧
        Turned shared ch added s sent (s.handling.step shared id claims s.last s.registry).2 := by
  obtain ⟨r, last, h, rest⟩ := s
  obtain ⟨joined, grown, listed, requested, shape, position⟩ := inv
  change size ≤ (r.queueOf id).length at grown
  cases h with
  | start text =>
      obtain ⟨parsed, same⟩ := requested text rfl
      obtain ⟨joined', queue⟩ := joined.subscribe (shared.allowed claims [ch]).1
        shared.config.maxSubscriptions
      simp only [Handling.step, parsed]
      refine ⟨⟨joined', queue ▸ grown, fun _ => ?_, by simp, same, position⟩, [],
        queue.trans (List.append_nil _).symm, .subscribe text _ rfl rfl (by rw [← same]; rfl)⟩
      rcases known with rfl | rfl
      · refine Registry.listed_added r id _ _ ?_
        change ch ∈ shared.newlyAdded claims r id [ch]
        rw [same]
        exact List.mem_singleton_self ch
      · exact Registry.members_subscribe r id _ _ (listed (.inl rfl))
  | ack channels rejected =>
      obtain rfl : channels = added := shape
      obtain ⟨joined', queue⟩ := joined.send (.subscribed channels rejected) (kept _ rfl)
      have byChannel := (r.deliver_spec (.send id (.subscribed channels rejected)) rfl id).2.1
      simp only [Handling.step]
      refine ⟨⟨joined', by simp only [queue, List.length_append]; omega, fun _ => ?_, by simp,
        .inl rfl, position⟩, _, queue, .ack rejected rfl rfl rfl⟩
      exact byChannel ▸ listed (.inr (by simp))
  | snapshots waiting =>
      cases waiting with
      | nil =>
          simp only [Handling.step]
          exact ⟨⟨joined, grown, fun _ => listed (.inr (by simp)), by simp, trivial, position⟩, [],
            (List.append_nil _).symm, .complete (.inl rfl) rfl rfl⟩
      | cons c waiting =>
          obtain ⟨rfl, rfl⟩ : c = ch ∧ waiting = [] := by
            rcases shape with same | absurd
            · rcases known with rfl | rfl <;> simp_all
            · cases absurd
          simp only [Handling.step]
          cases read : shared.snapshot last c with
          | none =>
              exact ⟨⟨joined, grown, fun _ => listed (.inr (by simp)), by simp, .inr rfl, position⟩,
                [], (List.append_nil _).symm, .pass rfl rfl read rfl⟩
          | some payload =>
              exact ⟨⟨joined, grown, fun _ => listed (.inr (by simp)), by simp, ⟨rfl, rfl⟩,
                position⟩, [], (List.append_nil _).symm, .read payload rfl rfl read rfl⟩
  | snapshot c payload waiting =>
      obtain ⟨rfl, rfl⟩ := shape
      obtain ⟨joined', queue⟩ := joined.send (.snapshot c payload) (kept _ rfl)
      have byChannel := (r.deliver_spec (.send id (.snapshot c payload)) rfl id).2.1
      simp only [Handling.step]
      refine ⟨⟨joined', by simp only [queue, List.length_append]; omega, fun _ => ?_, by simp,
        .inr rfl, position⟩, _, queue, .snapshot payload rfl rfl rfl⟩
      exact byChannel ▸ listed (.inr (by simp))
  | reply _ => exact shape.elim
  | done =>
      simp only [Handling.step]
      exact ⟨⟨joined, grown, listed, by simp, trivial, position⟩, [], (List.append_nil _).symm,
        .complete (.inr rfl) rfl rfl⟩

/-- The publisher records a payload. -/
theorem record (inv : Inv shared ch id claims added ps size done s) {payload : RawValue}
    {rest : List PublisherCall} (next : s.rest = .record payload :: rest) :
    Inv shared ch id claims added ps size done
        { s with last := s.last.record ch payload, rest := rest } ∧ rest ≠ [] := by
  have position := inv.position
  rw [next] at position
  exact ⟨⟨inv.joined, inv.grown, inv.listed, inv.requested, inv.shape, position.record.1⟩,
    position.record.2⟩

/-- The publisher publishes a payload. -/
theorem publish (inv : Inv shared ch id claims added ps size done s) {payload : RawValue}
    {rest : List PublisherCall} (next : s.rest = .publish payload :: rest)
    (kept : s.registry.dropsFor id (.publish ch (.data ch payload)) = false) :
    Inv shared ch id claims added ps size (done ++ [payload])
        { s with registry := (s.registry.publish ch (.data ch payload)).1, rest := rest } ∧
      (s.registry.publish ch (.data ch payload)).1.queueOf id =
        s.registry.queueOf id ++
          if id ∈ s.registry.byChannel.members ch then [.data ch payload] else [] := by
  obtain ⟨joined, queue⟩ := inv.joined.publish ch _ kept
  obtain ⟨-, byChannel, -⟩ := s.registry.deliver_spec (.publish ch (.data ch payload)) rfl id
  have position := inv.position
  rw [next] at position
  refine ⟨⟨joined, ?_, ?_, ?_, inv.shape, position.publish⟩, queue⟩
  · have grown := inv.grown
    simp only [queue, List.length_append]
    omega
  · intro after
    have listed := inv.listed after
    rw [← byChannel] at listed
    exact listed
  · intro text here
    obtain ⟨parsed, same⟩ := inv.requested text here
    exact ⟨parsed, (shared.newlyAdded_publish claims inv.joined ch _ joined [ch]).trans same⟩

/-- What one step preserves. -/
theorem step {a : Turn} (inv : Inv shared ch id claims added ps size done s)
    (known : added = [ch] ∨ added = []) (step : Step shared ch id claims s a t) :
    ∃ done', Inv shared ch id claims added ps size done' t := by
  cases step with
  | connection kept => exact ⟨done, (inv.connection known kept).1⟩
  | record next => exact ⟨done, (inv.record next).1⟩
  | publish next kept => exact ⟨_, (inv.publish next kept).1⟩

end Inv

theorem inv_start (shared : Shared LastValue) (claims : Claims) (r : Registry ServerMessage)
    (joined : r.Joined id) {text : String}
    (parsed : shared.fromStr text = .ok (.subscribe [ch])) (last : LastValue)
    (ps : List RawValue)
    (listed : shared.newlyAdded claims r id [ch] = [] → id ∈ r.byChannel.members ch) :
    Inv shared ch id claims (shared.newlyAdded claims r id [ch]) ps (r.queueOf id).length []
      ⟨r, last, .start text, publishing ps⟩ where
  joined := joined
  grown := Nat.le_refl _
  listed := by
    rintro (none | started)
    · exact listed none
    · exact absurd rfl (started text)
  requested := by
    rintro _ ⟨⟩
    exact ⟨parsed, rfl⟩
  shape := trivial
  position := .start

/-! ## No update is lost -/

/-- Each payload of `done` is in `sent` as `data`, or covered by a snapshot of it or a later one,
sent or about to be. -/
def Told (ch : String) (ps : List RawValue) (sent : List ServerMessage) (done : List RawValue)
    (held : Option RawValue) : Prop :=
  ∀ (j : Nat) (p : RawValue), done[j]? = some p → .data ch p ∈ sent ∨
    ∃ (m : Nat) (q : RawValue), j ≤ m ∧ ps[m]? = some q ∧ (.snapshot ch q ∈ sent ∨ held = some q)

/-- Before the snapshot is read nothing has to be told: the snapshot will cover it. -/
def Covered (ch : String) (ps : List RawValue) (sent : List ServerMessage)
    (done : List RawValue) : Handling → Prop
  | .start _ => True
  | .ack _ _ => True
  | .snapshots rest => rest = [] → Told ch ps sent done none
  | .snapshot _ payload _ => Told ch ps sent done (some payload)
  | .reply _ => True
  | .done => Told ch ps sent done none

namespace Told

variable {ps done : List RawValue} {sent : List ServerMessage} {held : Option RawValue}
  {payload : RawValue}

/-- The payload is published to the connection. -/
theorem data (told : Told ch ps sent done held) :
    Told ch ps (sent ++ [.data ch payload]) (done ++ [payload]) held := by
  intro j p published
  rw [List.getElem?_append] at published
  split at published
  · rcases told j p published with enqueued | ⟨m, q, later, here, covered⟩
    · exact .inl (List.mem_append_left _ enqueued)
    · exact .inr ⟨m, q, later, here, covered.imp_left (List.mem_append_left _)⟩
  · obtain ⟨-, rfl⟩ := List.getElem?_eq_some_iff.mp published
    exact .inl (by simp)

/-- The snapshot held is sent. -/
theorem snapshot (told : Told ch ps sent done (some payload)) :
    Told ch ps (sent ++ [.snapshot ch payload]) done none := by
  intro j p published
  rcases told j p published with enqueued | ⟨m, q, later, here, sentBefore | holds⟩
  · exact .inl (List.mem_append_left _ enqueued)
  · exact .inr ⟨m, q, later, here, .inl (List.mem_append_left _ sentBefore)⟩
  · cases holds
    exact .inr ⟨m, _, later, here, .inl (by simp)⟩

end Told

/-- What one step preserves of the cover, for a request that adds the channel. -/
theorem Inv.covered {ps done : List RawValue} {size : Nat} {s t : Racing} {a : Turn}
    (serves : shared.snapshot = LastValue.snapshot)
    (inv : Inv shared ch id claims [ch] ps size done s)
    (covered : Covered ch ps ((s.registry.queueOf id).drop size) done s.handling)
    (step : Step shared ch id claims s a t) :
    ∃ done', Inv shared ch id claims [ch] ps size done' t ∧
      Covered ch ps ((t.registry.queueOf id).drop size) done' t.handling := by
  cases step with
  | connection kept =>
      obtain ⟨inv', sent, queue, turned⟩ := inv.connection (.inl rfl) kept
      refine ⟨done, inv', ?_⟩
      simp only [queue, List.drop_append_of_le_length inv.grown]
      cases turned with
      | subscribe text rejected was none now =>
          rw [now]
          trivial
      | ack rejected was one now =>
          rw [now]
          simp [Covered]
      | read payload was none found now =>
          rw [now]
          intro j p published
          obtain ⟨m, q, later, here, recorded⟩ := inv.position.fresh published
          rw [serves, recorded] at found
          exact .inr ⟨m, q, later, here, .inr found.symm⟩
      | pass was none absent now =>
          rw [now]
          intro _ j p published
          obtain ⟨m, q, -, -, recorded⟩ := inv.position.fresh published
          rw [serves, recorded] at absent
          cases absent
      | snapshot payload was one now =>
          rw [was] at covered
          rw [now, one]
          exact fun _ => covered.snapshot
      | complete was none now =>
          rw [now, none, List.append_nil]
          rcases was with was | was
          · rw [was] at covered
            exact covered rfl
          · rw [was] at covered
            exact covered
  | record next => exact ⟨done, (inv.record next).1, covered⟩
  | publish next kept =>
      obtain ⟨inv', queue⟩ := inv.publish next kept
      refine ⟨_, inv', ?_⟩
      simp only [queue, List.drop_append_of_le_length inv.grown]
      have listed := inv.listed
      cases phase : s.handling with
      | start _ => trivial
      | ack _ _ => trivial
      | reply _ => trivial
      | snapshots rest | snapshot _ _ rest | done =>
          rw [phase] at covered listed
          rw [if_pos (listed (.inr (by simp)))]
          first
          | exact fun none => (covered none).data
          | exact covered.data

/-- **No update falls between the snapshot and the live stream.**  In every interleaving of the
publisher with a request that adds the channel, none of their frames dropped for a full queue, once
both have finished every payload was enqueued as `data`, or a snapshot of it or a later one was. -/
theorem no_update_lost (shared : Shared LastValue) (serves : shared.snapshot = LastValue.snapshot)
    (claims : Claims) (r : Registry ServerMessage) (id : ConnectionId) (joined : r.Joined id)
    (ch : String) (text : String) (parsed : shared.fromStr text = .ok (.subscribe [ch]))
    (adds : shared.newlyAdded claims r id [ch] = [ch]) (last : LastValue) (ps : List RawValue)
    (as : List Turn) (t : Racing)
    (run : Run (Step shared ch id claims) ⟨r, last, .start text, publishing ps⟩ as t)
    (handled : t.handling = .done) (published : t.rest = []) :
    ∀ (k : Nat) (p : RawValue), ps[k]? = some p →
      .data ch p ∈ (t.registry.queueOf id).drop (r.queueOf id).length ∨
      ∃ (j : Nat) (q : RawValue), k ≤ j ∧ ps[j]? = some q ∧
        .snapshot ch q ∈ (t.registry.queueOf id).drop (r.queueOf id).length := by
  have start := inv_start shared claims r joined parsed last ps (by simp [adds])
  rw [adds] at start
  obtain ⟨done, inv, covered⟩ := run.invariant
    (I := fun s => ∃ done, Inv shared ch id claims [ch] ps (r.queueOf id).length done s ∧
      Covered ch ps ((s.registry.queueOf id).drop (r.queueOf id).length) done s.handling)
    (fun before step => by
      obtain ⟨done, inv, covered⟩ := before
      exact inv.covered serves covered step)
    ⟨[], start, trivial⟩
  have position := inv.position
  rw [published] at position
  obtain rfl := position.finished
  rw [handled] at covered
  intro k p at_k
  rcases covered k p at_k with enqueued | ⟨j, q, later, at_j, sent | absurd⟩
  · exact .inl enqueued
  · exact .inr ⟨j, q, later, at_j, sent⟩
  · cases absurd

/-- Two payloads; the second one is recorded and published between the read of the snapshot and
its send. -/
def overtaking : List Turn :=
  [.publisher, .publisher, .connection, .connection, .connection, .publisher, .publisher,
    .connection, .connection]

theorem run_overtaking :
    ∃ t, Run (Step demo "x" ⟨1⟩ (Claims.new "alice"))
        ⟨Registry.new.run [.add "alice" 4], LastValue.new, .start subscribeText,
          publishing [⟨"1"⟩, ⟨"2"⟩]⟩ overtaking t ∧
      t.handling = .done ∧ t.rest = [] ∧
      t.registry.queueOf ⟨1⟩ =
        [.subscribed ["x"] [], .data "x" ⟨"2"⟩, .snapshot "x" ⟨"1"⟩] := by
  have run : Run (Step demo "x" ⟨1⟩ (Claims.new "alice"))
      ⟨Registry.new.run [.add "alice" 4], LastValue.new, .start subscribeText,
        publishing [⟨"1"⟩, ⟨"2"⟩]⟩ overtaking _ :=
    .cons (.record rfl) <| .cons (.publish rfl rfl) <|
    .cons (.connection (by rintro _ ⟨⟩; rfl)) <| .cons (.connection (by rintro _ ⟨⟩; rfl)) <|
    .cons (.connection (by rintro _ ⟨⟩)) <| .cons (.record rfl) <| .cons (.publish rfl rfl) <|
    .cons (.connection (by rintro _ ⟨⟩; rfl)) <| .cons (.connection (by rintro _ ⟨⟩)) <| .nil _
  exact ⟨_, run, rfl, rfl, rfl⟩

/-- The first payload is covered by its snapshot, the second is enqueued as `data`. -/
theorem no_update_lost_overtaking :
    ∃ t, Run (Step demo "x" ⟨1⟩ (Claims.new "alice"))
        ⟨Registry.new.run [.add "alice" 4], LastValue.new, .start subscribeText,
          publishing [⟨"1"⟩, ⟨"2"⟩]⟩ overtaking t ∧
      ∀ (k : Nat) (p : RawValue), [(⟨"1"⟩ : RawValue), ⟨"2"⟩][k]? = some p →
        .data "x" p ∈ t.registry.queueOf ⟨1⟩ ∨
        ∃ (j : Nat) (q : RawValue), k ≤ j ∧ [(⟨"1"⟩ : RawValue), ⟨"2"⟩][j]? = some q ∧
          .snapshot "x" q ∈ t.registry.queueOf ⟨1⟩ := by
  obtain ⟨t, run, handled, published, -⟩ := run_overtaking
  have told := no_update_lost demo rfl (Claims.new "alice") (Registry.new.run [.add "alice" 4]) ⟨1⟩
    ⟨_, rfl, rfl⟩ "x" subscribeText rfl rfl LastValue.new [⟨"1"⟩, ⟨"2"⟩] overtaking t run handled
    published
  exact ⟨t, run, told⟩

/-! ## The last frame -/

theorem lastState_append (queue : List ServerMessage) (frame : ServerMessage) :
    lastState ch (queue ++ [frame]) =
      match frame.stateOn? ch with
      | none => lastState ch queue
      | some payload => some payload := by
  unfold lastState
  rw [List.filterMap_append]
  cases about : frame.stateOn? ch <;> simp [about]

/-- What the last frame about `ch` will carry once the request is over, given that the publisher
has finished with `latest`: the snapshot still to be read or held, or what is on the queue. -/
def Outcome (ch : String) (added : List String) (latest : RawValue)
    (queue : List ServerMessage) : Handling → Prop
  | .start _ => added = [ch] ∨ lastState ch queue = some latest
  | .ack _ _ => added = [ch] ∨ lastState ch queue = some latest
  | .snapshots rest => rest = [ch] ∨ lastState ch queue = some latest
  | .snapshot _ payload _ => payload = latest
  | .reply _ => False
  | .done => lastState ch queue = some latest

/-- Once the publisher has finished, the task's steps do not change the outcome. -/
theorem Inv.outcome_connection {added : List String} {ps done : List RawValue} {size : Nat}
    {s : Racing} {latest : RawValue} (serves : shared.snapshot = LastValue.snapshot)
    (inv : Inv shared ch id claims added ps size done s) (known : added = [ch] ∨ added = [])
    (isLast : ps.getLast? = some latest) (published : s.rest = [])
    (kept : ∀ op ∈ s.handling.op? shared id claims, s.registry.dropsFor id op = false) :
    Outcome ch added latest
        ((s.handling.step shared id claims s.last s.registry).1.queueOf id)
        (s.handling.step shared id claims s.last s.registry).2 ↔
      Outcome ch added latest (s.registry.queueOf id) s.handling := by
  obtain ⟨-, sent, queue, turned⟩ := inv.connection known kept
  have recorded := (inv.position.latest isLast (.inl published)).1
  rw [queue]
  cases turned with
  | subscribe text rejected was none now => rw [now, was, none, List.append_nil]; rfl
  | ack rejected was one now =>
      rw [now, was, one]
      simp [Outcome, lastState_append, ServerMessage.stateOn?]
  | read payload was none found now =>
      rw [serves, recorded] at found
      obtain rfl := Option.some.inj found
      rw [now, was]
      simp [Outcome]
  | pass was none absent now =>
      rw [serves, recorded] at absent
      cases absent
  | snapshot payload was one now =>
      rw [now, was, one]
      simp [Outcome, lastState_append, ServerMessage.stateOn?]
  | complete was none now =>
      rw [now, none, List.append_nil]
      rcases was with was | was <;> simp [was, Outcome]

/-- The publish of the last payload settles the outcome: it is the last payload, unless the task
holds another one. -/
theorem Inv.outcome_publish {added : List String} {ps done : List RawValue} {size : Nat}
    {s : Racing} {latest : RawValue} (inv : Inv shared ch id claims added ps size done s)
    (known : added = [ch] ∨ added = []) (next : s.rest = [.publish latest])
    (kept : s.registry.dropsFor id (.publish ch (.data ch latest)) = false) :
    Outcome ch added latest ((s.registry.publish ch (.data ch latest)).1.queueOf id) s.handling ↔
      ¬ Stale latest s .publisher := by
  obtain ⟨-, queue⟩ := inv.publish next kept
  have delivered : id ∈ s.registry.byChannel.members ch →
      lastState ch ((s.registry.publish ch (.data ch latest)).1.queueOf id) = some latest := by
    intro listed
    rw [queue, if_pos listed]
    simp [lastState_append, ServerMessage.stateOn?]
  have listed := inv.listed
  cases phase : s.handling with
  | start text =>
      rw [phase] at listed
      rcases known with rfl | rfl
      · simp [Outcome, Stale, phase]
      · simp [Outcome, Stale, phase, delivered (listed (.inl rfl))]
  | ack _ _ | snapshots _ | done =>
      rw [phase] at listed
      simp [Outcome, Stale, phase, delivered (listed (.inr (by simp)))]
  | snapshot c payload rest => simp [Outcome, Stale, phase, next]
  | reply _ =>
      have shape := inv.shape
      rw [phase] at shape
      exact shape.elim

/-- The request ends well, or the publisher has not finished. -/
def Settled (ch : String) (id : ConnectionId) (added : List String) (latest : RawValue)
    (s : Racing) : Prop :=
  s.rest ≠ [] ∨ Outcome ch added latest (s.registry.queueOf id) s.handling

/-- One step spoils the outcome exactly when it is the stale one. -/
theorem Inv.settled_step {added : List String} {ps done : List RawValue} {size : Nat}
    {s t : Racing} {a : Turn} {latest : RawValue} (serves : shared.snapshot = LastValue.snapshot)
    (inv : Inv shared ch id claims added ps size done s) (known : added = [ch] ∨ added = [])
    (isLast : ps.getLast? = some latest) (step : Step shared ch id claims s a t) :
    Settled ch id added latest t ↔ Settled ch id added latest s ∧ ¬ Stale latest s a := by
  cases step with
  | connection kept =>
      rcases Classical.em (s.rest = []) with published | going
      · have same := inv.outcome_connection serves known isLast published kept
        simp only [Settled, published, ne_eq, not_true_eq_false, false_or, same, Stale,
          not_false_eq_true, and_true]
      · simp [Settled, going, Stale]
  | record next =>
      have more := (inv.record next).2
      simp [Settled, next, more, Stale]
  | @publish payload rest next kept =>
      cases rest with
      | cons call rest => simp [Settled, next, Stale]
      | nil =>
          obtain rfl : payload = latest :=
            (inv.position.latest isLast (.inr ⟨payload, next⟩)).2 payload next
          have outcome := inv.outcome_publish known next kept
          simp only [Settled, ne_eq, not_true_eq_false, false_or, next, reduceCtorEq,
            not_false_eq_true, true_or, true_and, outcome]

/-- A request for one channel adds it or adds nothing. -/
theorem newlyAdded_singleton (shared : Shared LastValue) (claims : Claims)
    {r : Registry ServerMessage} (joined : r.Joined id) (ch : String) :
    shared.newlyAdded claims r id [ch] = [ch] ∨ shared.newlyAdded claims r id [ch] = [] := by
  rw [Shared.newlyAdded, Registry.added_subscribe joined]
  have only : ∀ c ∈ (shared.allowed claims [ch]).1, c = ch := by
    intro c mem
    simpa using (shared.mem_allowed.mp mem).1
  have requested := (Registry.subscribeLoop_spec shared.config.maxSubscriptions
    (r.subscriptionsOf id) (shared.allowed claims [ch]).1).2.1
  have nodup := Registry.subscribeLoop_nodup shared.config.maxSubscriptions
    (r.subscriptionsOf id) (shared.allowed claims [ch]).1
  have same : ∀ c ∈ (Registry.subscribeLoop shared.config.maxSubscriptions
      (r.subscriptionsOf id) (shared.allowed claims [ch]).1).2.1, c = ch :=
    fun c mem => only c (requested c mem).2
  revert nodup same
  generalize (Registry.subscribeLoop shared.config.maxSubscriptions
      (r.subscriptionsOf id) (shared.allowed claims [ch]).1).2.1 = added
  intro nodup same
  cases added with
  | nil => exact .inr rfl
  | cons c rest =>
      cases rest with
      | nil => exact .inl (by rw [same c List.mem_cons_self])
      | cons d rest =>
          have twice : c = d := (same c (by simp)).trans (same d (by simp)).symm
          simp [twice] at nodup

/-- **When a new subscriber converges.**  In every interleaving of the publisher with a request
that leaves the connection subscribed, none of their frames dropped for a full queue, once both
have finished the last frame about the channel carries the last payload exactly when that payload
was not published while the task held another snapshot, read and not yet sent. -/
theorem lastState_iff (shared : Shared LastValue) (serves : shared.snapshot = LastValue.snapshot)
    (claims : Claims) (ops : List (Op ServerMessage)) (id : ConnectionId)
    (joined : (Registry.new.run ops).Joined id) (ch : String) (text : String)
    (parsed : shared.fromStr text = .ok (.subscribe [ch]))
    (subscribed : ch ∈ ((Registry.new.run ops).subscribe id (shared.allowed claims [ch]).1
      shared.config.maxSubscriptions).1.subscriptionsOf id)
    (last : LastValue) (ps : List RawValue) (latest : RawValue)
    (isLast : ps.getLast? = some latest) (as : List Turn) (t : Racing)
    (run : Run (Step shared ch id claims)
      ⟨Registry.new.run ops, last, .start text, publishing ps⟩ as t)
    (handled : t.handling = .done) (published : t.rest = []) :
    lastState ch (t.registry.queueOf id) = some latest ↔
      ∀ bs a cs u, as = bs ++ a :: cs →
        Run (Step shared ch id claims)
          ⟨Registry.new.run ops, last, .start text, publishing ps⟩ bs u →
        ¬ Stale latest u a := by
  have known := newlyAdded_singleton shared claims joined ch
  have listed : shared.newlyAdded claims (Registry.new.run ops) id [ch] = [] →
      id ∈ (Registry.new.run ops).byChannel.members ch := by
    intro none
    refine Registry.listed_new.run ops _ _ ?_
    rwa [Registry.subscriptionsOf_subscribe joined, ← Registry.added_subscribe joined,
      ← Shared.newlyAdded, none, List.toFinset_nil, Finset.union_empty] at subscribed
  have start := inv_start shared claims (Registry.new.run ops) joined parsed last ps listed
  have going : publishing ps ≠ [] := by
    cases ps with
    | nil => cases isLast
    | cons p ps => simp [publishing]
  have holds := Run.holds_iff
    (I := fun s => ∃ done, Inv shared ch id claims
      (shared.newlyAdded claims (Registry.new.run ops) id [ch]) ps
      ((Registry.new.run ops).queueOf id).length done s)
    (P := Settled ch id (shared.newlyAdded claims (Registry.new.run ops) id [ch]) latest)
    (Stale latest) (fun left right => left.deterministic right)
    (fun before step => by
      obtain ⟨done, inv⟩ := before
      exact inv.step known step)
    (fun before step => by
      obtain ⟨done, inv⟩ := before
      exact inv.settled_step serves known isLast step)
    run ⟨[], start⟩
  simpa [Settled, handled, published, Outcome, going] using holds

/-- The same run: its last payload is published while the task holds the first. -/
theorem lastState_iff_overtaking :
    lastState "x" [.subscribed ["x"] [], .data "x" ⟨"2"⟩, .snapshot "x" ⟨"1"⟩] = some ⟨"2"⟩ ↔
      ∀ bs a cs u, overtaking = bs ++ a :: cs →
        Run (Step demo "x" ⟨1⟩ (Claims.new "alice"))
          ⟨Registry.new.run [.add "alice" 4], LastValue.new, .start subscribeText,
            publishing [⟨"1"⟩, ⟨"2"⟩]⟩ bs u →
        ¬ Stale ⟨"2"⟩ u a := by
  obtain ⟨t, run, handled, published, queue⟩ := run_overtaking
  have iff := lastState_iff demo rfl (Claims.new "alice") [.add "alice" 4] ⟨1⟩ ⟨_, rfl, rfl⟩ "x"
    subscribeText rfl (by decide) LastValue.new [⟨"1"⟩, ⟨"2"⟩] ⟨"2"⟩ rfl overtaking t run handled
    published
  rw [queue] at iff
  exact iff

/-- The connection is left with the first payload, though the second was the last. -/
theorem lastState_stale :
    ¬ ∀ as t, Run (Step demo "x" ⟨1⟩ (Claims.new "alice"))
        ⟨Registry.new.run [.add "alice" 4], LastValue.new, .start subscribeText,
          publishing [⟨"1"⟩, ⟨"2"⟩]⟩ as t →
      t.handling = .done → t.rest = [] →
      lastState "x" (t.registry.queueOf ⟨1⟩) = some ⟨"2"⟩ := by
  intro converges
  obtain ⟨t, run, handled, published, queue⟩ := run_overtaking
  have last := converges overtaking t run handled published
  rw [queue] at last
  exact absurd last (by decide)

end Racing

end WsFanout
