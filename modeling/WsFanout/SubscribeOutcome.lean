import WsFanout.Handle
import WsFanout.Lib.Quota

/-!
# What a request to subscribe comes to

`Shared.outcome` says from the request and the set held before it what is added, which set that
leaves and what is rejected for which reason.  `Registry.subscribeLoop_eq` is the connection to the
loop of `registry.rs`: it grants up to the quota, and reports as over the limit every occurrence of
a name it did not leave in the set.  `handle_subscribe_outcome` is the same for `handle`.

The acknowledgement built from this outcome lists what was added.  `ack_tells_iff` says for which
requests that is also what is active.
-/

namespace WsFanout

open Lib

variable {σ : Type}

/-- The added channels, the set afterwards and the refused occurrences of a request. -/
structure Outcome where
  added : List String
  subscriptions : Finset String
  rejected : List Rejected
  deriving DecidableEq

namespace Shared

/-- The name is of acceptable length and the authorizer grants it. -/
def permits (shared : Shared σ) (claims : Claims) (ch : String) : Bool :=
  ch.utf8ByteSize ≤ shared.config.maxChannelLen && shared.maySubscribe claims ch

/-- What a request for `channels` comes to for a connection that holds `held`. -/
def outcome (shared : Shared σ) (claims : Claims) (held : Finset String)
    (channels : List String) : Outcome :=
  let allowed := channels.filter (shared.permits claims)
  let added := granted shared.config.maxSubscriptions held allowed
  { added
    subscriptions := held ∪ added.toFinset
    rejected :=
      (channels.filter fun ch => shared.config.maxChannelLen < ch.utf8ByteSize).map
          (⟨·, .invalid⟩) ++
        (channels.filter fun ch => ch.utf8ByteSize ≤ shared.config.maxChannelLen ∧
          shared.maySubscribe claims ch = false).map (⟨·, .unauthorized⟩) ++
        (allowed.filter (· ∉ held ∪ added.toFinset)).map (⟨·, .limit⟩) }

/-- The two partitions of `handle`, each as a filter of the request. -/
theorem allowed_eq (shared : Shared σ) (claims : Claims) (channels : List String) :
    shared.allowed claims channels =
      (channels.filter (shared.permits claims),
        channels.filter fun ch => ch.utf8ByteSize ≤ shared.config.maxChannelLen ∧
          shared.maySubscribe claims ch = false) := by
  simp only [allowed, sized, List.partition_eq_filter_filter, List.filter_filter, Prod.mk.injEq]
  refine ⟨List.filter_congr fun ch _ => ?_, List.filter_congr fun ch _ => ?_⟩
  · rw [permits, Bool.and_comm]
  · cases refused : shared.maySubscribe claims ch <;> simp [refused]

theorem oversized_eq (shared : Shared σ) (channels : List String) :
    (shared.sized channels).2 =
      channels.filter fun ch => shared.config.maxChannelLen < ch.utf8ByteSize := by
  simp only [sized, List.partition_eq_filter_filter]
  refine List.filter_congr fun ch _ => ?_
  rw [Function.comp_apply, ← decide_not]
  exact decide_eq_decide.mpr Nat.not_le

end Shared

namespace Registry

variable {F : Type}

/-- The first loop of `subscribe` grants up to the quota, and reports the occurrences of every name
it did not leave in the set. -/
theorem subscribeLoop_eq (max : Nat) (subs : Finset String) (channels : List String) :
    subscribeLoop max subs channels =
      (subs ∪ (granted max subs channels).toFinset, granted max subs channels,
        channels.filter (· ∉ subs ∪ (granted max subs channels).toFinset)) := by
  induction channels generalizing subs with
  | nil => simp [subscribeLoop]
  | cons ch rest ih =>
      rw [subscribeLoop, granted_cons]
      by_cases held : ch ∈ subs
      · rw [if_pos held, if_pos held, ih, List.filter_cons_of_neg]
        simp [held]
      · rw [if_neg held, if_neg held]
        by_cases full : max ≤ subs.card
        · rw [if_pos full, if_pos full, ih, granted_of_full full, List.filter_cons_of_pos]
          simp [held]
        · rw [if_neg full, if_neg full, ih, List.toFinset_cons, Finset.union_insert,
            Finset.insert_union, List.filter_cons_of_neg]
          simp

/-- The registry once a request is entered in its two maps. -/
def enrolled (r : Registry F) (id : ConnectionId) (conn : Connection F) (o : Outcome) :
    Registry F :=
  { r with
    connections := r.connections.insert id { conn with subscriptions := o.subscriptions }
    byChannel := o.added.foldl (Index.link id) r.byChannel }

/-- What a subject holds, connection by connection: the map of connections without the queues. -/
def held (r : Registry F) : Finmap fun _ : ConnectionId => String × Finset String :=
  r.connections.mapVals fun conn => (conn.subject, conn.subscriptions)

theorem held_send (r : Registry F) (id : ConnectionId) (frame : F) :
    (r.send id frame).1.held = r.held := by
  refine Finmap.ext_lookup fun other => ?_
  have after := (deliver_spec r (.send id frame) rfl other).1
  rw [held, held, Finmap.lookup_mapVals, Finmap.lookup_mapVals]
  change ((r.step (.send id frame)).1.connections.lookup other).map _ = _
  rw [after]
  split
  · cases r.connections.lookup other <;> rfl
  · rfl

theorem byChannel_send (r : Registry F) (id : ConnectionId) (frame : F) :
    (r.send id frame).1.byChannel = r.byChannel :=
  (deliver_spec r (.send id frame) rfl id).2.1

/-- A send to a registered connection is one offer. -/
theorem send_of_lookup {r : Registry F} {id : ConnectionId} {conn : Connection F}
    (found : r.connections.lookup id = some conn) (frame : F) :
    (r.send id frame).1.connections.lookup id = some (conn.offer frame) ∧
      (r.send id frame).1.metrics = r.metrics.tally (conn.tx.trySend frame).2 := by
  simp [send, found, deliver_eq found]

/-- What a send adds to the queue it is for. -/
theorem queueOf_send (r : Registry F) (id : ConnectionId) (frame : F) :
    (r.send id frame).1.queueOf id =
      r.queueOf id ++ if r.accepts id then [frame] else [] := by
  cases found : r.connections.lookup id with
  | none => simp [send, queueOf, accepts, found]
  | some conn =>
      rw [queueOf_of_lookup (send_of_lookup found frame).1, queueOf_of_lookup found, buffer_offer]
      simp [accepts, found]

theorem lookup_enrolled (r : Registry F) (id : ConnectionId) (conn : Connection F) (o : Outcome) :
    (r.enrolled id conn o).connections.lookup id =
      some { conn with subscriptions := o.subscriptions } :=
  Finmap.lookup_insert _

theorem held_enrolled (r : Registry F) (id : ConnectionId) (conn : Connection F) (o : Outcome) :
    (r.enrolled id conn o).held = r.held.insert id (conn.subject, o.subscriptions) := by
  refine Finmap.ext_lookup fun other => ?_
  rw [held, held, Finmap.lookup_mapVals, enrolled, Finmap.lookup_insert_ite,
    Finmap.lookup_insert_ite, Finmap.lookup_mapVals]
  split <;> rfl

end Registry

/-- Sending snapshots changes queues only. -/
theorem sendSnapshots_maps (shared : Shared σ) (source : σ) (id : ConnectionId)
    (r : Registry ServerMessage) (channels : List String) :
    (sendSnapshots shared source id r channels).held = r.held ∧
      (sendSnapshots shared source id r channels).byChannel = r.byChannel := by
  induction channels generalizing r with
  | nil => exact ⟨rfl, rfl⟩
  | cons ch rest ih =>
      rw [sendSnapshots]
      cases shared.snapshot source ch with
      | none => exact ih r
      | some payload =>
          obtain ⟨held, byChannel⟩ := ih (r.send id (.snapshot ch payload)).1
          exact ⟨held.trans (Registry.held_send r id _),
            byChannel.trans (Registry.byChannel_send r id _)⟩

/-- Snapshots are put behind what is queued. -/
theorem queueOf_sendSnapshots (shared : Shared σ) (source : σ) (id : ConnectionId)
    (r : Registry ServerMessage) (channels : List String) :
    r.queueOf id <+: (sendSnapshots shared source id r channels).queueOf id := by
  induction channels generalizing r with
  | nil => exact List.prefix_rfl
  | cons ch rest ih =>
      rw [sendSnapshots]
      cases shared.snapshot source ch with
      | none => exact ih r
      | some payload =>
          refine List.IsPrefix.trans ?_ (ih (r.send id (.snapshot ch payload)).1)
          rw [Registry.queueOf_send]
          exact List.prefix_append _ _

section Request

variable (shared : Shared σ) (source : σ) (r : Registry ServerMessage) {text : String}
  {channels : List String} {id : ConnectionId} (claims : Claims) {conn : Connection ServerMessage}

/-- The call on the registry that a request makes, and what is left over the limit. -/
theorem subscribe_allowed (found : r.connections.lookup id = some conn) :
    r.subscribe id (shared.allowed claims channels).1 shared.config.maxSubscriptions =
      (r.enrolled id conn (shared.outcome claims conn.subscriptions channels),
        (shared.outcome claims conn.subscriptions channels).added,
        (channels.filter (shared.permits claims)).filter
          (· ∉ (shared.outcome claims conn.subscriptions channels).subscriptions)) := by
  rw [Registry.subscribe, found, shared.allowed_eq]
  simp only [Registry.subscribeLoop_eq]
  rfl

/-- A request handled for a registered connection: its two maps, the acknowledgement and the
snapshots of what it added. -/
theorem handle_subscribe_eq (asks : shared.fromStr text = .ok (.subscribe channels))
    (found : r.connections.lookup id = some conn) :
    handle shared source r text id claims =
      (sendSnapshots shared source id
        ((r.enrolled id conn (shared.outcome claims conn.subscriptions channels)).send id
          (.subscribed (shared.outcome claims conn.subscriptions channels).added
            (shared.outcome claims conn.subscriptions channels).rejected)).1
        (shared.outcome claims conn.subscriptions channels).added, none) := by
  simp only [handle, asks]
  rw [subscribe_allowed shared r claims found, shared.oversized_eq, shared.allowed_eq]
  rfl

/-- The two maps after the request. -/
theorem maps_handle_subscribe (asks : shared.fromStr text = .ok (.subscribe channels))
    (found : r.connections.lookup id = some conn) :
    (handle shared source r text id claims).1.held =
      r.held.insert id
        (conn.subject, (shared.outcome claims conn.subscriptions channels).subscriptions) ∧
    (handle shared source r text id claims).1.byChannel =
      (shared.outcome claims conn.subscriptions channels).added.foldl (Index.link id)
        r.byChannel := by
  rw [handle_subscribe_eq shared source r claims asks found]
  obtain ⟨held, byChannel⟩ := sendSnapshots_maps shared source id
    ((r.enrolled id conn (shared.outcome claims conn.subscriptions channels)).send id
      (.subscribed (shared.outcome claims conn.subscriptions channels).added
        (shared.outcome claims conn.subscriptions channels).rejected)).1
    (shared.outcome claims conn.subscriptions channels).added
  exact ⟨held.trans ((Registry.held_send _ _ _).trans (Registry.held_enrolled _ _ _ _)),
    byChannel.trans (Registry.byChannel_send _ _ _)⟩

/-- A queue with room gets the acknowledgement. -/
theorem acked_handle_subscribe (asks : shared.fromStr text = .ok (.subscribe channels))
    (found : r.connections.lookup id = some conn) (room : conn.tx.accepts = true) :
    r.queueOf id ++ [.subscribed (shared.outcome claims conn.subscriptions channels).added
        (shared.outcome claims conn.subscriptions channels).rejected] <+:
      (handle shared source r text id claims).1.queueOf id := by
  have entry := r.lookup_enrolled id conn (shared.outcome claims conn.subscriptions channels)
  have accepted : (r.enrolled id conn
      (shared.outcome claims conn.subscriptions channels)).accepts id = true := by
    simp [Registry.accepts, entry, room]
  rw [handle_subscribe_eq shared source r claims asks found]
  refine List.IsPrefix.trans ?_ (queueOf_sendSnapshots shared source id _ _)
  rw [Registry.queueOf_send, accepted, if_pos rfl, Registry.queueOf_of_lookup entry,
    Registry.queueOf_of_lookup found]

/-- The acknowledgement built for the request. -/
theorem ack_handling (asks : shared.fromStr text = .ok (.subscribe channels))
    (found : r.connections.lookup id = some conn) :
    ((Handling.start text).step shared id claims source r).2 =
      .ack (shared.outcome claims conn.subscriptions channels).added
        (shared.outcome claims conn.subscriptions channels).rejected := by
  simp only [Handling.step, asks]
  rw [subscribe_allowed shared r claims found, shared.oversized_eq, shared.allowed_eq]
  rfl

/-- Without an entry a request does nothing. -/
theorem handle_subscribe_of_none (asks : shared.fromStr text = .ok (.subscribe channels))
    (absent : r.connections.lookup id = none) :
    handle shared source r text id claims = (r, none) := by
  simp only [handle, asks, Registry.subscribe, absent, Registry.send, sendSnapshots]

end Request

/-- A request in two parts: the second sees what the first added. -/
theorem Shared.outcome_append (shared : Shared σ) (claims : Claims) (held : Finset String)
    (xs ys : List String) :
    (shared.outcome claims held (xs ++ ys)).subscriptions =
      (shared.outcome claims (shared.outcome claims held xs).subscriptions ys).subscriptions ∧
    (shared.outcome claims held (xs ++ ys)).added =
      (shared.outcome claims held xs).added ++
        (shared.outcome claims (shared.outcome claims held xs).subscriptions ys).added := by
  have added : (shared.outcome claims held (xs ++ ys)).added =
      (shared.outcome claims held xs).added ++
        (shared.outcome claims (shared.outcome claims held xs).subscriptions ys).added := by
    simp only [Shared.outcome, List.filter_append, granted_append]
  refine ⟨?_, added⟩
  change held ∪ (shared.outcome claims held (xs ++ ys)).added.toFinset = _
  rw [added, List.toFinset_append, ← Finset.union_assoc]
  rfl

/-- The set of a connection, read off the map without queues. -/
theorem Registry.subscriptionsOf_eq_held {F : Type} (r : Registry F) (id : ConnectionId) :
    r.subscriptionsOf id = ((r.held.lookup id).map Prod.snd).getD ∅ := by
  rw [Registry.held, Finmap.lookup_mapVals, Option.map_map]
  rfl

/-- **What a request comes to.**  For a registered connection the acknowledgement carries exactly
the outcome and is enqueued if there is room, the connection's set grows by what was added and no
other set changes, the index gains the connection exactly under what was added, and no name held
before is over the limit.  A request in two parts leaves both maps as the one request does, its
queues holding one acknowledgement more.  An id that is not registered changes nothing. -/
theorem handle_subscribe_outcome (shared : Shared σ) (source : σ) (r : Registry ServerMessage)
    (id : ConnectionId) (claims : Claims) (text : String) (channels : List String)
    (asks : shared.fromStr text = .ok (.subscribe channels)) :
    (∀ conn, r.connections.lookup id = some conn →
      ∃ o, o = shared.outcome claims conn.subscriptions channels ∧
        handle shared source r text id claims =
          (sendSnapshots shared source id
            ((r.enrolled id conn o).send id (.subscribed o.added o.rejected)).1 o.added, none) ∧
        (conn.tx.accepts = true → r.queueOf id ++ [.subscribed o.added o.rejected] <+:
          (handle shared source r text id claims).1.queueOf id) ∧
        o.added.Nodup ∧
        (handle shared source r text id claims).1.subscriptionsOf =
          Function.update r.subscriptionsOf id (conn.subscriptions ∪ o.added.toFinset) ∧
        (∀ ch, (handle shared source r text id claims).1.byChannel.lookup ch =
          if ch ∈ o.added then some (insert id (r.byChannel.members ch))
          else r.byChannel.lookup ch) ∧
        (∀ ch ∈ conn.subscriptions, ⟨ch, .limit⟩ ∉ o.rejected) ∧
        ∀ xs ys text₁ text₂ source₁ source₂, channels = xs ++ ys →
          shared.fromStr text₁ = .ok (.subscribe xs) →
          shared.fromStr text₂ = .ok (.subscribe ys) →
          ∃ r₁ r₂, r₁ = (handle shared source₁ r text₁ id claims).1 ∧
            r₂ = (handle shared source₂ r₁ text₂ id claims).1 ∧
            (handle shared source r text id claims).1.held = r₂.held ∧
            (handle shared source r text id claims).1.byChannel = r₂.byChannel) ∧
    (r.connections.lookup id = none → handle shared source r text id claims = (r, none)) := by
  refine ⟨fun conn found => ⟨_, rfl, handle_subscribe_eq shared source r claims asks found,
    acked_handle_subscribe shared source r claims asks found, nodup_granted _ _ _, ?_, ?_, ?_, ?_⟩,
    handle_subscribe_of_none shared source r claims asks⟩
  · funext other
    rw [Registry.subscriptionsOf_eq_held,
      (maps_handle_subscribe shared source r claims asks found).1, Finmap.lookup_insert_ite]
    rcases eq_or_ne other id with rfl | elsewhere
    · simp [Shared.outcome]
    · rw [if_neg elsewhere, Function.update_of_ne elsewhere, Registry.subscriptionsOf_eq_held]
  · intro ch
    rw [(maps_handle_subscribe shared source r claims asks found).2, Index.lookup_foldl_link]
  · intro ch held excess
    simp only [Shared.outcome, List.mem_append, List.mem_map, List.mem_filter] at excess
    simp [held] at excess
  · intro xs ys text₁ text₂ source₁ source₂ split first second
    refine ⟨_, _, rfl, rfl, ?_⟩
    obtain ⟨held, byChannel⟩ := maps_handle_subscribe shared source r claims asks found
    obtain ⟨held₁, byChannel₁⟩ := maps_handle_subscribe shared source₁ r claims first found
    -- the entry the second part finds
    obtain ⟨conn₁, found₁, same⟩ : ∃ conn₁,
        (handle shared source₁ r text₁ id claims).1.connections.lookup id = some conn₁ ∧
        (conn₁.subject, conn₁.subscriptions) =
          (conn.subject, (shared.outcome claims conn.subscriptions xs).subscriptions) := by
      have entry := congrArg (Finmap.lookup id) held₁
      rw [Registry.held, Finmap.lookup_mapVals, Finmap.lookup_insert] at entry
      exact Option.map_eq_some_iff.mp entry
    obtain ⟨subject, subscriptions⟩ := Prod.mk.inj same
    obtain ⟨held₂, byChannel₂⟩ := maps_handle_subscribe shared source₂
      (handle shared source₁ r text₁ id claims).1 claims second found₁
    obtain ⟨union, added⟩ := shared.outcome_append claims conn.subscriptions xs ys
    rw [held, held₂, held₁, byChannel, byChannel₂, byChannel₁, split, subject, subscriptions, union,
      added, Finmap.insert_insert, List.foldl_append]
    exact ⟨rfl, rfl⟩

/-! ### A small server with little room

Its clients may hold two channels of at most four bytes, and nobody may have `shut`.  The texts are
requests with names of every kind: new, too long, not authorised and over the limit, some of them
twice, for a client that holds `x`. -/

/-- A client asks for what it holds and for more than it may have. -/
def mixedText : String :=
  "\x7b\"type\":\"subscribe\",\"channels\":" ++
    "[\"x\",\"oversized\",\"y\",\"shut\",\"y\",\"z\",\"shut\",\"z\"]\x7d"

/-- The first half of that request. -/
def firstText : String :=
  "\x7b\"type\":\"subscribe\",\"channels\":[\"x\",\"oversized\",\"y\",\"shut\"]\x7d"

/-- Its second half. -/
def secondText : String :=
  "\x7b\"type\":\"subscribe\",\"channels\":[\"y\",\"z\",\"shut\",\"z\"]\x7d"

/-- A client asks for new channels only. -/
def freshText : String :=
  "\x7b\"type\":\"subscribe\",\"channels\":[\"y\",\"oversized\",\"y\",\"shut\",\"z\"]\x7d"

def strict : Shared LastValue :=
  { demo with
    config := { maxSubscriptions := 2, maxChannelLen := 4, sendQueue := 4 }
    fromStr text :=
      if text = mixedText then
        .ok (.subscribe ["x", "oversized", "y", "shut", "y", "z", "shut", "z"])
      else if text = firstText then .ok (.subscribe ["x", "oversized", "y", "shut"])
      else if text = secondText then .ok (.subscribe ["y", "z", "shut", "z"])
      else if text = freshText then .ok (.subscribe ["y", "oversized", "y", "shut", "z"])
      else demo.fromStr text
    maySubscribe _ ch := ch ≠ "shut" }

/-- Its one client holds `x`. -/
def holding : Registry ServerMessage :=
  Registry.new.run [.add "alice" 4, .subscribe ⟨1⟩ ["x"] 2]

/-- The entry of that client. -/
def holder : Connection ServerMessage where
  subject := "alice"
  subscriptions := {"x"}
  tx := BoundedQueue.new 4
  dropped := 0

/-- A request with a held name, duplicates and every reason to reject one, whole and in halves. -/
theorem handle_subscribe_outcome_mixed :
    ∃ o : Outcome, o.added = ["y"] ∧
      o.rejected =
        [⟨"oversized", .invalid⟩, ⟨"shut", .unauthorized⟩, ⟨"shut", .unauthorized⟩, ⟨"z", .limit⟩,
          ⟨"z", .limit⟩] ∧
      handle strict LastValue.new holding mixedText ⟨1⟩ (Claims.new "alice") =
        (sendSnapshots strict LastValue.new ⟨1⟩
          ((holding.enrolled ⟨1⟩ holder o).send ⟨1⟩ (.subscribed o.added o.rejected)).1 o.added,
          none) ∧
      [.subscribed o.added o.rejected] <+:
        (handle strict LastValue.new holding mixedText ⟨1⟩ (Claims.new "alice")).1.queueOf ⟨1⟩ ∧
      (handle strict LastValue.new holding mixedText ⟨1⟩ (Claims.new "alice")).1.subscriptionsOf
        ⟨1⟩ = {"x", "y"} ∧
      (handle strict LastValue.new holding mixedText ⟨1⟩ (Claims.new "alice")).1.held =
        (handle strict LastValue.new
          (handle strict LastValue.new holding firstText ⟨1⟩ (Claims.new "alice")).1 secondText ⟨1⟩
          (Claims.new "alice")).1.held := by
  have asks : strict.fromStr mixedText =
      .ok (.subscribe ["x", "oversized", "y", "shut", "y", "z", "shut", "z"]) := by rfl
  have found : holding.connections.lookup ⟨1⟩ = some holder := by rfl
  obtain ⟨o, same, handled, acked, -, subs, -, -, halves⟩ := (handle_subscribe_outcome strict
    LastValue.new holding ⟨1⟩ (Claims.new "alice") mixedText _ asks).1 holder found
  obtain ⟨r₁, r₂, first, second, held, -⟩ := halves ["x", "oversized", "y", "shut"]
    ["y", "z", "shut", "z"] firstText secondText LastValue.new LastValue.new rfl (by rfl) (by rfl)
  refine ⟨o, by rw [same]; decide, by rw [same]; decide, handled, acked rfl, ?_, ?_⟩
  · rw [subs, Function.update_self, same]
    decide
  · rw [held, second, first]

/-! ## What the acknowledgement tells -/

/-- The acknowledgement of a request for `channels` tells the client what is active: its channels
are the requested ones in the set afterwards and its rejections the others, each named once. -/
def AckTells (shared : Shared σ) (source : σ) (r : Registry ServerMessage) (id : ConnectionId)
    (claims : Claims) (text : String) (channels : List String) : Prop :=
  ∃ added rejected,
    ((Handling.start text).step shared id claims source r).2 = .ack added rejected ∧
    added.Nodup ∧
    (∀ ch, ch ∈ added ↔
      ch ∈ channels ∧ ch ∈ (handle shared source r text id claims).1.subscriptionsOf id) ∧
    (rejected.map Rejected.channel).Nodup ∧
    ∀ ch, ch ∈ rejected.map Rejected.channel ↔
      ch ∈ channels ∧ ch ∉ (handle shared source r text id claims).1.subscriptionsOf id

theorem count_filter_ite {α : Type} [DecidableEq α] (p : α → Bool) (l : List α) (a : α) :
    (l.filter p).count a = if p a then l.count a else 0 := by
  by_cases kept : p a = true
  · rw [if_pos kept, List.count_filter kept]
  · rw [if_neg kept, List.count_eq_zero]
    intro mem
    exact kept (List.mem_filter.mp mem).2

namespace Shared

variable (shared : Shared σ) (claims : Claims) (held : Finset String) (channels : List String)

/-- Every occurrence is rejected that is not permitted or not in the set afterwards. -/
theorem count_rejected (ch : String) :
    ((shared.outcome claims held channels).rejected.map Rejected.channel).count ch =
      if shared.permits claims ch = true ∧
          ch ∈ (shared.outcome claims held channels).subscriptions then 0
      else channels.count ch := by
  have names : ∀ (l : List String) (reason : Reason),
      (l.map fun c => (⟨c, reason⟩ : Rejected)).map Rejected.channel = l := by
    intro l reason
    rw [List.map_map]
    exact List.map_id l
  simp only [outcome, List.map_append, names, List.count_append,
    count_filter_ite, permits, Bool.and_eq_true, decide_eq_true_eq]
  by_cases fits : ch.utf8ByteSize ≤ shared.config.maxChannelLen
  · cases shared.maySubscribe claims ch with
    | false => simp [fits, Nat.not_lt.mpr fits]
    | true =>
        by_cases active : ch ∈ held ∪ (granted shared.config.maxSubscriptions held
            (channels.filter (shared.permits claims))).toFinset
        · simp [fits, Nat.not_lt.mpr fits, active]
        · simp [fits, Nat.not_lt.mpr fits, active]
  · simp [fits, Nat.lt_of_not_le fits]

/-- What is added was asked for, is permitted and was not held. -/
theorem mem_added {ch : String} (mem : ch ∈ (shared.outcome claims held channels).added) :
    ch ∈ channels ∧ shared.permits claims ch = true ∧ ch ∉ held := by
  obtain ⟨asked, fresh, -⟩ := mem_granted.mp mem
  obtain ⟨requested, permitted⟩ := List.mem_filter.mp asked
  exact ⟨requested, permitted, fresh⟩

/-- When nothing requested is held, a permitted name is added if few enough come before it. -/
theorem mem_added_iff (fresh : ∀ ch ∈ channels, ch ∉ held) {ch : String} :
    ch ∈ (shared.outcome claims held channels).added ↔
      ch ∈ channels ∧ shared.permits claims ch = true ∧
        held.card +
          ((channels.filter (shared.permits claims)).takeWhile (· ≠ ch)).toFinset.card <
            shared.config.maxSubscriptions := by
  have all : ((channels.filter (shared.permits claims)).takeWhile (· ≠ ch)).filter (· ∉ held) =
      (channels.filter (shared.permits claims)).takeWhile (· ≠ ch) := by
    refine List.filter_eq_self.mpr fun c before => ?_
    have asked := List.mem_filter.mp (List.takeWhile_subset _ before)
    simpa using fresh c asked.1
  change ch ∈ granted _ _ _ ↔ _
  rw [mem_granted, all, List.mem_filter]
  constructor
  · intro isAdded
    obtain ⟨⟨asked, permitted⟩, -, few⟩ := isAdded
    exact ⟨asked, permitted, few⟩
  · intro isAdded
    obtain ⟨asked, permitted, few⟩ := isAdded
    exact ⟨⟨asked, permitted⟩, fresh ch asked, few⟩

end Shared

/-- **When the acknowledgement tells what is active.**  In every state and for every registered
connection: exactly when no requested channel is held already, and each name that the request
repeats is permitted and comes after fewer distinct permitted names than there is room for. -/
theorem ack_tells_iff (shared : Shared σ) (source : σ) (r : Registry ServerMessage)
    (id : ConnectionId) (claims : Claims) (text : String) (channels : List String)
    (asks : shared.fromStr text = .ok (.subscribe channels)) (conn : Connection ServerMessage)
    (found : r.connections.lookup id = some conn) :
    AckTells shared source r id claims text channels ↔
      (∀ ch ∈ channels, ch ∉ conn.subscriptions) ∧
      ∀ ch, 1 < channels.count ch →
        shared.permits claims ch = true ∧
        conn.subscriptions.card +
          ((channels.filter (shared.permits claims)).takeWhile (· ≠ ch)).toFinset.card <
            shared.config.maxSubscriptions := by
  obtain ⟨o, outcome⟩ : ∃ o, o = shared.outcome claims conn.subscriptions channels := ⟨_, rfl⟩
  have built := ack_handling shared source r claims asks found
  rw [← outcome] at built
  have after : (handle shared source r text id claims).1.subscriptionsOf id = o.subscriptions := by
    rw [Registry.subscriptionsOf_eq_held,
      (maps_handle_subscribe shared source r claims asks found).1, Finmap.lookup_insert, outcome]
    rfl
  have active : ∀ ch, ch ∈ o.subscriptions ↔ ch ∈ conn.subscriptions ∨ ch ∈ o.added := by
    intro ch
    rw [outcome]
    simp [Shared.outcome]
  have counted := shared.count_rejected claims conn.subscriptions channels
  have isAdded := @Shared.mem_added _ shared claims conn.subscriptions channels
  have addedIff := @Shared.mem_added_iff _ shared claims conn.subscriptions channels
  have once : o.added.Nodup := outcome ▸ nodup_granted _ _ _
  rw [← outcome] at counted isAdded addedIff
  simp only [AckTells, built, after, Handling.ack.injEq]
  constructor
  · intro tells
    obtain ⟨_, _, ⟨rfl, rfl⟩, -, listed, distinct, -⟩ := tells
    have fresh : ∀ ch ∈ channels, ch ∉ conn.subscriptions := by
      intro ch asked held
      exact (isAdded ((listed ch).mpr ⟨asked, (active ch).mpr (.inl held)⟩)).2.2 held
    refine ⟨fresh, fun ch repeated => ?_⟩
    by_contra refused
    have few := List.nodup_iff_count_le_one.mp distinct ch
    rw [counted, if_neg] at few
    · omega
    · intro both
      rcases (active ch).mp both.2 with held | new
      · exact fresh ch (List.count_pos_iff.mp (by omega)) held
      · exact refused ((addedIff fresh).mp new).2
  · intro condition
    obtain ⟨fresh, granting⟩ := condition
    refine ⟨_, _, ⟨rfl, rfl⟩, once, fun ch => ?_, ?_, fun ch => ?_⟩
    · rw [active]
      constructor
      · intro new
        exact ⟨(isAdded new).1, .inr new⟩
      · intro both
        exact both.2.resolve_left (fresh ch both.1)
    · refine List.nodup_iff_count_le_one.mpr fun ch => ?_
      rw [counted]
      split
      · exact Nat.zero_le 1
      · next refused =>
          by_contra many
          have repeated : 1 < channels.count ch := by omega
          have asked : ch ∈ channels := List.count_pos_iff.mp (by omega)
          have new := (addedIff fresh).mpr ⟨asked, granting ch repeated⟩
          exact refused ⟨(isAdded new).2.1, (active ch).mpr (.inr new)⟩
    · rw [← List.count_pos_iff, counted]
      by_cases both : shared.permits claims ch = true ∧ ch ∈ o.subscriptions
      · rw [if_pos both]
        simp [both.2]
      · rw [if_neg both, List.count_pos_iff]
        refine ⟨fun asked => ⟨asked, fun here => ?_⟩, And.left⟩
        rcases (active ch).mp here with held | new
        · exact fresh ch asked held
        · exact both ⟨(isAdded new).2.1, here⟩

/-- A request for new channels only, one of them twice and one of each kind that is rejected, is
told in full.  One that also asks for the held channel, and twice for what is rejected, is not. -/
theorem ack_tells_iff_strict :
    AckTells strict LastValue.new holding ⟨1⟩ (Claims.new "alice") freshText
      ["y", "oversized", "y", "shut", "z"] ∧
    ¬ AckTells strict LastValue.new holding ⟨1⟩ (Claims.new "alice") mixedText
      ["x", "oversized", "y", "shut", "y", "z", "shut", "z"] := by
  have found : holding.connections.lookup ⟨1⟩ = some holder := by rfl
  constructor
  · refine (ack_tells_iff strict LastValue.new holding ⟨1⟩ (Claims.new "alice") freshText _
      (by rfl) holder found).mpr ⟨by decide, fun ch repeated => ?_⟩
    have room : ∀ ch ∈ ["y", "oversized", "y", "shut", "z"],
        1 < ["y", "oversized", "y", "shut", "z"].count ch →
        strict.permits (Claims.new "alice") ch = true ∧
        holder.subscriptions.card +
          ((["y", "oversized", "y", "shut", "z"].filter
            (strict.permits (Claims.new "alice"))).takeWhile (· ≠ ch)).toFinset.card <
            strict.config.maxSubscriptions := by decide
    exact room ch (List.count_pos_iff.mp (by omega)) repeated
  · intro tells
    have fresh := ((ack_tells_iff strict LastValue.new holding ⟨1⟩ (Claims.new "alice") mixedText _
      (by rfl) holder found).mp tells).1
    exact absurd (fresh "x" List.mem_cons_self) (by decide)

/-- A client of the small server asks again for the channel it holds: the acknowledgement names
nothing. -/
theorem ack_tells_iff_again :
    demo.fromStr subscribeText = .ok (.subscribe ["x"]) ∧
    ¬ AckTells demo LastValue.new
      (Registry.new.run [.add "alice" 4, .subscribe ⟨1⟩ ["x"] 256]) ⟨1⟩ (Claims.new "alice")
      subscribeText ["x"] := by
  refine ⟨by rfl, ?_⟩
  intro tells
  obtain ⟨added, rejected, built, -, listed, -⟩ := tells
  have nothing : ((Handling.start subscribeText).step demo ⟨1⟩ (Claims.new "alice") LastValue.new
      (Registry.new.run [.add "alice" 4, .subscribe ⟨1⟩ ["x"] 256])).2 = .ack [] [] := by decide
  rw [nothing] at built
  obtain ⟨rfl, -⟩ := Handling.ack.inj built
  have missing := (listed "x").mpr ⟨by decide, by decide⟩
  cases missing

end WsFanout
