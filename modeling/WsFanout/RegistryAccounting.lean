import Mathlib.Algebra.BigOperators.Ring.Finset
import WsFanout.RegistryDelivery

/-!
# What the counters count

The counters of `Metrics` and the streak of each connection, compared with what a run did.  `total`
adds up over a run what each operation did in the state it met; the counters are `AtomicU64`, so
they hold these numbers modulo `2 ^ 64`.  `Registry.queued_step` is the conservation of frames: what
a delivery adds to the queues is taken by a receiver, still queued, or discarded with its receiver.
-/

namespace WsFanout

open Lib

variable {F : Type}

namespace Metrics

/-- The counters after `sent` more frames were taken and `dropped` more dropped. -/
def count (m : Metrics) (sent dropped : Nat) : Metrics :=
  { m with
    framesSent := m.framesSent + UInt64.ofNat sent
    framesDropped := m.framesDropped + UInt64.ofNat dropped }

theorem count_zero (m : Metrics) : m.count 0 0 = m := by
  simp [count]

theorem count_count (m : Metrics) (sent dropped sent' dropped' : Nat) :
    (m.count sent dropped).count sent' dropped' = m.count (sent + sent') (dropped + dropped') := by
  simp [count, UInt64.ofNat_add, UInt64.add_assoc]

/-- One attempt counts as sent, as dropped, or on a closed queue as neither. -/
theorem tally_trySend (m : Metrics) (tx : BoundedQueue F) (frame : F) :
    m.tally (tx.trySend frame).2 =
      m.count (if tx.accepts then 1 else 0) (if tx.isFull then 1 else 0) := by
  rw [BoundedQueue.trySend_snd]
  unfold BoundedQueue.accepts BoundedQueue.isFull
  cases tx.isOpen with
  | false => simp [tally, count]
  | true =>
      by_cases room : tx.buffer.length < tx.capacity
      · simp [tally, count, room, Nat.not_le.mpr room]
      · simp [tally, count, room, Nat.not_lt.mp room]

end Metrics

namespace Registry

/-- The sum, over a run, of what each operation does in the state it meets. -/
def total (f : Registry F → Op F → Nat) : Registry F → List (Op F) → Nat
  | _, [] => 0
  | r, op :: ops => f r op + total f (r.step op).1 ops

/-- The number of queues an operation put its frame on, as its caller learns it. -/
def returned (r : Registry F) (op : Op F) : Nat :=
  (r.step op).2.accepted?.getD 0

/-- The frames a receiver takes by the operation: one or none. -/
def taken (r : Registry F) (op : Op F) : Nat :=
  match (r.step op).2 with
  | .taken (.frame _) => 1
  | _ => 0

/-- The frames discarded because their receiver is dropped or their entry removed. -/
def discarded (r : Registry F) : Op F → Nat
  | .close id => (r.queueOf id).length
  | .remove id => (r.queueOf id).length
  | _ => 0

/-- The attempts of an operation that meet a full queue whose receiver is there. -/
def metFull (r : Registry F) (op : Op F) : Nat :=
  (r.connections.keys.filter fun id => r.dropsFor id op).card

/-- The frames waiting on all queues. -/
def queued (r : Registry F) : Nat :=
  ∑ id ∈ r.connections.keys, (r.queueOf id).length

theorem total_append (f : Registry F → Op F → Nat) (r : Registry F) (ops : List (Op F))
    (op : Op F) : total f r (ops ++ [op]) = total f r ops + f (r.run ops) op := by
  induction ops generalizing r with
  | nil => simp [total]
  | cons first ops ih =>
      rw [List.cons_append, total, total, ih, run_cons, Nat.add_assoc]

/-! ## The frames -/

theorem queueOf_of_notMem {r : Registry F} {id : ConnectionId}
    (absent : id ∉ r.connections.keys) : r.queueOf id = [] := by
  have none : r.connections.lookup id = none :=
    Finmap.lookup_eq_none.mpr (mt Finmap.mem_keys.mpr absent)
  simp [queueOf, none]

/-- The sum may run over any set that covers the registered ids. -/
theorem queued_eq_sum {r : Registry F} {ids : Finset ConnectionId}
    (covers : r.connections.keys ⊆ ids) : r.queued = ∑ id ∈ ids, (r.queueOf id).length := by
  refine Finset.sum_subset covers fun id _ absent => ?_
  rw [queueOf_of_notMem absent, List.length_nil]

/-- Where one queue changes, the sum changes by as much. -/
theorem queued_of_others (r r' : Registry F) (id : ConnectionId)
    (others : ∀ other, other ≠ id → r'.queueOf other = r.queueOf other) :
    r'.queued + (r.queueOf id).length = r.queued + (r'.queueOf id).length := by
  have covers : r.connections.keys ⊆ insert id (r.connections.keys ∪ r'.connections.keys) :=
    fun other listed => by simp [listed]
  have covers' : r'.connections.keys ⊆ insert id (r.connections.keys ∪ r'.connections.keys) :=
    fun other listed => by simp [listed]
  have here : id ∈ insert id (r.connections.keys ∪ r'.connections.keys) :=
    Finset.mem_insert_self _ _
  have before := Finset.add_sum_erase _ (fun other => (r.queueOf other).length) here
  have after := Finset.add_sum_erase _ (fun other => (r'.queueOf other).length) here
  have same : ∑ other ∈ (insert id (r.connections.keys ∪ r'.connections.keys)).erase id,
      (r'.queueOf other).length =
      ∑ other ∈ (insert id (r.connections.keys ∪ r'.connections.keys)).erase id,
        (r.queueOf other).length :=
    Finset.sum_congr rfl fun other listed => by rw [others other (Finset.ne_of_mem_erase listed)]
  rw [queued_eq_sum covers, queued_eq_sum covers']
  omega

/-- A fan-out adds to the queues what it counts. -/
theorem queued_fanOut (r : Registry F) (frame : F) (ids : Finset ConnectionId) :
    (r.fanOut frame ids).1.queued = r.queued + (r.fanOut frame ids).2 := by
  obtain ⟨lookups, -, -, count⟩ := fanOut_spec r frame ids
  have keys : (r.fanOut frame ids).1.connections.keys = r.connections.keys := by
    ext id
    rw [Finmap.mem_keys_iff, Finmap.mem_keys_iff, lookups]
    split <;> simp
  have grown : ∀ id, ((r.fanOut frame ids).1.queueOf id).length =
      (r.queueOf id).length + if id ∈ ids ∧ r.accepts id = true then 1 else 0 := by
    intro id
    have after := lookups id
    cases found : r.connections.lookup id with
    | none =>
        have refused : r.accepts id = false := by simp [accepts, found]
        rw [found] at after
        simp [queueOf, after, found, refused]
    | some conn =>
        have room : r.accepts id = conn.tx.accepts := by simp [accepts, found]
        rw [found] at after
        by_cases visited : id ∈ ids
        · rw [if_pos visited, Option.map_some] at after
          rw [queueOf_of_lookup after, queueOf_of_lookup found, buffer_offer, room]
          cases conn.tx.accepts <;> simp [visited]
        · rw [if_neg visited] at after
          rw [queueOf_of_lookup after, queueOf_of_lookup found]
          simp [visited]
  have registered : r.connections.keys.filter (fun id => id ∈ ids ∧ r.accepts id = true) =
      ids.filter fun id => r.accepts id := by
    ext id
    simp only [Finset.mem_filter, Finmap.mem_keys_iff]
    constructor
    · exact fun both => both.2
    · rintro ⟨visited, room⟩
      refine ⟨?_, visited, room⟩
      unfold accepts at room
      cases found : r.connections.lookup id with
      | none => simp [found] at room
      | some conn => exact ⟨conn, rfl⟩
  rw [queued, queued, keys, count, ← registered, Finset.card_filter, ← Finset.sum_add_distrib]
  exact Finset.sum_congr rfl fun id _ => grown id

/-- The connections a delivering operation visits. -/
def targets (r : Registry F) : Op F → Finset ConnectionId
  | .publish channel _ => r.byChannel.members channel
  | .broadcast _ => r.connections.keys
  | .send id _ => {id}
  | _ => ∅

/-- The three delivering operations are one fan-out over their targets. -/
theorem step_eq_fanOut (r : Registry F) {op : Op F} {frame : F}
    (carries : op.frame? = some frame) :
    (r.step op).1 = (r.fanOut frame (r.targets op)).1 ∧
      r.returned op = (r.fanOut frame (r.targets op)).2 := by
  cases op with
  | publish channel f =>
      cases carries
      have same := publish_eq r channel frame
      exact ⟨congrArg Prod.fst same, congrArg Prod.snd same⟩
  | broadcast f =>
      cases carries
      exact ⟨rfl, rfl⟩
  | send i f =>
      cases carries
      obtain ⟨left, ok⟩ := send_eq r i frame
      refine ⟨left, ?_⟩
      rw [targets, (fanOut_spec r frame {i}).2.2.2, Finset.filter_singleton]
      simp only [returned, Registry.step, ok, Reply.accepted?]
      cases r.accepts i <;> rfl
  | add _ _ | remove _ | subscribe _ _ _ | unsubscribe _ _ | recv _ | close _ => cases carries

/-- **Conservation of frames.**  What an operation puts on the queues is what they gain, less what
a receiver takes and what is discarded with a receiver.  An `add` discards nothing while its id is
not in use. -/
theorem queued_step (r : Registry F) (op : Op F)
    (fresh : op.isAdd = true → r.connections.lookup ⟨r.nextId⟩ = none) :
    (r.step op).1.queued + r.taken op + r.discarded op = r.queued + r.returned op := by
  have delivered : ∀ {frame : F}, op.frame? = some frame → r.taken op = 0 → r.discarded op = 0 →
      (r.step op).1.queued + r.taken op + r.discarded op = r.queued + r.returned op := by
    intro frame carries none kept
    obtain ⟨left, count⟩ := step_eq_fanOut r carries
    rw [none, kept, left, count, queued_fanOut, Nat.add_zero]
  cases op with
  | publish channel frame | broadcast frame | send i frame => exact delivered rfl rfl rfl
  | add subject sendQueue =>
      have balance := queued_of_others r (r.add subject sendQueue).1 ⟨r.nextId⟩
        fun other mine => by simp only [queueOf, lookup_add, if_neg mine]
      have before : r.queueOf ⟨r.nextId⟩ = [] := by simp [queueOf, fresh rfl]
      have after : (r.add subject sendQueue).1.queueOf ⟨r.nextId⟩ = [] := by
        simp [queueOf, lookup_add]
      rw [before, after] at balance
      exact balance
  | remove i =>
      have balance := queued_of_others r (r.remove i) i
        fun other mine => by simp only [queueOf, lookup_remove, if_neg mine]
      have after : (r.remove i).queueOf i = [] := by simp [queueOf, lookup_remove]
      rw [after] at balance
      exact balance
  | subscribe i channels max =>
      have balance := queued_of_others r ((r.subscribe i channels max).1) i
        fun other mine => by simp only [queueOf, lookup_subscribe, if_neg mine]
      have after : (r.subscribe i channels max).1.queueOf i = r.queueOf i := by
        simp [queueOf, lookup_subscribe, Function.comp_def]
      rw [after] at balance
      exact Nat.add_right_cancel balance
  | unsubscribe i channels =>
      have balance := queued_of_others r ((r.unsubscribe i channels).1) i
        fun other mine => by simp only [queueOf, lookup_unsubscribe, if_neg mine]
      have after : (r.unsubscribe i channels).1.queueOf i = r.queueOf i := by
        simp [queueOf, lookup_unsubscribe, Function.comp_def]
      rw [after] at balance
      exact Nat.add_right_cancel balance
  | recv i =>
      obtain ⟨lookups, -, -, outcome⟩ := recv_spec r i
      have balance := queued_of_others r ((r.recv i).1) i
        fun other mine => by simp only [queueOf, lookups, if_neg mine]
      have lengths : (r.queueOf i).length = ((r.recv i).1.queueOf i).length +
          r.taken (.recv i) := by
        simp only [taken, Registry.step, outcome]
        cases found : r.connections.lookup i with
        | none => simp [queueOf, lookups, found]
        | some conn =>
            cases held : conn.tx.buffer <;>
              simp [queueOf, lookups, found, BoundedQueue.recv, held]
      have quiet : r.returned (.recv i) = 0 := rfl
      have kept : r.discarded (.recv i) = 0 := rfl
      rw [quiet, kept]
      change (r.recv i).1.queued + _ + 0 = _
      omega
  | close i =>
      have balance := queued_of_others r (r.close i) i
        fun other mine => by simp only [queueOf, lookup_close, if_neg mine]
      have after : (r.close i).queueOf i = [] := by
        cases found : r.connections.lookup i <;>
          simp [queueOf, lookup_close, found, BoundedQueue.close]
      rw [after] at balance
      exact balance

/-! ## The counters -/

/-- The queue of `id` is full and its receiver is there. -/
def blocked (r : Registry F) (id : ConnectionId) : Bool :=
  (r.connections.lookup id).any fun conn => conn.tx.isFull

/-- A fan-out counts a frame sent for each queue that takes it and one dropped for each queue it
meets full. -/
theorem metrics_fanOut (r : Registry F) (frame : F) (ids : Finset ConnectionId) :
    (r.fanOut frame ids).1.metrics =
      r.metrics.count (ids.filter fun id => r.accepts id).card
        (ids.filter fun id => r.blocked id).card := by
  have both : (∀ id ∉ ids, (r.fanOut frame ids).1.connections.lookup id =
        r.connections.lookup id) ∧
      (r.fanOut frame ids).1.metrics = r.metrics.count (ids.filter fun id => r.accepts id).card
        (ids.filter fun id => r.blocked id).card := by
    refine ids.foldl_induction (deliverTo frame)
      (P := fun done acc =>
        (∀ id ∉ done, acc.1.connections.lookup id = r.connections.lookup id) ∧
        acc.1.metrics = r.metrics.count (done.filter fun id => r.accepts id).card
          (done.filter fun id => r.blocked id).card) (r, 0)
      ⟨fun _ _ => rfl, (Metrics.count_zero _).symm⟩ ?_
    intro done acc a fresh ⟨lookups, metrics⟩
    have counted : ∀ p : ConnectionId → Bool, ((insert a done).filter fun id => p id).card =
        (done.filter fun id => p id).card + if p a then 1 else 0 := by
      intro p
      rw [Finset.filter_insert]
      cases p a with
      | false => rfl
      | true => simp [fresh]
    rw [counted, counted, ← Metrics.count_count, ← metrics]
    have here := lookups a fresh
    cases found : r.connections.lookup a with
    | none =>
        rw [deliverTo_of_none (here.trans found)]
        refine ⟨fun id outside => lookups id fun old => outside (Finset.mem_insert_of_mem old), ?_⟩
        simp [accepts, blocked, found, Metrics.count_zero]
    | some conn =>
        rw [deliverTo_of_some (here.trans found)]
        refine ⟨fun id outside => ?_, ?_⟩
        · obtain ⟨other, old⟩ := not_or.mp fun hit => outside (Finset.mem_insert.mpr hit)
          rw [Finmap.lookup_insert_of_ne _ other]
          exact lookups id old
        · simp only [Metrics.tally_trySend, accepts, blocked, found, Option.any_some]
  exact both.2

/-- Only registered connections count. -/
theorem metFull_eq (r : Registry F) {op : Op F} {frame : F} (carries : op.frame? = some frame) :
    r.metFull op = ((r.targets op).filter fun id => r.blocked id).card := by
  have registered : ∀ {id}, r.blocked id = true → id ∈ r.connections.keys := by
    intro id full
    unfold blocked at full
    cases found : r.connections.lookup id with
    | none => simp [found] at full
    | some conn => exact Finmap.mem_keys_iff.mpr ⟨conn, found⟩
  unfold metFull
  congr 1
  ext id
  simp only [Finset.mem_filter, dropsFor, Bool.and_eq_true]
  change _ ∧ _ ∧ r.blocked id = true ↔ _
  cases op with
  | publish channel f =>
      simp only [reaches, decide_eq_true_eq, targets]
      exact ⟨fun all => all.2, fun both => ⟨registered both.2, both⟩⟩
  | broadcast f =>
      simp only [reaches, targets]
      exact ⟨fun all => ⟨all.1, all.2.2⟩, fun both => ⟨both.1, trivial, both.2⟩⟩
  | send i f =>
      simp only [reaches, decide_eq_true_eq, targets, Finset.mem_singleton]
      exact ⟨fun all => all.2, fun both => ⟨registered both.2, both⟩⟩
  | add _ _ | remove _ | subscribe _ _ _ | unsubscribe _ _ | recv _ | close _ => cases carries

/-- Requests and the receiver's actions count nothing. -/
theorem metrics_step_quiet (r : Registry F) {op : Op F} (silent : op.frame? = none)
    (notAdd : op.isAdd = false) (notRemove : ∀ id, op ≠ .remove id) :
    (r.step op).1.metrics = r.metrics := by
  cases op with
  | publish _ _ | broadcast _ | send _ _ => cases silent
  | add _ _ => cases notAdd
  | remove i => exact absurd rfl (notRemove i)
  | subscribe i channels max =>
      change (r.subscribe i channels max).1.metrics = _
      unfold subscribe
      cases r.connections.lookup i <;> rfl
  | unsubscribe i channels =>
      change (r.unsubscribe i channels).1.metrics = _
      unfold unsubscribe
      cases r.connections.lookup i <;> rfl
  | recv i =>
      change (r.recv i).1.metrics = _
      unfold recv
      cases r.connections.lookup i with
      | none => rfl
      | some conn =>
          cases result : conn.tx.recv with
          | mk tx frame => cases frame <;> simp [result]
  | close i =>
      change (r.close i).metrics = _
      unfold close
      cases r.connections.lookup i <;> rfl

/-- What one operation does to the counters of frames and of registrations. -/
theorem metrics_step (r : Registry F) (op : Op F) :
    (r.step op).1.metrics.framesSent = r.metrics.framesSent + UInt64.ofNat (r.returned op) ∧
    (r.step op).1.metrics.framesDropped = r.metrics.framesDropped + UInt64.ofNat (r.metFull op) ∧
    (r.step op).1.metrics.connectionsTotal =
      r.metrics.connectionsTotal + UInt64.ofNat ([op].countP Op.isAdd) := by
  have delivered : ∀ {frame : F}, op.frame? = some frame →
      (r.step op).1.metrics = r.metrics.count (r.returned op) (r.metFull op) := by
    intro frame carries
    obtain ⟨left, count⟩ := step_eq_fanOut r carries
    rw [left, count, metrics_fanOut, metFull_eq r carries, (fanOut_spec r frame _).2.2.2]
  have silent : (∀ id, r.dropsFor id op = false) → r.metFull op = 0 := by
    intro none
    simp [metFull, none]
  cases op with
  | publish channel frame | broadcast frame | send i frame =>
      rw [delivered rfl]
      exact ⟨rfl, rfl, by simp [Metrics.count, Op.isAdd]⟩
  | add subject sendQueue =>
      rw [silent fun id => rfl]
      exact ⟨by simp [returned, Registry.step, Registry.add, Reply.accepted?],
        by simp [Registry.step, Registry.add], by simp [Registry.step, Registry.add, Op.isAdd]⟩
  | remove i =>
      have kept : (r.remove i).metrics.framesSent = r.metrics.framesSent ∧
          (r.remove i).metrics.framesDropped = r.metrics.framesDropped ∧
          (r.remove i).metrics.connectionsTotal = r.metrics.connectionsTotal := by
        unfold remove
        cases r.connections.lookup i <;> exact ⟨rfl, rfl, rfl⟩
      rw [silent fun id => rfl]
      simpa [returned, Registry.step, Reply.accepted?, Op.isAdd] using kept
  | subscribe i channels max | unsubscribe i channels | recv i | close i =>
      rw [metrics_step_quiet r rfl rfl (by simp), silent fun id => rfl]
      simp [returned, Registry.step, Reply.accepted?, Op.isAdd]

/-! ## The connections -/

/-- The registered ids change only by the `add` that issues one and by the `remove` of one. -/
theorem keys_step (r : Registry F) (op : Op F) :
    (r.step op).1.connections.keys =
      match op with
      | .add _ _ => insert ⟨r.nextId⟩ r.connections.keys
      | .remove id => r.connections.keys.erase id
      | _ => r.connections.keys := by
  have mapped : ∀ {r' : Registry F} {p : ConnectionId → Prop} [DecidablePred p]
      {f : ConnectionId → Connection F → Connection F},
      (∀ id, r'.connections.lookup id =
        if p id then (r.connections.lookup id).map (f id) else r.connections.lookup id) →
      r'.connections.keys = r.connections.keys := by
    intro r' p _ f lookups
    ext id
    rw [Finmap.mem_keys_iff, Finmap.mem_keys_iff, lookups]
    split <;> simp
  have mappedAt : ∀ {r' : Registry F} {i : ConnectionId} {f : Connection F → Connection F},
      (∀ id, r'.connections.lookup id =
        if id = i then (r.connections.lookup i).map f else r.connections.lookup id) →
      r'.connections.keys = r.connections.keys := by
    intro r' i f lookups
    refine mapped (p := (· = i)) (f := fun _ => f) fun id => ?_
    rw [lookups]
    split
    · next mine => rw [mine]
    · rfl
  cases op with
  | publish _ _ | broadcast _ | send _ _ =>
      exact mapped fun id => (deliver_spec r _ rfl id).1
  | add subject sendQueue =>
      ext id
      change id ∈ (r.connections.insert ⟨r.nextId⟩ _).keys ↔ _
      rw [Finmap.mem_keys, Finmap.mem_insert, Finset.mem_insert, Finmap.mem_keys]
  | remove i =>
      ext id
      change id ∈ (r.remove i).connections.keys ↔ _
      rw [Finmap.mem_keys_iff, lookup_remove, Finset.mem_erase, Finmap.mem_keys_iff]
      split
      · next mine => simp [mine]
      · next other => simp [other]
  | subscribe i channels max => exact mappedAt fun id => lookup_subscribe r i channels max id
  | unsubscribe i channels => exact mappedAt fun id => lookup_unsubscribe r i channels id
  | recv i => exact mappedAt (recv_spec r i).1
  | close i => exact mappedAt (lookup_close r i)

/-- The gauge follows the number of entries: an `add` under a new id raises both, a `remove` lowers
both exactly when the id is registered. -/
theorem connectionsActive_step {r : Registry F} (op : Op F)
    (exact : r.metrics.connectionsActive = UInt64.ofNat r.len)
    (fresh : op.isAdd = true → r.connections.lookup ⟨r.nextId⟩ = none) :
    (r.step op).1.metrics.connectionsActive = UInt64.ofNat (r.step op).1.len := by
  have keys := keys_step r op
  cases op with
  | publish channel frame | broadcast frame | send i frame =>
      rw [len, keys, (step_eq_fanOut r rfl).1, metrics_fanOut]
      exact exact
  | subscribe i channels max | unsubscribe i channels | recv i | close i =>
      rw [len, keys, metrics_step_quiet r rfl rfl (by simp)]
      exact exact
  | add subject sendQueue =>
      have absent : (⟨r.nextId⟩ : ConnectionId) ∉ r.connections.keys := by
        intro listed
        obtain ⟨conn, found⟩ := Finmap.mem_keys_iff.mp listed
        rw [fresh rfl] at found
        cases found
      rw [len, keys]
      change r.metrics.connectionsActive + 1 = _
      rw [Finset.card_insert_of_notMem absent, UInt64.ofNat_add, exact]
      rfl
  | remove i =>
      rw [len, keys]
      change (r.remove i).metrics.connectionsActive = UInt64.ofNat (r.connections.keys.erase i).card
      unfold remove
      cases found : r.connections.lookup i with
      | none =>
          have absent : i ∉ r.connections.keys := by simp [Finmap.mem_keys_iff, found]
          rw [Finset.erase_eq_of_notMem absent]
          exact exact
      | some conn =>
          have listed : i ∈ r.connections.keys := Finmap.mem_keys_iff.mpr ⟨conn, found⟩
          have one := Finset.card_erase_add_one listed
          change r.metrics.connectionsActive - 1 = _
          rw [exact, len, ← one, UInt64.ofNat_add]
          exact UInt64.add_sub_cancel _ _

theorem len_step (r : Registry F) (op : Op F) :
    (r.step op).1.len ≤ r.len + [op].countP Op.isAdd := by
  rw [len, keys_step, len]
  cases op with
  | add subject sendQueue => exact Finset.card_insert_le _ _
  | remove i => exact Nat.le_trans (Finset.card_erase_le) (Nat.le_add_right _ _)
  | publish _ _ | broadcast _ | send _ _ | subscribe _ _ _ | unsubscribe _ _ | recv _ | close _ =>
      exact Nat.le_add_right _ _

/-! ## The streak of one connection -/

/-- What the operation's attempt on `id` meets, if it makes one. -/
def attempt? (r : Registry F) (id : ConnectionId) (op : Op F) : Option TrySend :=
  if r.reaches id op then
    op.frame?.bind fun frame =>
      (r.connections.lookup id).map fun conn => (conn.tx.trySend frame).2
  else none

/-- What the attempts of a run on `id` met, in order. -/
def attempts (id : ConnectionId) : Registry F → List (Op F) → List TrySend
  | _, [] => []
  | r, op :: ops => (r.attempt? id op).toList ++ attempts id (r.step op).1 ops

theorem attempts_append (id : ConnectionId) (r : Registry F) (ops : List (Op F)) (op : Op F) :
    attempts id r (ops ++ [op]) = attempts id r ops ++ ((r.run ops).attempt? id op).toList := by
  induction ops generalizing r with
  | nil => simp [attempts]
  | cons first ops ih => rw [List.cons_append, attempts, attempts, ih, run_cons, List.append_assoc]

/-- The attempts that met a full queue since one was accepted. -/
def sinceAccepted (log : List TrySend) : Nat :=
  (log.reverse.takeWhile (· ≠ .ok)).count .full

/-- What one more attempt makes of the number. -/
theorem sinceAccepted_append (log : List TrySend) (outcome : TrySend) :
    sinceAccepted (log ++ [outcome]) =
      match outcome with
      | .ok => 0
      | .full => sinceAccepted log + 1
      | .closed => sinceAccepted log := by
  cases outcome <;> simp [sinceAccepted]

/-- The streak of an entry after an operation, by what the operation's attempt met. -/
theorem dropped_step (r : Registry F) (op : Op F) {id : ConnectionId} {conn' : Connection F}
    (found : (r.step op).1.connections.lookup id = some conn') :
    (op.isAdd = true ∧ id = ⟨r.nextId⟩ ∧ conn'.dropped = 0) ∨
    ∃ conn, r.connections.lookup id = some conn ∧
      conn'.dropped =
        match r.attempt? id op with
        | none => conn.dropped
        | some .ok => 0
        | some .full => conn.dropped + 1
        | some .closed => conn.dropped := by
  cases carries : op.frame? with
  | some frame =>
      rw [(deliver_spec r op carries id).1] at found
      refine .inr ?_
      cases reached : r.reaches id op with
      | false =>
          rw [reached, if_neg Bool.false_ne_true] at found
          exact ⟨conn', found, by simp [attempt?, reached]⟩
      | true =>
          rw [reached, if_pos rfl] at found
          obtain ⟨conn, old, rfl⟩ := Option.map_eq_some_iff.mp found
          refine ⟨conn, old, ?_⟩
          simp only [attempt?, reached, carries, old, ↓reduceIte, Option.bind_some,
            Option.map_some, Connection.offer]
          cases (conn.tx.trySend frame).2 <;> rfl
  | none =>
      have silent : r.attempt? id op = none := by simp [attempt?, carries]
      rcases entry_cases r op found with ⟨subject, sendQueue, rfl, mine, rfl⟩ | ⟨conn, old, change⟩
      · exact .inl ⟨rfl, mine, rfl⟩
      · refine .inr ⟨conn, old, ?_⟩
        rw [silent]
        cases change with
        | offered carried => rw [carries] at carried; cases carried
        | kept | subscribed _ _ | unsubscribed _ | taken | closed => rfl

/-- The capacity of an entry's queue is that of the `add` that made the entry. -/
theorem capacity_step (r : Registry F) (op : Op F) {id : ConnectionId} {conn' : Connection F}
    (found : (r.step op).1.connections.lookup id = some conn') :
    op = .add conn'.subject conn'.tx.capacity ∨
    ∃ conn, r.connections.lookup id = some conn ∧ conn'.subject = conn.subject ∧
      conn'.tx.capacity = conn.tx.capacity := by
  rcases entry_cases r op found with ⟨subject, sendQueue, rfl, mine, rfl⟩ | ⟨conn, old, change⟩
  · exact .inl rfl
  · refine .inr ⟨conn, old, ?_⟩
    cases change with
    | offered carried => exact ⟨rfl, BoundedQueue.capacity_trySend _ _⟩
    | kept | subscribed _ _ | unsubscribed _ | taken | closed => exact ⟨rfl, rfl⟩

/-! ## Whole runs -/

/-- The books are in order after the operations `ops` led to `r`. -/
structure Accounted (ops : List (Op F)) (r : Registry F) : Prop where
  sent : r.metrics.framesSent = UInt64.ofNat (total returned new ops)
  dropped : r.metrics.framesDropped = UInt64.ofNat (total metFull new ops)
  balance : total returned new ops = total taken new ops + r.queued + total discarded new ops
  registered : r.metrics.connectionsTotal = UInt64.ofNat (ops.countP Op.isAdd)
  active : r.metrics.connectionsActive = UInt64.ofNat r.len
  fewer : r.len ≤ ops.countP Op.isAdd
  unattempted : ∀ {id}, ¬ ConnectionId.Issued (ops.countP Op.isAdd) id → attempts id new ops = []
  streak : ∀ {id conn}, r.connections.lookup id = some conn →
    conn.dropped = UInt64.ofNat (sinceAccepted (attempts id new ops))
  capacity : ∀ {id conn}, r.connections.lookup id = some conn →
    Op.add conn.subject conn.tx.capacity ∈ ops

/-- Before its id is issued, a connection is not attempted. -/
theorem attempt?_of_not_issued {n : Nat} {r : Registry F} (inv : Consistent n r)
    {id : ConnectionId} (unissued : ¬ ConnectionId.Issued n id) (op : Op F) :
    r.attempt? id op = none := by
  have absent : r.connections.lookup id = none := by
    by_contra present
    obtain ⟨conn, found⟩ := Option.ne_none_iff_exists'.mp present
    exact unissued (inv.issued found)
  unfold attempt?
  rw [absent]
  cases op.frame? <;> simp

/-- One more operation keeps the books in order. -/
theorem Accounted.step {ops : List (Op F)} (books : Accounted ops (new.run ops))
    (inv : Consistent (ops.countP Op.isAdd) (new.run ops)) (op : Op F)
    (below : ops.countP Op.isAdd < 2 ^ 64) :
    Accounted (ops ++ [op]) ((new.run ops).step op).1 := by
  have fresh : op.isAdd = true → (new.run ops).connections.lookup ⟨(new.run ops).nextId⟩ = none :=
    fun _ => inv.fresh below
  obtain ⟨sent, dropped, registered⟩ := metrics_step (new.run ops) op
  have balance := books.balance
  have moved := queued_step (new.run ops) op fresh
  refine ⟨?_, ?_, ?_, ?_, connectionsActive_step op books.active fresh, ?_, ?_, ?_, ?_⟩
  · rw [sent, books.sent, total_append, UInt64.ofNat_add]
  · rw [dropped, books.dropped, total_append, UInt64.ofNat_add]
  · rw [total_append, total_append, total_append]
    omega
  · rw [registered, books.registered, List.countP_append, UInt64.ofNat_add]
  · rw [List.countP_append]
    exact Nat.le_trans (len_step _ op) (Nat.add_le_add_right books.fewer _)
  · intro id unissued
    rw [List.countP_append] at unissued
    have before : ¬ ConnectionId.Issued (ops.countP Op.isAdd) id :=
      fun issued => unissued (issued.mono (Nat.le_add_right _ _))
    rw [attempts_append, books.unattempted before, attempt?_of_not_issued inv before]
    rfl
  · intro id conn' found
    rw [attempts_append]
    rcases dropped_step _ op found with ⟨isAdd, rfl, reset⟩ | ⟨conn, old, streak⟩
    · have unissued : ¬ ConnectionId.Issued (ops.countP Op.isAdd) ⟨(new.run ops).nextId⟩ := by
        rw [inv.nextId]
        exact ConnectionId.not_issued_nth below
      rw [reset, books.unattempted unissued, attempt?_of_not_issued inv unissued]
      rfl
    · rw [streak, books.streak old]
      cases (new.run ops).attempt? id op with
      | none => rw [Option.toList_none, List.append_nil]
      | some outcome =>
          rw [Option.toList_some, sinceAccepted_append]
          cases outcome with
          | ok | closed => rfl
          | full => exact (UInt64.ofNat_add _ _).symm
  · intro id conn' found
    refine List.mem_append.mpr ?_
    rcases capacity_step _ op found with added | ⟨conn, old, subject, capacity⟩
    · exact .inr (List.mem_singleton.mpr added.symm)
    · rw [subject, capacity]
      exact .inl (books.capacity old)

theorem Accounted.of_run (ops : List (Op F)) (adds : ops.countP Op.isAdd < 2 ^ 64) :
    Accounted ops (new.run ops) := by
  induction ops using List.reverseRecOn with
  | nil =>
      refine ⟨rfl, rfl, rfl, rfl, rfl, Nat.le_refl _, fun _ => rfl, ?_, ?_⟩
      · intro id conn found
        simp [new] at found
      · intro id conn found
        simp [new] at found
  | append_singleton ops op ih =>
      have below : ops.countP Op.isAdd < 2 ^ 64 := by
        rw [List.countP_append] at adds
        omega
      rw [run_append]
      exact (ih below).step (Consistent.of_run ops below.le) op below

/-- **Delivery accounting.**  After any operations with fewer than `2 ^ 64` calls of `add`: the
counter of sent frames is what the deliveries returned, and these frames were taken, are queued or
were discarded with their receiver; the counter of dropped frames is the number of attempts that
met a full open queue; the streak of a connection is the number of such attempts on it since one
was accepted, so a limit it reaches is reached by that many; a queue holds at most what its `add`
allowed; and the two counters of connections are the calls of `add` and the entries.  Counters that
count frames are 64 bits wide and hold their number modulo `2 ^ 64`. -/
theorem run_accounted (ops : List (Op F)) (adds : ops.countP Op.isAdd < 2 ^ 64) :
    (new.run ops).metrics.framesSent = UInt64.ofNat (total returned new ops) ∧
    total returned new ops =
      total taken new ops + (new.run ops).queued + total discarded new ops ∧
    (new.run ops).metrics.framesDropped = UInt64.ofNat (total metFull new ops) ∧
    (∀ id conn, (new.run ops).connections.lookup id = some conn →
      (new.run ops).drops id = UInt64.ofNat (sinceAccepted (attempts id new ops)) ∧
      (∀ max : UInt64, max ≤ (new.run ops).drops id →
        max.toNat ≤ sinceAccepted (attempts id new ops)) ∧
      Op.add conn.subject conn.tx.capacity ∈ ops ∧
      ((new.run ops).queueOf id).length ≤ conn.tx.capacity) ∧
    (new.run ops).metrics.connectionsTotal.toNat = ops.countP Op.isAdd ∧
    (new.run ops).metrics.connectionsActive.toNat = (new.run ops).len := by
  have books := Accounted.of_run ops adds
  have narrow : ∀ {n : Nat}, n < 2 ^ 64 → (UInt64.ofNat n).toNat = n := by
    intro n below
    rw [UInt64.toNat_ofNat']
    exact Nat.mod_eq_of_lt below
  refine ⟨books.sent, books.balance, books.dropped, ?_, ?_, ?_⟩
  · intro id conn found
    have streak : (new.run ops).drops id =
        UInt64.ofNat (sinceAccepted (attempts id new ops)) := by
      rw [← books.streak found]
      simp [drops, found]
    refine ⟨streak, fun max reached => ?_, books.capacity found, ?_⟩
    · rw [streak, UInt64.le_iff_toNat_le, UInt64.toNat_ofNat'] at reached
      exact Nat.le_trans reached (Nat.mod_le _ _)
    · rw [queueOf_of_lookup found]
      exact conn.tx.bounded
  · rw [books.registered, narrow adds]
  · rw [books.active, narrow (Nat.lt_of_le_of_lt books.fewer adds)]

/-- A frame is accepted, one dropped, the first one taken, and the receiver then dropped with
nothing left; a second remove changes nothing. -/
theorem run_accounted_short :
    ([.add "a" 1, .send ⟨1⟩ "x", .send ⟨1⟩ "y", .recv ⟨1⟩, .remove ⟨1⟩, .remove ⟨1⟩] :
      List (Op String)).countP Op.isAdd < 2 ^ 64 ∧
    (new.run ([.add "a" 1, .send ⟨1⟩ "x", .send ⟨1⟩ "y", .recv ⟨1⟩, .remove ⟨1⟩, .remove ⟨1⟩] :
      List (Op String))).metrics.connectionsActive.toNat =
    (new.run ([.add "a" 1, .send ⟨1⟩ "x", .send ⟨1⟩ "y", .recv ⟨1⟩, .remove ⟨1⟩, .remove ⟨1⟩] :
      List (Op String))).len :=
  ⟨by decide, (run_accounted _ (by decide)).2.2.2.2.2⟩

/-- Sends to a full queue all meet it full. -/
theorem total_metFull_sends {r : Registry F} {id : ConnectionId} (full : r.blocked id = true)
    (frame : F) (n : Nat) :
    total metFull r (List.replicate n (.send id frame)) = n := by
  induction n generalizing r with
  | zero => rfl
  | succ n ih =>
      have once : r.metFull (.send id frame) = 1 := by
        rw [metFull_eq r rfl, targets, Finset.filter_singleton, full]
        rfl
      have still : (r.step (.send id frame)).1.blocked id = true := by
        unfold blocked at full
        cases found : r.connections.lookup id with
        | none => simp [found] at full
        | some conn =>
            rw [found, Option.any_some] at full
            have refused : conn.tx.accepts = false := by
              simp only [BoundedQueue.isFull, Bool.and_eq_true, decide_eq_true_eq] at full
              simp [BoundedQueue.accepts, full.2]
            have after := (deliver_spec r (.send id frame) rfl id).1
            rw [found] at after
            simp only [reaches, decide_true, ↓reduceIte, Option.map_some] at after
            rw [blocked, after, Option.any_some, Connection.offer,
              BoundedQueue.trySend_of_not_accepts frame refused]
            exact full
      rw [List.replicate_succ, total, once, ih still, Nat.add_comm]

/-- With `2 ^ 64` frames dropped on one full queue the counter of dropped frames is back at
zero. -/
theorem run_accounted_wrapped :
    ∃ ops : List (Op String), ops.countP Op.isAdd = 1 ∧
      (new.run ops).metrics.framesDropped.toNat ≠ total metFull new ops := by
  have dropped : total metFull new ([.add "a" 1, .send ⟨1⟩ "x"] ++
      List.replicate (2 ^ 64) (.send ⟨1⟩ "x") : List (Op String)) = 2 ^ 64 := by
    have full : (new.run ([.add "a" 1, .send ⟨1⟩ "x"] : List (Op String))).blocked ⟨1⟩ = true := by
      decide
    have later := total_metFull_sends full "x" (2 ^ 64)
    have first : new.metFull (.add "a" 1 : Op String) = 0 := by decide
    have second : ((new.step (.add "a" 1)).1 : Registry String).metFull (.send ⟨1⟩ "x") = 0 := by
      decide
    rw [List.cons_append, List.cons_append, List.nil_append, total, total, first, second,
      Nat.zero_add, Nat.zero_add]
    exact later
  have adds : ([.add "a" 1, .send ⟨1⟩ "x"] ++
      List.replicate (2 ^ 64) (.send ⟨1⟩ "x") : List (Op String)).countP Op.isAdd = 1 := by
    rw [List.countP_append, List.countP_replicate]
    decide
  refine ⟨_, adds, ?_⟩
  have books := Accounted.of_run _ (adds.trans_lt (by decide))
  rw [books.dropped, dropped]
  decide

end Registry

end WsFanout
