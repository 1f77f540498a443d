import WsFanout.Handle

/-!
# Publishing while a connection subscribes

A request to subscribe takes the registry's lock once for the subscription, once for the
acknowledgement and once for each snapshot.  `Subscribing.Step` is that request with publishes from
other threads between any two of its calls, none of them meeting the connection's queue full.

The connection is listed in the index from the first of those calls on.
`Subscribing.ackFirst_iff` says which publishes that lets through too early: exactly the ones that
reach the connection while the request still `owes` the acknowledgement or the channel's snapshot.

The snapshot source answers from a fixed state.  A request reads each added channel once, so a
source that changes meanwhile answers as some fixed one does.
-/

namespace WsFanout

open Lib

variable {σ : Type}

/-- The request has yet to enqueue the acknowledgement or the snapshot of `ch`. -/
def Handling.owes (shared : Shared σ) (source : σ) (ch : String) : Handling → Bool
  | start _ => true
  | ack _ _ => true
  | snapshots rest => ch ∈ rest && (shared.snapshot source ch).isSome
  | snapshot c _ rest => c = ch || ch ∈ rest && (shared.snapshot source ch).isSome
  | reply _ => false
  | done => false

/-- The registry, and how far the connection's task has come with its request. -/
structure Subscribing where
  registry : Registry ServerMessage
  handling : Handling

namespace Subscribing

/-- Whose turn it is: the connection's task, or a thread that publishes. -/
inductive Action where
  | handle
  | publish (ch : String) (payload : RawValue)
  deriving DecidableEq, Repr

/-- One step of either party that drops nothing for `id`. -/
inductive Step (shared : Shared σ) (source : σ) (id : ConnectionId) (claims : Claims) :
    Subscribing → Action → Subscribing → Prop
  | handle {s : Subscribing}
      (kept : ∀ op ∈ s.handling.op? shared id claims, s.registry.dropsFor id op = false) :
      Step shared source id claims s .handle
        ⟨(s.handling.step shared id claims source s.registry).1,
          (s.handling.step shared id claims source s.registry).2⟩
  | publish {s : Subscribing} (ch : String) (payload : RawValue)
      (kept : s.registry.dropsFor id (.publish ch (.data ch payload)) = false) :
      Step shared source id claims s (.publish ch payload)
        ⟨(s.registry.publish ch (.data ch payload)).1, s.handling⟩

/-- The action is a publish of an added channel that reaches the connection while the request
still owes what the client needs first. -/
def Early (shared : Shared σ) (source : σ) (id : ConnectionId) (added : List String)
    (s : Subscribing) : Action → Prop
  | .handle => False
  | .publish ch _ =>
    ch ∈ added ∧ id ∈ s.registry.byChannel.members ch ∧ s.handling.owes shared source ch = true

/-- `sent` holds the acknowledgement of the request and the snapshot of `ch`, if it has one. -/
def Announced (shared : Shared σ) (source : σ) (added : List String) (sent : List ServerMessage)
    (ch : String) : Prop :=
  (∃ rejected, .subscribed added rejected ∈ sent) ∧
    ∀ payload, shared.snapshot source ch = some payload → .snapshot ch payload ∈ sent

/-- Every `data` frame of an added channel comes after the acknowledgement of the request and after
the channel's snapshot.  The request's frames are those beyond `before`, the queue it started on. -/
def AckFirst (shared : Shared σ) (source : σ) (added : List String)
    (before queue : List ServerMessage) : Prop :=
  ∀ ch payload pre post, queue = pre ++ .data ch payload :: post → ch ∈ added →
    Announced shared source added (pre.drop before.length) ch

variable {shared : Shared σ} {source : σ} {id : ConnectionId} {claims : Claims}
  {added : List String} {before : List ServerMessage}

theorem Step.deterministic {s t u : Subscribing} {a : Action}
    (left : Step shared source id claims s a t) (right : Step shared source id claims s a u) :
    t = u := by
  cases left <;> cases right <;> rfl

/-! ## Splitting a queue at a frame -/

/-- The splits of a list with one element appended. -/
theorem split_append {α : Type} {xs pre post : List α} {x y : α} :
    xs ++ [y] = pre ++ x :: post ↔
      (∃ post', xs = pre ++ x :: post' ∧ post = post' ++ [y]) ∨
        (pre = xs ∧ x = y ∧ post = []) := by
  constructor
  · intro same
    rcases List.eq_nil_or_concat post with rfl | ⟨post', z, rfl⟩
    · obtain ⟨front, last⟩ := List.append_inj' same rfl
      exact .inr ⟨front.symm, (List.singleton_inj.mp last).symm, rfl⟩
    · have grouped : xs ++ [y] = (pre ++ x :: post') ++ [z] := by simpa using same
      obtain ⟨front, last⟩ := List.append_inj' grouped rfl
      exact .inl ⟨post', front, by simp [List.singleton_inj.mp last]⟩
  · rintro (⟨post', rfl, rfl⟩ | ⟨rfl, rfl, rfl⟩) <;> simp

/-- Appending a frame asks for the announcement only if it is `data` of an added channel. -/
theorem ackFirst_append {queue : List ServerMessage} (frame : ServerMessage) :
    AckFirst shared source added before (queue ++ [frame]) ↔
      AckFirst shared source added before queue ∧
        ∀ ch payload, frame = .data ch payload → ch ∈ added →
          Announced shared source added (queue.drop before.length) ch := by
  constructor
  · intro ordered
    refine ⟨fun ch payload pre post split => ?_, fun ch payload same => ?_⟩
    · exact ordered ch payload pre (post ++ [frame])
        (split_append.mpr (.inl ⟨post, split, rfl⟩))
    · exact ordered ch payload queue [] (split_append.mpr (.inr ⟨rfl, same.symm, rfl⟩))
  · rintro ⟨ordered, last⟩ ch payload pre post split
    rcases split_append.mp split with ⟨post', split', -⟩ | ⟨rfl, same, -⟩
    · exact ordered ch payload pre post' split'
    · exact last ch payload same.symm

/-- On the queue the request starts on nothing is announced yet. -/
theorem ackFirst_start :
    AckFirst shared source added before before ↔
      ∀ ch payload, .data ch payload ∈ before → ch ∉ added := by
  constructor
  · intro ordered ch payload mem isAdded
    obtain ⟨pre, post, split⟩ := List.append_of_mem mem
    obtain ⟨⟨rejected, acked⟩, -⟩ := ordered ch payload pre post split isAdded
    have short : pre.length ≤ before.length := by simp [split]
    rw [List.drop_eq_nil_of_le short] at acked
    cases acked
  · intro none ch payload pre post split isAdded
    exact absurd isAdded (none ch payload (by simp [split]))

/-! ## How far the request has come -/

/-- `sent` holds the acknowledgement of the request and the snapshots of `announced`. -/
structure Sent (shared : Shared σ) (source : σ) (added announced : List String)
    (sent : List ServerMessage) : Prop where
  acked : ∃ rejected, .subscribed added rejected ∈ sent
  snapshots : ∀ ch payload, .snapshot ch payload ∈ sent ↔
    ch ∈ announced ∧ shared.snapshot source ch = some payload

/-- The frames beyond the start, `sent`, at each point of the request. -/
def Progress (shared : Shared σ) (source : σ) (added : List String) (sent : List ServerMessage) :
    Handling → Prop
  | .start _ => ∀ frame ∈ sent, ∃ ch payload, frame = .data ch payload
  | .ack channels _ => channels = added ∧ ∀ frame ∈ sent, ∃ ch payload, frame = .data ch payload
  | .snapshots rest => ∃ announced, added = announced ++ rest ∧
    Sent shared source added announced sent
  | .snapshot c payload rest => ∃ announced, added = announced ++ c :: rest ∧
    shared.snapshot source c = some payload ∧ Sent shared source added announced sent
  | .reply _ => False
  | .done => Sent shared source added added sent

/-- While only `data` has been sent nothing is announced. -/
theorem not_announced_of_data {sent : List ServerMessage}
    (onlyData : ∀ frame ∈ sent, ∃ ch payload, frame = .data ch payload) (ch : String) :
    ¬ Announced shared source added sent ch := by
  rintro ⟨⟨rejected, acked⟩, -⟩
  obtain ⟨_, _, same⟩ := onlyData _ acked
  cases same

/-- Once the acknowledgement is sent, a channel is announced when its snapshot, if any, is. -/
theorem Sent.announced_iff {announced : List String} {sent : List ServerMessage}
    (done : Sent shared source added announced sent) (ch : String) :
    Announced shared source added sent ch ↔
      ch ∈ announced ∨ (shared.snapshot source ch).isSome = false := by
  unfold Announced
  rw [and_iff_right done.acked]
  cases read : shared.snapshot source ch with
  | none => simp
  | some payload => simp [done.snapshots, read]

/-- The request owes what has not been announced. -/
theorem Progress.owes_iff {h : Handling} {sent : List ServerMessage}
    (progress : Progress shared source added sent h) (nodup : added.Nodup) {ch : String}
    (isAdded : ch ∈ added) :
    h.owes shared source ch = true ↔ ¬ Announced shared source added sent ch := by
  cases h with
  | start _ => simpa [Handling.owes] using not_announced_of_data progress ch
  | ack _ _ => simpa [Handling.owes] using not_announced_of_data progress.2 ch
  | snapshots rest =>
      obtain ⟨announced, rfl, done⟩ := progress
      have apart := List.disjoint_of_nodup_append nodup
      rw [done.announced_iff]
      rcases List.mem_append.mp isAdded with early | late
      · have past : ch ∉ rest := fun mem => apart early mem
        simp [Handling.owes, early, past]
      · have waiting : ch ∉ announced := fun mem => apart mem late
        simp [Handling.owes, late, waiting, Option.isSome_iff_ne_none]
  | snapshot c payload rest =>
      obtain ⟨announced, rfl, read, done⟩ := progress
      have apart := List.disjoint_of_nodup_append nodup
      rw [done.announced_iff]
      rcases List.mem_append.mp isAdded with early | late
      · have other : c ≠ ch := by
          rintro rfl
          exact apart early List.mem_cons_self
        have past : ch ∉ rest := fun mem => apart early (List.mem_cons_of_mem _ mem)
        simp [Handling.owes, early, other, past]
      · have waiting : ch ∉ announced := fun mem => apart mem late
        rcases List.mem_cons.mp late with rfl | later
        · simp [Handling.owes, waiting, read]
        · rcases eq_or_ne c ch with rfl | same
          · simp [Handling.owes, waiting, read]
          · simp [Handling.owes, waiting, later, same, Option.isSome_iff_ne_none]
  | reply _ => exact progress.elim
  | done => simp [Handling.owes, progress.announced_iff, isAdded]

/-- A delta leaves the request where it is. -/
theorem Progress.data {h : Handling} {sent : List ServerMessage}
    (progress : Progress shared source added sent h) (ch : String) (payload : RawValue) :
    Progress shared source added (sent ++ [.data ch payload]) h := by
  have onlyData : (∀ frame ∈ sent, ∃ ch payload, frame = ServerMessage.data ch payload) →
      ∀ frame ∈ sent ++ [.data ch payload], ∃ ch payload, frame = .data ch payload := by
    intro all frame mem
    rcases List.mem_append.mp mem with old | last
    · exact all frame old
    · exact ⟨ch, payload, List.mem_singleton.mp last⟩
  have grown : ∀ announced, Sent shared source added announced sent →
      Sent shared source added announced (sent ++ [.data ch payload]) := by
    rintro announced ⟨⟨rejected, acked⟩, snapshots⟩
    exact ⟨⟨rejected, List.mem_append_left _ acked⟩, by simpa using snapshots⟩
  cases h with
  | start _ => exact onlyData progress
  | ack _ _ => exact ⟨progress.1, onlyData progress.2⟩
  | snapshots rest =>
      obtain ⟨announced, split, done⟩ := progress
      exact ⟨announced, split, grown _ done⟩
  | snapshot c p rest =>
      obtain ⟨announced, split, read, done⟩ := progress
      exact ⟨announced, split, read, grown _ done⟩
  | reply _ => exact progress
  | done => exact grown _ progress

/-- The invariant of a request that started on the queue `before`. -/
structure Inv (shared : Shared σ) (source : σ) (id : ConnectionId) (claims : Claims)
    (added : List String) (before : List ServerMessage) (s : Subscribing) : Prop where
  joined : s.registry.Joined id
  nodup : added.Nodup
  requested : ∀ text, s.handling = .start text → ∃ channels,
    shared.fromStr text = .ok (.subscribe channels) ∧
      shared.newlyAdded claims s.registry id channels = added
  progress : ∃ sent, s.registry.queueOf id = before ++ sent ∧
    Progress shared source added sent s.handling

namespace Inv

variable {s t : Subscribing}

/-- A publish that drops nothing for the connection. -/
theorem publish (inv : Inv shared source id claims added before s) (ch : String)
    (payload : RawValue)
    (kept : s.registry.dropsFor id (.publish ch (.data ch payload)) = false) :
    Inv shared source id claims added before
      ⟨(s.registry.publish ch (.data ch payload)).1, s.handling⟩ := by
  obtain ⟨joined, queue⟩ := inv.joined.publish ch _ kept
  refine ⟨joined, inv.nodup, ?_, ?_⟩
  · intro text here
    obtain ⟨channels, parsed, same⟩ := inv.requested text here
    exact ⟨channels, parsed,
      (shared.newlyAdded_publish claims inv.joined ch _ joined channels).trans same⟩
  · obtain ⟨sent, split, progress⟩ := inv.progress
    rw [split] at queue
    by_cases listed : id ∈ s.registry.byChannel.members ch
    · rw [if_pos listed, List.append_assoc] at queue
      exact ⟨_, queue, progress.data ch payload⟩
    · rw [if_neg listed, List.append_nil] at queue
      exact ⟨_, queue, progress⟩

/-- The task's own step keeps the invariant, and appends no `data`. -/
theorem handle (inv : Inv shared source id claims added before s)
    (kept : ∀ op ∈ s.handling.op? shared id claims, s.registry.dropsFor id op = false) :
    Inv shared source id claims added before
        ⟨(s.handling.step shared id claims source s.registry).1,
          (s.handling.step shared id claims source s.registry).2⟩ ∧
      ∃ sent, (s.handling.step shared id claims source s.registry).1.queueOf id =
          s.registry.queueOf id ++ sent ∧
        (sent = [] ∨ ∃ frame, sent = [frame] ∧ ∀ ch payload, frame ≠ .data ch payload) := by
  obtain ⟨r, h⟩ := s
  obtain ⟨joined, nodup, requested, sent, split, progress⟩ := inv
  cases h with
  | start text =>
      obtain ⟨channels, parsed, same⟩ := requested text rfl
      obtain ⟨joined', queue⟩ := joined.subscribe (shared.allowed claims channels).1
        shared.config.maxSubscriptions
      simp only [Handling.step, parsed]
      refine ⟨⟨joined', nodup, by simp, sent, queue.trans split, same, progress⟩, [], ?_⟩
      exact ⟨queue.trans (List.append_nil _).symm, .inl rfl⟩
  | ack channels rejected =>
      obtain ⟨rfl, onlyData⟩ := progress
      obtain ⟨joined', queue⟩ := joined.send (.subscribed channels rejected) (kept _ rfl)
      simp only [Handling.step]
      refine ⟨⟨joined', nodup, by simp, _, by rw [queue, split, List.append_assoc], [], rfl,
        ⟨rejected, by simp⟩, fun ch payload => ?_⟩, [.subscribed channels rejected], queue,
        .inr ⟨_, rfl, by simp⟩⟩
      have absent : ServerMessage.snapshot ch payload ∉ sent := by
        intro mem
        obtain ⟨_, _, same⟩ := onlyData _ mem
        cases same
      simp [absent]
  | snapshots rest =>
      obtain ⟨announced, rfl, done⟩ := progress
      cases rest with
      | nil =>
          simp only [Handling.step]
          rw [List.append_nil] at done nodup ⊢
          exact ⟨⟨joined, nodup, by simp, sent, split, done⟩, [],
            (List.append_nil _).symm, .inl rfl⟩
      | cons ch rest =>
          simp only [Handling.step]
          cases read : shared.snapshot source ch with
          | none =>
              have passed : Sent shared source (announced ++ ch :: rest) (announced ++ [ch])
                  sent := by
                refine ⟨done.acked, fun c payload => ?_⟩
                rw [done.snapshots, List.mem_append, List.mem_singleton]
                constructor
                · rintro ⟨mem, found⟩
                  exact ⟨.inl mem, found⟩
                · rintro ⟨mem | rfl, found⟩
                  · exact ⟨mem, found⟩
                  · rw [read] at found
                    cases found
              exact ⟨⟨joined, nodup, by simp, sent, split, announced ++ [ch], by simp, passed⟩,
                [], (List.append_nil _).symm, .inl rfl⟩
          | some payload =>
              exact ⟨⟨joined, nodup, by simp, sent, split, announced, rfl, read, done⟩,
                [], (List.append_nil _).symm, .inl rfl⟩
  | snapshot ch payload rest =>
      obtain ⟨announced, rfl, read, done⟩ := progress
      obtain ⟨joined', queue⟩ := joined.send (.snapshot ch payload) (kept _ rfl)
      have passed : Sent shared source (announced ++ ch :: rest) (announced ++ [ch])
          (sent ++ [.snapshot ch payload]) := by
        obtain ⟨⟨rejected, acked⟩, snapshots⟩ := done
        refine ⟨⟨rejected, List.mem_append_left _ acked⟩, fun c p => ?_⟩
        simp only [List.mem_append, List.mem_singleton, snapshots, ServerMessage.snapshot.injEq]
        constructor
        · rintro (⟨mem, found⟩ | ⟨rfl, rfl⟩)
          · exact ⟨.inl mem, found⟩
          · exact ⟨.inr rfl, read⟩
        · rintro ⟨mem | rfl, found⟩
          · exact .inl ⟨mem, found⟩
          · rw [read] at found
            exact .inr ⟨rfl, (Option.some.inj found).symm⟩
      simp only [Handling.step]
      exact ⟨⟨joined', nodup, by simp, _, by rw [queue, split, List.append_assoc],
        announced ++ [ch], by simp, passed⟩, [.snapshot ch payload], queue,
        .inr ⟨_, rfl, by simp⟩⟩
  | reply _ => exact progress.elim
  | done =>
      simp only [Handling.step]
      exact ⟨⟨joined, nodup, by simp, sent, split, progress⟩, [], (List.append_nil _).symm,
        .inl rfl⟩

/-- What one step preserves. -/
theorem step {a : Action} (inv : Inv shared source id claims added before s)
    (step : Step shared source id claims s a t) :
    Inv shared source id claims added before t := by
  cases step with
  | handle kept => exact (inv.handle kept).1
  | publish ch payload kept => exact inv.publish ch payload kept

/-- One step keeps the order of the queue exactly when it is not early. -/
theorem ackFirst_step {a : Action} (inv : Inv shared source id claims added before s)
    (step : Step shared source id claims s a t) :
    AckFirst shared source added before (t.registry.queueOf id) ↔
      AckFirst shared source added before (s.registry.queueOf id) ∧
        ¬ Early shared source id added s a := by
  cases step with
  | handle kept =>
      obtain ⟨-, sent, queue, what⟩ := inv.handle kept
      rw [queue]
      rcases what with rfl | ⟨frame, rfl, notData⟩
      · simp [Early]
      · rw [ackFirst_append]
        simp [Early, notData]
  | publish ch payload kept =>
      obtain ⟨-, queue⟩ := inv.joined.publish ch _ kept
      rw [queue]
      by_cases listed : id ∈ s.registry.byChannel.members ch
      · rw [if_pos listed, ackFirst_append]
        refine and_congr_right fun _ => ?_
        obtain ⟨sent, split, progress⟩ := inv.progress
        rw [split, List.drop_left]
        constructor
        · rintro announced ⟨isAdded, -, owes⟩
          exact (progress.owes_iff inv.nodup isAdded).mp owes (announced ch payload rfl isAdded)
        · rintro notEarly c p same isAdded
          obtain ⟨rfl, rfl⟩ := ServerMessage.data.inj same
          by_contra unannounced
          exact notEarly ⟨isAdded, listed, (progress.owes_iff inv.nodup isAdded).mpr unannounced⟩
      · rw [if_neg listed, List.append_nil]
        exact ⟨fun ordered => ⟨ordered, fun early => listed early.2.1⟩, fun both => both.1⟩

end Inv

theorem inv_start (r : Registry ServerMessage) (joined : r.Joined id) {text : String}
    {channels : List String} (parsed : shared.fromStr text = .ok (.subscribe channels)) :
    Inv shared source id claims (shared.newlyAdded claims r id channels) (r.queueOf id)
      ⟨r, .start text⟩ where
  joined := joined
  nodup := by
    rw [Shared.newlyAdded, Registry.added_subscribe joined]
    exact Registry.subscribeLoop_nodup _ _ _
  requested := by
    rintro _ ⟨⟩
    exact ⟨channels, parsed, rfl⟩
  progress := ⟨[], (List.append_nil _).symm, by simp [Progress]⟩

/-- **When the acknowledgement and the snapshot come first.**  In every interleaving of a request
to subscribe with publishes, none of them dropped for a full queue, every `data` frame of a newly
added channel follows the request's acknowledgement and the channel's snapshot exactly when the
queue held no `data` of such a channel to begin with and no publish of one reached the connection
while the request still owed the acknowledgement or the snapshot. -/
theorem ackFirst_iff (shared : Shared σ) (source : σ) (claims : Claims)
    (r : Registry ServerMessage) (id : ConnectionId) (joined : r.Joined id) (text : String)
    (channels : List String) (parsed : shared.fromStr text = .ok (.subscribe channels))
    (as : List Action) (t : Subscribing)
    (run : Run (Step shared source id claims) ⟨r, .start text⟩ as t) :
    AckFirst shared source (shared.newlyAdded claims r id channels) (r.queueOf id)
        (t.registry.queueOf id) ↔
      (∀ ch payload, .data ch payload ∈ r.queueOf id →
        ch ∉ shared.newlyAdded claims r id channels) ∧
      ∀ bs a cs u, as = bs ++ a :: cs →
        Run (Step shared source id claims) ⟨r, .start text⟩ bs u →
        ¬ Early shared source id (shared.newlyAdded claims r id channels) u a := by
  rw [← ackFirst_start]
  exact Run.holds_iff
    (P := fun s => AckFirst shared source (shared.newlyAdded claims r id channels) (r.queueOf id)
      (s.registry.queueOf id))
    (Early shared source id (shared.newlyAdded claims r id channels))
    (fun left right => left.deterministic right) (fun inv step => inv.step step)
    (fun inv step => inv.ackFirst_step step) run (inv_start r joined parsed)

/-- The delta comes last when it is published after the acknowledgement. -/
theorem ackFirst_iff_late :
    AckFirst demo LastValue.new ["x"] [] [.subscribed ["x"] [], .data "x" ⟨"1"⟩] ↔
      (∀ ch payload, .data ch payload ∈ ([] : List ServerMessage) → ch ∉ ["x"]) ∧
      ∀ bs a cs u, [.handle, .handle, .handle, .publish "x" ⟨"1"⟩] = bs ++ a :: cs →
        Run (Step demo LastValue.new ⟨1⟩ (Claims.new "alice"))
          ⟨Registry.new.run [.add "alice" 4], .start subscribeText⟩ bs u →
        ¬ Early demo LastValue.new ⟨1⟩ ["x"] u a :=
  ackFirst_iff demo LastValue.new (Claims.new "alice") (Registry.new.run [.add "alice" 4]) ⟨1⟩
    ⟨_, rfl, rfl⟩ subscribeText ["x"] rfl _ _
    (.cons (.handle (by rintro _ ⟨⟩; rfl)) (.cons (.handle (by rintro _ ⟨⟩; rfl))
      (.cons (.handle (by rintro _ ⟨⟩)) (.cons (.publish "x" ⟨"1"⟩ rfl) (.nil _)))))

/-- A publish between the subscription and its acknowledgement overtakes both. -/
theorem ackFirst_overtaken :
    ¬ ∀ as t, Run (Step demo LastValue.new ⟨1⟩ (Claims.new "alice"))
        ⟨Registry.new.run [.add "alice" 4], .start subscribeText⟩ as t →
      AckFirst demo LastValue.new
        (demo.newlyAdded (Claims.new "alice") (Registry.new.run [.add "alice" 4]) ⟨1⟩ ["x"]) []
        (t.registry.queueOf ⟨1⟩) := by
  intro ordered
  have run : Run (Step demo LastValue.new ⟨1⟩ (Claims.new "alice"))
      ⟨Registry.new.run [.add "alice" 4], .start subscribeText⟩
      [.handle, .publish "x" ⟨"1"⟩, .handle, .handle, .handle] _ :=
    .cons (.handle (by rintro _ ⟨⟩; rfl)) (.cons (.publish "x" ⟨"1"⟩ rfl)
      (.cons (.handle (by rintro _ ⟨⟩; rfl)) (.cons (.handle (by rintro _ ⟨⟩))
        (.cons (.handle (by rintro _ ⟨⟩)) (.nil _)))))
  obtain ⟨⟨rejected, acked⟩, -⟩ := ordered _ _ run "x" ⟨"1"⟩ [] [.subscribed ["x"] []] rfl
    (by decide)
  cases acked

end Subscribing

end WsFanout
