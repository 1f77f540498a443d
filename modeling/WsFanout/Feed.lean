import WsFanout.OutcryTrace
import WsFanout.ServerStream

/-!
# From the queue to the sockets

A source thread feeds a server whose tasks and clients act in between.  `Feed.Step` is one pass of
the source's loop, with the call it makes on the server, or one step of the server.  A run of both
is a run of the source and a run of the server, and the results about each are put together here:
`Feed.seen_run` says that a client has seen nothing of the feed but what the source decoded and the
gaps it met, in this order, and `Feed.complete_run` that a subscriber for which nothing is dropped
gets all of it.
-/

namespace WsFanout

open Lib

/-! ## The frames of a feed -/

/-- The frames a feed is made of: data, and the marks of its gaps. -/
def ServerMessage.isFeed : ServerMessage → Bool
  | data _ _ => true
  | resync _ => true
  | _ => false

/-- The frames of a feed that concern a subscriber of `ch`. -/
def ServerMessage.concerns (ch : String) : ServerMessage → Bool
  | data channel _ => channel = ch
  | resync _ => true
  | _ => false

/-- What concerns a subscriber is of the feed. -/
theorem ServerMessage.isFeed_of_concerns {ch : String} {frame : ServerMessage}
    (concerns : frame.concerns ch = true) : frame.isFeed = true := by
  cases frame with
  | data _ _ | resync _ => rfl
  | _ => cases concerns

/-- The frame a feeding call of the application hands to the server. -/
def Action.feed? : Action → Option ServerMessage
  | publish channel payload => some (.data channel payload)
  | resync channels _ => some (.resync channels)
  | resyncAll => some (.resync [])
  | _ => none

/-- The call on the server that a pass of the source makes. -/
def Pass.action? : Pass → Option Action
  | .decoded _ (some d) => some (.publish d.channel d.payload)
  | .resyncAll => some .resyncAll
  | _ => none

theorem Pass.action?_ne_resync (p : Pass) (channels : List String) (channel : String) :
    p.action? ≠ some (.resync channels channel) := by
  cases p with
  | decoded bytes result => cases result <;> nofun
  | spin | sleep _ | resyncAll | resize | stop | panic => nofun

/-- The frame that a pass of the source feeds. -/
def Reading.frame? (e : Reading) : Option ServerMessage :=
  e.pass.action?.bind Action.feed?

theorem Pass.op?_eq (p : Pass) : p.op? = p.action?.bind Action.op? := by
  cases p with
  | decoded bytes result => cases result <;> rfl
  | spin | sleep _ | resyncAll | resize | stop | panic => rfl

namespace Registry

variable {F : Type}

/-- A queue is given frames of the operations, in their order and each at most once. -/
theorem enqueued_sublist {n : Nat} {r : Registry F} (inv : Consistent n r) (ops : List (Op F))
    (below : n + ops.countP Op.isAdd ≤ 2 ^ 64) (id : ConnectionId) :
    (enqueued id r ops).Sublist (ops.filterMap Op.frame?) := by
  induction ops generalizing n r with
  | nil => exact List.Sublist.slnil
  | cons op ops ih =>
      have split : (op :: ops).countP Op.isAdd =
          [op].countP Op.isAdd + ops.countP Op.isAdd := by
        rw [← List.countP_append, List.singleton_append]
      rw [split] at below
      have later := ih (inv.step op (by omega)) (by omega)
      rw [enqueued, drop_queueOf_step inv.inverts]
      cases carries : op.frame? with
      | none =>
          rw [List.filterMap_cons_none carries]
          exact later
      | some frame =>
          rw [List.filterMap_cons_some carries]
          simp only
          split
          · exact later.cons_cons frame
          · exact later.cons frame

end Registry

namespace World

variable {σ : Type} {shared : Shared σ} {w w' : World σ} {a : Action}

/-- Of the calls on the registry, those of the application carry the feed. -/
theorem Step.feeds (step : Step shared w a w')
    (inv : ∀ (i : Nat) (t : Task), w.tasks[i]? = some t → t.Replies) :
    ((a.op?.bind Op.frame?).toList).filter ServerMessage.isFeed = a.feed?.toList := by
  cases step with
  | @act i t t' e found turn =>
      have silent : ∀ frame, (Action.act i e).op?.bind Op.frame? = some frame →
          frame.isFeed = false := by
        intro frame carried
        obtain ⟨op, called, carries⟩ := Option.bind_eq_some_iff.mp carried
        obtain ⟨id, claims, h, phase, calls⟩ := turn.delivers called carries
        have replies := inv i t found id claims h phase
        cases h with
        | start text =>
            simp only [Handling.op?] at calls
            split at calls <;> cases calls <;> cases carries
        | ack _ _ | snapshot _ _ _ =>
            cases calls
            cases carries
            rfl
        | reply f =>
            cases calls
            cases carries
            cases frame with
            | data _ _ | resync _ => cases replies
            | _ => rfl
        | snapshots _ | done => cases calls
      cases carried : (Action.act i e).op?.bind Op.frame? with
      | none => rfl
      | some frame => simp [silent frame carried, Action.feed?]
  | accept _ | refuse _ | publish _ _ | resync _ _ _ | resyncAll | update _ => rfl

/-- The calls of a run, as far as they carry the feed. -/
theorem feeds_run {as : List Action} (run : Run (Step shared) w as w')
    (inv : ∀ (i : Nat) (t : Task), w.tasks[i]? = some t → t.Replies) :
    ((as.filterMap Action.op?).filterMap Op.frame?).filter ServerMessage.isFeed =
      as.filterMap Action.feed? := by
  induction run with
  | nil => rfl
  | @cons w u w' a as step rest ih =>
      have first := step.feeds inv
      have later := ih (step.replies inv)
      rw [List.filterMap_filterMap, List.filterMap_eq_flatMap_toList,
        List.filterMap_eq_flatMap_toList] at later ⊢
      rw [List.flatMap_cons, List.flatMap_cons, List.filter_append, first, later]

/-- In every state reached, a message at hand is answered by a reply. -/
theorem replies_run {source : σ} {as : List Action}
    (run : Run (Step shared) (start shared source) as w) :
    ∀ (i : Nat) (t : Task), w.tasks[i]? = some t → t.Replies :=
  run.invariant (I := fun w => ∀ (i : Nat) (t : Task), w.tasks[i]? = some t → t.Replies)
    (fun inv step => step.replies inv) (by simp [start])

/-- A subscriber for which the step drops nothing gets all of the feed that concerns it.  A call of
`resync` for other channels is not told to it. -/
theorem Step.gains (step : Step shared w a w') {n : Nat} (consistent : w.registry.Consistent n)
    (inv : ∀ (i : Nat) (t : Task), w.tasks[i]? = some t → t.Replies) {id : ConnectionId}
    {ch : String} (joined : w.registry.Joined id)
    (subscribed : ch ∈ w.registry.subscriptionsOf id)
    (kept : ∀ op, a.op? = some op → w.registry.dropsFor id op = false)
    (whole : ∀ channels channel, a ≠ .resync channels channel) :
    ((w'.registry.queueOf id).drop (w.registry.queueOf id).length).filter
        (ServerMessage.concerns ch) =
      a.feed?.toList.filter (ServerMessage.concerns ch) := by
  have feeds := step.feeds inv
  rw [← feeds, List.filter_filter, step.registry_eq]
  have narrower : (fun frame : ServerMessage => frame.concerns ch && frame.isFeed) =
      ServerMessage.concerns ch := by
    funext frame
    cases frame <;> simp [ServerMessage.concerns, ServerMessage.isFeed]
  rw [narrower]
  cases called : a.op? with
  | none => simp [Registry.after]
  | some op =>
      simp only [Registry.after, Option.bind_some]
      cases carries : op.frame? with
      | none => rw [Registry.drop_queueOf_of_silent _ carries, Option.toList_none]
      | some frame =>
          obtain ⟨-, queue⟩ := joined.deliver op carries (kept op called)
          rw [queue, List.drop_left, Option.toList_some]
          cases concerned : frame.concerns ch with
          | false => split <;> simp [concerned]
          | true =>
              rw [called, Option.bind_some, carries, Option.toList_some,
                List.filter_cons_of_pos (ServerMessage.isFeed_of_concerns concerned),
                List.filter_nil] at feeds
              have reached : w.registry.reaches id op = true := by
                cases a with
                | publish channel payload =>
                    cases called
                    cases carries
                    obtain rfl : channel = ch := of_decide_eq_true concerned
                    exact decide_eq_true ((consistent.inverts.mem_members _ _).mpr subscribed)
                | resyncAll =>
                    cases called
                    rfl
                | resync channels channel => exact absurd rfl (whole channels channel)
                | accept | refuse | act _ _ | update => cases feeds
              rw [reached, if_pos rfl]

end World

/-! ## The source beside the server -/

/-- A server and the source thread that feeds it. -/
structure Feed (δ σ : Type) where
  drain : Drain δ
  world : World σ

namespace Feed

/-- What happens next: a pass of the source, or a step of the server. -/
inductive Event where
  | pass (e : Reading)
  | step (a : Action)
  deriving DecidableEq, Repr

namespace Event

/-- The source's part of an event. -/
def reading? : Event → Option Reading
  | pass e => some e
  | step _ => none

/-- The server's part of an event. -/
def action? : Event → Option Action
  | pass e => e.pass.action?
  | step a => some a

end Event

variable {δ σ : Type} {frames : Nat → List UInt8}
  {decode : δ → List UInt8 → δ × Option Decoded} {idle : Idle} {shared : Shared σ}

/-- One pass of the source with the call it makes, or one step of the server. -/
inductive Step (frames : Nat → List UInt8) (decode : δ → List UInt8 → δ × Option Decoded)
    (idle : Idle) (shared : Shared σ) : Feed δ σ → Event → Feed δ σ → Prop
  | quiet {s : Feed δ σ} {e : Reading} {d : Drain δ}
      (drained : Drain.Step frames decode idle s.drain e d) (silent : e.pass.op? = none) :
      Step frames decode idle shared s (.pass e) ⟨d, s.world⟩
  | call {s : Feed δ σ} {e : Reading} {d : Drain δ} {op : Op ServerMessage}
      (drained : Drain.Step frames decode idle s.drain e d) (calls : e.pass.op? = some op) :
      Step frames decode idle shared s (.pass e) ⟨d, s.world.apply (.call op)⟩
  | step {s : Feed δ σ} {a : Action} {w : World σ} (step : World.Step shared s.world a w) :
      Step frames decode idle shared s (.step a) ⟨s.drain, w⟩

/-- A server that has just been bound, and a source about to read the frame at `first`. -/
def start (shared : Shared σ) (source : σ) (first : Nat) (decoder : δ) : Feed δ σ where
  drain := { pos := first, decoder }
  world := .start shared source

variable {s s' : Feed δ σ} {ev : Event} {evs : List Event}

/-- An event without a part for the server leaves it alone. -/
theorem Step.world_eq (step : Step frames decode idle shared s ev s') (none : ev.action? = none) :
    s'.world = s.world := by
  cases step with
  | quiet _ _ => rfl
  | @call e d op _ calls =>
      rw [Pass.op?_eq, show e.pass.action? = .none from none] at calls
      cases calls
  | step _ => cases none

/-- The call of a pass is a step of the server. -/
theorem step_of_pass (shared : Shared σ) {p : Pass} {a : Action} (acts : p.action? = some a)
    (w : World σ) :
    ∃ op, p.op? = some op ∧ World.Step shared w a (w.apply (.call op)) := by
  cases p with
  | decoded bytes result =>
      cases result with
      | none => cases acts
      | some d =>
          cases acts
          exact ⟨_, rfl, .publish d.channel d.payload⟩
  | resyncAll =>
      cases acts
      exact ⟨_, rfl, .resyncAll⟩
  | spin | sleep _ | resize | stop | panic => cases acts

/-- An event's part for the server is a step of the server. -/
theorem Step.world_step (step : Step frames decode idle shared s ev s') {a : Action}
    (part : ev.action? = some a) : World.Step shared s.world a s'.world := by
  cases step with
  | quiet _ silent =>
      obtain ⟨op, calls, -⟩ := step_of_pass shared part s.world
      rw [silent] at calls
      cases calls
  | call _ calls =>
      obtain ⟨op, same, step⟩ := step_of_pass shared part s.world
      rw [calls] at same
      cases same
      exact step
  | step step =>
      cases part
      exact step

/-- A run of both is a run of the server, -/
theorem world_run (run : Run (Step frames decode idle shared) s evs s') :
    Run (World.Step shared) s.world (evs.filterMap Event.action?) s'.world :=
  run.observed Feed.world Event.action? (fun step none => step.world_eq none)
    fun step part => step.world_step part

/-- and a run of the source. -/
theorem drain_run (run : Run (Step frames decode idle shared) s evs s') :
    Run (Drain.Step frames decode idle) s.drain (evs.filterMap Event.reading?) s'.drain := by
  refine run.observed Feed.drain Event.reading? (fun step none => ?_) fun step part => ?_
  · cases step with
    | quiet _ _ | call _ _ => cases none
    | step _ => rfl
  · cases step with
    | quiet drained _ | call drained _ =>
        cases part
        exact drained
    | step _ => cases part

/-- Every run of the server is a run beside a source that makes no pass. -/
theorem run_of_world {as : List Action} {w w' : World σ} (run : Run (World.Step shared) w as w')
    (d : Drain δ) : Run (Step frames decode idle shared) ⟨d, w⟩ (as.map .step) ⟨d, w'⟩ := by
  induction run with
  | nil => exact .nil _
  | cons step _ ih => exact .cons (.step step) ih

/-- Where the source alone feeds the server, the feed is what the source reads. -/
theorem feed_eq (alone : ∀ a, .step a ∈ evs → a.feed? = none) :
    (evs.filterMap Event.action?).filterMap Action.feed? =
      (evs.filterMap Event.reading?).filterMap Reading.frame? := by
  rw [List.filterMap_filterMap, List.filterMap_filterMap]
  refine List.filterMap_congr fun ev listed => ?_
  cases ev with
  | pass e => rfl
  | step a => exact alone a listed

/-! ## One subscriber -/

/-- A decoder to which every frame is the value one of `x`. -/
def ones (_ : Unit) (_ : List UInt8) : Unit × Option Decoded :=
  ((), some ⟨"x", ⟨"1"⟩⟩)

/-- The consumer of a queue of empty frames is overrun, and then reads a frame. -/
def overrunThenOne : List Reading :=
  [⟨0, .overrun 3, 3, .resyncAll⟩,
    ⟨3, .frame 0 Source.new.buf, 4, .decoded [] (some ⟨"x", ⟨"1"⟩⟩)⟩]

theorem drains_overrun :
    Drain.Step (fun _ => []) ones .spin { pos := 0, decoder := () }
      ⟨0, .overrun 3, 3, .resyncAll⟩ { pos := 3, decoder := () } :=
  .pass rfl (.overrun 3 (by decide)) rfl

theorem drains_one :
    Drain.Step (fun _ => []) ones .spin { pos := 3, decoder := () }
      ⟨3, .frame 0 Source.new.buf, 4, .decoded [] (some ⟨"x", ⟨"1"⟩⟩)⟩
      { pos := 4, decoder := () } := by
  have passed : Source.new.pass .spin (fun bytes => (ones () bytes).2) (.frame 0 Source.new.buf) =
      (Source.new, .decoded [] (some ⟨"x", ⟨"1"⟩⟩)) := by
    rw [Source.pass, if_pos (Nat.zero_le _)]
    rfl
  exact .pass rfl (.frame rfl (Nat.zero_le _) rfl) passed

/-- The first client of `guarded`, subscribed to `x`, when the source has made these passes. -/
def fed : Feed Unit LastValue where
  drain := { pos := 4, decoder := () }
  world := (World.answered.apply (.call .resyncAll)).apply
    (.call (.publish "x" (.data "x" ⟨"1"⟩)))

/-- That client is written the acknowledgement of its request and the mark of the gap. -/
def written : Feed Unit LastValue where
  drain := fed.drain
  world :=
    { fed.world with
      registry := fed.world.registry.run [.recv ⟨1⟩, .recv ⟨1⟩]
      tasks := [{ World.registeredTask ⟨1⟩ (Claims.new "alice") authText with
        phase := .session ⟨1⟩ (Claims.new "alice") .check
        received := [.text authText, .text subscribeText]
        written := [.text (.authenticated "alice"), .text (.subscribed ["x"] []),
          .text (.resync [])] }] }

/-- The turns in which the client is written what is queued for it. -/
def writing : List Action :=
  [.act 0 .quiet, .act 0 .quiet, .act 0 (.call (.recv ⟨1⟩)), .act 0 .quiet, .act 0 .quiet,
    .act 0 (.call (.recv ⟨1⟩)), .act 0 .quiet]

theorem run_writing : Run (World.Step guarded) fed.world writing written.world := by
  refine .cons (.act rfl (.handled rfl)) ?_
  refine .cons (.act rfl (.fastEnough rfl (by decide))) ?_
  refine .cons (.act rfl (.recv rfl rfl rfl)) ?_
  refine .cons (.act rfl (.write rfl)) ?_
  refine .cons (.act rfl (.fastEnough rfl (by decide))) ?_
  refine .cons (.act rfl (.recv rfl rfl rfl)) ?_
  exact .single (.act rfl (.write rfl))

/-- **Nothing but the queue reaches a client.**  In every interleaving of a source thread with the
server, its tasks and its clients, with at most `2 ^ 64` registrations and nobody else feeding the
server: what a client has seen of the feed is, in order and each at most once, frames the source
published and gaps it met; and what the source published is what the decoder returned for the
frames of the queue that were not lost, in queue order. -/
theorem seen_run (frames : Nat → List UInt8) (decode : δ → List UInt8 → δ × Option Decoded)
    (idle : Idle) (shared : Shared σ) (source : σ) (first : Nat) (decoder : δ) (evs : List Event)
    (s : Feed δ σ)
    (run : Run (Step frames decode idle shared) (start shared source first decoder) evs s)
    (joins : (evs.filterMap Event.action?).countP Action.isJoin ≤ 2 ^ 64)
    (alone : ∀ a, .step a ∈ evs → a.feed? = none) (i : Nat) (t : Task) (id : ConnectionId)
    (found : s.world.tasks[i]? = some t) (given : t.id = some id) :
    (∃ (claims : Claims) (sent : List ServerMessage),
      t.texts = .authenticated claims.subject :: sent ∧
      (sent.filter ServerMessage.isFeed).Sublist
        ((evs.filterMap Event.reading?).filterMap Reading.frame?)) ∧
    (evs.filterMap Event.reading?).filterMap Reading.published? =
      (answers decode decoder (((List.range' first (s.drain.pos - first)).filter
        (· ∉ (evs.filterMap Event.reading?).flatMap Reading.lost)).map frames)).reduceOption := by
  have served : Run (World.Step shared) (.start shared source) _ s.world := world_run run
  have drained := drain_run run
  constructor
  · obtain ⟨claims, sent, texts, here⟩ := (World.Streamed.of_run served joins id).stream i t found
      given
    obtain ⟨-, -, adds⟩ := World.calls_run served (by simp [World.start])
    have part : sent <+: World.history id (.start shared source)
        (evs.filterMap Event.action?) := by
      rcases here with ⟨-, part⟩ | ⟨stage, -, -, -, all⟩
      · exact part
      · rw [all, List.append_assoc]
        exact List.prefix_append _ _
    have accepted : (World.history id (.start shared source) (evs.filterMap Event.action?)).Sublist
        (((evs.filterMap Event.action?).filterMap Action.op?).filterMap Op.frame?) :=
      Registry.enqueued_sublist Registry.Consistent.initial _ (by omega) id
    refine ⟨claims, sent, texts, ?_⟩
    rw [← feed_eq alone, ← World.feeds_run served (by simp [World.start])]
    exact (part.sublist.trans accepted).filter _
  · rw [Drain.published_run drained, Drain.decoded_run drained]
    rfl

/-- The passes of the source beside that client. -/
theorem run_passes :
    Run (Step (fun _ => []) ones .spin guarded) ⟨{ pos := 0, decoder := () }, World.answered⟩
      (overrunThenOne.map .pass) fed :=
  .cons (.call drains_overrun rfl) (.single (.call drains_one rfl))

/-- That client has seen the gap and not yet the frame behind it. -/
theorem seen_run_overrun :
    ∃ evs, Run (Step (fun _ => []) ones .spin guarded) (start guarded LastValue.new 0 ()) evs
        written ∧ evs.filterMap Event.reading? = overrunThenOne ∧
      [ServerMessage.resync []].Sublist (overrunThenOne.filterMap Reading.frame?) := by
  have run : Run (Step (fun _ => []) ones .spin guarded) (start guarded LastValue.new 0 ()) _
      written :=
    (run_of_world World.run_answered _).append (run_passes.append (run_of_world run_writing _))
  have silent : ∀ a ∈ World.connecting 0 (Claims.new "alice") 256 ++ World.asking ++ writing,
      a.feed? = none := by decide
  obtain ⟨⟨claims, sent, texts, seen⟩, -⟩ := seen_run (fun _ => []) ones .spin guarded
    LastValue.new 0 () _ written run (by decide)
    (fun a listed => silent a (by simpa [overrunThenOne] using listed)) 0 _ ⟨1⟩ rfl rfl
  refine ⟨_, run, rfl, ?_⟩
  obtain ⟨-, rest⟩ := List.cons.inj texts
  rw [← rest] at seen
  exact seen

/-! ## A subscriber that keeps up -/

/-- The session of `id` goes on, and holds `ch`. -/
def Subscribed (id : ConnectionId) (ch : String) (w : World σ) : Prop :=
  ch ∈ w.registry.subscriptionsOf id ∧
    ∃ (i : Nat) (t : Task) (claims : Claims) (stage : Session), w.tasks[i]? = some t ∧
      t.phase = .session id claims stage

/-- A step of both at which the connection `id` holds `ch` and nothing is dropped for it. -/
def Keeping (frames : Nat → List UInt8) (decode : δ → List UInt8 → δ × Option Decoded)
    (idle : Idle) (shared : Shared σ) (id : ConnectionId) (ch : String) (s : Feed δ σ)
    (ev : Event) (s' : Feed δ σ) : Prop :=
  Step frames decode idle shared s ev s' ∧ Subscribed id ch s.world ∧
    ∀ a op, ev.action? = some a → a.op? = some op → s.world.registry.dropsFor id op = false

/-- A connection whose session goes on is there. -/
theorem Subscribed.joined {source : σ} {as : List Action} {w : World σ} {id : ConnectionId}
    {ch : String} (subscribed : Subscribed id ch w)
    (reached : Run (World.Step shared) (.start shared source) as w)
    (joins : as.countP Action.isJoin ≤ 2 ^ 64) : w.registry.Joined id := by
  obtain ⟨-, i, t, claims, stage, found, phase⟩ := subscribed
  obtain ⟨gate, -⟩ := World.Owners.of_run reached joins
  have stands : t.phase.registered? = some (id, claims) := by
    rw [phase]
    rfl
  have given := (gate.id_of_registered found stands).1
  obtain ⟨_, _, _, here⟩ := (World.Streamed.of_run reached joins id).stream i t found given
  rcases here with ⟨left, -⟩ | ⟨_, _, _, joined, _⟩
  · rw [phase] at left
    cases left
  · exact joined

/-- What a subscriber that keeps up is given of the feed. -/
theorem kept_run {source : σ} {first : Nat} {decoder : δ} {evs₁ evs₂ : List Event}
    {s₁ s : Feed δ σ} {id : ConnectionId} {ch : String}
    (run : Run (Keeping frames decode idle shared id ch) s₁ evs₂ s)
    (reached : Run (Step frames decode idle shared) (start shared source first decoder) evs₁ s₁)
    (joins : (evs₁.filterMap Event.action?).countP Action.isJoin +
      (evs₂.filterMap Event.action?).countP Action.isJoin ≤ 2 ^ 64)
    (alone : ∀ a, .step a ∈ evs₂ → a.feed? = none) :
    (World.history id s₁.world (evs₂.filterMap Event.action?)).filter
        (ServerMessage.concerns ch) =
      ((evs₂.filterMap Event.action?).filterMap Action.feed?).filter
        (ServerMessage.concerns ch) := by
  induction run generalizing evs₁ with
  | nil => rfl
  | @cons s₁ u s ev evs₂ keeping rest ih =>
      obtain ⟨step, subscribed, kept⟩ := keeping
      have alone' := fun a listed => alone a (List.mem_cons_of_mem ev listed)
      cases part : ev.action? with
      | none =>
          rw [List.filterMap_cons_none part] at joins ⊢
          have later := ih (reached.append (.single step)) (by
            rw [List.filterMap_append, List.filterMap_cons_none part, List.filterMap_nil,
              List.append_nil]
            exact joins) alone'
          rw [step.world_eq part] at later
          exact later
      | some a =>
          rw [List.filterMap_cons_some part, List.countP_cons] at joins
          have served : Run (World.Step shared) (.start shared source) _ s₁.world :=
            world_run reached
          have later := ih (reached.append (.single step)) (by
            rw [List.filterMap_append, List.filterMap_cons_some part, List.filterMap_nil,
              List.countP_append, List.countP_singleton]
            omega) alone'
          have whole : ∀ channels channel, a ≠ .resync channels channel := by
            rintro channels channel rfl
            cases ev with
            | pass e => exact e.pass.action?_ne_resync channels channel part
            | step b =>
                cases part
                cases alone _ List.mem_cons_self
          have gains := (step.world_step part).gains
            (World.Owners.of_run served (by omega)).2.consistent (World.replies_run served)
            (subscribed.joined served (by omega)) subscribed.1
            (fun op called => kept a op part called) whole
          rw [List.filterMap_cons_some part, (step.world_step part).history, List.filter_append,
            gains, later, List.filterMap_cons]
          cases a.feed? with
          | none => rfl
          | some frame => rw [Option.toList_some, ← List.filter_append, List.singleton_append]

/-- **A subscriber that keeps up misses nothing.**  However the source, the tasks and the clients
interleave, with at most `2 ^ 64` registrations: from a state in which a connection holds `ch`, and
for as long as its session goes on, it holds `ch`, nothing is dropped for it and nobody but the
source feeds the server, each frame the source publishes on `ch` and each gap it meets is on the
socket, being written or queued, in this order and behind what had come before. -/
theorem complete_run (frames : Nat → List UInt8) (decode : δ → List UInt8 → δ × Option Decoded)
    (idle : Idle) (shared : Shared σ) (source : σ) (first : Nat) (decoder : δ)
    (evs₁ evs₂ : List Event) (s₁ s : Feed δ σ) (id : ConnectionId) (ch : String)
    (reached : Run (Step frames decode idle shared) (start shared source first decoder) evs₁ s₁)
    (run : Run (Keeping frames decode idle shared id ch) s₁ evs₂ s)
    (joins : (evs₁.filterMap Event.action?).countP Action.isJoin +
      (evs₂.filterMap Event.action?).countP Action.isJoin ≤ 2 ^ 64)
    (alone : ∀ a, .step a ∈ evs₂ → a.feed? = none) (i : Nat) (t : Task) (claims : Claims)
    (stage : Session) (found : s.world.tasks[i]? = some t)
    (phase : t.phase = .session id claims stage) :
    ∃ sent, t.texts = .authenticated claims.subject :: sent ∧
      (sent ++ stage.inflight ++ s.world.registry.queueOf id).filter (ServerMessage.concerns ch) =
        (World.history id (.start shared source) (evs₁.filterMap Event.action?)).filter
            (ServerMessage.concerns ch) ++
          ((evs₂.filterMap Event.reading?).filterMap Reading.frame?).filter
            (ServerMessage.concerns ch) := by
  have served : Run (World.Step shared) (.start shared source) _ s₁.world := world_run reached
  have whole := served.append (world_run (run.mono fun keeping => keeping.1))
  have within := joins
  rw [← List.countP_append] at within
  have stands : t.phase.registered? = some (id, claims) := by
    rw [phase]
    rfl
  have given := ((World.Owners.of_run whole within).1.id_of_registered found stands).1
  obtain ⟨claims', sent, texts, here⟩ := (World.Streamed.of_run whole within id).stream i t found
    given
  rcases here with ⟨left, -⟩ | ⟨stage', phase', -, -, all⟩
  · rw [phase] at left
    cases left
  · rw [phase] at phase'
    cases phase'
    refine ⟨sent, texts, ?_⟩
    rw [← all, World.history_run served, List.filter_append, kept_run run reached joins alone,
      feed_eq alone]

/-- While nothing has been written to it, both are queued for the client. -/
theorem complete_run_overrun :
    Run (Keeping (fun _ => []) ones .spin guarded ⟨1⟩ "x")
        ⟨{ pos := 0, decoder := () }, World.answered⟩ (overrunThenOne.map .pass) fed ∧
      (fed.world.registry.queueOf ⟨1⟩).filter (ServerMessage.concerns "x") =
        [.resync [], .data "x" ⟨"1"⟩] := by
  have held : Subscribed ⟨1⟩ "x" World.answered :=
    ⟨by decide, 0, _, Claims.new "alice", .handling .done, rfl, rfl⟩
  have later : Subscribed ⟨1⟩ "x" (World.answered.apply (.call .resyncAll)) :=
    ⟨by decide, 0, _, Claims.new "alice", .handling .done, rfl, rfl⟩
  have run : Run (Keeping (fun _ => []) ones .spin guarded ⟨1⟩ "x")
      ⟨{ pos := 0, decoder := () }, World.answered⟩ (overrunThenOne.map .pass) fed := by
    refine .cons ⟨.call drains_overrun rfl, held, ?_⟩ <|
      .single ⟨.call drains_one rfl, later, ?_⟩
    · rintro a op ⟨⟩ ⟨⟩
      rfl
    · rintro a op ⟨⟩ ⟨⟩
      rfl
  obtain ⟨sent, texts, all⟩ := complete_run (fun _ => []) ones .spin guarded LastValue.new 0 () _ _
    ⟨_, World.answered⟩ fed ⟨1⟩ "x" (run_of_world World.run_answered _) run (by decide)
    (by simp [overrunThenOne]) 0 _ (Claims.new "alice") (.handling .done) rfl rfl
  refine ⟨run, ?_⟩
  obtain ⟨-, rest⟩ := List.cons.inj texts
  rw [← rest] at all
  exact all.trans (by decide)

end Feed

end WsFanout
