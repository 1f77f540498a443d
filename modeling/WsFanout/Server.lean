import WsFanout.Handle

/-!
# The listener and the connection tasks

`server.rs` as a transition system.  `Task` is one connection task from the moment it is spawned to
its end, and `Turn` one of its turns: an awaited operation completes, a call on the registry is
made, or a local is dropped.  Every exit of `connection` and `session` is a turn, a panic in the
application's validator, authorizer or snapshot source included; on each of them the receiver, the
registry guard and the permit are dropped in this order, as far as the task has them.

`World` is the registry, the permits and all tasks, and `Step` one turn of one task, one accepted
or refused connection, or one call of another thread.  Runs of `Step` are the interleavings.
-/

namespace WsFanout

open Lib

variable {σ : Type}

/-- What the socket's stream yields. -/
inductive Inbound where
  | text (text : String)
  | binary
  | ping (payload : List UInt8)
  | pong
  | close
  | frame
  | failed (detail : String)
  | ended
  deriving DecidableEq, Repr

/-- What the server writes on a socket, close frames apart. -/
inductive Outbound where
  | text (frame : ServerMessage)
  | ping
  | pong (payload : List UInt8)
  deriving DecidableEq, Repr

/-- The text frame of a write, if it is one. -/
def Outbound.text? : Outbound → Option ServerMessage
  | text frame => some frame
  | _ => none

/-- Judge the first message, `none` if it did not come in time: it must be `auth`. -/
def authenticate (shared : Shared σ) : Option Inbound → Except Error Claims
  | none => .error (.unauthenticated "auth timeout")
  | some (.text text) =>
    match shared.fromStr text with
    | .ok (.auth token) => (shared.validate token).mapError .unauthenticated
    | _ => .error (.unauthenticated "expected an auth message")
  | some .close => .error (.unauthenticated "closed before auth")
  | some .ended => .error (.unauthenticated "closed before auth")
  | some (.failed detail) => .error (.webSocket detail)
  | some _ => .error (.unauthenticated "expected an auth message")

/-- Where the authenticated lifetime of a connection stands. -/
inductive Session where
  /-- Before the heartbeat timer exists. -/
  | starting
  /-- Waiting for a queued frame, an inbound message or a tick. -/
  | select
  /-- A write is pending. -/
  | writing (message : Outbound)
  /-- A client message is being handled. -/
  | handling (h : Handling)
  /-- The drops are about to be compared with the limit. -/
  | check
  /-- The socket is being closed. -/
  | closing
  deriving DecidableEq, Repr

/-- The branch an inbound message takes; `none` leaves the loop. -/
def Session.inbound : Inbound → Option Session
  | .text text => some (handling (.start text))
  | .binary =>
    some (handling (.reply (.error .protocol "binary frames are not part of this protocol")))
  | .ping payload => some (writing (.pong payload))
  | .pong => some check
  | .frame => some check
  | .close => none
  | .failed _ => none
  | .ended => none

/-- Where a connection task stands. -/
inductive Phase where
  | handshake
  | authenticating
  /-- The refusal is being written. -/
  | refusing (e : Error)
  /-- The refused socket is being closed. -/
  | closing (e : Error)
  /-- The acknowledgement is being written. -/
  | acking (claims : Claims)
  /-- The acknowledgement is written; the queue and the registry entry are next. -/
  | joining (claims : Claims)
  | session (id : ConnectionId) (claims : Claims) (stage : Session)
  /-- The session is over; its receiver is dropped next. -/
  | leaving (id : ConnectionId) (claims : Claims)
  /-- The registry guard is dropped next. -/
  | unregistering (id : ConnectionId) (claims : Claims)
  /-- The permit is dropped next. -/
  | releasing
  | ended
  deriving DecidableEq, Repr

/-- The registry entry and the claims a task stands for, while its guard is alive. -/
def Phase.registered? : Phase → Option (ConnectionId × Claims)
  | session id claims _ => some (id, claims)
  | leaving id claims => some (id, claims)
  | unregistering id claims => some (id, claims)
  | _ => none

/-- A task's end of its queue. -/
inductive Receiver where
  /-- Not made yet, or dropped. -/
  | absent
  /-- The other end is the registry's entry. -/
  | attached
  /-- The entry is gone or replaced; these frames were still queued. -/
  | detached (buffer : List ServerMessage)
  deriving DecidableEq, Repr

/-- One connection task, with what it has read from its socket and written to it. -/
structure Task where
  phase : Phase := .handshake
  /-- The id its call of `add` returned. -/
  id : Option ConnectionId := none
  rx : Receiver := .absent
  received : List Inbound := []
  written : List Outbound := []
  deriving DecidableEq, Repr

namespace Task

/-- The text frames the server has written to the socket. -/
def texts (t : Task) : List ServerMessage :=
  t.written.filterMap Outbound.text?

/-- The registry drops its end of the queue of `id`, which held `buffer`. -/
def detach (id : ConnectionId) (buffer : List ServerMessage) (t : Task) : Task :=
  if t.id = some id ∧ t.rx = .attached then { t with rx := .detached buffer } else t

end Task

/-- What a turn does outside its task. -/
inductive Effect where
  | quiet
  | call (op : Op ServerMessage)
  | join (subject : String) (sendQueue : Nat)
  | unregister (id : ConnectionId)
  | release
  | timeout
  deriving DecidableEq, Repr

/-- A write that failed may have reached the socket all the same. -/
def attempted (message : Outbound) (reached : Bool) : List Outbound :=
  if reached then [message] else []

/-- The step of `handle` that comes next calls the application. -/
def Handling.CallsOut (shared : Shared σ) : Handling → Prop
  | .start text => ∃ channels, shared.fromStr text = .ok (.subscribe channels) ∧
    (shared.sized channels).1 ≠ []
  | .snapshots rest => rest ≠ []
  | _ => False

/-- One turn of a task, in a world with registry `r` and snapshot source `source`. -/
inductive Turn (shared : Shared σ) (r : Registry ServerMessage) (source : σ) :
    Task → Effect → Task → Prop
  | upgraded {t : Task} (phase : t.phase = .handshake) :
      Turn shared r source t .quiet { t with phase := .authenticating }
  | notUpgraded {t : Task} (phase : t.phase = .handshake) :
      Turn shared r source t .quiet { t with phase := .releasing }
  | authorised {t : Task} {claims : Claims} (first : Option Inbound)
      (phase : t.phase = .authenticating) (accepted : authenticate shared first = .ok claims) :
      Turn shared r source t .quiet
        { t with phase := .acking claims, received := t.received ++ first.toList }
  | refused {t : Task} {e : Error} (first : Option Inbound)
      (phase : t.phase = .authenticating) (rejected : authenticate shared first = .error e) :
      Turn shared r source t .quiet
        { t with phase := .refusing e, received := t.received ++ first.toList }
  | validatorPanic {t : Task} (text token : String) (phase : t.phase = .authenticating)
      (parsed : shared.fromStr text = .ok (.auth token)) :
      Turn shared r source t .quiet
        { t with phase := .releasing, received := t.received ++ [.text text] }
  | refuse {t : Task} {e : Error} (reached : Bool) (phase : t.phase = .refusing e) :
      Turn shared r source t .quiet
        { t with
          phase := .closing e
          written := t.written ++
            attempted (.text (.error .unauthenticated e.toString)) reached }
  | closed {t : Task} {e : Error} (phase : t.phase = .closing e) :
      Turn shared r source t .quiet { t with phase := .releasing }
  | acknowledge {t : Task} {claims : Claims} (phase : t.phase = .acking claims) :
      Turn shared r source t .quiet
        { t with
          phase := .joining claims
          written := t.written ++ [.text (.authenticated claims.subject)] }
  | notAcknowledged {t : Task} {claims : Claims} (reached : Bool)
      (phase : t.phase = .acking claims) :
      Turn shared r source t .quiet
        { t with
          phase := .releasing
          written := t.written ++ attempted (.text (.authenticated claims.subject)) reached }
  | channelPanic {t : Task} {claims : Claims} (phase : t.phase = .joining claims)
      (capacity : shared.config.sendQueue = 0 ∨ maxPermits < shared.config.sendQueue) :
      Turn shared r source t .quiet { t with phase := .releasing }
  | join {t : Task} {claims : Claims} (phase : t.phase = .joining claims)
      (capacity : 0 < shared.config.sendQueue ∧ shared.config.sendQueue ≤ maxPermits) :
      Turn shared r source t (.join claims.subject shared.config.sendQueue)
        { t with
          phase := .session ⟨r.nextId⟩ claims .starting
          id := some ⟨r.nextId⟩
          rx := .attached }
  | timerPanic {t : Task} {id : ConnectionId} {claims : Claims}
      (phase : t.phase = .session id claims .starting)
      (period : shared.config.heartbeatInterval = 0) :
      Turn shared r source t .quiet { t with phase := .leaving id claims }
  | start {t : Task} {id : ConnectionId} {claims : Claims}
      (phase : t.phase = .session id claims .starting)
      (period : 0 < shared.config.heartbeatInterval) :
      Turn shared r source t .quiet { t with phase := .session id claims .select }
  | recv {t : Task} {id : ConnectionId} {claims : Claims} {frame : ServerMessage}
      (phase : t.phase = .session id claims .select) (rx : t.rx = .attached)
      (taken : (r.step (.recv id)).2 = .taken (.frame frame)) :
      Turn shared r source t (.call (.recv id))
        { t with phase := .session id claims (.writing (.text frame)) }
  | drain {t : Task} {id : ConnectionId} {claims : Claims} {frame : ServerMessage}
      {buffer : List ServerMessage} (phase : t.phase = .session id claims .select)
      (rx : t.rx = .detached (frame :: buffer)) :
      Turn shared r source t .quiet
        { t with phase := .session id claims (.writing (.text frame)), rx := .detached buffer }
  | drained {t : Task} {id : ConnectionId} {claims : Claims}
      (phase : t.phase = .session id claims .select) (rx : t.rx = .detached []) :
      Turn shared r source t .quiet { t with phase := .leaving id claims }
  | inbound {t : Task} {id : ConnectionId} {claims : Claims} {next : Session} (message : Inbound)
      (phase : t.phase = .session id claims .select)
      (branch : Session.inbound message = some next) :
      Turn shared r source t .quiet
        { t with phase := .session id claims next, received := t.received ++ [message] }
  | inboundEnd {t : Task} {id : ConnectionId} {claims : Claims} (message : Inbound)
      (phase : t.phase = .session id claims .select) (branch : Session.inbound message = none) :
      Turn shared r source t .quiet
        { t with phase := .leaving id claims, received := t.received ++ [message] }
  | tick {t : Task} {id : ConnectionId} {claims : Claims}
      (phase : t.phase = .session id claims .select) :
      Turn shared r source t .quiet { t with phase := .session id claims (.writing .ping) }
  | timeout {t : Task} {id : ConnectionId} {claims : Claims}
      (phase : t.phase = .session id claims .select) :
      Turn shared r source t .timeout { t with phase := .session id claims .closing }
  | write {t : Task} {id : ConnectionId} {claims : Claims} {message : Outbound}
      (phase : t.phase = .session id claims (.writing message)) :
      Turn shared r source t .quiet
        { t with phase := .session id claims .check, written := t.written ++ [message] }
  | notWritten {t : Task} {id : ConnectionId} {claims : Claims} {message : Outbound}
      (reached : Bool) (phase : t.phase = .session id claims (.writing message)) :
      Turn shared r source t .quiet
        { t with
          phase := .leaving id claims
          written := t.written ++ attempted message reached }
  | handle {t : Task} {id : ConnectionId} {claims : Claims} {h : Handling}
      (phase : t.phase = .session id claims (.handling h)) (going : h ≠ .done) :
      Turn shared r source t ((h.op? shared id claims).elim .quiet .call)
        { t with phase := .session id claims (.handling (h.step shared id claims source r).2) }
  | handlePanic {t : Task} {id : ConnectionId} {claims : Claims} {h : Handling}
      (phase : t.phase = .session id claims (.handling h)) (calls : h.CallsOut shared) :
      Turn shared r source t .quiet { t with phase := .leaving id claims }
  | handled {t : Task} {id : ConnectionId} {claims : Claims}
      (phase : t.phase = .session id claims (.handling .done)) :
      Turn shared r source t .quiet { t with phase := .session id claims .check }
  | fastEnough {t : Task} {id : ConnectionId} {claims : Claims}
      (phase : t.phase = .session id claims .check)
      (drops : r.drops id < shared.config.maxConsecutiveDrops) :
      Turn shared r source t .quiet { t with phase := .session id claims .select }
  | tooSlow {t : Task} {id : ConnectionId} {claims : Claims}
      (phase : t.phase = .session id claims .check)
      (drops : shared.config.maxConsecutiveDrops ≤ r.drops id) :
      Turn shared r source t .quiet { t with phase := .session id claims .closing }
  | sinkClosed {t : Task} {id : ConnectionId} {claims : Claims}
      (phase : t.phase = .session id claims .closing) :
      Turn shared r source t .quiet { t with phase := .leaving id claims }
  | dropReceiver {t : Task} {id : ConnectionId} {claims : Claims}
      (phase : t.phase = .leaving id claims) :
      Turn shared r source t (if t.rx = .attached then .call (.close id) else .quiet)
        { t with phase := .unregistering id claims, rx := .absent }
  | unregister {t : Task} {id : ConnectionId} {claims : Claims}
      (phase : t.phase = .unregistering id claims) :
      Turn shared r source t (.unregister id) { t with phase := .releasing }
  | release {t : Task} (phase : t.phase = .releasing) :
      Turn shared r source t .release { t with phase := .ended }

/-- The registry, the snapshot source, the free permits and every task spawned so far. -/
structure World (σ : Type) where
  registry : Registry ServerMessage
  source : σ
  permits : Nat
  tasks : List Task
  refusedFull : UInt64
  heartbeatTimeouts : UInt64

/-- What happens next: a connection is accepted or refused, a task takes its turn, or another
thread calls the server or writes to the snapshot source. -/
inductive Action where
  | accept
  | refuse
  | act (i : Nat) (e : Effect)
  | publish (channel : String) (payload : RawValue)
  | resync (channels : List String) (channel : String)
  | resyncAll
  | update
  deriving DecidableEq, Repr

/-- The action registers a connection. -/
def Action.isJoin : Action → Bool
  | act _ (.join _ _) => true
  | _ => false

/-- The action gives back the permit of task `i`. -/
def Action.releases (i : Nat) : Action → Bool
  | act j .release => i = j
  | _ => false

namespace World

/-- The server as it is bound: nothing connected, every permit free. -/
def start (shared : Shared σ) (source : σ) : World σ where
  registry := Registry.new
  source := source
  permits := shared.config.maxConnections
  tasks := []
  refusedFull := 0
  heartbeatTimeouts := 0

/-- What a turn does to the world around its task. -/
def apply (w : World σ) : Effect → World σ
  | .quiet => w
  | .call op => { w with registry := (w.registry.step op).1 }
  | .join subject sendQueue =>
    { w with
      registry := (w.registry.step (.add subject sendQueue)).1
      tasks := w.tasks.map
        (Task.detach ⟨w.registry.nextId⟩ (w.registry.queueOf ⟨w.registry.nextId⟩)) }
  | .unregister id =>
    { w with
      registry := (w.registry.step (.remove id)).1
      tasks := w.tasks.map (Task.detach id (w.registry.queueOf id)) }
  | .release => { w with permits := w.permits + 1 }
  | .timeout => { w with heartbeatTimeouts := w.heartbeatTimeouts + 1 }

/-- Replace task `i`. -/
def put (w : World σ) (i : Nat) (t : Task) : World σ :=
  { w with tasks := w.tasks.set i t }

/-- Open connections. -/
def connections (w : World σ) : Nat :=
  w.registry.len

/-- One step of the server. -/
inductive Step (shared : Shared σ) : World σ → Action → World σ → Prop
  | accept {w : World σ} (free : 0 < w.permits) :
      Step shared w .accept { w with permits := w.permits - 1, tasks := w.tasks ++ [{}] }
  | refuse {w : World σ} (full : w.permits = 0) :
      Step shared w .refuse { w with refusedFull := w.refusedFull + 1 }
  | act {w : World σ} {i : Nat} {t t' : Task} {e : Effect} (found : w.tasks[i]? = some t)
      (turn : Turn shared w.registry w.source t e t') :
      Step shared w (.act i e) ((w.apply e).put i t')
  | publish {w : World σ} (channel : String) (payload : RawValue) :
      Step shared w (.publish channel payload)
        (w.apply (.call (.publish channel (.data channel payload))))
  | resync {w : World σ} (channels : List String) (channel : String)
      (listed : channel ∈ channels) :
      Step shared w (.resync channels channel)
        (w.apply (.call (.publish channel (.resync channels))))
  | resyncAll {w : World σ} :
      Step shared w .resyncAll (w.apply (.call (.broadcast (.resync []))))
  | update {w : World σ} (source : σ) :
      Step shared w .update { w with source := source }

end World

end WsFanout
