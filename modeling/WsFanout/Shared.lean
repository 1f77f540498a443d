import Mathlib.Data.Finmap
import WsFanout.Protocol

/-!
# What the connection tasks share

The configuration of `server.rs`, the error type, and the three things an application plugs in: a
token validator and an authorizer of `auth.rs`, and a snapshot source of `snapshot.rs`.  The
validator and the authorizer are pure; a snapshot source may be written to while the server runs,
so it reads a state of its own.  Reading a client's text is the work of the JSON library, and is a
field here like the other three.
-/

namespace WsFanout

/-- Something went wrong starting or running the server. -/
inductive Error where
  | io (detail : String)
  | webSocket (detail : String)
  | protocol (detail : String)
  | unauthenticated (detail : String)
  | config (detail : String)
  deriving DecidableEq, Repr

/-- The text of an error, as it is logged and sent. -/
def Error.toString : Error → String
  | io detail => "io: " ++ detail
  | webSocket detail => "websocket: " ++ detail
  | protocol detail => "protocol: " ++ detail
  | unauthenticated detail => "unauthenticated: " ++ detail
  | config detail => "invalid config: " ++ detail

/-- Tunables.  Durations are in nanoseconds. -/
structure Config where
  maxConnections : Nat := 10000
  maxMessageSize : Nat := 64 * 1024
  maxSubscriptions : Nat := 256
  maxChannelLen : Nat := 256
  sendQueue : Nat := 256
  maxConsecutiveDrops : UInt64 := 1000
  authTimeout : Nat := 10 * 10 ^ 9
  heartbeatInterval : Nat := 30 * 10 ^ 9
  heartbeatTimeout : Nat := 90 * 10 ^ 9
  deriving DecidableEq, Repr

/-- `Semaphore::MAX_PERMITS` on a 64-bit machine. -/
def maxPermits : Nat :=
  (2 ^ 64 - 1) / 8

/-- Reject values that would panic later, before anything is bound or spawned. -/
def Config.validate (c : Config) : Except Error Unit :=
  if c.maxConnections = 0 then .error (.config "max_connections must be non-zero")
  else if maxPermits < c.maxConnections then
    .error (.config "max_connections exceeds the permit limit")
  else if c.maxMessageSize = 0 then .error (.config "max_message_size must be non-zero")
  else if c.maxSubscriptions = 0 then .error (.config "max_subscriptions must be non-zero")
  else if c.maxChannelLen = 0 then .error (.config "max_channel_len must be non-zero")
  else if c.sendQueue = 0 then .error (.config "send_queue must be non-zero")
  else if c.heartbeatInterval = 0 then .error (.config "heartbeat_interval must be non-zero")
  else .ok ()

example : Config.validate {} = .ok () := by rfl

/-- What a validated token says about the connection. -/
structure Claims where
  subject : String
  attributes : List (String × RawValue)
  deriving DecidableEq, Repr

/-- Claims with only a subject. -/
def Claims.new (subject : String) : Claims where
  subject := subject
  attributes := []

/-- The validator that accepts exactly one fixed token and maps it to a subject. -/
def StaticToken.validate (token subject : String) (t : String) : Except String Claims :=
  if t = token then .ok (Claims.new subject) else .error "invalid token"

/-- The authorizer that accepts every subscription. -/
def AllowAll.maySubscribe (_ : Claims) (_ : String) : Bool :=
  true

/-- Everything a connection task reads and never writes. -/
structure Shared (σ : Type) where
  config : Config
  /-- Reads one client message, or says what is wrong with the text. -/
  fromStr : String → Except String ClientMessage
  validate : String → Except String Claims
  maySubscribe : Claims → String → Bool
  /-- The snapshot the source in state `σ` has for a channel. -/
  snapshot : σ → String → Option RawValue

/-- The last payload recorded on each channel, served as the channel's snapshot. -/
structure LastValue where
  last : Finmap fun _ : String => RawValue

namespace LastValue

/-- Nothing recorded. -/
def new : LastValue :=
  ⟨∅⟩

/-- Record `payload` as the latest state of `channel`. -/
def record (s : LastValue) (channel : String) (payload : RawValue) : LastValue :=
  ⟨s.last.insert channel payload⟩

def snapshot (s : LastValue) (channel : String) : Option RawValue :=
  s.last.lookup channel

@[simp] theorem snapshot_record (s : LastValue) (channel : String) (payload : RawValue) :
    (s.record channel payload).snapshot channel = some payload :=
  Finmap.lookup_insert _

end LastValue

/-! ## A small server

Two client messages as they stand on the wire, and a server that serves the last value of each
channel to anyone with the token `t`.  The runs that show where a guarantee ends are runs of it. -/

/-- A client presents its token. -/
def authText : String :=
  "\x7b\"type\":\"auth\",\"token\":\"t\"\x7d"

/-- A client asks for the channel `x`. -/
def subscribeText : String :=
  "\x7b\"type\":\"subscribe\",\"channels\":[\"x\"]\x7d"

def demo : Shared LastValue where
  config := {}
  fromStr text :=
    if text = authText then .ok (.auth "t")
    else if text = subscribeText then .ok (.subscribe ["x"])
    else .error "expected value at line 1 column 1"
  validate := StaticToken.validate "t" "alice"
  maySubscribe := AllowAll.maySubscribe
  snapshot := LastValue.snapshot

/-- The same server under another configuration. -/
def demoWith (config : Config) : Shared LastValue :=
  { demo with config := config }

end WsFanout
