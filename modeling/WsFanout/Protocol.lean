import Mathlib.Data.List.Basic

/-!
# The wire protocol

The messages of `protocol.rs`.  A frame is the serialised text of one `ServerMessage`; the registry
and the connection tasks only store, copy and forward it, so the model carries the message itself.
Channels are opaque strings, and a payload is the JSON text it was published with.
-/

namespace WsFanout

/-- One JSON value, kept as the text it came in. -/
structure RawValue where
  get : String
  deriving DecidableEq, Repr

/-- What a client may send. -/
inductive ClientMessage where
  | auth (token : String)
  | subscribe (channels : List String)
  | unsubscribe (channels : List String)
  | ping (timestamp : UInt64)
  deriving DecidableEq, Repr

/-- Why a requested channel was refused. -/
inductive Reason where
  | invalid
  | unauthorized
  | limit
  deriving DecidableEq, Repr

/-- A channel the client asked for and did not get. -/
structure Rejected where
  channel : String
  reason : Reason
  deriving DecidableEq, Repr

/-- Machine-readable code of an `error` message. -/
inductive ErrorCode where
  | unauthenticated
  | alreadyAuthenticated
  | invalidMessage
  | protocol
  deriving DecidableEq, Repr

/-- What the server sends. -/
inductive ServerMessage where
  | authenticated (subject : String)
  | subscribed (channels : List String) (rejected : List Rejected)
  | unsubscribed (channels : List String)
  | data (channel : String) (payload : RawValue)
  | snapshot (channel : String) (payload : RawValue)
  | resync (channels : List String)
  | pong (timestamp : UInt64)
  | error (code : ErrorCode) (message : String)
  deriving DecidableEq, Repr

namespace ServerMessage

/-- The channel a frame carries state of: the one of a `data` or a `snapshot`. -/
def channel? : ServerMessage → Option String
  | data channel _ => some channel
  | snapshot channel _ => some channel
  | _ => none

/-- The payload of a `data` frame on `ch`. -/
def dataOn? (ch : String) : ServerMessage → Option RawValue
  | data channel payload => if channel = ch then some payload else none
  | _ => none

/-- Frames that speak of authentication: the acknowledgement and the refusal. -/
def speaksOfAuth : ServerMessage → Bool
  | authenticated _ => true
  | error code _ => code = .unauthenticated
  | _ => false

end ServerMessage

end WsFanout
