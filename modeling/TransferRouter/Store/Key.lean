import TransferRouter.Codec.Records
import TransferRouter.Sha256

/-!
The keys of the store. Each family has a byte of its own in front; the rest is the encoding of what
the key names, except that recorded payloads are keyed by the plain bytes of their hash, and the
time index by the time with its high byte first, so that key order is time order.
-/

namespace TransferRouter

/-- What is kept in the store. -/
inductive Key where
  | params
  | pausedAction (id : ActionId)
  | pausedProtocol (id : ProtocolId)
  | pausedRoute (protocol : ProtocolId) (counterparty : String)
  | sequence
  | pending (hash : PayloadHash)
  | pendingByTime (timestamp : UInt64) (hash : PayloadHash)
  | traffic (source destination : CrossChainId) (denom : String)
  | dispatchCount (source destination : CrossChainId)
  deriving DecidableEq

namespace Key

open Codec

/-- The bytes under which a thing is kept. -/
def bytes : Key → Bytes
  | params => [0x01]
  | pausedAction id => 0x10 :: encode id
  | pausedProtocol id => 0x20 :: encode id
  | pausedRoute protocol counterparty => 0x21 :: encode (protocol, counterparty)
  | sequence => [0x30]
  | pending hash => 0x31 :: hash.bytes
  | pendingByTime timestamp hash => 0x32 :: Bytes.bigEndian 8 timestamp.toNat ++ hash.bytes
  | traffic source destination denom =>
    0x40 :: encode (source.protocol, source.counterparty, destination, denom)
  | dispatchCount source destination => 0x41 :: encode (source, destination)

/-- The common beginning of the keys of paused actions. -/
def pausedActions : Bytes := [0x10]

/-- The common beginning of the keys of paused protocols. -/
def pausedProtocols : Bytes := [0x20]

/-- The common beginning of the keys of all paused routes. -/
def pausedRoutes : Bytes := [0x21]

/-- The common beginning of the keys of paused routes of one protocol. -/
def pausedRoutesOf (protocol : ProtocolId) : Bytes := 0x21 :: encode protocol

/-- The common beginning of the keys of recorded payloads. -/
def pendingEntries : Bytes := [0x31]

/-- The common beginning of the keys of the time index. -/
def timeIndex : Bytes := [0x32]

/-- The bound above all keys of the time index that are strictly before a time. -/
def timeBound (cutoff : UInt64) : Bytes := 0x32 :: Bytes.bigEndian 8 cutoff.toNat

/-- The common beginning of the keys of traffic over one route. -/
def trafficOver (source destination : CrossChainId) : Bytes :=
  0x40 :: encode (source.protocol, source.counterparty, destination)

/-- The time and the hash in a key of the time index. -/
def readTimeKey (key : Bytes) : Except StoreFault (UInt64 × PayloadHash) :=
  match key with
  | 0x32 :: s =>
    match PayloadHash.ofBytes? (s.drop 8) with
    | some hash => .ok (UInt64.ofNat (Bytes.ofBigEndian (s.take 8)), hash)
    | none => .error (.corruption (.malformedIndexKey key))
  | _ => .error (.corruption (.malformedIndexKey key))

end Key

/-- The hash of a recorded payload: the digest of its encoding. -/
def PendingEntry.hash (e : PendingEntry) : PayloadHash :=
  ⟨Sha256.digest (Codec.encode e), Sha256.length_digest _⟩

end TransferRouter
