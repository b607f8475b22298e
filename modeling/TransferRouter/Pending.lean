import TransferRouter.Transfer

/-!
Recorded payloads. The sequence number makes entries with the same payload and the same time
different, and so their hashes.
-/

namespace TransferRouter

/-- A payload recorded ahead of the transfer that will execute it. -/
structure PendingEntry where
  /-- The submission counter when the payload was recorded. -/
  sequence : UInt64
  payload : Payload
  /-- The time of submission in seconds. -/
  timestamp : UInt64
  deriving DecidableEq

/-- True when the entry was submitted strictly before the cutoff. -/
def PendingEntry.isExpired (e : PendingEntry) (cutoff : UInt64) : Bool :=
  e.timestamp.toNat < cutoff.toNat

end TransferRouter
