import TransferRouter.OrderedMap
import TransferRouter.Bytes

/-!
The content of the store: byte strings under byte strings, listed in ascending key order. A batch of
writes is applied from left to right. Scans walk the listing and stop at the first key that is past
what was asked for.
-/

namespace TransferRouter

/-- The content of the store. -/
abbrev Store := OrderedMap Bytes Bytes

/-- One write of a batch. -/
inductive Write where
  | put (key value : Bytes)
  | delete (key : Bytes)
  deriving DecidableEq

namespace Store

open StrictOrder

/-- The content after one write. -/
def apply (s : Store) : Write → Store
  | .put key value => s.insert key value
  | .delete key => s.erase key

/-- The content after a batch of writes. -/
def applyAll (s : Store) (batch : List Write) : Store := batch.foldl apply s

/-- The entries whose key starts with `start`, ascending. -/
def extensions (s : Store) (start : Bytes) : List (Bytes × Bytes) :=
  (s.entries.dropWhile fun e => before e.1 start).takeWhile fun e => start.isPrefixOf e.1

/-- The first `limit` entries whose key is at least `start` and below `stop`, ascending. -/
def range (s : Store) (start stop : Bytes) (limit : Nat) : List (Bytes × Bytes) :=
  ((s.entries.dropWhile fun e => before e.1 start).takeWhile fun e => before e.1 stop).take limit

end Store

end TransferRouter
