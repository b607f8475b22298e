import TransferRouter.World

/-!
Recorded payloads in the store. An entry stands under its hash and, by its time of submission, in
the time index; the sequence counter, the entry and its index key are written in one batch and the
latter two removed in one.
-/

namespace TransferRouter

/-- The stored parameters, or the initial ones. -/
def loadParams : RouterM Params := do
  return (← RouterM.read Params .params).getD .initial

/-- Refuses a passthrough payload that is longer than the limit. -/
def checkPassthrough (length : Nat) (limit : UInt32) : Except Invalid Unit :=
  if limit.toNat < length then .error (.longPassthrough length limit.toNat) else .ok ()

namespace Pending

/-- The recorded payload of a hash. -/
def get? (hash : PayloadHash) : RouterM (Option PendingEntry) :=
  RouterM.read PendingEntry (.pending hash)

/-- The number of recorded payloads. -/
def count : RouterM Nat := do
  return (← RouterM.onDisk (Disk.extensions Key.pendingEntries)).length

/-- The sequence number of the next submission. -/
def nextSequence : RouterM UInt64 := do
  return (← RouterM.read UInt64 .sequence).getD 0

/-- The batch that records an entry. -/
def recording (entry : PendingEntry) (next : UInt64) : List Write :=
  [.put Key.sequence.bytes (Codec.encode next),
    .put (Key.pending entry.hash).bytes (Codec.encode entry),
    .put (Key.pendingByTime entry.timestamp entry.hash).bytes []]

/-- Records a payload and returns its hash. -/
def submit (payload : Payload) : RouterM PayloadHash := do
  checked payload.check
  let params ← loadParams
  checked (checkPassthrough payload.forwarding.passthrough.length params.passthroughLimit)
  let now := (← get).clock
  let sequence ← nextSequence
  match successor? sequence with
  | none => throw (.overflow .sequence)
  | some next =>
    let entry : PendingEntry := ⟨sequence, payload, now⟩
    if ← RouterM.onDisk (Disk.contains (Key.pending entry.hash).bytes) then
      throw (.alreadyExists (.pendingPayload entry.hash))
    RouterM.onDisk (Disk.write (recording entry next))
    RouterM.emit (.pendingPayloadSubmitted entry.hash sequence)
    return entry.hash

/-- The batch that removes an entry. -/
def removal (timestamp : UInt64) (hash : PayloadHash) : List Write :=
  [.delete (Key.pending hash).bytes, .delete (Key.pendingByTime timestamp hash).bytes]

/-- Removes the recorded payload of a hash and returns it. -/
def take (hash : PayloadHash) : RouterM PendingEntry := do
  match ← get? hash with
  | none => throw (.notFound (.pendingPayload hash))
  | some entry =>
    RouterM.onDisk (Disk.write (removal entry.timestamp hash))
    RouterM.emit (.pendingPayloadRemoved hash)
    return entry

/-- The batch that drops what keys of the time index name. -/
def expiry (index : List (Bytes × PayloadHash)) : List Write :=
  index.flatMap fun e => [.delete e.1, .delete (Key.pending e.2).bytes]

/-- Keys of the time index with the hashes in them. -/
def readIndex (entries : List (Bytes × Bytes)) : Except StoreFault (List (Bytes × PayloadHash)) :=
  entries.mapM fun e => (Key.readTimeKey e.1).map fun parsed => (e.1, parsed.2)

/-- Drops the oldest entries submitted strictly before the cutoff, at most `limit` of them, and
returns their hashes from the oldest on. -/
def sweep (limit : UInt64) (cutoff : UInt64) : RouterM (List PayloadHash) := do
  let index ← RouterM.onDisk do
    let entries ← Disk.range Key.timeIndex (Key.timeBound cutoff) limit.toNat
    let index ← settle id (readIndex entries)
    if index ≠ [] then Disk.write (expiry index)
    return index
  let hashes := index.map (·.2)
  hashes.forM fun hash => RouterM.emit (.pendingPayloadExpired hash)
  return hashes

/-- The time before which entries must be submitted to have outlived their lifetime. It is zero
while none can have. -/
def cutoffAt (now lifetime : UInt64) : UInt64 := UInt64.ofNat (now.toNat - lifetime.toNat)

/-- Drops the entries that have outlived their lifetime at the end of a block. -/
def endBlock (config : PendingConfig) (now : UInt64) : RouterM (List PayloadHash) :=
  sweep config.sweepLimit (cutoffAt now config.lifetime)

end Pending

end TransferRouter
