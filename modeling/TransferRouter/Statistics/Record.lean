import TransferRouter.World

/-!
Statistics in the store. One dispatch adds to two or three totals, all in one batch or none.
-/

namespace TransferRouter

namespace Statistics

/-- The traffic over a route in one denomination. -/
def traffic (source destination : CrossChainId) (denom : String) : RouterM Traffic := do
  return (← RouterM.read Traffic (.traffic source destination denom)).getD .none

/-- Decodes an entry of the traffic listing. -/
def decodeEntry (e : Bytes × Bytes) : Except StoreFault (String × Traffic) := do
  let (_, _, _, denom) ←
    Codec.decodeAt (ProtocolId × String × CrossChainId × String) e.1 (e.1.drop 1)
  return (denom, ← Codec.decodeAt Traffic e.1 e.2)

/-- The traffic over a route by denomination, in key order. -/
def trafficOver (source destination : CrossChainId) : RouterM (List (String × Traffic)) :=
  RouterM.onDisk do
    let entries ← Disk.extensions (Key.trafficOver source destination)
    settle id (entries.mapM decodeEntry)

/-- The number of dispatches over a route. -/
def dispatches (source destination : CrossChainId) : RouterM UInt64 := do
  return (← RouterM.read UInt64 (.dispatchCount source destination)).getD 0

/-- The writes that add traffic over a route to its totals. -/
def additions (source destination : CrossChainId) :
    List (String × Traffic) → RouterM (List Write)
  | [] => return []
  | (denom, traffic) :: rest => do
    let current ← Statistics.traffic source destination denom
    let total ← settle id (current.add traffic)
    let others ← additions source destination rest
    return .put (Key.traffic source destination denom).bytes (Codec.encode total) :: others

/-- Adds one dispatched transfer to the statistics of its route. -/
def record (transfer : Transfer) (destination : CrossChainId) : RouterM Unit := do
  let source ← checked transfer.source
  let writes ← additions source destination (Traffic.ofTransfer transfer)
  let count ← dispatches source destination
  let next ← settle id (countDispatch count)
  RouterM.onDisk (Disk.write
    (writes ++ [.put (Key.dispatchCount source destination).bytes (Codec.encode next)]))

end Statistics

end TransferRouter
