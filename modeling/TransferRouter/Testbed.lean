import TransferRouter.Builder
import TransferRouter.Controller.Testbed

/-!
A router wired to the handlers of the testbed, and the state that it starts in: an empty store on a
medium that never fails, and a swap pool with funds. Inbound packets come over IBC, outbound ones go
over CCTP and Hyperlane.
-/

namespace TransferRouter

namespace Testbed

/-- The configuration of the router. -/
def config : Config :=
  { Config.initial with authority := "gov", accounts := ⟨holding, "orbiter-dust"⟩ }

/-- The parts of a router with the given configuration. -/
def blueprint (config : Config) : Blueprint where
  config := config
  authority := none
  parsers := [jsonParser .ibc]
  chargesFees := true
  actions := [swapController]
  forwarders := [escrowController .cctp, escrowController .hyperlane]

/-- The coin that the swap pool starts with. -/
def poolCoin : Coin := ⟨"uatom", ⟨1000000, by decide⟩⟩

/-- The state before the router is built. -/
def world : World where
  disk := .empty
  books := ⟨Ledger.empty.set swapPool poolCoin.denom poolCoin.amount, [], []⟩
  clock := 1700000000

/-- Moves the funds of a packet into the holding account. -/
def receive (packet : RoutedPacket) : LedgerM Unit :=
  LedgerM.mint holding packet.transfer.sourceCoin

/-- Delivers a packet whose funds arrive. -/
def deliver (r : Router) (source : CrossChainId) (raw : Bytes) : RouterM RoutedPacket :=
  r.deliver source raw receive

end Testbed

end TransferRouter
