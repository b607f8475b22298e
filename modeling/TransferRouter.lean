import TransferRouter.Administration
import TransferRouter.Amount
import TransferRouter.Breaker
import TransferRouter.Builder
import TransferRouter.Bytes
import TransferRouter.Bytes.Hex
import TransferRouter.Codec
import TransferRouter.Codec.Records
import TransferRouter.Coin
import TransferRouter.Config
import TransferRouter.Controller
import TransferRouter.Controller.Fee
import TransferRouter.Controller.Testbed
import TransferRouter.Dispatch
import TransferRouter.Error
import TransferRouter.Error.Invalid
import TransferRouter.Error.Storage
import TransferRouter.Event
import TransferRouter.Genesis
import TransferRouter.Genesis.Exchange
import TransferRouter.Identifier
import TransferRouter.Identifier.Reading
import TransferRouter.Inbound
import TransferRouter.Json
import TransferRouter.Json.Failure
import TransferRouter.Json.Form
import TransferRouter.Json.Member
import TransferRouter.Json.Reader
import TransferRouter.Json.Records
import TransferRouter.Json.Writer
import TransferRouter.Ledger
import TransferRouter.Order
import TransferRouter.OrderedMap
import TransferRouter.Payload
import TransferRouter.Pending
import TransferRouter.Pending.Record
import TransferRouter.Registry
import TransferRouter.Router
import TransferRouter.Sha256
import TransferRouter.Statistics
import TransferRouter.Statistics.Record
import TransferRouter.Store
import TransferRouter.Store.Disk
import TransferRouter.Store.Key
import TransferRouter.Telemetry
import TransferRouter.Testbed
import TransferRouter.Testbed.Setup
import TransferRouter.Text.Blank
import TransferRouter.Text.Decimal
import TransferRouter.Text.Hidden
import TransferRouter.Text.Quoted
import TransferRouter.Text.Utf8
import TransferRouter.Transfer
import TransferRouter.World
import TransferRouter.Proofs.Action
import TransferRouter.Proofs.Amount
import TransferRouter.Proofs.Order
import TransferRouter.Proofs.Codec
import TransferRouter.Proofs.Codec.Unambiguous
import TransferRouter.Proofs.Store
import TransferRouter.Proofs.Store.Key
import TransferRouter.Proofs.Store.Disk
import TransferRouter.Proofs.Inbound
import TransferRouter.Proofs.Statistics
import TransferRouter.Proofs.Pending
import TransferRouter.Proofs.Administration
import TransferRouter.Proofs.Effect
import TransferRouter.Proofs.Coherence
import TransferRouter.Proofs.Accounting
import TransferRouter.Proofs.Delivery
import TransferRouter.Proofs.Interruption
import TransferRouter.Proofs.Ledger
import TransferRouter.Proofs.Ledger.Posting
import TransferRouter.Proofs.Check
import TransferRouter.Proofs.Registry
import TransferRouter.Proofs.Arrival
import TransferRouter.Proofs.Movement
import TransferRouter.Proofs.Fee
import TransferRouter.Proofs.Conservation
import TransferRouter.Proofs.Refusal
import TransferRouter.Proofs.Progress
import TransferRouter.Proofs.Pause
import TransferRouter.Proofs.Parallel
import TransferRouter.Proofs.Isolation
import TransferRouter.Proofs.Store.Naming
import TransferRouter.Proofs.Breaker
import TransferRouter.Proofs.Trace
import TransferRouter.Proofs.Indifference
import TransferRouter.Proofs.Tally
import TransferRouter.Proofs.Tally.Listing
import TransferRouter.Proofs.Residue
import TransferRouter.Proofs.Atomicity
import TransferRouter.Proofs.Admission
import TransferRouter.Proofs.Invariant
import TransferRouter.Proofs.Store.Legible
import TransferRouter.Proofs.Soundness
import TransferRouter.Proofs.Candor
import TransferRouter.Proofs.Operation
import TransferRouter.Proofs.Exchange
import TransferRouter.Proofs.Authority
import TransferRouter.Proofs.Store.Chronology
import TransferRouter.Proofs.Json
import TransferRouter.Proofs.Expiry
import TransferRouter.Proofs.Course
import TransferRouter.Proofs.Backing
import TransferRouter.Proofs.Ledger.Affordable
import TransferRouter.Proofs.Fee.Rounding
import TransferRouter.Proofs.Fee.Partial
import TransferRouter.Proofs.Heedless
import TransferRouter.Proofs.Stepwise
import TransferRouter.Proofs.Text.Decimal
import TransferRouter.Proofs.Bytes.Hex
import TransferRouter.Proofs.Identifier
import TransferRouter.Proofs.Builder
import TransferRouter.Proofs.Store.Scan
import TransferRouter.Proofs.Registry.History
import TransferRouter.Proofs.Config
