import Pprev.Evm.Prog
import Pprev.Evm.Word
import Pprev.Evm.Machine
import Pprev.Evm.Discipline
import Pprev.Evm.Audit
import Pprev.Contract.Encoding
import Pprev.Contract.Types
import Pprev.Contract.Pprev
import Pprev.Contract.Guards
import Pprev.Escrow.Book
import Pprev.Escrow.Lifecycle
import Pprev.Escrow.Obligations
import Pprev.Escrow.Index
import Pprev.Contract.Abstraction
import Pprev.Contract.Effects
import Pprev.Contract.Payouts
import Pprev.Contract.Behaviour
import Pprev.Contract.Solvency
import Pprev.Contract.Lifecycle
import Pprev.Escrow.Items
import Pprev.Contract.Accepted
import Pprev.Evm.Credit
import Pprev.Contract.Ledger
import Pprev.Contract.Deposits
import Pprev.Contract.Commitments
import Pprev.Contract.Statement
import Pprev.Evm.Origin
import Pprev.Contract.Agreement
import Pprev.Evm.Success
import Pprev.Contract.Robust
import Pprev.Contract.Exit
import Pprev.Circuit.Digits
import Pprev.Circuit.Circomlib
import Pprev.Circuit.Bytes
import Pprev.Circuit.PhiR
import Pprev.Data.Slice
import Pprev.Offchain.Layout
import Pprev.Offchain.Text
import Pprev.Offchain.Rendering
import Pprev.Offchain.Ownership
import Pprev.Circuit.Decimal
import Pprev.Data.Gregorian
import Pprev.Circuit.Date
import Pprev.Circuit.PhiS
import Pprev.Circuit.PhiA
import Pprev.Data.Hex
import Pprev.Notary.Nonces
import Pprev.Notary.Journal
import Pprev.Notary.Lines
import Pprev.Data.Ordinal
import Pprev.Data.March
import Pprev.Data.Arithmetic
import Pprev.Offchain.Calendar
import Pprev.Baseline.EngagementDay
import Pprev.Baseline.RequestLine
import Pprev.Notary.Commitment
import Pprev.Offchain.Record
import Pprev.Notary.Linkage
import Pprev.Notary.Presentation
import Pprev.Offchain.PublicInputs
import Pprev.Notary.PolicyVerifier
import Pprev.Baseline.Attestation
import Pprev.Data.Merkle
import Pprev.Baseline.Binding
import Pprev.Baseline.Integrated
import Pprev.Escrow.Erosion
import Pprev.Evm.Chronicle
import Pprev.Contract.Collateral
import Pprev.Evm.Calls
import Pprev.Contract.Neutrality
import Pprev.Contract.Pending
import Pprev.Baseline.Times
import Pprev.Notary.Mock
import Pprev.Data.Runs
import Pprev.Registry.Request
import Pprev.Prover.Failure
import Pprev.Prover.Session
import Pprev.Prover.Retries
import Pprev.Prover.Order
import Pprev.Evm.TypedData
import Pprev.Offchain.Statement
import Pprev.Data.Template
import Pprev.Offchain.Pieces
import Pprev.Notary.Places
import Pprev.Data.Json
import Pprev.Registry.Response
import Pprev.Baseline.Roots
import Pprev.Prover.Netem
import Pprev.Prover.Delivery
import Pprev.Contract.Replay
import Pprev.Data.Threads
import Pprev.Registry.Server
import Pprev.Notary.Shape
import Pprev.Notary.Notarised
import Pprev.Registry.Sessions
import Pprev.Notary.Grounds
import Pprev.Contract.Genuine
