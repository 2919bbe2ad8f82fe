import Mercantile.Action
import Mercantile.Advance
import Mercantile.Audit
import Mercantile.CommandLine.Arguments
import Mercantile.CommandLine.Directory
import Mercantile.CommandLine.Location
import Mercantile.CommandLine.Program
import Mercantile.Config
import Mercantile.Config.Document
import Mercantile.Config.Settings
import Mercantile.Config.Yaml
import Mercantile.Contract
import Mercantile.Decimal
import Mercantile.Decimal.Shortest
import Mercantile.Entity
import Mercantile.Failure
import Mercantile.Health
import Mercantile.Id
import Mercantile.Inventory
import Mercantile.Json.Basic
import Mercantile.Json.Coded
import Mercantile.Json.Parser
import Mercantile.Json.Printer
import Mercantile.Ledger
import Mercantile.Main
import Mercantile.Market.Book
import Mercantile.Market.Clearing
import Mercantile.Market.Placement
import Mercantile.Production
import Mercantile.Proofs.Accounting
import Mercantile.Proofs.Admission
import Mercantile.Proofs.Allocations
import Mercantile.Proofs.Ascending
import Mercantile.Proofs.Atomicity
import Mercantile.Proofs.Audits
import Mercantile.Proofs.Balances
import Mercantile.Proofs.Batches
import Mercantile.Proofs.Boundaries
import Mercantile.Proofs.Calendar
import Mercantile.Proofs.Cancellations
import Mercantile.Proofs.Capacity
import Mercantile.Proofs.Clearing
import Mercantile.Proofs.Commands
import Mercantile.Proofs.Commits
import Mercantile.Proofs.Debts
import Mercantile.Proofs.Deliveries
import Mercantile.Proofs.Documents
import Mercantile.Proofs.Execution
import Mercantile.Proofs.Fees
import Mercantile.Proofs.Fit
import Mercantile.Proofs.Foundings
import Mercantile.Proofs.Goods
import Mercantile.Proofs.History
import Mercantile.Proofs.Lifecycles
import Mercantile.Proofs.Loading
import Mercantile.Proofs.Markets
import Mercantile.Proofs.Matches
import Mercantile.Proofs.Money
import Mercantile.Proofs.Numerals
import Mercantile.Proofs.Overflows
import Mercantile.Proofs.Phases
import Mercantile.Proofs.Postings
import Mercantile.Proofs.Preflights
import Mercantile.Proofs.Priority
import Mercantile.Proofs.Progress
import Mercantile.Proofs.References
import Mercantile.Proofs.Reservations
import Mercantile.Proofs.Results
import Mercantile.Proofs.Retention
import Mercantile.Proofs.Rounding
import Mercantile.Proofs.Runs
import Mercantile.Proofs.Scenarios
import Mercantile.Proofs.Serializability
import Mercantile.Proofs.Shortages
import Mercantile.Proofs.Snapshots
import Mercantile.Proofs.Solvency
import Mercantile.Proofs.Soundness
import Mercantile.Proofs.Stocks
import Mercantile.Proofs.Storage
import Mercantile.Proofs.Sufficiency
import Mercantile.Proofs.Texts
import Mercantile.Proofs.Totals
import Mercantile.Proofs.Transfers
import Mercantile.Proofs.Turnover
import Mercantile.Proofs.Undoing
import Mercantile.Proofs.Ventures
import Mercantile.Proofs.Volumes
import Mercantile.Proofs.Voyages
import Mercantile.Random
import Mercantile.Report
import Mercantile.Roster
import Mercantile.Scenario
import Mercantile.Shipment
import Mercantile.Simulation
import Mercantile.Snapshot
import Mercantile.Store.Basic
import Mercantile.Store.Database
import Mercantile.Store.Memory
import Mercantile.Text.Blank
import Mercantile.Text.Numeral
import Mercantile.Text.Printable
import Mercantile.Text.Quoted
import Mercantile.Tick
import Mercantile.Timestamp
import Mercantile.Validation
import Mercantile.Word
import Mercantile.Workforce
import Mercantile.World
import Mercantile.Yaml.Cursor
import Mercantile.Yaml.Node
import Mercantile.Yaml.Plain
import Mercantile.Yaml.Scalar
import Mercantile.Yaml.Token
