import CostConsumer.Foundation.Tiling
import CostConsumer.Foundation.Calendar
import CostConsumer.Foundation.GoTime
import CostConsumer.Billing.Period
import CostConsumer.Billing.Windows
import CostConsumer.Foundation.Numeric
import CostConsumer.Foundation.Float64
import CostConsumer.Foundation.Table
import CostConsumer.Foundation.Transition
import CostConsumer.Inventory.Models
import CostConsumer.Inventory.Store
import CostConsumer.Rating.Pricing
import CostConsumer.Foundation.Chunks
import CostConsumer.Rating.Drain
import CostConsumer.Rating.Backlog
import CostConsumer.Rating.Machine
import CostConsumer.Rating.Safety
import CostConsumer.Rating.Ordered
import CostConsumer.Rating.TierSpace
import CostConsumer.Rating.Total
import CostConsumer.Foundation.Aggregate
import CostConsumer.Reports.CostReport
import CostConsumer.Foundation.Spans
import CostConsumer.Inventory.Resources
import CostConsumer.Metering.Meters
import CostConsumer.Metering.Machine
import CostConsumer.Metering.Coverage
import CostConsumer.Metering.Life
import CostConsumer.Foundation.Once
import CostConsumer.Foundation.Sessions
import CostConsumer.Ingest.Events
import CostConsumer.Ingest.Process
import CostConsumer.Ingest.Machine
import CostConsumer.Ingest.Transactions
import CostConsumer.Ingest.ExactlyOnce
import CostConsumer.Kafka.Consumer
import CostConsumer.Service.Machine
import CostConsumer.Service.Resource
import CostConsumer.Service.View
import CostConsumer.Watcher.Handle
import CostConsumer.Service.Deleted
import CostConsumer.Service.Lifecycle
import CostConsumer.Service.Heartbeats
import CostConsumer.Service.BillableTime
import CostConsumer.Service.Closing
import CostConsumer.Service.Inference
import CostConsumer.Foundation.Document
import CostConsumer.Ingest.Unmarshal
import CostConsumer.Ingest.Identity
import CostConsumer.Watcher.Publish
import CostConsumer.Wallet.Store
import CostConsumer.Wallet.Machine
import CostConsumer.Wallet.Ledger
import CostConsumer.Wallet.Bounds
import CostConsumer.Wallet.Currency
import CostConsumer.Wallet.Requests
import CostConsumer.Wallet.Sweep
import CostConsumer.Wallet.Settling
import CostConsumer.Quota.Store
import CostConsumer.Quota.Readers
import CostConsumer.Quota.Entitlement
import CostConsumer.Quota.Alerts
import CostConsumer.Foundation.Log
import CostConsumer.Splunk.Forwarder
import CostConsumer.Quota.Admin
import CostConsumer.Quota.Limits
import CostConsumer.Reconciler.Reconcile
import CostConsumer.Reconciler.Listing
import CostConsumer.Reconciler.Agreement
import CostConsumer.Rating.Refused
import CostConsumer.Ingest.Usage
import CostConsumer.Service.Frame
import CostConsumer.Service.SweepAgreement
import CostConsumer.Foundation.Bands
import CostConsumer.Rating.Tiers
import CostConsumer.Splunk.Cursor
import CostConsumer.Authn.Keys
import CostConsumer.Agent.Emitter
import CostConsumer.Agent.Controller
import CostConsumer.Foundation.Relay
import CostConsumer.Agent.Heartbeats
import CostConsumer.Agent.Durations
import CostConsumer.Rating.Rules
import CostConsumer.Billing.Names
import CostConsumer.Rating.Lookup
import CostConsumer.Foundation.Execution
import CostConsumer.Rating.Rounds
import CostConsumer.Foundation.Insert
import CostConsumer.Inventory.Inserts
import CostConsumer.Wallet.Schedule
import CostConsumer.Wallet.Within
import CostConsumer.Wallet.Returns
import CostConsumer.Wallet.Spending
import CostConsumer.Rating.Origin
import CostConsumer.Reports.Totals
import CostConsumer.Foundation.Csv
import CostConsumer.Metering.Projects
import CostConsumer.Rating.Reload
import CostConsumer.Reports.Csv
import CostConsumer.Ingest.Periods
import CostConsumer.Ingest.Payload
import CostConsumer.Foundation.JsonText
import CostConsumer.Ingest.Digest
import CostConsumer.Agent.Config
import CostConsumer.Agent.GPUs
import CostConsumer.Foundation.Filling
import CostConsumer.Rating.Seed
import CostConsumer.Foundation.Simulation
import CostConsumer.Rating.Arrivals
import CostConsumer.Rating.Sources
import CostConsumer.Ingest.Arrivals
import CostConsumer.Metering.Arrivals
import CostConsumer.Pipeline.Machine
import CostConsumer.Pipeline.Refinement
import CostConsumer.Pipeline.Trail
import CostConsumer.Pipeline.Bill
import CostConsumer.Ingest.Clients
import CostConsumer.Agent.Delivery
