import IcpHandler.Concurrency.Fallible
import IcpHandler.Concurrency.LockOrder
import IcpHandler.Concurrency.Machine
import IcpHandler.Concurrency.Places
import IcpHandler.Concurrency.Prog
import IcpHandler.Concurrency.Sequential
import IcpHandler.Concurrency.Tallies
import IcpHandler.Concurrency.Trace
import IcpHandler.Concurrency.Turns
import IcpHandler.Concurrency.TwoRuns
import IcpHandler.Concurrency.Wal
import IcpHandler.Data.Bisimulation
import IcpHandler.Data.BlockReader
import IcpHandler.Data.Broadcast
import IcpHandler.Data.CallWindows
import IcpHandler.Data.CappedSums
import IcpHandler.Data.CivilCalendar
import IcpHandler.Data.Decimals
import IcpHandler.Data.ExpiringCounters
import IcpHandler.Data.FixedWindow
import IcpHandler.Data.JsonWriter
import IcpHandler.Data.KeyedStore
import IcpHandler.Data.LeaseCell
import IcpHandler.Data.Maps
import IcpHandler.Data.Newest
import IcpHandler.Data.OrderedText
import IcpHandler.Data.Radix
import IcpHandler.Data.Results
import IcpHandler.Data.Retries
import IcpHandler.Data.Saturating
import IcpHandler.Data.Schema
import IcpHandler.Data.Selection
import IcpHandler.Data.ShortestDecimal
import IcpHandler.Model.Bytes
import IcpHandler.Model.Chrono
import IcpHandler.Model.CivilDates
import IcpHandler.Model.ClientEvents
import IcpHandler.Model.ClientJson
import IcpHandler.Model.ClientKeys
import IcpHandler.Model.Concrete
import IcpHandler.Model.Deps
import IcpHandler.Model.DocumentStore
import IcpHandler.Model.Errors
import IcpHandler.Model.Idempotency
import IcpHandler.Model.Intent
import IcpHandler.Model.IpAddr
import IcpHandler.Model.Json
import IcpHandler.Model.Ledger
import IcpHandler.Model.Mandate
import IcpHandler.Model.MinorUnits
import IcpHandler.Model.Numerals
import IcpHandler.Model.Outbox
import IcpHandler.Model.Patches
import IcpHandler.Model.Receipts
import IcpHandler.Model.Records
import IcpHandler.Model.RequestItems
import IcpHandler.Model.Serde
import IcpHandler.Model.StateDb
import IcpHandler.Model.Steps
import IcpHandler.Model.StoreUpdates
import IcpHandler.Model.Subscribers
import IcpHandler.Model.TenantLists
import IcpHandler.Model.Text
import IcpHandler.Model.Timestamps
import IcpHandler.Model.WireFormat
import IcpHandler.Model.World
import IcpHandler.Properties.AdmittedIntents
import IcpHandler.Properties.AmountCurrencies
import IcpHandler.Properties.BillingDays
import IcpHandler.Properties.BillingPeriods
import IcpHandler.Properties.BudgetWindows
import IcpHandler.Properties.CaptureOnce
import IcpHandler.Properties.CheckoutUpdates
import IcpHandler.Properties.ClientEncodings
import IcpHandler.Properties.ConfiguredKeys
import IcpHandler.Properties.DeadlockFreedom
import IcpHandler.Properties.DedupKeys
import IcpHandler.Properties.DestinationLiterals
import IcpHandler.Properties.DidKeys
import IcpHandler.Properties.DidWebCache
import IcpHandler.Properties.DoorAgreement
import IcpHandler.Properties.DunningSchedule
import IcpHandler.Properties.EstimateGate
import IcpHandler.Properties.EventIsolation
import IcpHandler.Properties.ExactPricing
import IcpHandler.Properties.ExpiredQuotes
import IcpHandler.Properties.ExpirySweep
import IcpHandler.Properties.FleetRateLimits
import IcpHandler.Properties.ForeignIds
import IcpHandler.Properties.IdempotencyBackends
import IcpHandler.Properties.IdempotencyCells
import IcpHandler.Properties.IdempotencyExclusivity
import IcpHandler.Properties.IdempotencyFencing
import IcpHandler.Properties.IdempotencyPrune
import IcpHandler.Properties.IdempotencyResponses
import IcpHandler.Properties.IntentAtomicity
import IcpHandler.Properties.KeyEncodings
import IcpHandler.Properties.LedgerBackends
import IcpHandler.Properties.LedgerBudget
import IcpHandler.Properties.LegacyRows
import IcpHandler.Properties.LockExclusion
import IcpHandler.Properties.MandateBudgets
import IcpHandler.Properties.MandateEvaluation
import IcpHandler.Properties.MandateIsolation
import IcpHandler.Properties.MandatePeriods
import IcpHandler.Properties.MandatedCharges
import IcpHandler.Properties.Migrations
import IcpHandler.Properties.MinorUnitRounding
import IcpHandler.Properties.NegotiationHistory
import IcpHandler.Properties.NewestRecords
import IcpHandler.Properties.OrderLines
import IcpHandler.Properties.OutboxDelivery
import IcpHandler.Properties.OutboxRetries
import IcpHandler.Properties.OutboxStates
import IcpHandler.Properties.PausedForGood
import IcpHandler.Properties.PeerPayments
import IcpHandler.Properties.ProductionStart
import IcpHandler.Properties.RateLimits
import IcpHandler.Properties.ReceiptPages
import IcpHandler.Properties.ReceiptVerification
import IcpHandler.Properties.ReplayAuthorization
import IcpHandler.Properties.SignatureBinding
import IcpHandler.Properties.SingleExecution
import IcpHandler.Properties.SseParsers
import IcpHandler.Properties.StoreIndexes
import IcpHandler.Properties.StoreUpdateRaces
import IcpHandler.Properties.StreamedEvents
import IcpHandler.Properties.SubscriptionReserves
import IcpHandler.Properties.SubscriptionRows
import IcpHandler.Properties.SubscriptionStops
import IcpHandler.Properties.TenantFrame
import IcpHandler.Properties.TerminalStates
import IcpHandler.Properties.TimestampOrder
import IcpHandler.Properties.ToolCalls
import IcpHandler.Properties.TotalsIdentity
import IcpHandler.Properties.WebhookSecrets
import IcpHandler.Protocol.A2a
import IcpHandler.Protocol.Alone
import IcpHandler.Protocol.Announcements
import IcpHandler.Protocol.Attempts
import IcpHandler.Protocol.Billing
import IcpHandler.Protocol.ExpiryMarks
import IcpHandler.Protocol.FrontDoors
import IcpHandler.Protocol.Helpers
import IcpHandler.Protocol.Idempotent
import IcpHandler.Protocol.IdempotentRuns
import IcpHandler.Protocol.IntentTurns
import IcpHandler.Protocol.Meets
import IcpHandler.Protocol.Operations
import IcpHandler.Protocol.Origins
import IcpHandler.Protocol.Payments
import IcpHandler.Protocol.PlainBlocks
import IcpHandler.Protocol.Rule
import IcpHandler.Protocol.Runs
import IcpHandler.Protocol.Sections
import IcpHandler.Protocol.Sequential
import IcpHandler.Protocol.Stops
import IcpHandler.Protocol.SubscriptionIntents
import IcpHandler.Protocol.SubscriptionRuns
import IcpHandler.Protocol.SubscriptionTurns
import IcpHandler.Protocol.Subscriptions
import IcpHandler.Protocol.Ticks
import IcpHandler.Protocol.TransactionTurns
import IcpHandler.Protocol.Transactions
import IcpHandler.Protocol.Turns
import IcpHandler.Service.A2a
import IcpHandler.Service.ApiKeys
import IcpHandler.Service.CommerceEngine
import IcpHandler.Service.Compat
import IcpHandler.Service.DestinationUrl
import IcpHandler.Service.DidWeb
import IcpHandler.Service.Dispatch
import IcpHandler.Service.EventFeeds
import IcpHandler.Service.EventStream
import IcpHandler.Service.FrontDoors
import IcpHandler.Service.Helpers
import IcpHandler.Service.Idempotent
import IcpHandler.Service.Lifecycle
import IcpHandler.Service.Mcp
import IcpHandler.Service.OperationLocks
import IcpHandler.Service.RateLimiter
import IcpHandler.Service.ReceiptList
import IcpHandler.Service.RedisRateLimiter
import IcpHandler.Service.Resolver
import IcpHandler.Service.StartUp
import IcpHandler.Service.Subscriptions
import IcpHandler.Service.Transactions
import IcpHandler.Service.WebhookSigning
import IcpHandler.Service.WebhookWorker
