import MyOriShop.Lib.Text
import MyOriShop.Lib.Lines
import MyOriShop.Lib.Json
import MyOriShop.Lib.Dict
import MyOriShop.Lib.Replace
import MyOriShop.Lib.ScriptData
import MyOriShop.Lib.JsonLimits
import MyOriShop.Lib.IsoMoment
import MyOriShop.Lib.JsonText
import MyOriShop.Lib.JsonAscii
import MyOriShop.Lib.IsoDate
import MyOriShop.Lib.Fallible
import MyOriShop.Lib.Raising
import MyOriShop.Lib.Sums
import MyOriShop.Lib.Ternary
import MyOriShop.Lib.Transaction
import MyOriShop.Lib.Atomic
import MyOriShop.Lib.Published
import MyOriShop.Lib.ChangeLog
import MyOriShop.Lib.Offset
import MyOriShop.Lib.Paging
import MyOriShop.Lib.Overlay
import MyOriShop.Lib.AppendOnly
import MyOriShop.Core
import MyOriShop.Models
import MyOriShop.Constraints
import MyOriShop.Ledger
import MyOriShop.Recompute
import MyOriShop.Writes
import MyOriShop.Services.Finance
import MyOriShop.Services.Catalog
import MyOriShop.Services.Receipts
import MyOriShop.Services.Sales
import MyOriShop.Services.Stock
import MyOriShop.Services.Reference
import MyOriShop.Runs
import MyOriShop.Constrained
import MyOriShop.Posting
import MyOriShop.Selling
import MyOriShop.Basket
import MyOriShop.Projection
import MyOriShop.Exchange
import MyOriShop.RoundTrip
import MyOriShop.Columns
import MyOriShop.TypedColumns
import MyOriShop.Merge
import MyOriShop.Replay
import MyOriShop.Order
import MyOriShop.Commute
import MyOriShop.Collisions
import MyOriShop.Atomicity
import MyOriShop.LegacyBatches
import MyOriShop.Effects
import MyOriShop.SaleBooks
import MyOriShop.Reports
import MyOriShop.Agreement
import MyOriShop.Undo
import MyOriShop.Ingest
import MyOriShop.Refusals
import MyOriShop.Transport
import MyOriShop.Bundle
import MyOriShop.ScriptBlock
import MyOriShop.PullPages
import MyOriShop.SyncClient
import MyOriShop.DictionaryPull
import MyOriShop.Pages
import MyOriShop.Convergence
import MyOriShop.Interleaving
import MyOriShop.PushClosure
import MyOriShop.PushGate
import MyOriShop.Triggers
import MyOriShop.Restores
import MyOriShop.Confinement
import MyOriShop.Dashboard
import MyOriShop.Swap
import MyOriShop.Minisign
import MyOriShop.Update
import MyOriShop.UpdateSteps
import MyOriShop.StagedTree
import MyOriShop.Snapshots
import MyOriShop.PriceChain
import MyOriShop.Binds
import MyOriShop.Readers
import MyOriShop.Users
import MyOriShop.Markers
import MyOriShop.Gates
import MyOriShop.History
import MyOriShop.Removals
import MyOriShop.Deletions
import MyOriShop.Spending
import MyOriShop.Periods
import MyOriShop.Launcher
import MyOriShop.Unions
import MyOriShop.HistoryPages
import MyOriShop.ListPages
import MyOriShop.HistoryFilters
import MyOriShop.Chronology
import MyOriShop.Transfers
import MyOriShop.Lib.Upholds
import MyOriShop.Upkeep
import MyOriShop.Amounts
import MyOriShop.BusinessDates
import MyOriShop.Backfill
import MyOriShop.Lib.TokenBucket
import MyOriShop.RateLimit
import MyOriShop.PriceRecords
import MyOriShop.PriceUpsert
import MyOriShop.Pricing
import MyOriShop.Money
import MyOriShop.Rubrics
import MyOriShop.DictionaryImport
import MyOriShop.ShadeNames
import MyOriShop.ShadeScan
import MyOriShop.Lib.Accumulate
import MyOriShop.Exports
import MyOriShop.Lib.Forecast
import MyOriShop.Lib.Like
import MyOriShop.Lib.Earliest
import MyOriShop.InventoryImport
import MyOriShop.Lots
import MyOriShop.DryRun
import MyOriShop.Prediction
import MyOriShop.Lib.Outbox
import MyOriShop.SyncRuns
import MyOriShop.Access
import MyOriShop.DeviceTokens
import MyOriShop.Lib.Csv
import MyOriShop.CsvExports
import MyOriShop.Backups
import MyOriShop.MasterImport
import MyOriShop.Lib.IsoMicros
import MyOriShop.Contacts
import MyOriShop.Lib.NaturalOrder
import MyOriShop.Locations
import MyOriShop.Catalogs
