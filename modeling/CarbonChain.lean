import CarbonChain.Misc.Machine
import CarbonChain.Misc.Handover
import CarbonChain.Misc.Escrow
import CarbonChain.Misc.Tally
import CarbonChain.Misc.Replay
import CarbonChain.Misc.Feed
import CarbonChain.Misc.Store
import CarbonChain.Misc.Recent
import CarbonChain.Misc.Numbered
import CarbonChain.Misc.Calendar
import CarbonChain.Misc.Paging
import CarbonChain.Misc.Windows
import CarbonChain.Misc.Logs
import CarbonChain.Misc.Accounts
import CarbonChain.Misc.Latch
import CarbonChain.Misc.Keyed
import CarbonChain.Misc.ReadThrough
import CarbonChain.Misc.Text
import CarbonChain.Soroban.Host
import CarbonChain.Registry.Tonnes
import CarbonChain.Registry.Vetting
import CarbonChain.Registry.Vintage
import CarbonChain.Registry.VintageWindow
import CarbonChain.Registry.Permanence
import CarbonChain.Registry.Expiry
import CarbonChain.Registry.Counters
import CarbonChain.Registry.Pending
import CarbonChain.Registry.Approvals
import CarbonChain.Registry.Nonces
import CarbonChain.Registry.ProjectIndex
import CarbonChain.Registry.Evidence
import CarbonChain.Registry.Units
import CarbonChain.Registry.Pausing
import CarbonChain.Registry.Sessions
import CarbonChain.Registry.Splitting
import CarbonChain.Registry.Merging
import CarbonChain.Registry.Balance
import CarbonChain.Registry.Title
import CarbonChain.Registry.Outsiders
import CarbonChain.Registry.Rosters
import CarbonChain.Registry.Provenance
import CarbonChain.Registry.Holdings
import CarbonChain.Registry.Traps
import CarbonChain.Registry.Activation
import CarbonChain.Registry.Lifecycle
import CarbonChain.Registry.Client
import CarbonChain.Retirement.Ownership
import CarbonChain.Retirement.Backing
import CarbonChain.Retirement.Certificates
import CarbonChain.Retirement.Batches
import CarbonChain.Marketplace.Contract
import CarbonChain.Marketplace.System
import CarbonChain.Marketplace.Custody
import CarbonChain.Marketplace.Returns
import CarbonChain.Marketplace.Release
import CarbonChain.Marketplace.Offers
import CarbonChain.Marketplace.Cover
import CarbonChain.Marketplace.Withdrawal
import CarbonChain.Marketplace.Book
import CarbonChain.MrvOracle.Readings
import CarbonChain.MrvOracle.Blocking
import CarbonChain.MrvOracle.Arithmetic
import CarbonChain.MrvOracle.Authority
import CarbonChain.Admin
import CarbonChain.Queries
import CarbonChain.Pausing
import CarbonChain.Stellar.Service
import CarbonChain.Certificates.Service
import CarbonChain.Certificates.Verification
import CarbonChain.Certificates.Concurrent
import CarbonChain.Certificates.Agreement
import CarbonChain.Certificates.Listing
import CarbonChain.Verifiers.Service
import CarbonChain.Common.Throttler
import CarbonChain.Common.Cache
import CarbonChain.Credits.Service
import CarbonChain.Credits.Listing
import CarbonChain.Credits.Freshness
import CarbonChain.Credits.Issuing
import CarbonChain.Credits.Bulk
import CarbonChain.Events.Service
import CarbonChain.Events.Indexing
import CarbonChain.Events.Notifying
import CarbonChain.Events.Evicting
import CarbonChain.Webhooks.Service
import CarbonChain.Webhooks.Attempts
import CarbonChain.Webhooks.Overlap
import CarbonChain.Webhooks.Sequential
import CarbonChain.Notifications
import CarbonChain.Auth.Service
import CarbonChain.Auth.Adversary
import CarbonChain.Oracle.Service
import CarbonChain.Frontend.CreditStore
import CarbonChain.Frontend.Shown
import CarbonChain.Frontend.Session
