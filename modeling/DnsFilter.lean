import DnsFilter.Lib.Run
import DnsFilter.Lib.Noninterference
import DnsFilter.Lib.Shrinking
import DnsFilter.Lib.FirstMatch
import DnsFilter.Lib.Expiring
import DnsFilter.Lib.Interleaving
import DnsFilter.Lib.TokenBucket
import DnsFilter.Lib.Lines
import DnsFilter.Lib.Transaction
import DnsFilter.Lib.Cursor
import DnsFilter.Lib.Rounding
import DnsFilter.Lib.Like
import DnsFilter.Lib.Paging
import DnsFilter.Lib.TopCounts
import DnsFilter.Lib.PercentCoding
import DnsFilter.Lib.Query
import DnsFilter.Lib.Parameters
import DnsFilter.Lib.Cleaning
import DnsFilter.Lib.CleanPath
import DnsFilter.Lib.Gather
import DnsFilter.Lib.Html
import DnsFilter.GoString
import DnsFilter.Config.Load
import DnsFilter.Identity.IP
import DnsFilter.Identity.Ranges
import DnsFilter.Identity.RangeSync
import DnsFilter.Identity.Text
import DnsFilter.Identity.NetAddr
import DnsFilter.Identity.Resolver
import DnsFilter.Identity.Sessions
import DnsFilter.Filter.Blacklist
import DnsFilter.Filter.Engine
import DnsFilter.Filter.Categories
import DnsFilter.Filter.Changes
import DnsFilter.Filter.Semantics
import DnsFilter.Filter.Subdomains
import DnsFilter.Filter.Downloader
import DnsFilter.Filter.Ingestion
import DnsFilter.Filter.Wildcard
import DnsFilter.Cache.Cache
import DnsFilter.Cache.Lifetime
import DnsFilter.Cache.Staleness
import DnsFilter.Cache.History
import DnsFilter.Cache.Invalidate
import DnsFilter.Store.Tables
import DnsFilter.Store.Operations
import DnsFilter.Store.Loaders
import DnsFilter.Store.Counts
import DnsFilter.Store.Refresh
import DnsFilter.Store.Replace
import DnsFilter.Store.Rows
import DnsFilter.Store.Logs
import DnsFilter.Store.LogPages
import DnsFilter.Store.Notify
import DnsFilter.Store.Integrity
import DnsFilter.Store.Registers
import DnsFilter.Dns.Message
import DnsFilter.Dns.Handler
import DnsFilter.Dns.System
import DnsFilter.Dns.Delivery
import DnsFilter.Dns.CacheKey
import DnsFilter.Dns.Supremacy
import DnsFilter.Dns.Audit
import DnsFilter.Dns.Truncation
import DnsFilter.Dns.Ageing
import DnsFilter.Logging.Pipeline
import DnsFilter.Logging.Shutdown
import DnsFilter.Logging.Conservation
import DnsFilter.Logging.Retention
import DnsFilter.Logging.Storage
import DnsFilter.Logging.Trail
import DnsFilter.Reload.Paths
import DnsFilter.Reload.Window
import DnsFilter.Reload.Concurrent
import DnsFilter.Reload.Convergence
import DnsFilter.Reload.Whitelist
import DnsFilter.Reload.Outage
import DnsFilter.Reload.Failures
import DnsFilter.Captive.Server
import DnsFilter.Captive.Gate
import DnsFilter.Captive.Login
import DnsFilter.Captive.Group
import DnsFilter.Captive.Redirect
import DnsFilter.Api.Auth
import DnsFilter.Api.Revocation
import DnsFilter.Api.Client
import DnsFilter.Api.RateLimit
import DnsFilter.Api.Sweeps
import DnsFilter.Api.Downloads
import DnsFilter.Captive.Accounts
import DnsFilter.Api.Access
import DnsFilter.Web.Editor
import DnsFilter.Dns.Metrics
import DnsFilter.Dns.Listeners
import DnsFilter.Reload.Provenance
import DnsFilter.Store.LogQuery
import DnsFilter.Store.Dashboard
import DnsFilter.Dns.Offline
