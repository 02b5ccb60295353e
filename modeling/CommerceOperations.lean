import CommerceOperations.Application.Returns
import CommerceOperations.Workflows.Retries
import CommerceOperations.Application.Receipts
import CommerceOperations.Approvals.Decisions
import CommerceOperations.Application.Goods
import CommerceOperations.Application.Replays
import CommerceOperations.Application.Dossiers
import CommerceOperations.Application.Purchasing
import CommerceOperations.Application.Lockstep
import CommerceOperations.Ai.Usage
import CommerceOperations.Application.Listings
import CommerceOperations.Application.Pricing
import CommerceOperations.Application.Refunds
import CommerceOperations.Application.CustomerService
import CommerceOperations.Integrations.ApprovedProducts
import CommerceOperations.Integrations.Identities
import CommerceOperations.Integrations.Redelivery
import CommerceOperations.Application.OrderRecords
import CommerceOperations.Application.RefundApprovals
import CommerceOperations.Application.RefundTotals
import CommerceOperations.Application.Conversations
import CommerceOperations.Application.Escalations
import CommerceOperations.Application.MessageEvents
import CommerceOperations.Application.MarketplacePublication
import CommerceOperations.Domains.PriceBounds
import CommerceOperations.Domains.ExactPrices
import CommerceOperations.Domains.PriceFigures
import CommerceOperations.Application.PriceDecisions
import CommerceOperations.Application.PriceColumns
import CommerceOperations.Application.CostBasis
import CommerceOperations.Allocation.MostFree
import CommerceOperations.Application.OrderFit
import CommerceOperations.RateLimit.SlidingWindow
import CommerceOperations.Security.Middleware
import CommerceOperations.Security.RateLimits
import CommerceOperations.Security.Principals
import CommerceOperations.Dashboard.Data
import CommerceOperations.Regex.Pattern
import CommerceOperations.Regex.Rule
import CommerceOperations.Observability.Logging
import CommerceOperations.Observability.BearerTokens
import CommerceOperations.Observability.Markers
import CommerceOperations.Integrations.MarketplaceListings
import CommerceOperations.Relational.Sightings
import CommerceOperations.Events.Handlers
import CommerceOperations.Events.Delivery
import CommerceOperations.Events.ExactlyOnce
import CommerceOperations.Application.Announcements
import CommerceOperations.Application.ChangeLog
import CommerceOperations.Relational.Trails
import CommerceOperations.Application.StockFeeds
import CommerceOperations.Application.FeedServices
import CommerceOperations.Application.StockHistory
import CommerceOperations.Workflows.AuditTrail
import CommerceOperations.Events.Publication
import CommerceOperations.Domains.PriceRoom
import CommerceOperations.Domains.PriceChanges
import CommerceOperations.Application.ReturnRuns
