import GreenGarden.Table
import GreenGarden.Decimal
import GreenGarden.Scan
import GreenGarden.Tally
import GreenGarden.Transaction
import GreenGarden.RelyGuarantee
import GreenGarden.Text
import GreenGarden.Schema
import GreenGarden.Pricing
import GreenGarden.Customers
import GreenGarden.Plants
import GreenGarden.Orders
import GreenGarden.Cart
import GreenGarden.Numbering
import GreenGarden.Payments
import GreenGarden.Checkout
import GreenGarden.System
import GreenGarden.Interference
import GreenGarden.Steps
import GreenGarden.Placing
import GreenGarden.Placed
import GreenGarden.Moving
import GreenGarden.Settling
import GreenGarden.Editing
import GreenGarden.Guarantee
import GreenGarden.Allocation
import GreenGarden.History
import GreenGarden.Stock
import GreenGarden.Restock
import GreenGarden.Quote
import GreenGarden.Delivery
import GreenGarden.Priority
import GreenGarden.Reference
import GreenGarden.Transfer
import GreenGarden.PhoneLimit
import GreenGarden.LockOrder
import GreenGarden.Deadlock
import GreenGarden.Slugs
import GreenGarden.Shoppers
import GreenGarden.Filling
import GreenGarden.FirstOrders
import GreenGarden.Replica
import GreenGarden.Knowledge
import GreenGarden.Mirror
import GreenGarden.Syncing
import GreenGarden.Reconciliation
import GreenGarden.Lockout
import GreenGarden.MovingWindow
import GreenGarden.Login
import GreenGarden.LoginCap
import GreenGarden.Markup
import GreenGarden.Chat
import GreenGarden.Pattern
import GreenGarden.Json
import GreenGarden.Dsml
import GreenGarden.StreamGuard
import GreenGarden.DsmlFormat
import GreenGarden.ReadBack
import GreenGarden.Conversation
import GreenGarden.Leak
import GreenGarden.Answer
import GreenGarden.Reassembly
import GreenGarden.RetryAfter
import GreenGarden.Postgres
import GreenGarden.Paging
import GreenGarden.Calendar
import GreenGarden.Listings
import GreenGarden.CartForms
import GreenGarden.Lookup
import GreenGarden.IpAddress
import GreenGarden.ClientIp
import GreenGarden.Overview
import GreenGarden.FaqSearch
import GreenGarden.PlantSearch
import GreenGarden.PhoneForms
import GreenGarden.OrderDates
import GreenGarden.ChunkIdentity
import GreenGarden.SlugForm
import GreenGarden.EventStream
import GreenGarden.ChatStream
import GreenGarden.Tokens
import GreenGarden.Sessions
import GreenGarden.Embedding
import GreenGarden.Observing
import GreenGarden.Backoffice
import GreenGarden.SiteWide
import GreenGarden.Moderation
import GreenGarden.ReviewPages
import GreenGarden.Inbox
import GreenGarden.Jobs
import GreenGarden.Corpus
import GreenGarden.Reindexing
import GreenGarden.Asgi
import GreenGarden.Middleware
import GreenGarden.Responses
import GreenGarden.Metering
import GreenGarden.PaymentPage
import GreenGarden.ToolCalls
