import Turnstile.Cache
import Turnstile.Catalog
import Turnstile.Codec
import Turnstile.Config
import Turnstile.Digest.Sha256
import Turnstile.Gate
import Turnstile.Http.Address
import Turnstile.Http.Form
import Turnstile.Http.Header
import Turnstile.Http.Message
import Turnstile.Http.Target
import Turnstile.Json.Printer
import Turnstile.Json.Reader
import Turnstile.Json.Record
import Turnstile.Json.Token
import Turnstile.Json.Tree
import Turnstile.Key
import Turnstile.Metrics
import Turnstile.Paging.Page
import Turnstile.Paging.Request
import Turnstile.Proofs.Cache.Bench
import Turnstile.Proofs.Cache.Curations
import Turnstile.Proofs.Cache.Damage
import Turnstile.Proofs.Cache.Keeping
import Turnstile.Proofs.Cache.Overwriting
import Turnstile.Proofs.Cache.Transparency
import Turnstile.Proofs.Config.Loading
import Turnstile.Proofs.Config.Validation
import Turnstile.Proofs.Digest.Standard
import Turnstile.Proofs.Gate.Exclusion
import Turnstile.Proofs.Http.Addresses
import Turnstile.Proofs.Http.Form
import Turnstile.Proofs.Json.Assembling
import Turnstile.Proofs.Json.Cuts
import Turnstile.Proofs.Json.Grammar
import Turnstile.Proofs.Json.Lawful
import Turnstile.Proofs.Json.Literals
import Turnstile.Proofs.Json.Numerals
import Turnstile.Proofs.Json.Parsing
import Turnstile.Proofs.Json.Reread
import Turnstile.Proofs.Json.RoundTrip
import Turnstile.Proofs.Json.Schema
import Turnstile.Proofs.Json.Versions
import Turnstile.Proofs.Key.Canonical
import Turnstile.Proofs.Key.Families
import Turnstile.Proofs.Key.Requests
import Turnstile.Proofs.Metrics.Conservation
import Turnstile.Proofs.Paging.Blocks
import Turnstile.Proofs.Paging.Fetching
import Turnstile.Proofs.Paging.Walk
import Turnstile.Proofs.Redis.Course
import Turnstile.Proofs.Redis.Lifetimes
import Turnstile.Proofs.Redis.Matching
import Turnstile.Proofs.Redis.Server
import Turnstile.Proofs.Redis.Stems
import Turnstile.Proofs.Redis.Sweeping
import Turnstile.Proofs.Shop.Commands
import Turnstile.Proofs.Shop.Containment
import Turnstile.Proofs.Shop.Holdings
import Turnstile.Proofs.Shop.Independence
import Turnstile.Proofs.Shop.Run
import Turnstile.Proofs.Shop.Spaces
import Turnstile.Proofs.Store.Arithmetic
import Turnstile.Proofs.Store.Bench
import Turnstile.Proofs.Store.Counter
import Turnstile.Proofs.Store.Expiry
import Turnstile.Proofs.Store.Failing
import Turnstile.Proofs.Store.Lifetimes
import Turnstile.Proofs.Store.Locality
import Turnstile.Proofs.Store.Removal
import Turnstile.Proofs.Store.Sparing
import Turnstile.Proofs.Text.Decimal
import Turnstile.Proofs.Time.Order
import Turnstile.Proofs.Tokens.Current
import Turnstile.Proofs.Views.Account
import Turnstile.Proofs.Views.Products
import Turnstile.Proofs.Web.Actors
import Turnstile.Proofs.Web.Admission
import Turnstile.Proofs.Web.Arrivals
import Turnstile.Proofs.Web.PageQueries
import Turnstile.Proofs.Web.Problems
import Turnstile.Proofs.Web.Senders
import Turnstile.Redis.Client
import Turnstile.Redis.Glob
import Turnstile.Redis.Reply
import Turnstile.Redis.Sweep
import Turnstile.Redis.Url
import Turnstile.RefreshTokens
import Turnstile.RequestKey
import Turnstile.Shop.Operation
import Turnstile.Stock
import Turnstile.Store.Bench
import Turnstile.Store.Command
import Turnstile.Store.Entries
import Turnstile.Store.Failure
import Turnstile.Store.Memory
import Turnstile.Store.Program
import Turnstile.Text.Blank
import Turnstile.Text.Decimal
import Turnstile.Text.Hex
import Turnstile.Text.Percent
import Turnstile.Text.Quoted
import Turnstile.Text.Split
import Turnstile.Text.Stem
import Turnstile.Text.Unprintable
import Turnstile.Text.Utf8
import Turnstile.Time.Instant
import Turnstile.Time.Span
import Turnstile.Views
import Turnstile.Web.Admission
import Turnstile.Web.PageParams
import Turnstile.Web.Problem
import Turnstile.Web.Sender
import Turnstile.Web.Site
