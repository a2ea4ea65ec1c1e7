import Turnstile.Shop.Operation
import Turnstile.Text.Quoted
import Turnstile.Web.Admission
import Turnstile.Web.PageParams

/-!
# The site

A small shop behind the gate: a catalog of five products, their listings in pages, orders and a
checkout, and an echo that shows what reaches the application.  Beside it, and not behind the gate,
stand the routes by which the site is operated: is it alive, can it reach its store, and what has it
counted.

A path names a route or nothing (`Route.ofPath?`); a route accepts some methods; `Site.respond` is the
program that answers a request.
-/

namespace Turnstile.Web

open Turnstile.Http Turnstile.Store Turnstile.Text

/-! ## Routes -/

/-- What a path can name.  Ids and the rest of a path are kept as they were sent. -/
inductive Route where
  | products
  | product (id : List Char)
  | curation (id : List Char)
  | orders
  | echo
  | checkout
  | health
  | readiness
  | metrics
  deriving DecidableEq, Repr

namespace Route

/-- The route that a path names.  An id is one segment, and not empty where it ends the path; behind
`echo/` there is at least one character. -/
def ofPath? (path : String) : Option Route :=
  match (Split.split '/' path.toList).map String.ofList with
  | ["", "health"] => some .health
  | ["", "health", "ready"] => some .readiness
  | ["", "metrics"] => some .metrics
  | ["", "api", "products"] => some .products
  | ["", "api", "products", id] => if id.isEmpty then none else some (.product id.toList)
  | ["", "api", "curations", id, "products"] => some (.curation id.toList)
  | ["", "api", "orders"] => some .orders
  | ["", "api", "checkout"] => some .checkout
  | "" :: "api" :: "echo" :: rest :: more =>
    if rest.isEmpty && more.isEmpty then none else some .echo
  | _ => none

/-- The route is for those who operate the site. -/
def isOperational : Route → Bool
  | health | readiness | metrics => true
  | _ => false

/-- The methods that a route accepts. -/
def accepts (r : Route) (method : String) : Bool :=
  match r with
  | echo => true
  | orders | checkout => method = "POST"
  | _ => method = "GET" || method = "HEAD"

/-- The route answers a question about the head of a response without its body. -/
def hidesBody : Route → Bool
  | echo => false
  | _ => true

end Route

/-! ## Path ids -/

/-- Why a path holds no id. -/
inductive PathFault where
  | notText
  | notNumber (text : List Char)
  deriving DecidableEq, Repr

namespace PathFault

/-- The wording of a fault. -/
def message : PathFault → String
  | notText => "Invalid URL: Invalid UTF-8 in `id`"
  | notNumber t =>
    let quoted := String.ofList (Quoted.quote t)
    s!"Invalid URL: Cannot parse `{quoted}` to a `u64`"

end PathFault

/-- The id in a segment of a path. -/
def pathId (segment : List Char) : Except PathFault UInt64 :=
  match Utf8.decode (Percent.decode (Utf8.encode (String.ofList segment))) with
  | .error _ => .error .notText
  | .ok t => (Decimal.readUInt64 t.toList).mapError fun _ => .notNumber t.toList

/-! ## The site -/

/-- The site's settings and what it sells. -/
structure Site where
  config : Config
  catalog : List ProductDetail

namespace Site

/-- Five products, the newest first. -/
def defaultCatalog : List ProductDetail :=
  [5, 4, 3, 2, 1].map fun id => ⟨id, "Product " ++ Key.ofId id, 1000 * id⟩

variable (s : Site)

/-- The gate of the site. -/
def gate : Gate := ⟨s.config.idempotency.lockLifetime⟩

/-- The gate in front of the application. -/
def admission : Admission := ⟨s.gate, s.config.idempotency.maxBodyBytes⟩

/-- The site's cache of products. -/
def products : Cache UInt64 ProductDetail :=
  Cache.products ProductDetail s.config.cache.productLifetime

/-- The site's cache of curations' pages. -/
def curations : Cache Key.CurationPage CardPage :=
  Cache.curationPages CardPage s.config.cache.curationLifetime

/-- The product of an id. -/
def find? (id : UInt64) : Option ProductDetail := s.catalog.find? (·.id = id)

/-- A page of the catalog. -/
def listing (r : Page.Request UInt64) : CardPage :=
  Page.read ProductCard.id r (s.catalog.map ProductDetail.card)

/-- The greatest number of bytes of a body that a handler takes. -/
def handlerBodyLimit : Nat := 2 * 1024 * 1024

/-- A value as a JSON response. -/
def shown {α : Type} [Json.ToJson α] (value : α) : Response :=
  match Json.toJson? value with
  | some j => .json 200 j.compact
  | none => .plain 500 ""

/-- Goes on with a result, or answers with the problem. -/
def orProblem {α : Type} (r : Except Problem α) (next : α → Program Response) : Program Response :=
  match r with
  | .ok value => next value
  | .error problem => return problem.response

/-- Goes on with the id in a path, or answers that there is none. -/
def withPathId (segment : List Char) (next : UInt64 → Program Response) : Program Response :=
  match pathId segment with
  | .ok id => next id
  | .error fault => return .plain 400 fault.message

/-- Goes on if a handler takes the body. -/
def withBody (r : Request) (next : Program Response) : Program Response :=
  if handlerBodyLimit < r.body.length then
    return .plain 413 "Failed to buffer the request body: length limit exceeded"
  else next

/-- Shows a product and counts that it was looked at. -/
def showProduct (segment : List Char) : Program Response :=
  withPathId segment fun id => do
    match ← s.products.readThrough id (Program.call (.ok (s.find? id) : Except Problem _)) with
    | .error problem => return problem.response
    | .ok none => return (Problem.notFound "Product" (Key.ofId id)).response
    | .ok (some product) =>
      let _ ← Views.increment id 1
      return shown product

/-- Lists the catalog. -/
def listProducts (r : Request) : Program Response :=
  orProblem (pageRequest s.config.paging r.target) fun page => return shown (s.listing page)

/-- Lists the products of a curation. -/
def listCuration (segment : List Char) (r : Request) : Program Response :=
  withPathId segment fun id =>
    orProblem (pageRequest s.config.paging r.target) fun page => do
      let found ← s.curations.readThrough ⟨id, page.cursor, page.size⟩
        (Program.call (.ok (some (s.listing page)) : Except Problem _))
      match found with
      | .error problem => return problem.response
      | .ok none => return (Problem.notFound "Curation" (Key.ofId id)).response
      | .ok (some cards) => return shown cards

/-- Goes on with the body as text, or answers that it is none. -/
def withText (r : Request) (next : String → Program Response) : Program Response :=
  withBody r
    (match Utf8.decode r.body with
    | .ok sent => next sent
    | .error fault =>
      return .plain 400 s!"Request body didn't contain valid UTF-8: {fault.message}")

/-- Takes an order down. -/
def placeOrder (r : Request) : Program Response :=
  orProblem (Sender.requireActor r) fun actor =>
    withText r fun order => return .plain 201 s!"{actor}:{order}"

/-- Shows what reached the application. -/
def echo (r : Request) : Program Response :=
  withBody r
    (let sent := String.ofList (Hex.ofBytes r.body)
    return .plain 200 s!"{r.method} {(Sender.address r).text} {sent}")

/-- What makes two checkouts the same one. -/
def checkoutKey (sent : String) : RequestKey :=
  (RequestKey.make "checkout" "POST" "/checkout").withBody (Utf8.encode sent)

/-- Pays, unless the payment is declined. -/
def pay (sent : String) : Except String String :=
  if sent = "fail" then .error "payment declined" else .ok "paid"

/-- Pays once. -/
def checkout (r : Request) : Program Response :=
  withText r fun sent => do
    match ← s.gate.guard (checkoutKey sent) (Program.call (pay sent)) with
    | .ok receipt => return .plain 200 receipt
    | .error refusal => return (Problem.ofGuard Problem.ofFault refusal).response

/-- Tells whether the store can be reached. -/
def readiness : Program Response := do
  let report (status : Nat) (word store : String) : Response :=
    .json status
      (Json.record [("status", Json.ofText word), ("store", Json.ofText store)]).compact
  match ← Program.command .ping with
  | .ok () => return report 200 "ready" "ok"
  | .error failure => return report 503 "unavailable" failure.message

/-- Tells what has been counted, if it is exported. -/
def showMetrics (exposition : Option String) : Response :=
  match exposition with
  | some lines => ⟨200, some "text/plain; version=0.0.4; charset=utf-8", lines⟩
  | none => .bare 404

/-- What a route does with a request that it accepts. -/
def handle (exposition : Option String) (route : Route) (r : Request) : Program Response :=
  match route with
  | .products => s.listProducts r
  | .product id => s.showProduct id
  | .curation id => s.listCuration id r
  | .orders => placeOrder r
  | .echo => echo r
  | .checkout => s.checkout r
  | .health => return .plain 200 "ok"
  | .readiness => readiness
  | .metrics => return showMetrics exposition

/-- A route's answer: to a method that it does not accept, to a question about the head of a response,
or to the request itself. -/
def dispatch (exposition : Option String) (route : Route) (r : Request) : Program Response := do
  if !route.accepts r.method then return .bare 405
  else if r.method = "HEAD" && route.hidesBody then
    return (← s.handle exposition route r).withoutBody
  else s.handle exposition route r

/-- The site's answer to a request.  What has been counted when the request comes in is told if it is
exported. -/
def respond (exposition : Option String) (r : Request) : Program Response :=
  match Route.ofPath? r.target.path with
  | none => return .bare 404
  | some route =>
    if route.isOperational then s.dispatch exposition route r
    else s.admission.respond (s.dispatch exposition route) r

end Site

end Turnstile.Web
