import Turnstile.Config
import Turnstile.Http.Form
import Turnstile.Web.Problem

/-!
# Page parameters

Which page of a listing a query asks for: `cursor` is the id that it begins at, `size` its number of
rows.  Each may be given once, as an unsigned number; other parameters make no difference.  The query
is read from the left, so the first fault is the one reported; a size outside its limits is reported
only for a query without faults.
-/

namespace Turnstile.Web

open Turnstile.Http Turnstile.Text

/-- What a query says about the page. -/
structure PageQuery where
  cursor : Option UInt64 := none
  size : Option UInt64 := none
  deriving DecidableEq, Repr

namespace PageQuery

/-- Why a query cannot be read. -/
inductive Fault where
  | repeated (name : String)
  | malformed (refusal : Decimal.Refusal)
  deriving DecidableEq, Repr

/-- The wording of a fault. -/
def Fault.message : Fault → String
  | .repeated name => s!"Failed to deserialize query string: duplicate field `{name}`"
  | .malformed refusal => s!"Failed to deserialize query string: {refusal.message}"

/-- A parameter's number, if it was not given before. -/
def number (name value : String) (before : Option UInt64) : Except Fault UInt64 :=
  match before with
  | some _ => .error (.repeated name)
  | none => (Decimal.readUInt64 value.toList).mapError .malformed

/-- One parameter. -/
def step (q : PageQuery) (p : String × String) : Except Fault PageQuery :=
  if p.1 = "cursor" then (number p.1 p.2 q.cursor).map fun n => { q with cursor := some n }
  else if p.1 = "size" then (number p.1 p.2 q.size).map fun n => { q with size := some n }
  else .ok q

/-- What parameters say about the page. -/
def ofPairs (pairs : List (String × String)) : Except Fault PageQuery := pairs.foldlM step {}

/-- What a target's query says about the page. -/
def ofTarget (t : Target) : Except Fault PageQuery := ofPairs (Form.pairs (t.query.getD "").toList)

/-- The request for the page. -/
def request (limits : PagingConfig) (q : PageQuery) :
    Except Page.SizeRefusal (Page.Request UInt64) :=
  Page.Request.make limits.maxSize q.cursor (q.size.getD limits.defaultSize)

end PageQuery

/-- The page that a target asks for. -/
def pageRequest (limits : PagingConfig) (t : Target) : Except Problem (Page.Request UInt64) :=
  match PageQuery.ofTarget t with
  | .error fault => .error (.badRequest fault.message)
  | .ok q => (q.request limits).mapError .ofPageSize

end Turnstile.Web
