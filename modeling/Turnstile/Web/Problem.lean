import Turnstile.Gate
import Turnstile.Http.Message
import Turnstile.Json.Printer
import Turnstile.Paging.Request

/-!
# Problems

What a client is told when a request comes to nothing: a status, a code for programs and a message
for people.  What lies behind a problem, its source, is for the shop's own logs; a response is made of
status, code and message alone, so nothing else can leak into it.
-/

namespace Turnstile.Web

open Turnstile.Http Turnstile.Store

/-- Why a request came to nothing. -/
structure Problem where
  status : Nat
  message : String
  code : String
  /-- What lies behind it; clients are not told. -/
  source : Option String := none
  deriving DecidableEq, Repr

namespace Problem

/-- The problem with a source. -/
def withSource (p : Problem) (source : String) : Problem := { p with source := some source }

/-- The request cannot be understood. -/
def badRequest (message : String) : Problem := ⟨400, message, "BAD_REQUEST", none⟩

/-- The request names no actor. -/
def unauthorized (message : String) : Problem := ⟨401, message, "UNAUTHORIZED", none⟩

/-- There is no such thing. -/
def notFound (resource id : String) : Problem :=
  ⟨404, s!"{resource} with id {id} not found", "NOT_FOUND", none⟩

/-- The request is understood and not allowed. -/
def validation (message : String) : Problem := ⟨422, message, "VALIDATION_ERROR", none⟩

/-- The body is longer than it may be. -/
def payloadTooLarge (limit : Nat) : Problem :=
  ⟨413, s!"Request body exceeds {limit} bytes", "PAYLOAD_TOO_LARGE", none⟩

/-- The request was sent before. -/
def duplicateRequest (message : String) : Problem := ⟨429, message, "DUPLICATE_REQUEST", none⟩

/-- The shop itself failed. -/
def internal (message : String) : Problem := ⟨500, message, "INTERNAL_SERVER_ERROR", none⟩

/-- The shop cannot answer now. -/
def unavailable (message : String) : Problem := ⟨503, message, "SERVICE_UNAVAILABLE", none⟩

/-- What clients are told of a duplicate. -/
def duplicateMessage : String := "An identical request is already being processed"

/-! ## From failures -/

/-- The problem of a failure that nothing more is known of. -/
def ofFault (detail : String) : Problem :=
  (internal "An internal error occurred").withSource detail

/-- The problem of a store that gave no answer. -/
def ofStore (failure : Failure) : Problem :=
  (unavailable "Shared store unavailable").withSource failure.message

/-- The problem of a refused page size. -/
def ofPageSize (r : Page.SizeRefusal) : Problem := validation r.message

/-- The problem of a guarded operation: its own, or that of a duplicate. -/
def ofGuard {ε : Type} (inner : ε → Problem) : Gate.Refusal ε → Problem
  | .duplicate _ => duplicateRequest duplicateMessage
  | .operation failure => inner failure

/-! ## Showing -/

/-- How a problem shows itself in a log. -/
def text (p : Problem) : String := s!"[{p.code}] {p.message}"

/-- What clients are told. -/
def body (p : Problem) : Json :=
  Json.record [("code", Json.ofText p.code), ("message", Json.ofText p.message)]

/-- The response to a request that came to nothing. -/
def response (p : Problem) : Response := .json p.status p.body.compact

end Problem

end Turnstile.Web
