import Turnstile.Http.Address
import Turnstile.Http.Header
import Turnstile.Http.Target

/-!
# Requests and responses

A request as the application receives it: the request line, the headers and the body, and what the
server knows besides: the actor that it authenticated and the address at the other end.
-/

namespace Turnstile.Http

/-- A request. -/
structure Request where
  method : String
  target : Target
  headers : List Header
  /-- The actor that was authenticated before the request came here. -/
  actor : Option String
  /-- The address at the other end of the connection. -/
  peer : Option Address
  body : List UInt8
  deriving DecidableEq, Repr

/-- A response. -/
structure Response where
  status : Nat
  contentType : Option String
  body : String
  deriving DecidableEq, Repr

namespace Request

/-- The request of a method and a target as they are sent, unless they, or a header, may not be
sent. -/
def make? (method target : String) (headers : List Header) (actor : Option String)
    (peer : Option Address) (body : List UInt8) : Option Request := do
  let target ← Target.parse? target
  if isToken method && headers.all Header.isValid then
    some { method, target, headers, actor, peer, body }
  else none

/-- The text of a header, if it is there and can be read. -/
def header? (r : Request) (name : String) : Option (List Char) := Header.read? r.headers name

end Request

namespace Response

/-- A response without a body. -/
def bare (status : Nat) : Response := ⟨status, none, ""⟩

/-- Plain text. -/
def plain (status : Nat) (body : String) : Response :=
  ⟨status, some "text/plain; charset=utf-8", body⟩

/-- A JSON text. -/
def json (status : Nat) (body : String) : Response := ⟨status, some "application/json", body⟩

/-- The response without its body. -/
def withoutBody (r : Response) : Response := { r with body := "" }

end Response

end Turnstile.Http
