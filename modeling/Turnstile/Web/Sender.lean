import Turnstile.Http.Message
import Turnstile.Text.Blank
import Turnstile.Web.Problem

/-!
# Who sends a request

The actor behind a request: the one that was authenticated, else the one that an internal caller names
in a header.  The client's address: the first one that a proxy passed on, else the one that it saw
itself, else the other end of the connection.  For the gate, a request without an actor is its
address's, and one without either is nobody's.
-/

namespace Turnstile.Web

open Turnstile.Http Turnstile.Text

namespace Sender

/-- The actor whom nothing is known of. -/
def anonymous : String := "anonymous"

/-- The header in which internal callers name their actor. -/
def actorHeader : String := "X-Actor-Id"

/-- The header in which proxies pass addresses on. -/
def forwardedHeader : String := "X-Forwarded-For"

/-- The header in which a proxy tells the address that it saw. -/
def realAddressHeader : String := "X-Real-IP"

/-- The actor that a header names; a blank one names nobody. -/
def namedActor? (r : Request) : Option String :=
  ((r.header? actorHeader).map Blank.trim).bind fun cs =>
    if cs.isEmpty then none else some (String.ofList cs)

/-- The actor behind a request. -/
def actor? (r : Request) : Option String := r.actor.or (namedActor? r)

/-- The actor behind a request that must have one. -/
def requireActor (r : Request) : Except Problem String :=
  match actor? r with
  | some actor => .ok actor
  | none => .error (.unauthorized "Missing actor")

/-- The first address that proxies passed on. -/
def forwarded? (r : Request) : Option Address :=
  (r.header? forwardedHeader).bind fun cs => Address.ofChars? (Blank.trim (Split.cut ',' cs).1)

/-- The address that a proxy saw. -/
def seenByProxy? (r : Request) : Option Address :=
  (r.header? realAddressHeader).bind fun cs => Address.ofChars? (Blank.trim cs)

/-- The client's address, as far as it is known. -/
def address? (r : Request) : Option Address := ((forwarded? r).or (seenByProxy? r)).or r.peer

/-- The client's address; the machine itself if nothing is known. -/
def address (r : Request) : Address := (address? r).getD Address.localhost

/-- The actor whose requests the gate compares. -/
def lockActor (r : Request) : String :=
  (actor? r).getD (((address? r).map Address.text).getD anonymous)

end Sender

end Turnstile.Web
