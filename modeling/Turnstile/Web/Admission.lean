import Turnstile.Web.Sender

/-!
# Admission

The gate in front of an application.  Requests that change nothing pass as they are.  Of the others,
one whose body is too long is turned away before a lock is taken, and one that the gate has seen within
the lifetime of its lock is turned away as a duplicate; what is let through reaches the application
unchanged.  A lock stays until its lifetime ends, whatever the application answers.
-/

namespace Turnstile.Web

open Turnstile.Http Turnstile.Store Turnstile.Text

/-- A gate in front of an application, and how many bytes of a body it reads. -/
structure Admission where
  gate : Gate
  bodyLimit : UInt64

namespace Admission

/-- The methods that may change something. -/
def mutatingMethods : List String := ["POST", "PUT", "PATCH", "DELETE"]

/-- The method may change something. -/
def isMutating (method : String) : Bool := mutatingMethods.contains method

/-- The length that a request declares for its body, if it can be read. -/
def declaredLength? (r : Request) : Option UInt64 :=
  (r.header? "Content-Length").bind fun cs => (Decimal.readUInt64 cs).toOption

/-- The body, as declared or as it is, is longer than it may be. -/
def isTooLong (a : Admission) (r : Request) : Bool :=
  (declaredLength? r).any (a.bodyLimit < ·) || a.bodyLimit.toNat < r.body.length

/-- What makes two requests the same one. -/
def requestKey (r : Request) : RequestKey :=
  (RequestKey.make (Sender.lockActor r) r.method r.target.path).withBody r.body

/-- The response to a request for an application behind the gate. -/
def respond (a : Admission) (inner : Request → Program Response) (r : Request) :
    Program Response := do
  if !isMutating r.method then inner r
  else if a.isTooLong r then return (Problem.payloadTooLarge a.bodyLimit.toNat).response
  else if ← a.gate.tryAcquire (requestKey r) then inner r
  else return (Problem.duplicateRequest Problem.duplicateMessage).response

end Admission

end Turnstile.Web
