import Turnstile.RequestKey
import Turnstile.Store.Program

/-!
# The idempotency gate

A request that changes something is let through once within a lifetime.  The gate takes a lock on the
request's key in the shared store; who finds it taken is a duplicate.  A lock is never given back: it
ends with its lifetime, whatever the request came to.  If the store fails, the request is refused.
-/

namespace Turnstile

open Turnstile.Store Turnstile.Time

/-- A gate whose locks last for a lifetime. -/
structure Gate where
  lifetime : Span
  deriving DecidableEq, Repr

namespace Gate

/-- The lifetime of locks unless it is configured: one second. -/
def defaultLifetime : Span := .ofSeconds 1

/-- Why a guarded operation came to nothing. -/
inductive Refusal (ε : Type) where
  /-- The same request was let through before; the key of its lock. -/
  | duplicate (key : String)
  /-- The operation itself failed. -/
  | operation (failure : ε)
  deriving DecidableEq, Repr

/-- The wording of a refusal. -/
def Refusal.message {ε : Type} (shown : ε → String) : Refusal ε → String
  | .duplicate key => s!"Duplicate request: {key}"
  | .operation failure => shown failure

/-- Takes the lock on a request; whether it was free. -/
def tryAcquire (g : Gate) (key : RequestKey) : Program Bool := do
  match ← Program.command (.setIfAbsent key.storeKey "1" g.lifetime) with
  | .ok true =>
    Program.count .gateAcquired
    return true
  | .ok false =>
    Program.count .gateRejected
    return false
  | .error _ =>
    Program.count .gateStoreErrors
    Program.count .gateRejected
    return false

/-- Carries an operation out if its request is let through. -/
def guard {ε α : Type} (g : Gate) (key : RequestKey) (operation : Program (Except ε α)) :
    Program (Except (Refusal ε) α) := do
  if ← g.tryAcquire key then
    return (← operation).mapError .operation
  else
    return .error (.duplicate key.storeKey)

end Gate

end Turnstile
