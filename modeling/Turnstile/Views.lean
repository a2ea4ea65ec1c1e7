import Turnstile.Key
import Turnstile.Store.Memory
import Turnstile.Store.Program

/-!
# View counters

How often each product was looked at, as a counter in the shared store without an end.  Counting is
never allowed to stand in the way of showing a product: what cannot be counted is dropped.
-/

namespace Turnstile.Views

open Turnstile.Store

/-- Counts views of a product; the new count, unless they were dropped. -/
def increment (product : UInt64) (delta : Int64) : Program (Option Int64) := do
  match ← Program.command (.incrBy (Key.views product) delta) with
  | .ok total =>
    Program.count .viewIncrements
    return some total
  | .error _ =>
    Program.count .viewErrors
    return none

/-- The count of a product; nothing if the store fails or holds no number. -/
def count (product : UInt64) : Program (Option Int64) := do
  match ← Program.command (.get (Key.views product)) with
  | .ok none => return some 0
  | .ok (some text) => return Counter.ofText? text
  | .error _ => return none

/-- Begins a product's count again; whether the store carried it out. -/
def reset (product : UInt64) : Program Bool := do
  match ← Program.command (.delete (Key.views product)) with
  | .ok _ => return true
  | .error _ => return false

end Turnstile.Views
