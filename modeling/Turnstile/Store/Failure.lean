import Turnstile.Time.Span

/-!
# Store failures

Why a store command gave no answer.  A store that cannot be reached or answers too late may be well
again soon; a command that the store refuses will be refused again.
-/

namespace Turnstile.Store

open Turnstile.Time

/-- Why a store command gave no answer. -/
inductive Failure where
  /-- The store cannot be reached. -/
  | unavailable (detail : String)
  /-- The store did not answer within the limit. -/
  | timedOut (limit : Span)
  /-- The store answered that it will not do this. -/
  | refused (detail : String)
  deriving DecidableEq, Repr

namespace Failure

/-- The wording of a failure. -/
def message : Failure → String
  | unavailable detail => s!"Store unavailable: {detail}"
  | timedOut limit => s!"Store command timed out after {limit.text}"
  | refused detail => s!"Store command failed: {detail}"

/-- The failure says nothing about the command, only about the way to the store. -/
def isConnectivity : Failure → Bool
  | unavailable _ | timedOut _ => true
  | refused _ => false

end Failure

end Turnstile.Store
