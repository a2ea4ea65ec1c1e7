import Turnstile.Cache

/-!
# Refresh tokens

The one refresh token of each member that is good.  Saving a token puts an end to the one before it,
and revoking puts an end to it without another.
-/

namespace Turnstile

open Turnstile.Store Turnstile.Time

/-- Members' refresh tokens. -/
structure RefreshTokens where
  cache : Cache UInt64 String

namespace RefreshTokens

/-- The lifetime of tokens unless it is configured: fourteen days. -/
def defaultLifetime : Span := .ofSeconds (14 * 24 * 60 * 60)

/-- Tokens that are good for a lifetime. -/
def make (lifetime : Span) : RefreshTokens := ⟨Cache.memberTokens lifetime⟩

/-- Makes a token the member's good one. -/
def save (t : RefreshTokens) (member : UInt64) (token : String) : Program Unit :=
  t.cache.set member token none

/-- The member's good token. -/
def find (t : RefreshTokens) (member : UInt64) : Program (Option String) := t.cache.get member

/-- The token that was presented is the member's good one. -/
def isCurrent (t : RefreshTokens) (member : UInt64) (presented : String) : Program Bool := do
  return (← t.find member) = some presented

/-- Puts an end to the member's token; whether there was one. -/
def revoke (t : RefreshTokens) (member : UInt64) : Program Bool := t.cache.delete member

end RefreshTokens

end Turnstile
