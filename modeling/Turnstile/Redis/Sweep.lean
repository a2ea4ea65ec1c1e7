import Turnstile.Redis.Glob
import Turnstile.Redis.Reply

/-!
# Sweeps

How all keys with a stem are removed from a Redis server, which has no command for it: it is asked for
the keys page by page, and the keys of each page are removed before the next one is asked for.  The
server ends the sweep with the cursor zero.

`Sweep.step` is what one reply makes of a sweep; `Sweep.run` follows a sweep through the outcomes of
what it sends, and stops with the first failure.
-/

namespace Turnstile.Redis

open Turnstile.Store Turnstile.Text Turnstile.Time

/-- What was sent to a server, what it came to, and the outcomes that were not waited for. -/
structure Transcript (α : Type) where
  sent : List (List String)
  result : Except Failure α
  rest : List Outcome

/-- Where a sweep stands. -/
inductive Sweep where
  /-- Asking for the page at a cursor. -/
  | asking (cursor : UInt64) (removed : Nat)
  /-- Removing the keys of a page, before the page at the next cursor. -/
  | removing (keys : List String) (next : UInt64) (removed : Nat)
  /-- Done, with the number of keys removed. -/
  | done (removed : Nat)
  deriving DecidableEq, Repr

namespace Sweep

/-- The number of keys that a page is meant to have. -/
def pageSize : Nat := 500

/-- A number as an argument. -/
def argument (n : Nat) : String := String.ofList (Decimal.digits n)

/-- A sweep at its beginning. -/
def start : Sweep := asking 0 0

/-- What a sweep sends. -/
def words (stem : String) : Sweep → List String
  | asking cursor _ =>
    ["SCAN", argument cursor.toNat, "MATCH", Glob.ofStem stem, "COUNT", argument pageSize]
  | removing keys _ _ => "DEL" :: keys
  | done _ => []

/-- The sweep behind a page: at its end if the next cursor is zero. -/
def goOn (next : UInt64) (removed : Nat) : Sweep :=
  if next = 0 then done removed else asking next removed

/-- What an outcome makes of a sweep. -/
def step (limit : Span) (o : Outcome) : Sweep → Except Failure Sweep
  | asking _ removed =>
    (o.read limit Reply.page?).map fun (next, keys) =>
      if keys.isEmpty then goOn next removed else removing keys next removed
  | removing _ next removed =>
    (o.read limit Reply.unsigned?).map fun n => goOn next (removed + n.toNat)
  | done removed => .ok (done removed)

/-- Follows a sweep through the outcomes of what it sends.  Where they end there is silence. -/
def run (limit : Span) (stem : String) : Sweep → List Outcome → Transcript Nat
  | done removed, outcomes => ⟨[], .ok removed, outcomes⟩
  | s, [] => ⟨[s.words stem], .error (.timedOut limit), []⟩
  | s, o :: outcomes =>
    match s.step limit o with
    | .error failure => ⟨[s.words stem], .error failure, outcomes⟩
    | .ok next =>
      let t := run limit stem next outcomes
      { t with sent := s.words stem :: t.sent }

end Sweep

end Turnstile.Redis
