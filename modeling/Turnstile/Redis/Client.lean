import Turnstile.Config
import Turnstile.Redis.Sweep
import Turnstile.Redis.Url

/-!
# The client of a Redis server

How each store command is said to a Redis server and how its answer is read.  A command is one request
and one reply, except the removal by a stem, which is a sweep.  A server that stays silent for longer
than the client's limit has not answered.

Lifetimes are sent in whole milliseconds, at least one, as a word of 64 bits.
-/

namespace Turnstile.Redis

open Turnstile.Store Turnstile.Text Turnstile.Time

/-- A client that waits for an answer no longer than a limit. -/
structure Client where
  limit : Span
  deriving DecidableEq, Repr

/-- A lifetime in milliseconds, as it is sent. -/
def lifetimeMillis (d : Span) : Nat := max (d.millis % UInt64.size) 1

namespace Client

/-- A lifetime as an argument. -/
def lifetimeWord (d : Span) : String := Sweep.argument (lifetimeMillis d)

/-- A change of a counter as an argument. -/
def deltaWord (n : Int64) : String := String.ofList (Decimal.ofInt n.toInt)

/-- What is sent for a command; for a removal by a stem, what is sent first. -/
def words : Command → List String
  | .setIfAbsent key value lifetime => ["SET", key, value, "NX", "PX", lifetimeWord lifetime]
  | .get key => ["GET", key]
  | .set key value (some lifetime) => ["PSETEX", key, lifetimeWord lifetime, value]
  | .set key value none => ["SET", key, value]
  | .incrBy key delta => ["INCRBY", key, deltaWord delta]
  | .decrBy key delta => ["DECRBY", key, deltaWord delta]
  | .delete key => ["DEL", key]
  | .deleteByPrefix stem => Sweep.start.words stem
  | .ping => ["PING"]

/-- One request and its reply. -/
def ask {α : Type} (c : Client) (words : List String) (fits : Reply → Option α) :
    List Outcome → Transcript α
  | [] => ⟨[words], .error (.timedOut c.limit), []⟩
  | o :: outcomes => ⟨[words], o.read c.limit fits, outcomes⟩

/-- Carries a command out, with the outcomes of what is sent for it. -/
def run (c : Client) (outcomes : List Outcome) : (command : Command) → Transcript command.Answer
  | .setIfAbsent key value lifetime =>
    c.ask (words (.setIfAbsent key value lifetime))
      (fun r => r.optionalText?.map Option.isSome) outcomes
  | .get key => c.ask (words (.get key)) Reply.optionalText? outcomes
  | .set key value lifetime =>
    c.ask (words (.set key value lifetime)) (fun _ => some ()) outcomes
  | .incrBy key delta => c.ask (words (.incrBy key delta)) Reply.signed? outcomes
  | .decrBy key delta => c.ask (words (.decrBy key delta)) Reply.signed? outcomes
  | .delete key =>
    c.ask (words (.delete key)) (fun r => r.unsigned?.map fun n => decide (0 < n)) outcomes
  | .deleteByPrefix stem => Sweep.start.run c.limit stem outcomes
  | .ping => c.ask (words .ping) (fun r => r.text?.map fun _ => ()) outcomes

/-- How the client shows itself in a log. -/
def summary (c : Client) : String :=
  s!"RedisKeyValueStore \x7b command_timeout: {c.limit.text}, .. \x7d"

end Client

/-! ## Connecting -/

/-- Connects to the server of a configuration, which comes to this when it is greeted. The end of the
connection is worded as in `Outcome.read`. -/
def connect (config : RedisConfig) (greeting : Outcome) : Except Failure Client :=
  match Url.check config.url with
  | .error fault => .error (.unavailable s!"Failed to create Redis client: {fault.message}")
  | .ok _ =>
    match greeting with
    | .reply (.error line) =>
      .error (.unavailable
        s!"Failed to create Redis connection manager: {Reply.errorMessage line}")
    | .reply _ => .ok ⟨config.commandTimeout⟩
    | .silence => .error (.timedOut config.connectTimeout)
    | .closed =>
      .error (.unavailable "Failed to create Redis connection manager: the connection was closed")

end Turnstile.Redis
