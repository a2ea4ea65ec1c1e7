import Turnstile.Store.Failure

/-!
# Store commands

The eight commands of the shared key-value store, as values, each with the type of its answer.  What
a component may ask of a store, and what a store must be able to answer, is exactly this.
-/

namespace Turnstile.Store

open Turnstile.Time

/-- A command to the shared store. -/
inductive Command where
  /-- Writes a key that holds nothing, for a while. -/
  | setIfAbsent (key value : String) (lifetime : Span)
  /-- Reads a key. -/
  | get (key : String)
  /-- Writes a key, for a while or for good. -/
  | set (key value : String) (lifetime : Option Span)
  /-- Adds to the integer that a key holds. -/
  | incrBy (key : String) (delta : Int64)
  /-- Subtracts from the integer that a key holds. -/
  | decrBy (key : String) (delta : Int64)
  /-- Removes a key. -/
  | delete (key : String)
  /-- Removes all keys that begin with a stem. -/
  | deleteByPrefix (stem : String)
  /-- Asks for a sign of life. -/
  | ping
  deriving DecidableEq, Repr

namespace Command

/-- The commands without their arguments. -/
inductive Kind where
  | setIfAbsent
  | get
  | set
  | incrBy
  | decrBy
  | delete
  | deleteByPrefix
  | ping
  deriving DecidableEq, Repr

/-- Which command it is. -/
def kind : Command → Kind
  | setIfAbsent .. => .setIfAbsent
  | get _ => .get
  | set .. => .set
  | incrBy .. => .incrBy
  | decrBy .. => .decrBy
  | delete _ => .delete
  | deleteByPrefix _ => .deleteByPrefix
  | ping => .ping

/-- What the command is answered with: whether a key was written or removed, the value that was
read, the new integer, or the number of keys removed. -/
abbrev Answer : Command → Type
  | setIfAbsent .. | delete _ => Bool
  | get _ => Option String
  | set .. | ping => Unit
  | incrBy .. | decrBy .. => Int64
  | deleteByPrefix _ => Nat

/-- An answer, or the reason why there is none. -/
abbrev Reply (c : Command) : Type := Except Failure c.Answer

end Command

end Turnstile.Store
