import Turnstile.Codec
import Turnstile.Key
import Turnstile.Paging.Page
import Turnstile.Store.Program

/-!
# Caches

Values kept beside the durable ones in the shared store, for a lifetime.  A cache never fails: a store
that fails or an entry that cannot be decoded is a miss, a value that cannot be written is skipped,
and what cannot be invalidated ends with its lifetime.  `Cache.readThrough` asks the cache first and
the durable source on a miss.
-/

namespace Turnstile

open Turnstile.Store Turnstile.Time

/-- A cache of values by keys, in a namespace of the store. -/
structure Cache (κ α : Type) where
  space : String
  lifetime : Span
  name : κ → String
  codec : Codec α

namespace Cache

variable {κ α ε : Type}

/-- The store key of a value. -/
def keyFor (c : Cache κ α) (k : κ) : String := Key.namespaced c.space (c.name k)

/-- Reads a value. -/
def get (c : Cache κ α) (k : κ) : Program (Option α) := do
  match ← Program.command (.get (c.keyFor k)) with
  | .ok (some text) =>
    match c.codec.decode text with
    | .ok value =>
      Program.count (.cacheHits c.space)
      return some value
    | .error _ =>
      Program.count (.cacheDecodeErrors c.space)
      Program.count (.cacheMisses c.space)
      return none
  | .ok none | .error _ =>
    Program.count (.cacheMisses c.space)
    return none

/-- Writes a value, for the cache's lifetime unless another is given. -/
def set (c : Cache κ α) (k : κ) (value : α) (lifetime : Option Span) : Program Unit := do
  match c.codec.encode value with
  | .ok text =>
    match ← Program.command (.set (c.keyFor k) text (some (lifetime.getD c.lifetime))) with
    | .ok () => return ()
    | .error _ => Program.count (.cacheWriteErrors c.space)
  | .error _ => Program.count (.cacheWriteErrors c.space)

/-- Removes a value; whether there was one. -/
def delete (c : Cache κ α) (k : κ) : Program Bool := do
  match ← Program.command (.delete (c.keyFor k)) with
  | .ok removed => return removed
  | .error _ => return false

/-- Removes all values whose names begin with a stem; how many there were. -/
def invalidate (c : Cache κ α) (stem : String) : Program Nat := do
  match ← Program.command (.deleteByPrefix (Key.namespaced c.space stem)) with
  | .ok removed => return removed
  | .error _ => return 0

/-- Reads a value from the cache or, on a miss, from its durable source, and keeps what it found
there.  That the source has no value is not kept. -/
def readThrough (c : Cache κ α) (k : κ) (load : Program (Except ε (Option α))) :
    Program (Except ε (Option α)) := do
  match ← c.get k with
  | some value => return .ok (some value)
  | none =>
    match ← load with
    | .error failure => return .error failure
    | .ok none => return .ok none
    | .ok (some value) =>
      c.set k value none
      return .ok (some value)

/-- The lifetime of products unless it is configured: an hour. -/
def defaultProductLifetime : Span := .ofSeconds 3600

/-- The lifetime of curation pages unless it is configured: an hour. -/
def defaultCurationLifetime : Span := .ofSeconds 3600

/-- The cache of products by their ids. -/
def products (α : Type) [Json.ToJson α] [Json.OfJson α] (lifetime : Span) : Cache UInt64 α :=
  ⟨Key.product, lifetime, Key.productName, Codec.json α⟩

/-- The cache of curations' pages. -/
def curationPages (α : Type) [Json.ToJson α] [Json.OfJson α] (lifetime : Span) :
    Cache Key.CurationPage α :=
  ⟨Key.curation, lifetime, Key.CurationPage.name, Codec.json α⟩

/-- The cache of members' refresh tokens, as they are. -/
def memberTokens (lifetime : Span) : Cache UInt64 String :=
  ⟨Key.member, lifetime, Key.refreshTokenName, Codec.raw⟩

/-- Removes all pages of a curation; how many there were. -/
def invalidateCuration (c : Cache Key.CurationPage α) (curation : UInt64) : Program Nat :=
  c.invalidate (Key.CurationPage.stem curation)

end Cache

end Turnstile
