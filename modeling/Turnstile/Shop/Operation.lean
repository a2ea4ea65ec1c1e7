import Turnstile.Cache
import Turnstile.Gate
import Turnstile.RefreshTokens
import Turnstile.Stock
import Turnstile.Views

/-!
# The shop's components at work

All components of the shop over one store, and everything that can be asked of them.  An operation
knows the type of its answer, and `Shop.Operation.program` is the program that carries it out; what
the shop does over time is a list of operations.
-/

namespace Turnstile

open Turnstile.Store Turnstile.Time

/-- The components over one store. -/
structure Shop where
  gate : Gate
  tokens : RefreshTokens
  products : Cache UInt64 ProductDetail
  curations : Cache Key.CurationPage CardPage
  stocks : Cache UInt64 Stock
  members : Cache UInt64 String
  notes : Cache String String

namespace Shop

/-- How long the components keep what they write. -/
structure Lifetimes where
  lock : Span := Gate.defaultLifetime
  product : Span := Cache.defaultProductLifetime
  curation : Span := Cache.defaultCurationLifetime
  token : Span := RefreshTokens.defaultLifetime

/-- The components with their lifetimes; the notes are texts in a namespace of their own, kept like
products. -/
def make (t : Lifetimes) (notesSpace : String) : Shop where
  gate := ⟨t.lock⟩
  tokens := .make t.token
  products := Cache.products ProductDetail t.product
  curations := Cache.curationPages CardPage t.curation
  stocks := ⟨"stock", t.product, Key.ofId, Codec.json Stock⟩
  members := Cache.memberTokens t.token
  notes := ⟨notesSpace, t.product, id, Codec.json String⟩

/-- What can be asked of a cache. -/
inductive CacheOperation (κ α : Type) where
  | get (k : κ)
  | set (k : κ) (value : α) (lifetime : Option Span)
  | delete (k : κ)
  | invalidate (stem : String)
  /-- Reads through the cache to a source that holds this. -/
  | readThrough (k : κ) (source : Except String (Option α))

namespace CacheOperation

variable {κ α : Type}

/-- What a cache answers. -/
abbrev Answer : CacheOperation κ α → Type
  | get _ => Option α
  | set .. => Unit
  | delete _ => Bool
  | invalidate _ => Nat
  | readThrough .. => Except String (Option α)

/-- The program that carries the operation out. -/
def program (c : Cache κ α) : (o : CacheOperation κ α) → Program o.Answer
  | get k => c.get k
  | set k value lifetime => c.set k value lifetime
  | delete k => c.delete k
  | invalidate stem => c.invalidate stem
  | readThrough k source => c.readThrough k (Program.call source)

end CacheOperation

/-- What can be asked of the components.  Guarded operations come to a `β`. -/
inductive Operation (β : Type) where
  | acquire (key : RequestKey)
  /-- Guards an operation that comes to this. -/
  | guard (key : RequestKey) (outcome : Except String β)
  | countView (product : UInt64) (delta : Int64)
  | viewCount (product : UInt64)
  | resetViews (product : UInt64)
  | saveToken (member : UInt64) (token : String)
  | findToken (member : UInt64)
  | checkToken (member : UInt64) (presented : String)
  | revokeToken (member : UInt64)
  | invalidateCuration (curation : UInt64)
  | product (o : CacheOperation UInt64 ProductDetail)
  | curationPage (o : CacheOperation Key.CurationPage CardPage)
  | stock (o : CacheOperation UInt64 Stock)
  | memberToken (o : CacheOperation UInt64 String)
  | noted (o : CacheOperation String String)

namespace Operation

variable {β : Type}

/-- What the components answer. -/
abbrev Answer : Operation β → Type
  | acquire _ | resetViews _ | checkToken .. | revokeToken _ => Bool
  | guard .. => Except (Gate.Refusal String) β
  | countView .. | viewCount _ => Option Int64
  | saveToken .. => Unit
  | findToken _ => Option String
  | invalidateCuration _ => Nat
  | product o => o.Answer
  | curationPage o => o.Answer
  | stock o => o.Answer
  | memberToken o => o.Answer
  | noted o => o.Answer

/-- The program that carries the operation out. -/
def program (s : Shop) : (o : Operation β) → Program o.Answer
  | acquire key => s.gate.tryAcquire key
  | guard key outcome => s.gate.guard key (Program.call outcome)
  | countView id delta => Views.increment id delta
  | viewCount id => Views.count id
  | resetViews id => Views.reset id
  | saveToken id token => s.tokens.save id token
  | findToken id => s.tokens.find id
  | checkToken id presented => s.tokens.isCurrent id presented
  | revokeToken id => s.tokens.revoke id
  | invalidateCuration id => Cache.invalidateCuration s.curations id
  | product o => o.program s.products
  | curationPage o => o.program s.curations
  | stock o => o.program s.stocks
  | memberToken o => o.program s.members
  | noted o => o.program s.notes

end Operation

end Shop

end Turnstile
