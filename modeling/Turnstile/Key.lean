import Turnstile.Text.Decimal
import Turnstile.Text.Stem

/-!
# Store keys

The names under which the shop keeps things in the shared store.  Every key begins with the
namespace of its family and a colon; behind it stands what the key is about.

* `product:{id}`: a product's details; `product:{id}:views`: how often it was looked at;
* `curation:{id}:product:cursor:{id or null}:size:{n}`: one page of a curation's products;
* `member:{id}:token:refresh`: a member's refresh token;
* `request-lock:…`: locks on requests, see `RequestKey`.
-/

namespace Turnstile.Key

open Turnstile.Text

/-- The namespace of products and their views. -/
def product : String := "product"

/-- The namespace of curation pages. -/
def curation : String := "curation"

/-- The namespace of members' tokens. -/
def member : String := "member"

/-- The namespace of locks on requests. -/
def requestLock : String := "request-lock"

/-- A name within a namespace. -/
def namespaced (space name : String) : String := space ++ ":" ++ name

/-- An id as it stands in keys. -/
def ofId (id : UInt64) : String := String.ofList (Decimal.digits id.toNat)

/-- The name of a product. -/
def productName (id : UInt64) : String := ofId id

/-- The name of a product's view count. -/
def viewsName (id : UInt64) : String := ofId id ++ ":views"

/-- The name of a member's refresh token. -/
def refreshTokenName (member : UInt64) : String := ofId member ++ ":token:refresh"

/-- The key of a product's view count. -/
def views (id : UInt64) : String := namespaced product (viewsName id)

/-- A page of a curation: which products it starts at, and how many it holds. -/
structure CurationPage where
  curation : UInt64
  cursor : Option UInt64
  size : UInt64
  deriving DecidableEq, Repr

namespace CurationPage

/-- The name of a page. -/
def name (k : CurationPage) : String :=
  ofId k.curation ++ ":product:cursor:" ++ (k.cursor.elim "null" ofId) ++ ":size:" ++ ofId k.size

/-- What the names of all pages of a curation begin with. -/
def stem (curation : UInt64) : String := ofId curation ++ ":"

theorem beginsWith_stem_name (k : CurationPage) : beginsWith (stem k.curation) k.name = true :=
  beginsWith_iff.2
    ⟨"product:cursor:" ++ (k.cursor.elim "null" ofId) ++ ":size:" ++ ofId k.size,
      String.toList_inj.1 (by simp [name, stem])⟩

end CurationPage

@[simp] theorem toList_ofId (id : UInt64) : (ofId id).toList = Decimal.digits id.toNat := by
  simp [ofId]

@[simp] theorem toList_namespaced (space name : String) :
    (namespaced space name).toList = space.toList ++ ':' :: name.toList := by
  simp [namespaced]

end Turnstile.Key
