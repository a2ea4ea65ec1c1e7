import Turnstile.Json.Record

/-!
# The catalog

What the shop shows of its products, and how it is written: details for one product's own page,
cards for listings.
-/

namespace Turnstile

open Turnstile.Json

/-- A product on its own page. -/
structure ProductDetail where
  id : UInt64
  name : String
  price : UInt64
  deriving DecidableEq, Repr

/-- A product in a listing. -/
structure ProductCard where
  id : UInt64
  name : String
  deriving DecidableEq, Repr

/-- The card of a product. -/
def ProductDetail.card (p : ProductDetail) : ProductCard := ⟨p.id, p.name⟩

instance : ToJson ProductDetail where
  toJson? p :=
    record? [("id", toJson? p.id), ("name", toJson? p.name), ("price", toJson? p.price)]

instance : OfJson ProductDetail where
  ofJson? := Fields.ofTree? (.required "id" (.required "name" (.required "price" .done)))
    fun ((id, name, price, ()) : UInt64 × String × UInt64 × Unit) => ⟨id, name, price⟩

instance : ToJson ProductCard where
  toJson? c := record? [("id", toJson? c.id), ("name", toJson? c.name)]

instance : OfJson ProductCard where
  ofJson? := Fields.ofTree? (.required "id" (.required "name" .done))
    fun ((id, name, ()) : UInt64 × String × Unit) => ⟨id, name⟩

end Turnstile
