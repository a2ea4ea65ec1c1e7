import Turnstile.Catalog

/-!
# Pages

A listing is shown in pages by id: a page holds the first rows of what is left, and where the next
one begins.  To know whether there is a next page, one row more than the page holds is fetched
(`paginate`); that row is left out, and its id is where the next page begins.
-/

namespace Turnstile

open Turnstile.Json

/-- A page of rows, and the id that the next page begins at. -/
structure Page (α ι : Type) where
  content : List α
  size : UInt64
  hasNext : Bool
  next : Option ι
  deriving DecidableEq, Repr

namespace Page

variable {α β ι : Type}

/-- A page without rows. -/
def empty (size : UInt64) : Page α ι := ⟨[], size, false, none⟩

/-- The page with every row converted. -/
def map (f : α → β) (p : Page α ι) : Page β ι := { p with content := p.content.map f }

/-- The number of rows. -/
def length (p : Page α ι) : Nat := p.content.length

/-- The page has no rows. -/
def isEmpty (p : Page α ι) : Bool := p.content.isEmpty

/-- The page that begins the rows.  There is a next one if the rows do not all fit, and it begins at
the first row that does not. -/
def paginate (id : α → ι) (size : UInt64) (rows : List α) : Page α ι :=
  match rows.drop size.toNat with
  | [] => ⟨rows, size, false, none⟩
  | row :: _ => ⟨rows.take size.toNat, size, true, some (id row)⟩

theorem content_paginate (id : α → ι) (size : UInt64) (rows : List α) :
    (paginate id size rows).content = rows.take size.toNat := by
  unfold paginate
  split
  · next h => exact (List.take_of_length_le (List.drop_eq_nil_iff.1 h)).symm
  · rfl

theorem hasNext_paginate (id : α → ι) (size : UInt64) (rows : List α) :
    (paginate id size rows).hasNext = decide (size.toNat < rows.length) := by
  unfold paginate
  split
  · next h => simpa using List.drop_eq_nil_iff.1 h
  · next h =>
    have hlen := congrArg List.length h
    simp only [List.length_drop, List.length_cons] at hlen
    simpa using (by omega : size.toNat < rows.length)

theorem next_paginate (id : α → ι) (size : UInt64) (rows : List α) :
    (paginate id size rows).next = rows[size.toNat]?.map id := by
  unfold paginate
  split
  · next h => simp [List.getElem?_eq_none (List.drop_eq_nil_iff.1 h)]
  · next row rest h =>
    have hrow : (rows.drop size.toNat)[0]? = some row := by rw [h]; rfl
    rw [List.getElem?_drop, Nat.add_zero] at hrow
    rw [hrow]
    rfl

@[simp] theorem size_paginate (id : α → ι) (size : UInt64) (rows : List α) :
    (paginate id size rows).size = size := by
  unfold paginate
  split <;> rfl

end Page

instance {α ι : Type} [ToJson α] [ToJson ι] : ToJson (Page α ι) where
  toJson? p := record? [("content", toJson? p.content), ("size", toJson? p.size),
    ("hasNext", toJson? p.hasNext), ("nextCursorId", toJson? p.next)]

/-- An object may leave out where the next page begins; an array may not. -/
instance {α ι : Type} [OfJson α] [OfJson ι] : OfJson (Page α ι) where
  ofJson? := Fields.ofTree?
    (.required "content" (.required "size" (.required "hasNext" (.optional "nextCursorId" .done))))
    fun ((content, size, hasNext, next, ()) : List α × UInt64 × Bool × Option ι × Unit) =>
      ⟨content, size, hasNext, next⟩

/-- A page of a listing of products. -/
abbrev CardPage := Page ProductCard UInt64

end Turnstile
