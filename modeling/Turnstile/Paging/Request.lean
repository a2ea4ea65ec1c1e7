import Turnstile.Paging.Page

/-!
# Page requests and walks

A client asks for a page by the id that it begins at and by its size, which must not be zero and not
be above the shop's limit.  `Page.Request.fetchLimit` is the number of rows to fetch for it, one more
than it holds.

A walk follows a listing page by page.  The listing may change between two pages, so a walk is over
the successive states of the listing, one for each page (`walk`); rows come with their ids descending
and a page begins at the largest id that is not above its cursor (`rowsFrom`).
-/

namespace Turnstile.Page

/-- A page size that may not be asked for. -/
structure SizeRefusal where
  requested : UInt64
  max : UInt64
  deriving DecidableEq, Repr

/-- The wording of a refused size. -/
def SizeRefusal.message (r : SizeRefusal) : String :=
  s!"Page size must be between 1 and {r.max.toNat}, got {r.requested.toNat}"

/-- A request for a page: the id that it begins at, if it is not the first one, and its size. -/
structure Request (ι : Type) where
  cursor : Option ι
  size : UInt64
  size_ne_zero : size ≠ 0

namespace Request

variable {α ι : Type}

/-- A request for a page of a size between one and a limit. -/
def make (max : UInt64) (cursor : Option ι) (size : UInt64) : Except SizeRefusal (Request ι) :=
  if h : size = 0 then .error ⟨size, max⟩
  else if max < size then .error ⟨size, max⟩
  else .ok ⟨cursor, size, h⟩

/-- The number of rows to fetch: one more than the page holds, as far as a word can count. -/
def fetchLimit (r : Request ι) : Nat := min (r.size.toNat + 1) (UInt64.size - 1)

/-- The page of fetched rows. -/
def paginate (r : Request ι) (id : α → ι) (rows : List α) : Page α ι :=
  Page.paginate id r.size rows

end Request

/-- The rows from a cursor on, in a listing with ids descending. -/
def rowsFrom {α : Type} (id : α → UInt64) (cursor : Option UInt64) (rows : List α) : List α :=
  match cursor with
  | none => rows
  | some c => rows.filter fun row => id row ≤ c

/-- One page of a listing. -/
def read {α : Type} (id : α → UInt64) (r : Request UInt64) (rows : List α) : Page α UInt64 :=
  r.paginate id ((rowsFrom id r.cursor rows).take r.fetchLimit)

/-- The pages of a walk, the first of which is asked for by `r`, over the successive states of a
listing.  The walk ends with the page that has no next one, or with the last state. -/
def walk {α : Type} (id : α → UInt64) (r : Request UInt64) : List (List α) → List (Page α UInt64)
  | [] => []
  | rows :: later =>
    let page := read id r rows
    match page.next with
    | none => [page]
    | some c => page :: walk id { r with cursor := some c } later

end Turnstile.Page
