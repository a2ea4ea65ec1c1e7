import Turnstile.Paging.Request

/-! # Rows to fetch for a page

A page is made of the rows that were fetched for it, and it looks at the row behind its own only to
name it. So the rows behind that one are not missed, while a page of fewer rows is another page,
unless there were no more (`paginate_take_iff`).

* `Request.paginate_take_fetchLimit`: one row more than the page holds is what a request has fetched.
  The largest page holds as many rows as a word can count, so that its limit saturates; this is not
  felt, because no list of rows is longer.
* `Begins`: what a page shows, and what it names as the beginning of the next one.
* `map_paginate`: the rows can be converted before or after they are put on a page.
* `page_of_fetched` puts these together. -/

namespace Turnstile.Page

variable {α β ι : Type} {id : α → ι} {max size : UInt64} {rows : List α}

theorem make_ok (hpos : size ≠ 0) (hmax : size ≤ max) (cursor : Option ι) :
    Request.make max cursor size = .ok ⟨cursor, size, hpos⟩ := by
  unfold Request.make
  rw [dif_neg hpos, if_neg (UInt64.not_lt.mpr hmax)]

theorem paginate_eq (id : α → ι) (size : UInt64) (rows : List α) :
    paginate id size rows =
      ⟨rows.take size.toNat, size, decide (size.toNat < rows.length),
        rows[size.toNat]?.map id⟩ := by
  calc paginate id size rows
      = ⟨(paginate id size rows).content, (paginate id size rows).size,
          (paginate id size rows).hasNext, (paginate id size rows).next⟩ := rfl
    _ = _ := by rw [content_paginate, size_paginate, hasNext_paginate, next_paginate]

/-! ### How many rows are enough -/

/-- **One row more is enough**, and it is needed, unless all rows are fetched. -/
theorem paginate_take_iff {n : Nat} :
    paginate id size (rows.take n) = paginate id size rows ↔
      size.toNat < n ∨ rows.length ≤ n := by
  constructor
  · intro h
    have hcontent : (paginate id size (rows.take n)).content.length =
        (paginate id size rows).content.length := by rw [h]
    have hnext : (paginate id size (rows.take n)).hasNext = (paginate id size rows).hasNext := by
      rw [h]
    simp only [content_paginate, List.length_take] at hcontent
    simp only [hasNext_paginate, List.length_take, decide_eq_decide] at hnext
    omega
  · rintro (hlt | hle)
    · rw [paginate_eq, paginate_eq, List.take_take, Nat.min_eq_left (Nat.le_of_lt hlt),
        List.length_take, List.getElem?_take_of_lt hlt]
      congr 2
      rw [eq_iff_iff]
      omega
    · rw [List.take_of_length_le hle]

/-- **The limit of a request is enough**, also where it saturates: then the page holds as many rows
as any list has. -/
theorem Request.paginate_take_fetchLimit (r : Request ι) (id : α → ι)
    (h : rows.length < UInt64.size) :
    r.paginate id (rows.take r.fetchLimit) = r.paginate id rows := by
  have hsize : r.size.toNat < UInt64.size := r.size.toNat_lt
  have hlimit : r.fetchLimit = min (r.size.toNat + 1) (UInt64.size - 1) := rfl
  exact paginate_take_iff.mpr (by omega)

/-! ### What is on the page -/

/-- The page shows the first of the rows, and names the one that the next page begins with. -/
structure Begins (id : α → ι) (size : UInt64) (rows : List α) (page : Page α ι) : Prop where
  content_eq : page.content = rows.take size.toNat
  size_eq : page.size = size
  hasNext_iff : page.hasNext = true ↔ size.toNat < rows.length
  isSome_next : page.next.isSome = page.hasNext
  next_eq : ∀ h : size.toNat < rows.length, page.next = some (id rows[size.toNat])

theorem begins_paginate (id : α → ι) (size : UInt64) (rows : List α) :
    Begins id size rows (paginate id size rows) where
  content_eq := content_paginate id size rows
  size_eq := size_paginate id size rows
  hasNext_iff := by rw [hasNext_paginate, decide_eq_true_iff]
  isSome_next := by
    rw [Bool.eq_iff_iff]
    simp [next_paginate, hasNext_paginate]
  next_eq h := by rw [next_paginate, List.getElem?_eq_getElem h, Option.map_some]

theorem map_paginate (f : α → β) {g : β → ι} (h : ∀ row ∈ rows, g (f row) = id row) :
    (paginate id size rows).map f = paginate g size (rows.map f) := by
  have hnext : rows[size.toNat]?.map id = (rows.map f)[size.toNat]?.map g := by
    rw [List.getElem?_map, Option.map_map]
    refine Option.map_congr fun row hrow => ?_
    exact (h row (List.mem_of_getElem? hrow)).symm
  rw [paginate_eq, paginate_eq, map, List.map_take, List.length_map, hnext]

/-- **A page of what was fetched** is the page of all the rows: the request's limit is enough, as is
every limit beyond the page, and no other that leaves rows out. The page shows the first rows in their
order and names the next one, and it makes no difference whether the rows are converted before or
after. -/
theorem page_of_fetched (hpos : size ≠ 0) (hmax : size ≤ max) (cursor : Option ι) (id : α → ι)
    (hlen : rows.length < UInt64.size) :
    ∃ r, Request.make max cursor size = .ok r ∧
      r.paginate id (rows.take r.fetchLimit) = r.paginate id rows ∧
      (∀ n, r.paginate id (rows.take n) = r.paginate id rows ↔
        size.toNat < n ∨ rows.length ≤ n) ∧
      Begins id size rows (r.paginate id rows) ∧
      ∀ (β : Type) (f : α → β) (g : β → ι), (∀ row ∈ rows, g (f row) = id row) →
        (r.paginate id rows).map f = r.paginate g (rows.map f) := by
  let r : Request ι := ⟨cursor, size, hpos⟩
  exact ⟨r, make_ok hpos hmax cursor, r.paginate_take_fetchLimit id hlen,
    fun n => paginate_take_iff, begins_paginate id size rows, fun _ f _ h => map_paginate f h⟩

/-- Details of four products. -/
def fourProducts : List ProductDetail :=
  [⟨9, "Tea", 350⟩, ⟨7, "Cup", 900⟩, ⟨4, "Pot", 2400⟩, ⟨1, "Mat", 500⟩]

/-- For two of them on a page three are fetched, and the page can be made of their cards. -/
theorem page_of_fetched_cards :
    (∀ p ∈ fourProducts, p.card.id = p.id) ∧
      ∃ r, Request.make 20 (some 9) 2 = .ok r ∧
        r.paginate ProductDetail.id (fourProducts.take r.fetchLimit) =
          r.paginate ProductDetail.id fourProducts ∧
        Begins ProductDetail.id 2 fourProducts (r.paginate ProductDetail.id fourProducts) ∧
        (r.paginate ProductDetail.id fourProducts).map ProductDetail.card =
          r.paginate ProductCard.id (fourProducts.map ProductDetail.card) := by
  have hcards : ∀ p ∈ fourProducts, p.card.id = p.id := fun _ _ => rfl
  have hpos : (2 : UInt64) ≠ 0 := by decide
  have hmax : (2 : UInt64) ≤ 20 := by decide
  have hlen : fourProducts.length < UInt64.size := by decide
  obtain ⟨r, hr, hlimit, -, hbegins, hmap⟩ :=
    page_of_fetched hpos hmax (some 9) ProductDetail.id hlen
  exact ⟨hcards, r, hr, hlimit, hbegins, hmap _ ProductDetail.card ProductCard.id hcards⟩

end Turnstile.Page
