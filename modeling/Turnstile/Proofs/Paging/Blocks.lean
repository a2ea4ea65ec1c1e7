import Turnstile.Proofs.Paging.Walk

/-! # A walk over a listing that stays as it is

While a listing does not change, a page begins where the one before it ended: the rows from the next
cursor on are those that the page left out (`rowsFrom_next`). So a walk cuts the rows from its
cursor on into blocks of the page size.

* `blocks`: the pages of the blocks; `blocks_of_le`, `blocks_of_lt`: the first block, and the blocks
  of what it leaves.
* `pages_replicate`: these are the pages of the walk, however often it may read.
* `InBlocks`: what can be said of them page by page. Their number is the number of rows over the
  page size, rounded up; only the last one may not be full, and it is empty only if there are no
  rows (`inBlocks_blocks`).
* `walk_static` puts these together. -/

namespace Turnstile.Page

variable {α : Type} {id : α → UInt64} {r : Request UInt64} {s : Snapshot id}

/-! ### One page -/

theorem next_read_eq_none_iff :
    (read id r s.rows).next = none ↔ (rowsFrom id r.cursor s.rows).length ≤ r.size.toNat := by
  rw [next_read, Option.map_eq_none_iff, List.getElem?_eq_none_iff]

theorem lt_length_of_next {c : UInt64} (h : (read id r s.rows).next = some c) :
    r.size.toNat < (rowsFrom id r.cursor s.rows).length :=
  Nat.lt_of_not_le fun hle => Option.some_ne_none c (h.symm.trans (next_read_eq_none_iff.mpr hle))

theorem length_content_of_next {c : UInt64} (h : (read id r s.rows).next = some c) :
    (read id r s.rows).content.length = r.size.toNat := by
  have hmore := lt_length_of_next h
  rw [content_read, List.length_take]
  omega

theorem rowsFrom_rowsFrom {c : UInt64} (h : (read id r s.rows).next = some c) :
    rowsFrom id (some c) (rowsFrom id r.cursor s.rows) = rowsFrom id (some c) s.rows := by
  cases hstart : r.cursor with
  | none => rfl
  | some start =>
    have hlt : c < start := next_lt h hstart
    unfold rowsFrom
    dsimp only
    rw [List.filter_filter]
    congr 1
    funext row
    rw [Bool.eq_iff_iff, Bool.and_eq_true, decide_eq_true_iff, decide_eq_true_iff]
    exact and_iff_left_of_imp fun hle => UInt64.le_trans hle (UInt64.le_of_lt hlt)

theorem rowsFrom_next {c : UInt64} (h : (read id r s.rows).next = some c) :
    rowsFrom id (some c) s.rows = (rowsFrom id r.cursor s.rows).drop r.size.toNat := by
  obtain ⟨-, row, rest, hid, hrows⟩ := read_more h
  have hdesc := descending_rowsFrom r s
  rw [hrows, List.pairwise_append, List.pairwise_cons] at hdesc
  have hshown : rowsFrom id (some c) (read id r s.rows).content = [] := by
    refine List.filter_eq_nil_iff.mpr fun other hother => ?_
    rw [decide_eq_true_iff, UInt64.not_le]
    exact lt_of_mem_read h hother
  have hleft : rowsFrom id (some c) (row :: rest) = row :: rest := by
    refine List.filter_eq_self.mpr fun other hother => ?_
    rw [decide_eq_true_iff, ← hid]
    rcases List.mem_cons.mp hother with rfl | hmem
    · exact UInt64.le_refl _
    · exact UInt64.le_of_lt (hdesc.2.1.1 other hmem)
  calc rowsFrom id (some c) s.rows
      = rowsFrom id (some c) ((read id r s.rows).content ++ row :: rest) := by
        rw [← rowsFrom_rowsFrom h, hrows]
    _ = rowsFrom id (some c) (read id r s.rows).content ++ rowsFrom id (some c) (row :: rest) :=
        List.filter_append ..
    _ = row :: rest := by rw [hshown, hleft, List.nil_append]
    _ = (rowsFrom id r.cursor s.rows).drop r.size.toNat := by
        rw [hrows, List.drop_left' (length_content_of_next h)]

/-! ### Blocks -/

/-- The number of pages for a number of rows: one for each begun block, and one for no rows. -/
def pageCount (size : UInt64) (n : Nat) : Nat := max 1 ((n + size.toNat - 1) / size.toNat)

/-- The pages of the blocks of rows. -/
def blocks (id : α → UInt64) (size : UInt64) (rows : List α) : List (Page α UInt64) :=
  (List.range (pageCount size rows.length)).map fun i =>
    paginate id size (rows.drop (i * size.toNat))

section Count

variable {size : UInt64} {i n : Nat}

theorem toNat_pos (hpos : size ≠ 0) : 0 < size.toNat :=
  Nat.pos_of_ne_zero fun h => hpos (UInt64.toNat_inj.mp h)

theorem pageCount_of_le (hpos : size ≠ 0) (h : n ≤ size.toNat) : pageCount size n = 1 := by
  have hsize := toNat_pos hpos
  have hdiv : (n + size.toNat - 1) / size.toNat < 2 := by
    rw [Nat.div_lt_iff_lt_mul hsize]
    omega
  unfold pageCount
  omega

theorem pageCount_of_lt (hpos : size ≠ 0) (h : size.toNat < n) :
    pageCount size n = pageCount size (n - size.toNat) + 1 := by
  have hsize := toNat_pos hpos
  have hone : 1 ≤ (n - size.toNat + size.toNat - 1) / size.toNat := by
    rw [Nat.le_div_iff_mul_le hsize]
    omega
  have hmore : (n + size.toNat - 1) / size.toNat =
      (n - size.toNat + size.toNat - 1) / size.toNat + 1 := by
    rw [← Nat.add_div_right _ hsize]
    congr 1
    omega
  unfold pageCount
  omega

theorem mul_lt_of_lt_pageCount (hpos : size ≠ 0) (h : i + 1 < pageCount size n) :
    (i + 1) * size.toNat < n := by
  have hsize := toNat_pos hpos
  have hdiv : i + 1 < (n + size.toNat - 1) / size.toNat := by
    unfold pageCount at h
    omega
  have hmul := (Nat.le_div_iff_mul_le hsize).mp hdiv
  rw [Nat.succ_mul] at hmul
  omega

theorem le_pageCount_mul (hpos : size ≠ 0) : n ≤ pageCount size n * size.toNat := by
  have hsize := toNat_pos hpos
  have hdiv : n + size.toNat - 1 < ((n + size.toNat - 1) / size.toNat + 1) * size.toNat :=
    Nat.lt_mul_of_div_lt (Nat.lt_succ_self _) hsize
  have hle : (n + size.toNat - 1) / size.toNat * size.toNat ≤ pageCount size n * size.toNat :=
    Nat.mul_le_mul_right _ (Nat.le_max_right _ _)
  rw [Nat.succ_mul] at hdiv
  omega

end Count

variable {size : UInt64} {rows : List α}

theorem blocks_of_le (hpos : size ≠ 0) (h : rows.length ≤ size.toNat) :
    blocks id size rows = [paginate id size rows] := by
  rw [blocks, pageCount_of_le hpos h, List.range_one, List.map_singleton, Nat.zero_mul,
    List.drop_zero]

theorem blocks_of_lt (hpos : size ≠ 0) (h : size.toNat < rows.length) :
    blocks id size rows = paginate id size rows :: blocks id size (rows.drop size.toNat) := by
  rw [blocks, pageCount_of_lt hpos h, List.range_succ_eq_map, List.map_cons, List.map_map,
    Nat.zero_mul, List.drop_zero, blocks, List.length_drop]
  congr 2
  funext i
  rw [Function.comp_apply, List.drop_drop, Nat.succ_mul, Nat.add_comm]

/-- **The walk shows the blocks**, as far as it reads. -/
theorem pages_replicate (n : Nat) (r : Request UInt64) (s : Snapshot id) :
    pages r (List.replicate n s) = (blocks id r.size (rowsFrom id r.cursor s.rows)).take n := by
  induction n generalizing r with
  | zero => rfl
  | succ n ih =>
    rw [List.replicate_succ]
    cases hnext : (read id r s.rows).next with
    | none =>
      rw [pages_last hnext, read_eq_paginate,
        blocks_of_le r.size_ne_zero (next_read_eq_none_iff.mp hnext), List.take_succ_cons,
        List.take_nil]
    | some c =>
      have hrest : rowsFrom id (r.from c).cursor s.rows =
          (rowsFrom id r.cursor s.rows).drop r.size.toNat := rowsFrom_next hnext
      rw [pages_more hnext, ih (r.from c), hrest, read_eq_paginate,
        blocks_of_lt r.size_ne_zero (lt_length_of_next hnext), List.take_succ_cons]
      rfl

/-! ### Page by page -/

/-- The pages show the rows in blocks of the page size. -/
structure InBlocks (id : α → UInt64) (size : UInt64) (rows : List α)
    (shown : List (Page α UInt64)) : Prop where
  count : shown.length = max 1 ((rows.length + size.toNat - 1) / size.toNat)
  block : ∀ i page, shown[i]? = some page →
    page.size = size ∧ page.content = (rows.drop (i * size.toNat)).take size.toNat
  /-- A page that another one follows is full, and names the row that the other one begins with. -/
  followed : ∀ i page other, shown[i]? = some page → shown[i + 1]? = some other →
    page.content.length = size.toNat ∧ page.hasNext = true ∧
      ∃ row, other.content.head? = some row ∧ page.next = some (id row)
  last : ∀ page, shown.getLast? = some page → page.hasNext = false ∧ page.next = none
  whole : shown.flatMap content = rows

theorem getElem?_blocks {i : Nat} {page : Page α UInt64}
    (h : (blocks id size rows)[i]? = some page) :
    i < pageCount size rows.length ∧ page = paginate id size (rows.drop (i * size.toNat)) := by
  rw [blocks, List.getElem?_map, Option.map_eq_some_iff] at h
  obtain ⟨j, hj, rfl⟩ := h
  obtain ⟨hlt, hget⟩ := List.getElem?_eq_some_iff.mp hj
  rw [List.length_range] at hlt
  rw [List.getElem_range] at hget
  exact ⟨hlt, by rw [hget]⟩

theorem length_blocks : (blocks id size rows).length = pageCount size rows.length := by
  rw [blocks, List.length_map, List.length_range]

theorem flatMap_blocks (hpos : size ≠ 0) (rows : List α) :
    (blocks id size rows).flatMap content = rows := by
  induction hn : rows.length using Nat.strongRecOn generalizing rows with
  | ind n ih =>
    rcases Nat.lt_or_ge size.toNat rows.length with hlt | hle
    · have hshorter : (rows.drop size.toNat).length < n := by
        rw [List.length_drop, ← hn]
        have hsize := toNat_pos hpos
        omega
      rw [blocks_of_lt hpos hlt, List.flatMap_cons, ih _ hshorter _ rfl, content_paginate,
        List.take_append_drop]
    · rw [blocks_of_le hpos hle, List.flatMap_singleton, content_paginate,
        List.take_of_length_le hle]

theorem inBlocks_blocks (hpos : size ≠ 0) (rows : List α) :
    InBlocks id size rows (blocks id size rows) where
  count := length_blocks
  block := by
    intro i page hpage
    obtain ⟨-, rfl⟩ := getElem?_blocks hpage
    exact ⟨size_paginate _ _ _, content_paginate _ _ _⟩
  followed := by
    intro i page other hpage hother
    obtain ⟨-, rfl⟩ := getElem?_blocks hpage
    obtain ⟨hi, rfl⟩ := getElem?_blocks hother
    have hlt := mul_lt_of_lt_pageCount hpos hi
    rw [Nat.succ_mul] at hlt
    have hrow : (rows.drop (i * size.toNat))[size.toNat]? =
        some (rows[i * size.toNat + size.toNat]) := by
      rw [List.getElem?_drop, List.getElem?_eq_getElem hlt]
    refine ⟨?_, ?_, rows[i * size.toNat + size.toNat], ?_, ?_⟩
    · rw [content_paginate, List.length_take, List.length_drop]
      omega
    · rw [hasNext_paginate, List.length_drop, decide_eq_true_iff]
      omega
    · rw [content_paginate, List.head?_take, if_neg (Nat.ne_of_gt (toNat_pos hpos)),
        List.head?_drop, Nat.succ_mul, List.getElem?_eq_getElem hlt]
    · rw [next_paginate, hrow, Option.map_some]
  last := by
    intro page hpage
    rw [List.getLast?_eq_getElem?, length_blocks] at hpage
    obtain ⟨hi, rfl⟩ := getElem?_blocks hpage
    have hall := le_pageCount_mul (n := rows.length) hpos
    have hcount : pageCount size rows.length = pageCount size rows.length - 1 + 1 := by omega
    rw [hcount, Nat.succ_mul] at hall
    have hleft :
        (rows.drop ((pageCount size rows.length - 1) * size.toNat)).length ≤ size.toNat := by
      rw [List.length_drop]
      omega
    rw [hasNext_paginate, next_paginate, List.getElem?_eq_none hleft]
    exact ⟨decide_eq_false (Nat.not_lt.mpr hleft), rfl⟩
  whole := flatMap_blocks hpos rows

/-! ### The whole walk -/

/-- **A walk over a listing that does not change** shows the rows from its cursor on in blocks of
the page size, and then ends. -/
theorem walk_static (s : Snapshot id) {max size : UInt64} (hpos : size ≠ 0) (hmax : size ≤ max)
    (cursor : Option UInt64) :
    ∃ r, Request.make max cursor size = .ok r ∧ ∃ shown,
      InBlocks id size (rowsFrom id cursor s.rows) shown ∧
      (∀ i page, shown[i]? = some page → ∃ r',
        Request.make max (cursorAt cursor shown i) size = .ok r' ∧ page = read id r' s.rows) ∧
      ∀ n, pages r (List.replicate n s) = shown.take n := by
  let r : Request UInt64 := ⟨cursor, size, hpos⟩
  let shown := blocks id size (rowsFrom id cursor s.rows)
  have hpages : ∀ n, pages r (List.replicate n s) = shown.take n := fun n => pages_replicate n r s
  have hall : pages r (List.replicate shown.length s) = shown := by
    rw [hpages, List.take_length]
  refine ⟨r, make_ok hpos hmax cursor, shown, inBlocks_blocks hpos _, ?_, hpages⟩
  intro i page hpage
  rw [← hall] at hpage
  obtain ⟨s', hs', hread⟩ := getElem?_pages hpage
  obtain rfl : s' = s := List.eq_of_mem_replicate (List.mem_of_getElem? hs')
  rw [hall] at hread
  exact ⟨_, make_ok hpos hmax _, hread⟩

/-- Six rows, of which four are from the cursor on and fill two pages. -/
def evenListing : Snapshot fun key : UInt64 => key :=
  ⟨[12, 9, 7, 5, 3, 2], by decide, by decide⟩

theorem walk_static_even :
    ∃ r, Request.make 20 (some 8) 2 = .ok r ∧ ∃ shown,
      InBlocks (fun key => key) 2 [7, 5, 3, 2] shown ∧
      (∀ i page, shown[i]? = some page → ∃ r',
        Request.make 20 (cursorAt (some 8) shown i) 2 = .ok r' ∧
          page = read (fun key => key) r' evenListing.rows) ∧
      ∀ n, pages r (List.replicate n evenListing) = shown.take n :=
  walk_static evenListing (by decide) (by decide) (some 8)

end Turnstile.Page
