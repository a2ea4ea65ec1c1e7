import Turnstile.Proofs.Paging.Fetching

/-! # A walk over a listing that changes

A walk reads page after page, and between two pages rows may appear and vanish. The states that the
listing is in are snapshots with ids descending (`Snapshot`), one for each page.

* `read_last`, `read_more`: a page shows all rows from its cursor on, or as many as it holds; then the
  next row's id is the cursor of the next page, so that nothing lies between two pages.
* `descending_pages`, `cursors_pages`: ids and cursors descend over the whole walk, whatever happens
  to the listing meanwhile.
* `countP_pages`: a row that is there all the time is shown once.
* `finished_walk`: the cursor is the measure by which every walk ends.
* `walk_changing` puts these together. -/

namespace Turnstile.Page

variable {α : Type} {id : α → UInt64} {r : Request UInt64}

/-- A state of a listing: ids descending, and no more rows than a list can have. -/
structure Snapshot (id : α → UInt64) where
  rows : List α
  descending : rows.Pairwise fun row later => id later < id row
  length_le : rows.length ≤ 0x7fffffffffffffff

/-- The id is not above the cursor. -/
def Below (cursor : Option UInt64) (key : UInt64) : Prop := ∀ c, cursor = some c → key ≤ c

/-! ### One page -/

theorem rowsFrom_sublist (cursor : Option UInt64) (rows : List α) :
    (rowsFrom id cursor rows).Sublist rows := by
  cases cursor with
  | none => exact List.Sublist.refl rows
  | some c => exact List.filter_sublist

theorem mem_rowsFrom {cursor : Option UInt64} {rows : List α} {row : α} :
    row ∈ rowsFrom id cursor rows ↔ row ∈ rows ∧ Below cursor (id row) := by
  cases cursor with
  | none => simp [rowsFrom, Below]
  | some c => simp [rowsFrom, Below]

variable (r) (s : Snapshot id)

theorem descending_rowsFrom :
    (rowsFrom id r.cursor s.rows).Pairwise fun row later => id later < id row :=
  s.descending.sublist (rowsFrom_sublist r.cursor s.rows)

theorem length_rowsFrom_le : (rowsFrom id r.cursor s.rows).length ≤ 0x7fffffffffffffff :=
  Nat.le_trans (rowsFrom_sublist r.cursor s.rows).length_le s.length_le

/-- A page is read as if all rows from its cursor on had been fetched: no listing is so long that
the limit on the number of rows to fetch is felt. -/
theorem read_eq_paginate :
    read id r s.rows = paginate id r.size (rowsFrom id r.cursor s.rows) := by
  have hlen : (rowsFrom id r.cursor s.rows).length < UInt64.size :=
    Nat.lt_of_le_of_lt (length_rowsFrom_le r s) (by decide)
  exact r.paginate_take_fetchLimit id hlen

theorem content_read :
    (read id r s.rows).content = (rowsFrom id r.cursor s.rows).take r.size.toNat := by
  rw [read_eq_paginate, content_paginate]

theorem next_read :
    (read id r s.rows).next = (rowsFrom id r.cursor s.rows)[r.size.toNat]?.map id := by
  rw [read_eq_paginate, next_paginate]

theorem hasNext_read : (read id r s.rows).hasNext = (read id r s.rows).next.isSome := by
  rw [read_eq_paginate]
  exact (begins_paginate id r.size _).isSome_next.symm

variable {r s}

theorem read_last (h : (read id r s.rows).next = none) :
    (read id r s.rows).content = rowsFrom id r.cursor s.rows := by
  rw [next_read, Option.map_eq_none_iff, List.getElem?_eq_none_iff] at h
  rw [content_read, List.take_of_length_le h]

theorem read_more {c : UInt64} (h : (read id r s.rows).next = some c) :
    (read id r s.rows).content ≠ [] ∧ ∃ row rest, id row = c ∧
      rowsFrom id r.cursor s.rows = (read id r s.rows).content ++ row :: rest := by
  have hsize : r.size.toNat ≠ 0 := fun h0 => r.size_ne_zero (UInt64.toNat_inj.mp h0)
  rw [next_read, Option.map_eq_some_iff] at h
  obtain ⟨row, hrow, hid⟩ := h
  rw [content_read]
  obtain ⟨hlt, hget⟩ := List.getElem?_eq_some_iff.mp hrow
  constructor
  · rw [Ne, List.take_eq_nil_iff, not_or]
    refine ⟨hsize, ?_⟩
    intro hnil
    rw [hnil] at hlt
    exact absurd hlt (Nat.not_lt_zero _)
  · refine ⟨row, (rowsFrom id r.cursor s.rows).drop (r.size.toNat + 1), hid, ?_⟩
    rw [← hget, ← List.drop_eq_getElem_cons hlt, List.take_append_drop]

theorem lt_of_mem_read {c : UInt64} (h : (read id r s.rows).next = some c) {row : α}
    (hrow : row ∈ (read id r s.rows).content) : c < id row := by
  obtain ⟨-, next, rest, hid, hrows⟩ := read_more h
  have hdesc := descending_rowsFrom r s
  rw [hrows, List.pairwise_append] at hdesc
  rw [← hid]
  exact hdesc.2.2 row hrow next List.mem_cons_self

theorem mem_read_of_lt {c : UInt64} (h : (read id r s.rows).next = some c) {row : α}
    (hrow : row ∈ rowsFrom id r.cursor s.rows) (hlt : c < id row) :
    row ∈ (read id r s.rows).content := by
  obtain ⟨-, next, rest, hid, hrows⟩ := read_more h
  have hdesc := descending_rowsFrom r s
  rw [hrows, List.pairwise_append, List.pairwise_cons] at hdesc
  rw [hrows, List.mem_append, List.mem_cons] at hrow
  rcases hrow with hmem | rfl | hmem
  · exact hmem
  · rw [hid] at hlt
    exact absurd hlt (UInt64.lt_irrefl c)
  · have hbelow := hdesc.2.1.1 row hmem
    rw [hid] at hbelow
    exact absurd (UInt64.lt_trans hlt hbelow) (UInt64.lt_irrefl c)

theorem below_of_mem_read {row : α} (hrow : row ∈ (read id r s.rows).content) :
    Below r.cursor (id row) := by
  rw [content_read] at hrow
  exact (mem_rowsFrom.mp (List.mem_of_mem_take hrow)).2

/-- **The measure.** The next cursor is below the cursor. -/
theorem next_lt {c : UInt64} (h : (read id r s.rows).next = some c) {start : UInt64}
    (hstart : r.cursor = some start) : c < start := by
  obtain ⟨hne, -⟩ := read_more h
  obtain ⟨row, hrow⟩ := List.exists_mem_of_ne_nil _ hne
  have hlt := lt_of_mem_read h hrow
  have hle := below_of_mem_read hrow start hstart
  exact UInt64.lt_of_lt_of_le hlt hle

/-! ### Page after page -/

/-- The pages of a walk over the states, one after the other. -/
def pages (r : Request UInt64) (states : List (Snapshot id)) : List (Page α UInt64) :=
  walk id r (states.map Snapshot.rows)

/-- The request for the page that begins at a cursor. -/
def Request.from (r : Request UInt64) (c : UInt64) : Request UInt64 := { r with cursor := some c }

variable {later states : List (Snapshot id)}

theorem pages_last (h : (read id r s.rows).next = none) :
    pages r (s :: later) = [read id r s.rows] := by
  unfold pages
  rw [List.map_cons, walk, h]

theorem pages_more {c : UInt64} (h : (read id r s.rows).next = some c) :
    pages r (s :: later) = read id r s.rows :: pages (r.from c) later := by
  unfold pages
  rw [List.map_cons, walk, h]
  rfl

theorem below_of_mem_pages {row : α} (hrow : row ∈ (pages r states).flatMap content) :
    Below r.cursor (id row) := by
  induction states generalizing r with
  | nil => cases hrow
  | cons s later ih =>
    cases h : (read id r s.rows).next with
    | none =>
      rw [pages_last h, List.flatMap_singleton] at hrow
      exact below_of_mem_read hrow
    | some c =>
      rw [pages_more h, List.flatMap_cons, List.mem_append] at hrow
      rcases hrow with hpage | hlater
      · exact below_of_mem_read hpage
      · intro start hstart
        have hle : id row ≤ c := ih hlater c rfl
        exact UInt64.le_trans hle (UInt64.le_of_lt (next_lt h hstart))

theorem descending_pages (r : Request UInt64) (states : List (Snapshot id)) :
    ((pages r states).flatMap content).Pairwise fun row later => id later < id row := by
  induction states generalizing r with
  | nil => exact List.Pairwise.nil
  | cons s later ih =>
    have hpage : (read id r s.rows).content.Pairwise fun row later => id later < id row := by
      rw [content_read]
      exact (descending_rowsFrom r s).sublist (List.take_sublist _ _)
    cases h : (read id r s.rows).next with
    | none =>
      rw [pages_last h, List.flatMap_singleton]
      exact hpage
    | some c =>
      rw [pages_more h, List.flatMap_cons, List.pairwise_append]
      refine ⟨hpage, ih (r.from c), ?_⟩
      intro row hrow other hother
      have hle : id other ≤ c := below_of_mem_pages hother c rfl
      exact UInt64.lt_of_le_of_lt hle (lt_of_mem_read h hrow)

theorem cursors_pages (r : Request UInt64) (states : List (Snapshot id)) :
    (r.cursor.toList ++ (pages r states).filterMap next).Pairwise fun c d => d < c := by
  induction states generalizing r with
  | nil =>
    rw [pages, List.map_nil, walk, List.filterMap_nil, List.append_nil]
    cases r.cursor with
    | none => exact List.Pairwise.nil
    | some c => exact List.pairwise_singleton _ c
  | cons s later ih =>
    cases h : (read id r s.rows).next with
    | none =>
      rw [pages_last h, List.filterMap_cons_none h, List.filterMap_nil, List.append_nil]
      cases r.cursor with
      | none => exact List.Pairwise.nil
      | some c => exact List.pairwise_singleton _ c
    | some c =>
      have hlater : (c :: (pages (r.from c) later).filterMap next).Pairwise fun c d => d < c :=
        ih (r.from c)
      rw [pages_more h, List.filterMap_cons_some h]
      cases hstart : r.cursor with
      | none => exact hlater
      | some start =>
        have hlt : c < start := next_lt h hstart
        have hbelow : ∀ d ∈ c :: (pages (r.from c) later).filterMap next, d < start := by
          intro d hd
          rw [List.mem_cons] at hd
          rcases hd with rfl | hd
          · exact hlt
          · rw [List.pairwise_cons] at hlater
            exact UInt64.lt_trans (hlater.1 d hd) hlt
        exact List.Pairwise.cons hbelow hlater

/-- The cursor of page `i`: the walk's, or the one that the page before it names. -/
def cursorAt (cursor : Option UInt64) (shown : List (Page α UInt64)) : Nat → Option UInt64
  | 0 => cursor
  | i + 1 => shown[i]?.bind next

theorem getElem?_pages {i : Nat} {page : Page α UInt64} (h : (pages r states)[i]? = some page) :
    ∃ s, states[i]? = some s ∧
      page = read id { r with cursor := cursorAt r.cursor (pages r states) i } s.rows := by
  induction states generalizing r i with
  | nil => cases h
  | cons s later ih =>
    cases i with
    | zero =>
      refine ⟨s, rfl, ?_⟩
      cases hnext : (read id r s.rows).next with
      | none =>
        rw [pages_last hnext] at h
        exact (Option.some.inj h).symm
      | some c =>
        rw [pages_more hnext] at h
        exact (Option.some.inj h).symm
    | succ i =>
      cases hnext : (read id r s.rows).next with
      | none =>
        rw [pages_last hnext] at h
        cases h
      | some c =>
        rw [pages_more hnext] at h ⊢
        obtain ⟨t, ht, hpage⟩ := ih h
        refine ⟨t, ht, hpage.trans ?_⟩
        cases i with
        | zero =>
          simp only [cursorAt, List.getElem?_cons_zero, Option.bind_some, hnext]
          rfl
        | succ i => rfl

theorem take_pages (n : Nat) (r : Request UInt64) (states : List (Snapshot id)) :
    pages r (states.take n) = (pages r states).take n := by
  induction states generalizing r n with
  | nil => rw [List.take_nil, pages, List.map_nil, walk, List.take_nil]
  | cons s later ih =>
    cases n with
    | zero => rfl
    | succ n =>
      rw [List.take_succ_cons]
      cases h : (read id r s.rows).next with
      | none => rw [pages_last h, pages_last h, List.take_succ_cons, List.take_nil]
      | some c => rw [pages_more h, pages_more h, List.take_succ_cons, ih]

/-! ### Walks to the end -/

/-- The walk ends with a page that has no next one. -/
def Finished (shown : List (Page α UInt64)) : Prop :=
  ∃ page, shown.getLast? = some page ∧ page.next = none

theorem next_pages {i : Nat} {page : Page α UInt64} (h : (pages r states)[i]? = some page)
    (hi : i + 1 < (pages r states).length) : page.next.isSome = true := by
  induction states generalizing r i with
  | nil => cases h
  | cons s later ih =>
    cases hnext : (read id r s.rows).next with
    | none =>
      rw [pages_last hnext, List.length_singleton] at hi
      omega
    | some c =>
      rw [pages_more hnext] at h hi
      rw [List.length_cons] at hi
      cases i with
      | zero =>
        rw [← Option.some.inj h, hnext]
        rfl
      | succ i => exact ih h (by omega)

theorem finished_cons {page : Page α UInt64} {c : UInt64} (h : page.next = some c)
    {shown : List (Page α UInt64)} : Finished (page :: shown) ↔ Finished shown := by
  cases shown with
  | nil =>
    constructor
    · rintro ⟨last, hlast, hnone⟩
      have hsame : page = last := Option.some.inj hlast
      rw [← hsame, h] at hnone
      cases hnone
    · rintro ⟨last, hlast, -⟩
      cases hlast
  | cons other rest =>
    unfold Finished
    rw [List.getLast?_cons_cons]

theorem isSome_next_iff (hfin : Finished (pages r states)) {i : Nat} {page : Page α UInt64}
    (h : (pages r states)[i]? = some page) :
    page.next.isSome = true ↔ i + 1 < (pages r states).length := by
  constructor
  · intro hsome
    obtain ⟨last, hlast, hnone⟩ := hfin
    have hi := (List.getElem?_eq_some_iff.mp h).1
    rcases Nat.lt_or_ge (i + 1) (pages r states).length with hlt | hge
    · exact hlt
    · -- The last page names no next one, so this page is not the last.
      have hidx : i = (pages r states).length - 1 := by omega
      rw [hidx, ← List.getLast?_eq_getElem?, hlast] at h
      rw [← Option.some.inj h, hnone] at hsome
      cases hsome
  · exact next_pages h

theorem countP_descending {rows : List α} {key : UInt64}
    (hdesc : rows.Pairwise fun row later => id later < id row) (h : ∃ row ∈ rows, id row = key) :
    rows.countP (fun row => id row = key) = 1 := by
  induction rows with
  | nil =>
    obtain ⟨row, hrow, -⟩ := h
    cases hrow
  | cons first rest ih =>
    rw [List.pairwise_cons] at hdesc
    rw [List.countP_cons]
    by_cases hfirst : id first = key
    · have hrest : rest.countP (fun row => id row = key) = 0 := by
        rw [List.countP_eq_zero]
        intro row hrow
        have hlt := hdesc.1 row hrow
        rw [hfirst] at hlt
        simpa using UInt64.ne_of_lt hlt
      rw [hrest, if_pos (by simpa using hfirst)]
    · obtain ⟨row, hrow, hid⟩ := h
      have hmem : row ∈ rest := by
        rw [List.mem_cons] at hrow
        rcases hrow with rfl | hmem
        · exact absurd hid hfirst
        · exact hmem
      rw [ih hdesc.2 ⟨row, hmem, hid⟩, if_neg (by simpa using hfirst)]

/-- **Nothing is missed, nothing is shown twice.** What is there whenever the walk reads, it shows
once. -/
theorem countP_pages {key : UInt64} (hfin : Finished (pages r states)) (hkey : Below r.cursor key)
    (hthere : ∀ s ∈ states.take (pages r states).length, ∃ row ∈ s.rows, id row = key) :
    ((pages r states).flatMap content).countP (fun row => id row = key) = 1 := by
  induction states generalizing r with
  | nil =>
    obtain ⟨page, hpage, -⟩ := hfin
    cases hpage
  | cons s later ih =>
    cases hnext : (read id r s.rows).next with
    | none =>
      rw [pages_last hnext] at hthere ⊢
      obtain ⟨row, hrow, hid⟩ := hthere s List.mem_cons_self
      rw [List.flatMap_singleton, read_last hnext]
      refine countP_descending (descending_rowsFrom r s) ⟨row, ?_, hid⟩
      rw [mem_rowsFrom, hid]
      exact ⟨hrow, hkey⟩
    | some c =>
      rw [pages_more hnext] at hthere hfin ⊢
      rw [List.length_cons, List.take_succ_cons, List.forall_mem_cons] at hthere
      obtain ⟨⟨row, hrow, hid⟩, hlater⟩ := hthere
      rw [List.flatMap_cons, List.countP_append]
      by_cases hc : key ≤ c
      · -- The row is left to the later pages: this one shows only what is above their cursor.
        have hhere : (read id r s.rows).content.countP (fun row => id row = key) = 0 := by
          rw [List.countP_eq_zero]
          intro other hother
          have hlt := UInt64.lt_of_le_of_lt hc (lt_of_mem_read hnext hother)
          simpa using (UInt64.ne_of_lt hlt).symm
        have hbelow : Below (r.from c).cursor key := by
          intro d hd
          rw [← Option.some.inj hd]
          exact hc
        rw [hhere, ih ((finished_cons hnext).mp hfin) hbelow hlater]
      · have hlt : c < key := UInt64.not_le.mp hc
        have hfrom : row ∈ rowsFrom id r.cursor s.rows := by
          rw [mem_rowsFrom, hid]
          exact ⟨hrow, hkey⟩
        have hmem := mem_read_of_lt hnext hfrom (hid ▸ hlt)
        have hhere : (read id r s.rows).content.countP (fun row => id row = key) = 1 := by
          refine countP_descending ?_ ⟨row, hmem, hid⟩
          rw [content_read]
          exact (descending_rowsFrom r s).sublist (List.take_sublist _ _)
        have hrest : ((pages (r.from c) later).flatMap content).countP (fun row => id row = key)
            = 0 := by
          rw [List.countP_eq_zero]
          intro other hother
          have hle : id other ≤ c := below_of_mem_pages hother c rfl
          simpa using UInt64.ne_of_lt (UInt64.lt_of_le_of_lt hle hlt)
        rw [hhere, hrest]

/-! ### Endless changes -/

/-- The first states of an endless sequence. -/
def firstStates (D : Nat → Snapshot id) (n : Nat) : List (Snapshot id) := (List.range n).map D

theorem firstStates_succ (D : Nat → Snapshot id) (n : Nat) :
    firstStates D (n + 1) = D 0 :: firstStates (fun i => D (i + 1)) n := by
  unfold firstStates
  rw [List.range_succ_eq_map, List.map_cons, List.map_map]
  rfl

theorem length_firstStates (D : Nat → Snapshot id) (n : Nat) : (firstStates D n).length = n := by
  unfold firstStates
  rw [List.length_map, List.length_range]

theorem getElem?_firstStates {D : Nat → Snapshot id} {n i : Nat} {s : Snapshot id}
    (h : (firstStates D n)[i]? = some s) : s = D i := by
  unfold firstStates at h
  rw [List.getElem?_map, Option.map_eq_some_iff] at h
  obtain ⟨j, hj, rfl⟩ := h
  obtain ⟨hlt, hget⟩ := List.getElem?_eq_some_iff.mp hj
  rw [List.getElem_range] at hget
  rw [hget]

theorem take_firstStates (D : Nat → Snapshot id) {m n : Nat} (h : m ≤ n) :
    (firstStates D n).take m = firstStates D m := by
  unfold firstStates
  rw [← List.map_take, List.take_range, Nat.min_eq_left h]

/-- A walk whose next cursor is below a bound ends: the bound falls with every page. -/
theorem finished_walk_of_lt (bound : Nat) (D : Nat → Snapshot id) (r : Request UInt64)
    (h : ∀ c, (read id r (D 0).rows).next = some c → c.toNat < bound) :
    ∃ n, Finished (pages r (firstStates D n)) ∧ (pages r (firstStates D n)).length = n := by
  induction bound generalizing D r with
  | zero =>
    have hnext : (read id r (D 0).rows).next = none := by
      rw [Option.eq_none_iff_forall_ne_some]
      intro c hc
      exact absurd (h c hc) (Nat.not_lt_zero _)
    refine ⟨1, ?_⟩
    rw [firstStates_succ, pages_last hnext]
    exact ⟨⟨_, rfl, hnext⟩, rfl⟩
  | succ bound ih =>
    cases hnext : (read id r (D 0).rows).next with
    | none =>
      refine ⟨1, ?_⟩
      rw [firstStates_succ, pages_last hnext]
      exact ⟨⟨_, rfl, hnext⟩, rfl⟩
    | some c =>
      have hc := h c hnext
      obtain ⟨n, hfin, hlen⟩ := ih (fun i => D (i + 1)) (r.from c) (by
        intro d hd
        have hlt : d < c := next_lt hd rfl
        rw [UInt64.lt_iff_toNat_lt] at hlt
        omega)
      refine ⟨n + 1, ?_⟩
      rw [firstStates_succ, pages_more hnext, finished_cons hnext, List.length_cons, hlen]
      exact ⟨hfin, rfl⟩

theorem finished_walk (D : Nat → Snapshot id) (r : Request UInt64) :
    ∃ n, Finished (pages r (firstStates D n)) ∧ (pages r (firstStates D n)).length = n :=
  finished_walk_of_lt (2 ^ 64) D r fun c _ => c.toNat_lt

theorem pages_append {more : List (Snapshot id)} (h : Finished (pages r states)) :
    pages r (states ++ more) = pages r states := by
  induction states generalizing r with
  | nil =>
    obtain ⟨page, hpage, -⟩ := h
    cases hpage
  | cons s later ih =>
    rw [List.cons_append]
    cases hnext : (read id r s.rows).next with
    | none => rw [pages_last hnext, pages_last hnext]
    | some c =>
      rw [pages_more hnext, finished_cons hnext] at h
      rw [pages_more hnext, pages_more hnext, ih h]

theorem pages_firstStates {D : Nat → Snapshot id} {n : Nat}
    (h : Finished (pages r (firstStates D n))) (m : Nat) :
    pages r (firstStates D m) = (pages r (firstStates D n)).take m := by
  rw [← take_pages]
  rcases Nat.le_total m n with hle | hle
  · rw [take_firstStates D hle]
  · have hmore : firstStates D m = firstStates D n ++ (firstStates D m).drop n := by
      rw [← take_firstStates D hle, List.take_append_drop]
    have hall : (firstStates D n).take m = firstStates D n := by
      apply List.take_of_length_le
      rw [length_firstStates]
      exact hle
    rw [hall, hmore, pages_append h]

/-! ### The whole walk -/

/-- What a walk shows of a listing that is in state `D i` when page `i` is read. -/
structure Shows (D : Nat → Snapshot id) (max : UInt64) (cursor : Option UInt64) (size : UInt64)
    (shown : List (Page α UInt64)) : Prop where
  /-- Each page is asked for with the cursor that the page before it names, and read from the state
  of its turn. -/
  asked : ∀ i page, shown[i]? = some page → ∃ r,
    Request.make max (cursorAt cursor shown i) size = .ok r ∧ page = read id r (D i).rows
  ends : shown ≠ [] ∧ ∀ i page, shown[i]? = some page →
    (page.hasNext = true ↔ i + 1 < shown.length)
  /-- The cursors descend, from the one that the walk begins at. -/
  cursors : (cursor.toList ++ shown.filterMap next).Pairwise fun c d => d < c
  /-- The ids descend, also from page to page. -/
  descending : (shown.flatMap content).Pairwise fun row later => id later < id row
  there : ∀ i page, shown[i]? = some page → ∀ row ∈ page.content, row ∈ (D i).rows
  /-- What is there whenever a page is read is shown once. -/
  once : ∀ key, Below cursor key → (∀ i < shown.length, ∃ row ∈ (D i).rows, id row = key) →
    (shown.flatMap content).countP (fun row => id row = key) = 1

/-- **A walk over a changing listing.** Whatever happens to the listing between two pages, a walk in
pages of an admissible size ends, never goes back, and shows what is there all the time once. -/
theorem walk_changing (D : Nat → Snapshot id) {max size : UInt64} (hpos : size ≠ 0)
    (hmax : size ≤ max) (cursor : Option UInt64) :
    ∃ r, Request.make max cursor size = .ok r ∧ ∃ shown, Shows D max cursor size shown ∧
      ∀ n, pages r (firstStates D n) = shown.take n := by
  let r : Request UInt64 := ⟨cursor, size, hpos⟩
  obtain ⟨n, hfin, hlen⟩ := finished_walk D r
  have hturn : ∀ i page, (pages r (firstStates D n))[i]? = some page →
      page = read id ⟨cursorAt cursor (pages r (firstStates D n)) i, size, hpos⟩ (D i).rows := by
    intro i page hpage
    obtain ⟨s, hs, hread⟩ := getElem?_pages hpage
    rw [getElem?_firstStates hs] at hread
    exact hread
  refine ⟨r, make_ok hpos hmax cursor, pages r (firstStates D n),
    ⟨?_, ⟨?_, ?_⟩, cursors_pages r _, descending_pages r _, ?_, ?_⟩, ?_⟩
  · intro i page hpage
    exact ⟨_, make_ok hpos hmax _, hturn i page hpage⟩
  · intro hnil
    rw [hnil] at hfin
    obtain ⟨page, hpage, -⟩ := hfin
    cases hpage
  · intro i page hpage
    have hnext : page.hasNext = page.next.isSome := by
      rw [hturn i page hpage, hasNext_read]
    rw [hnext]
    exact isSome_next_iff hfin hpage
  · intro i page hpage row hrow
    rw [hturn i page hpage, content_read] at hrow
    exact (mem_rowsFrom.mp (List.mem_of_mem_take hrow)).1
  · intro key hkey hthere
    refine countP_pages hfin hkey ?_
    intro s hs
    obtain ⟨i, hi, hget⟩ := List.mem_iff_getElem.mp (List.mem_of_mem_take hs)
    have hs' : s = D i := getElem?_firstStates (List.getElem?_eq_some_iff.mpr ⟨hi, hget⟩)
    rw [length_firstStates] at hi
    rw [hs']
    exact hthere i (hlen.symm ▸ hi)
  · exact pages_firstStates hfin

/-- A listing whose rows change after the first page: the row that the second page was to begin at is
gone, and another one takes its place. -/
def replaced : Nat → Snapshot fun key : UInt64 => key
  | 0 => ⟨[9, 8, 7, 5, 3], by decide, by decide⟩
  | _ + 1 => ⟨[9, 6, 5, 3], by decide, by decide⟩

theorem walk_replaced :
    ∃ r, Request.make 20 none 2 = .ok r ∧ ∃ shown, Shows replaced 20 none 2 shown ∧
      ∀ n, pages r (firstStates replaced n) = shown.take n :=
  walk_changing replaced (by decide) (by decide) none

end Turnstile.Page
