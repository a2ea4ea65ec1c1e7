/-!
# White space

The characters that Unicode calls white space, and text without them at its ends.  Operators'
settings and clients' header values are trimmed this way before they are read.
-/

namespace Turnstile.Text.Blank

/-- The code points with the property White_Space, as closed ranges. -/
def ranges : List (Nat × Nat) :=
  [(0x09, 0x0d), (0x20, 0x20), (0x85, 0x85), (0xa0, 0xa0), (0x1680, 0x1680), (0x2000, 0x200a),
    (0x2028, 0x2029), (0x202f, 0x202f), (0x205f, 0x205f), (0x3000, 0x3000)]

/-- The character is white space. -/
def isBlank (c : Char) : Bool := ranges.any fun r => r.1 ≤ c.toNat && c.toNat ≤ r.2

/-- The text without the white space at its front. -/
def trimLeft (cs : List Char) : List Char := cs.dropWhile isBlank

/-- The text without the white space at its back. -/
def trimRight (cs : List Char) : List Char := (cs.reverse.dropWhile isBlank).reverse

/-- The text without the white space at its ends. -/
def trim (cs : List Char) : List Char := trimRight (trimLeft cs)

/-- White space around a text that neither begins nor ends with it is what trimming takes away. -/
theorem trim_append {before text after : List Char} (hb : ∀ c ∈ before, isBlank c = true)
    (ha : ∀ c ∈ after, isBlank c = true) (hfirst : ∀ c ∈ text.head?, isBlank c = false)
    (hlast : ∀ c ∈ text.getLast?, isBlank c = false) : trim (before ++ text ++ after) = text := by
  cases text with
  | nil =>
    have h : trimLeft (before ++ [] ++ after) = [] := by
      have hafter : (after ++ []).dropWhile isBlank = List.dropWhile isBlank [] :=
        List.dropWhile_append_of_pos ha
      rw [trimLeft, List.append_nil, List.dropWhile_append_of_pos hb]
      simpa using hafter
    rw [trim, h]
    rfl
  | cons x xs =>
    have hx : isBlank x = false := hfirst x rfl
    have hl : trimLeft (before ++ (x :: xs) ++ after) = x :: xs ++ after := by
      rw [trimLeft, List.append_assoc, List.dropWhile_append_of_pos hb]
      simp [hx]
    rw [trim, hl, trimRight, List.reverse_append,
      List.dropWhile_append_of_pos (fun c hc => ha c (List.mem_reverse.1 hc))]
    have hr : ((x :: xs).reverse).dropWhile isBlank = (x :: xs).reverse := by
      cases hrev : (x :: xs).reverse with
      | nil => rfl
      | cons y ys =>
        have hy : isBlank y = false := hlast y (by
          rw [← List.reverse_reverse (x :: xs), hrev, List.getLast?_reverse]
          rfl)
        simp [hy]
    rw [hr, List.reverse_reverse]

theorem trim_append_takeWhile (cs : List Char) :
    trim cs ++ ((trimLeft cs).reverse.takeWhile isBlank).reverse = trimLeft cs := by
  rw [trim, trimRight, ← List.reverse_append, List.takeWhile_append_dropWhile,
    List.reverse_reverse]

theorem not_isBlank_of_mem_getLast?_trim {cs : List Char} {c : Char}
    (h : c ∈ (trim cs).getLast?) : isBlank c = false := by
  have hback := List.head?_dropWhile_not isBlank (trimLeft cs).reverse
  rw [trim, trimRight, List.getLast?_reverse, Option.mem_def] at h
  rwa [h] at hback

theorem not_isBlank_of_mem_head?_trim {cs : List Char} {c : Char} (h : c ∈ (trim cs).head?) :
    isBlank c = false := by
  have hfront := List.head?_dropWhile_not isBlank cs
  have hhead : (trimLeft cs).head? = some c := by
    rw [← trim_append_takeWhile, List.head?_append, Option.mem_def.1 h, Option.some_or]
  rw [trimLeft] at hhead
  rwa [hhead] at hfront

/-- Trimming is settled by what it leaves: a text that neither begins nor ends with white space, with
nothing but white space around it. -/
theorem trim_eq_iff {cs text : List Char} : trim cs = text ↔
    ∃ before after, cs = before ++ text ++ after ∧ (∀ c ∈ before, isBlank c = true) ∧
      (∀ c ∈ after, isBlank c = true) ∧ (∀ c ∈ text.head?, isBlank c = false) ∧
      ∀ c ∈ text.getLast?, isBlank c = false := by
  constructor
  · rintro rfl
    have hfront : cs.takeWhile isBlank ++ trimLeft cs = cs := List.takeWhile_append_dropWhile
    have hblank : ∀ cs : List Char, ∀ c ∈ cs.takeWhile isBlank, isBlank c = true := fun _ =>
      List.all_eq_true.1 List.all_takeWhile
    refine ⟨cs.takeWhile isBlank, ((trimLeft cs).reverse.takeWhile isBlank).reverse, ?_, hblank cs,
      fun c hc => hblank _ c (List.mem_reverse.1 hc), fun _ => not_isBlank_of_mem_head?_trim,
      fun _ => not_isBlank_of_mem_getLast?_trim⟩
    rw [List.append_assoc, trim_append_takeWhile, hfront]
  · rintro ⟨before, after, rfl, hbefore, hafter, hfirst, hlast⟩
    exact trim_append hbefore hafter hfirst hlast

end Turnstile.Text.Blank
