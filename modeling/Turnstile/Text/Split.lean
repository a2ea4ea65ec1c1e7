/-!
# Splitting at a separator

The pieces of a text between the occurrences of one character.  There is always one piece more than
there are separators, and joining the pieces gives the text back (`join_split`); so does a cut at the
first separator (`append_cut`).
-/

namespace Turnstile.Text.Split

/-- Puts a character before the first piece. -/
def push (c : Char) : List (List Char) → List (List Char)
  | [] => [[c]]
  | piece :: pieces => (c :: piece) :: pieces

/-- The pieces between the separators. -/
def split (sep : Char) (cs : List Char) : List (List Char) :=
  cs.foldr (fun c pieces => if c = sep then [] :: pieces else push c pieces) [[]]

/-- The pieces with the separator between them. -/
def join (sep : Char) : List (List Char) → List Char
  | [] => []
  | [piece] => piece
  | piece :: next :: pieces => piece ++ sep :: join sep (next :: pieces)

/-- The text before the first separator, and the text after it if there is one. -/
def cut (sep : Char) (cs : List Char) : List Char × Option (List Char) :=
  (cs.takeWhile (· ≠ sep), match cs.dropWhile (· ≠ sep) with
    | [] => none
    | _ :: rest => some rest)

theorem split_nil (sep : Char) : split sep [] = [[]] := rfl

theorem split_cons (sep c : Char) (cs : List Char) :
    split sep (c :: cs) = if c = sep then [] :: split sep cs else push c (split sep cs) := rfl

theorem split_ne_nil (sep : Char) (cs : List Char) : split sep cs ≠ [] := by
  cases cs with
  | nil => simp [split_nil]
  | cons c cs =>
    rw [split_cons]
    split
    · simp
    · cases split sep cs <;> simp [push]

theorem join_push (sep c : Char) {pieces : List (List Char)} (h : pieces ≠ []) :
    join sep (push c pieces) = c :: join sep pieces := by
  cases pieces with
  | nil => exact absurd rfl h
  | cons piece pieces => cases pieces <;> simp [push, join]

/-- Nothing is lost. -/
theorem join_split (sep : Char) (cs : List Char) : join sep (split sep cs) = cs := by
  induction cs with
  | nil => rfl
  | cons c cs ih =>
    rw [split_cons]
    split
    · next h =>
      cases hs : split sep cs with
      | nil => exact absurd hs (split_ne_nil sep cs)
      | cons piece pieces => rw [hs] at ih; simp [join, ih, h]
    · rw [join_push sep c (split_ne_nil sep cs), ih]

theorem append_cut (sep : Char) (cs : List Char) :
    (cut sep cs).1 ++ ((cut sep cs).2.map (sep :: ·)).getD [] = cs := by
  induction cs with
  | nil => rfl
  | cons c cs ih =>
    by_cases h : c = sep
    · simp [cut, h]
    · have hcut : cut sep (c :: cs) = (c :: (cut sep cs).1, (cut sep cs).2) := by
        simp [cut, h]
      rw [hcut]
      simpa using ih

end Turnstile.Text.Split
