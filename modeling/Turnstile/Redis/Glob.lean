/-!
# Glob patterns

Patterns by which a Redis server picks keys: `*` is any run of characters, `?` any one character, a
class in brackets one character of the class or, after `^`, of none of it, a backslash takes the next
character literally, and everything else stands for itself.

`ofStem` is the pattern of the keys that begin with a stem.
-/

namespace Turnstile.Redis.Glob

/-- One item of a pattern. -/
inductive Item where
  /-- Any run of characters. -/
  | run
  /-- Any one character. -/
  | any
  /-- One character in the ranges, or in none of them. -/
  | oneOf (negated : Bool) (ranges : List (Char × Char))
  /-- One character. -/
  | exactly (c : Char)
  deriving DecidableEq, Repr

/-- An item for one character is met by a character. -/
def Item.isMetBy : Item → Char → Bool
  | run, _ => false
  | any, _ => true
  | oneOf negated ranges, c => (ranges.any fun r => r.1 ≤ c && c ≤ r.2) != negated
  | exactly d, c => c = d

/-- The range between two characters, in either order. -/
def between (a b : Char) : Char × Char := if a ≤ b then (a, b) else (b, a)

/-- One more range in front of a class. -/
def add (a b : Char) (r : List (Char × Char) × List Char) : List (Char × Char) × List Char :=
  (between a b :: r.1, r.2)

@[simp] theorem snd_add (a b : Char) (r : List (Char × Char) × List Char) : (add a b r).2 = r.2 := rfl

/-- The ranges of a class up to its closing bracket, and what follows it. -/
def ranges : List Char → List (Char × Char) × List Char
  | [] => ([], [])
  | '\\' :: c :: cs => add c c (ranges cs)
  | ']' :: cs => ([], cs)
  | a :: '-' :: b :: cs => add a b (ranges cs)
  | c :: cs => add c c (ranges cs)

theorem length_ranges_le (cs : List Char) : (ranges cs).2.length ≤ cs.length := by
  fun_induction ranges cs <;> simp_all <;> omega

/-- The items of a pattern. -/
def items : List Char → List Item
  | [] => []
  | '*' :: cs => .run :: items cs
  | '?' :: cs => .any :: items cs
  | '\\' :: c :: cs => .exactly c :: items cs
  | '[' :: '^' :: cs =>
    have := length_ranges_le cs
    .oneOf true (ranges cs).1 :: items (ranges cs).2
  | '[' :: cs =>
    have := length_ranges_le cs
    .oneOf false (ranges cs).1 :: items (ranges cs).2
  | c :: cs => .exactly c :: items cs
  termination_by cs => cs.length

/-- The items are met by the whole of a text. -/
def itemsMatch : List Item → List Char → Bool
  | [], cs => cs.isEmpty
  | .run :: is, [] => itemsMatch is []
  | .run :: is, c :: cs => itemsMatch is (c :: cs) || itemsMatch (.run :: is) cs
  | _ :: _, [] => false
  | i :: is, c :: cs => i.isMetBy c && itemsMatch is cs
  termination_by is cs => is.length + cs.length

/-- The pattern picks the key. -/
def picks (pattern key : String) : Bool := itemsMatch (items pattern.toList) key.toList

/-! ## Patterns of stems -/

/-- The character means something else than itself in a pattern. -/
def isSpecial (c : Char) : Bool := c = '*' || c = '?' || c = '[' || c = ']' || c = '\\'

/-- A text whose characters all stand for themselves. -/
def escape (cs : List Char) : List Char :=
  cs.flatMap fun c => if isSpecial c then ['\\', c] else [c]

/-- The pattern of the keys that begin with a stem. -/
def ofStem (stem : String) : String := String.ofList (escape stem.toList ++ ['*'])

end Turnstile.Redis.Glob
