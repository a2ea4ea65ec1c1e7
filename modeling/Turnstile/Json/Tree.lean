import Turnstile.Text.Decimal

/-!
# JSON trees

A JSON text as a tree.  Two leaves stay as they were written, because what they are worth depends on
who asks: a number keeps its lexeme, so an integer field can refuse `1.0` and a skipped field may
hold a number of any size; a string keeps its `\u` escapes as 16-bit units, so a string that is read
can refuse half of a surrogate pair and a skipped one need not (`Literal.text?`).
-/

namespace Turnstile.Json

open Turnstile.Text

/-- One unit of a string literal: a character, or a code given as `\u` and four digits. -/
inductive Glyph where
  | char (c : Char)
  | code (u : UInt16)
  deriving DecidableEq, Repr

/-- The inside of a string literal. -/
abbrev Literal := List Glyph

end Turnstile.Json

namespace Turnstile

/-- A JSON text as a tree. -/
inductive Json where
  | null
  | bool (b : Bool)
  | number (lexeme : List Char)
  | text (literal : Json.Literal)
  | array (items : List Json)
  | object (fields : List (Json.Literal × Json))
  deriving Inhabited, Repr

end Turnstile

namespace Turnstile.Json

open Turnstile.Text

/-! ## Literals -/

namespace Glyph

/-- The unit is the first half of a pair. -/
def isHigh (u : UInt16) : Bool := 0xd800 ≤ u && u ≤ 0xdbff

/-- The unit is the second half of a pair. -/
def isLow (u : UInt16) : Bool := 0xdc00 ≤ u && u ≤ 0xdfff

/-- The character that two halves make up. -/
def ofPair (high low : UInt16) : Char :=
  Char.ofNat (0x10000 + (high.toNat - 0xd800) * 1024 + (low.toNat - 0xdc00))

end Glyph

namespace Literal

/-- The literal in which every character stands for itself. -/
def ofText (s : String) : Literal := s.toList.map .char

/-- The characters of a literal, unless one half of a pair stands alone. -/
def chars? : Literal → Option (List Char)
  | [] => some []
  | .char c :: rest => (chars? rest).map (c :: ·)
  | .code u :: .code v :: rest =>
    if Glyph.isHigh u then
      if Glyph.isLow v then (chars? rest).map (Glyph.ofPair u v :: ·) else none
    else if Glyph.isLow u then none
    else (chars? (.code v :: rest)).map (Char.ofNat u.toNat :: ·)
  | .code u :: rest =>
    if Glyph.isHigh u || Glyph.isLow u then none
    else (chars? rest).map (Char.ofNat u.toNat :: ·)

/-- The text of a literal, unless one half of a pair stands alone. -/
def text? (l : Literal) : Option String := l.chars?.map String.ofList

theorem chars?_map_char (cs : List Char) : chars? (cs.map .char) = some cs := by
  induction cs with
  | nil => rfl
  | cons c cs ih => simp [chars?, ih]

@[simp] theorem text?_ofText (s : String) : (ofText s).text? = some s := by
  simp [text?, ofText, chars?_map_char, String.ofList_toList]

end Literal

/-! ## Leaves -/

/-- A text. -/
def ofText (s : String) : Json := .text (.ofText s)

/-- A natural number. -/
def ofNat (n : Nat) : Json := .number (Decimal.digits n)

/-- An integer. -/
def ofInt (n : Int) : Json := .number (Decimal.ofInt n)

/-- An object whose names are plain texts. -/
def record (fields : List (String × Json)) : Json :=
  .object (fields.map fun f => (.ofText f.1, f.2))

end Turnstile.Json
