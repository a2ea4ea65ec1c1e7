import Turnstile.Json.Tree
import Turnstile.Text.Hex

/-!
# Writing JSON

The compact text of a tree: no white space, fields in their order, and in strings only what must be
escaped: the quote, the backslash and the controls below U+0020.
-/

namespace Turnstile.Json

open Turnstile.Text

/-- One character of a string literal. -/
def escape (c : Char) : List Char :=
  match c with
  | '"' => ['\\', '"']
  | '\\' => ['\\', '\\']
  | '\x08' => ['\\', 'b']
  | '\t' => ['\\', 't']
  | '\n' => ['\\', 'n']
  | '\x0c' => ['\\', 'f']
  | '\r' => ['\\', 'r']
  | c => if c.toNat < 0x20 then '\\' :: 'u' :: Hex.ofUnit (UInt16.ofNat c.toNat) else [c]

/-- One unit of a string literal. -/
def Glyph.render : Glyph → List Char
  | .char c => escape c
  | .code u => '\\' :: 'u' :: Hex.ofUnit u

/-- A string literal between its quotes. -/
def Literal.render (l : Literal) : List Char := '"' :: l.flatMap Glyph.render ++ ['"']

mutual

/-- The text of a tree. -/
def render : Json → List Char
  | .null => ['n', 'u', 'l', 'l']
  | .bool true => ['t', 'r', 'u', 'e']
  | .bool false => ['f', 'a', 'l', 's', 'e']
  | .number lexeme => lexeme
  | .text l => l.render
  | .array items => '[' :: renderItems items ++ [']']
  | .object fields => '\x7b' :: renderFields fields ++ ['\x7d']

/-- Items with commas between them. -/
def renderItems : List Json → List Char
  | [] => []
  | [j] => render j
  | j :: k :: rest => render j ++ ',' :: renderItems (k :: rest)

/-- Fields with commas between them. -/
def renderFields : List (Literal × Json) → List Char
  | [] => []
  | [(n, j)] => n.render ++ ':' :: render j
  | (n, j) :: f :: rest => n.render ++ ':' :: render j ++ ',' :: renderFields (f :: rest)

end

/-- The text of a tree, as a string. -/
def compact (j : Json) : String := String.ofList j.render

end Turnstile.Json
