import Turnstile.Text.Unprintable

/-!
# Quoted text

A text between quotes in which nothing is hidden: quotes and backslashes take a backslash, the
common controls have a letter, and whatever has no shape of its own is written by its number.
Messages that repeat a client's own words show them this way.
-/

namespace Turnstile.Text.Quoted

/-- One character of a quoted text. -/
def escape (c : Char) : List Char :=
  match c with
  | '\x00' => ['\\', '0']
  | '\t' => ['\\', 't']
  | '\r' => ['\\', 'r']
  | '\n' => ['\\', 'n']
  | '"' => ['\\', '"']
  | '\\' => ['\\', '\\']
  | c =>
    if Unprintable.isUnprintable c then
      ['\\', 'u', '\x7b'] ++ Nat.toDigits 16 c.toNat ++ ['\x7d']
    else [c]

/-- The text between quotes. -/
def quote (cs : List Char) : List Char := '"' :: cs.flatMap escape ++ ['"']

end Turnstile.Text.Quoted
