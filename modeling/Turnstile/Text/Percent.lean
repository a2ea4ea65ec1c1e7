import Turnstile.Text.Hex

/-!
# Percent-encoding

A byte written as `%` and two hexadecimal digits.  A `%` that no two digits follow stands for
itself, so every byte sequence can be read.
-/

namespace Turnstile.Text.Percent

/-- The byte `%`. -/
def mark : UInt8 := 0x25

/-- The value of a byte that is a hexadecimal digit. -/
def digit? (b : UInt8) : Option Nat := Hex.value? (Char.ofNat b.toNat)

/-- The byte that two digits stand for. -/
def byte? (high low : UInt8) : Option UInt8 := do
  let h ← digit? high
  let l ← digit? low
  return UInt8.ofNat (16 * h + l)

/-- The bytes with every escape replaced by the byte it stands for. -/
def decode : List UInt8 → List UInt8
  | [] => []
  | [a] => [a]
  | [a, b] => [a, b]
  | a :: b :: c :: rest =>
    if a = mark then
      match byte? b c with
      | some x => x :: decode rest
      | none => a :: decode (b :: c :: rest)
    else a :: decode (b :: c :: rest)

end Turnstile.Text.Percent
