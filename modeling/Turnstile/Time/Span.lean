import Turnstile.Text.Decimal

/-!
# Spans of time

A length of time in whole nanoseconds.  A span is shown in the largest unit that its whole part is
not zero in, with the fraction that is left and no trailing zeros: `1.5s`, `250ms`, `1.5µs`, `0ns`.
-/

namespace Turnstile.Time

open Turnstile.Text

/-- A length of time. -/
structure Span where
  nanos : Nat
  deriving DecidableEq, Repr, Inhabited

namespace Span

instance : LE Span := ⟨fun a b => a.nanos ≤ b.nanos⟩

instance (a b : Span) : Decidable (a ≤ b) := inferInstanceAs (Decidable (a.nanos ≤ b.nanos))

/-- No time at all. -/
def zero : Span := ⟨0⟩

/-- Whole seconds. -/
def ofSeconds (n : Nat) : Span := ⟨n * 1_000_000_000⟩

/-- Whole milliseconds. -/
def ofMillis (n : Nat) : Span := ⟨n * 1_000_000⟩

/-- Whole seconds and the nanoseconds left. -/
def ofParts (seconds nanos : Nat) : Span := ⟨seconds * 1_000_000_000 + nanos⟩

/-- The whole seconds. -/
def seconds (s : Span) : Nat := s.nanos / 1_000_000_000

/-- The nanoseconds that are left beside the whole seconds. -/
def subsecNanos (s : Span) : Nat := s.nanos % 1_000_000_000

/-- The whole milliseconds. -/
def millis (s : Span) : Nat := s.nanos / 1_000_000

/-- A fraction of `width` decimal places, after a point, without trailing zeros; nothing if it is
zero. -/
def fraction (width value : Nat) : List Char :=
  let digits := Decimal.digits value
  let padded := List.replicate (width - digits.length) '0' ++ digits
  match (padded.reverse.dropWhile (· = '0')).reverse with
  | [] => []
  | shown => '.' :: shown

/-- The span in a unit of `10 ^ places` nanoseconds. -/
def inUnit (s : Span) (places : Nat) (unit : String) : String :=
  let scale := Nat.pow 10 places
  String.ofList (Decimal.digits (s.nanos / scale) ++ fraction places (s.nanos % scale)
    ++ unit.toList)

/-- The span in the largest unit that its whole part is not zero in. -/
def text (s : Span) : String :=
  if 1_000_000_000 ≤ s.nanos then s.inUnit 9 "s"
  else if 1_000_000 ≤ s.nanos then s.inUnit 6 "ms"
  else if 1_000 ≤ s.nanos then s.inUnit 3 "µs"
  else s.inUnit 0 "ns"

@[simp] theorem nanos_ofSeconds (n : Nat) : (ofSeconds n).nanos = n * 1_000_000_000 := rfl

end Span

end Turnstile.Time
