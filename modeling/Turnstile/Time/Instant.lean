import Turnstile.Time.Span

/-!
# Instants

Readings of a clock, in nanoseconds since the beginning of 1970.  A calendar ends at a last instant,
and a span longer than `Span.longest` cannot be added on it; either way the sum is the last instant,
so time that passes and lifetimes that are granted saturate alike.

* `Instant.add?`: the sum, if the calendar has it;
* `Instant.after`: the sum, or the last instant;
* `after_eq_min`: both ways of running over the end come to one minimum.
-/

namespace Turnstile.Time

/-- The longest span that can be added on the calendar: the milliseconds of a signed 64-bit
number. -/
def Span.longest : Span := .ofMillis 0x7fffffffffffffff

/-- A reading of a clock. -/
structure Instant where
  nanos : Nat
  deriving DecidableEq, Repr, Inhabited

namespace Instant

instance : LT Instant := ⟨fun a b => a.nanos < b.nanos⟩

instance : LE Instant := ⟨fun a b => a.nanos ≤ b.nanos⟩

instance (a b : Instant) : Decidable (a < b) := inferInstanceAs (Decidable (a.nanos < b.nanos))

instance (a b : Instant) : Decidable (a ≤ b) := inferInstanceAs (Decidable (a.nanos ≤ b.nanos))

/-- The last instant of the calendar: one nanosecond before the year 262143. -/
def last : Instant := ⟨(Span.ofParts 8210266876799 999999999).nanos⟩

/-- The beginning of 2025, where a manual clock starts. -/
def start : Instant := ⟨(Span.ofSeconds 1735689600).nanos⟩

/-- The instant a span later, if the span is not too long and the calendar has not ended. -/
def add? (t : Instant) (d : Span) : Option Instant :=
  if d ≤ .longest then
    let u : Instant := ⟨t.nanos + d.nanos⟩
    if u ≤ last then some u else none
  else none

/-- The instant a span later, or the last one. -/
def after (t : Instant) (d : Span) : Instant := (t.add? d).getD last

/-- The span from an instant to a later one; nothing if it is earlier. -/
def spanTo (t u : Instant) : Span := ⟨u.nanos - t.nanos⟩

/-- Both ways of running over the end of the calendar come to the same minimum. -/
theorem after_eq_min (t : Instant) (d : Span) :
    t.after d = ⟨min (t.nanos + d.nanos) last.nanos⟩ := by
  have hlast : last.nanos ≤ Span.longest.nanos := by decide
  simp only [after, add?, LE.le]
  split
  · split
    · next h => simp only [Option.getD_some, mk.injEq]; exact (Nat.min_eq_left h).symm
    · next h =>
      simp only [Option.getD_none]
      rw [Nat.min_eq_right (Nat.le_of_lt (Nat.lt_of_not_le h))]
  · next h =>
    have hlong : Span.longest.nanos < d.nanos := Nat.lt_of_not_le h
    simp only [Option.getD_none]
    rw [Nat.min_eq_right (by omega)]

@[simp] theorem nanos_after (t : Instant) (d : Span) :
    (t.after d).nanos = min (t.nanos + d.nanos) last.nanos := by
  rw [after_eq_min]

end Instant

end Turnstile.Time
