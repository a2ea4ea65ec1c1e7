import Turnstile.Store.Entries

/-! # Instants in order

The order of instants is the order of their nanoseconds (`le_iff`, `lt_iff`), so `omega` settles what
is left once `nanos_after` has turned a sum into its minimum with the last instant. A grant that ends
before an instant ends before every grant made then (`after_le_after_of_le`), whatever it saturates
at, and an entry that is over stays over (`isLive_of_le`).

Whether a sum runs over the end of the calendar or the span is too long to be added at all, it is the
smaller one of the exact sum and the last instant (`after_eq`). So it makes no difference whether a
span is added in parts or at once (`after_after`), and no sum wraps (`le_after_add`). -/

namespace Turnstile.Time.Span

instance : Add Span := ⟨fun a b => ⟨a.nanos + b.nanos⟩⟩

instance : Zero Span := ⟨zero⟩

@[simp] theorem nanos_add (a b : Span) : (a + b).nanos = a.nanos + b.nanos := rfl

@[simp] theorem nanos_zero : (0 : Span).nanos = 0 := rfl

end Turnstile.Time.Span

namespace Turnstile.Time.Instant

theorem le_iff {t u : Instant} : t ≤ u ↔ t.nanos ≤ u.nanos := Iff.rfl

theorem lt_iff {t u : Instant} : t < u ↔ t.nanos < u.nanos := Iff.rfl

theorem le_refl (t : Instant) : t ≤ t := Nat.le_refl _

theorem le_trans {t u v : Instant} (h : t ≤ u) (h' : u ≤ v) : t ≤ v := Nat.le_trans h h'

theorem not_lt {t u : Instant} : ¬ t < u ↔ u ≤ t := Nat.not_lt

theorem after_le_last (t : Instant) (d : Span) : t.after d ≤ last := by
  rw [le_iff, nanos_after]
  exact Nat.min_le_right _ _

/-- Time that passes does not run back, as long as the reading is one of the calendar's. -/
theorem le_after {t : Instant} (h : t ≤ last) (d : Span) : t ≤ t.after d := by
  rw [le_iff] at h ⊢
  rw [nanos_after]
  omega

theorem after_le_after_of_le {t u : Instant} {d : Span} (h : t.after d ≤ u) (d' : Span) :
    t.after d ≤ u.after d' := by
  have hlast := after_le_last t d
  rw [le_iff] at h hlast ⊢
  rw [nanos_after u d']
  omega

/-! ### Sums -/

/-- The instant a span later, on a calendar without an end. -/
instance : HAdd Instant Span Instant := ⟨fun t d => ⟨t.nanos + d.nanos⟩⟩

instance : Min Instant := minOfLe

@[simp] theorem nanos_hAdd (t : Instant) (d : Span) : (t + d).nanos = t.nanos + d.nanos := rfl

@[simp] theorem nanos_min (t u : Instant) : (min t u).nanos = min t.nanos u.nanos := by
  show (if t ≤ u then t else u).nanos = _
  split
  · next h => exact (Nat.min_eq_left h).symm
  · next h => exact (Nat.min_eq_right (Nat.le_of_not_le h)).symm

theorem eq_of_nanos {t u : Instant} (h : t.nanos = u.nanos) : t = u := by
  cases t
  cases u
  exact congrArg mk h

/-- **What saturation comes to.** -/
theorem after_eq (t : Instant) (d : Span) : t.after d = min (t + d) last := by
  apply eq_of_nanos
  rw [nanos_after, nanos_min, nanos_hAdd]

theorem after_zero {t : Instant} (h : t ≤ last) : t.after 0 = t := by
  rw [le_iff] at h
  apply eq_of_nanos
  rw [nanos_after, Span.nanos_zero]
  omega

/-- **In parts or at once.** -/
theorem after_after (t : Instant) (d e : Span) : (t.after d).after e = t.after (d + e) := by
  apply eq_of_nanos
  rw [nanos_after, nanos_after, nanos_after, Span.nanos_add]
  omega

/-- Nothing wraps: no sum is before the instant that is added to, nor before a sum with less. -/
theorem le_after_add {t : Instant} (h : t ≤ last) (d e : Span) :
    t ≤ t.after d ∧ t.after d ≤ t.after (d + e) := by
  rw [← after_after]
  exact ⟨le_after h d, le_after (after_le_last t d) e⟩

theorem spanTo_eq_iff {t u : Instant} (h : t < u) {d : Span} : t.spanTo u = d ↔ t + d = u := by
  rw [lt_iff] at h
  constructor
  · rintro rfl
    apply eq_of_nanos
    show t.nanos + (u.nanos - t.nanos) = u.nanos
    omega
  · rintro rfl
    cases d with
    | mk n => exact congrArg Span.mk (Nat.add_sub_cancel_left t.nanos n)

end Turnstile.Time.Instant

namespace Turnstile.Store.Entry

open Turnstile.Time

theorem isLive_of_expiry {now t : Instant} {e : Entry} (h : e.expiry = some t) :
    e.isLive now = true ↔ now < t := by
  simp [isLive, h]

theorem isLive_of_le {now later : Instant} (h : now ≤ later) {e : Entry}
    (he : e.isLive later = true) : e.isLive now = true := by
  cases hx : e.expiry with
  | none => simp [isLive, hx]
  | some t =>
    rw [isLive_of_expiry hx, Instant.lt_iff] at he ⊢
    rw [Instant.le_iff] at h
    omega

end Turnstile.Store.Entry

namespace Turnstile.Store.Entries

open Turnstile.Time

theorem live?_eq_none_iff {m : Entries} {now : Instant} {key : String} :
    m.live? now key = none ↔ ∀ e, m.find? key = some e → e.isLive now = false := by
  simp [live?, Option.filter_eq_none_iff]

theorem live?_eq_some_iff {m : Entries} {now : Instant} {key : String} {e : Entry} :
    m.live? now key = some e ↔ m.find? key = some e ∧ e.isLive now = true := by
  simp [live?, Option.filter_eq_some_iff]

end Turnstile.Store.Entries
