import Turnstile.Proofs.Text.Decimal
import Turnstile.Proofs.Time.Order
import Turnstile.Store.Memory

/-! # Counters

A counter is kept as the text of its number, which reads back (`Counter.ofText?_text`). Adding to it
is exact or refused: there is a new number if and only if the exact sum fits into 64 bits with a sign
(`Counter.add?_eq_some_iff`, `Counter.add?_eq_none_iff`). `Counter.value?` is the number that an entry
stands for, and `Memory.add_eq` says all that the store does with it.

`Counter.Kept` says that an entry, or the lack of one, stands for a number. A counter that began at
nothing never gets an end, so time does nothing to it, and adding finds its number
(`Memory.add_of_kept`). -/

namespace Turnstile.Store

open Turnstile.Time Turnstile.Text

namespace Counter

/-- The number is one of a counter's. -/
def Fits (n : Int) : Prop := -0x8000000000000000 ≤ n ∧ n < 0x8000000000000000

instance (n : Int) : Decidable (Fits n) := by
  unfold Fits; infer_instance

theorem fits_toInt (x : Int64) : Fits x.toInt := ⟨x.le_toInt, x.toInt_lt⟩

theorem ofText?_text (x : Int64) : ofText? (text x) = some x := by
  unfold ofText? text
  rw [String.toList_ofList, Decimal.readInt64?_ofInt]

theorem add?_eq (x : Int64) (delta : Int) :
    add? x delta =
      if Fits (x.toInt + delta) then some (Int64.ofInt (x.toInt + delta)) else none := rfl

theorem add?_eq_some_iff {x sum : Int64} {delta : Int} :
    add? x delta = some sum ↔ sum.toInt = x.toInt + delta := by
  rw [add?_eq]
  constructor
  · intro h
    split at h
    · next hfits =>
      obtain rfl := Option.some.inj h
      exact Int64.toInt_ofInt_of_le hfits.1 hfits.2
    · cases h
  · intro h
    have hfits : Fits (x.toInt + delta) := h ▸ fits_toInt sum
    rw [if_pos hfits, ← h, Int64.ofInt_toInt]

theorem add?_eq_none_iff {x : Int64} {delta : Int} :
    add? x delta = none ↔ ¬ Fits (x.toInt + delta) := by
  rw [add?_eq]
  split
  · next h => exact ⟨nofun, fun hn => absurd h hn⟩
  · next h => exact ⟨fun _ => h, fun _ => rfl⟩

/-- The number of what counts under a key: zero if nothing does, else what the text says. -/
def value? : Option Entry → Option Int64
  | none => some 0
  | some e => ofText? e.value

theorem value?_text (x : Int64) (expiry : Option Instant) :
    value? (some ⟨text x, expiry⟩) = some x := ofText?_text x

theorem value?_eq_some_iff {found : Option Entry} {v : Int64} :
    value? found = some v ↔
      (found = none ∧ v = 0) ∨ ∃ e, found = some e ∧ Decimal.Signed e.value.toList v.toInt := by
  cases found with
  | none =>
    constructor
    · intro h
      exact Or.inl ⟨rfl, (Option.some.inj h).symm⟩
    · rintro (⟨-, rfl⟩ | ⟨e, he, -⟩)
      · rfl
      · cases he
  | some e =>
    rw [value?, ofText?, Decimal.readInt64?_eq_some_iff]
    constructor
    · intro h
      exact Or.inr ⟨e, rfl, h⟩
    · rintro (⟨he, -⟩ | ⟨e', he, h⟩)
      · cases he
      · rwa [Option.some.inj he]

/-- What stands under a counter's key, if its number is `n`. -/
inductive Kept : Int → Option Entry → Prop where
  | absent : Kept 0 none
  | present (x : Int64) : Kept x.toInt (some ⟨text x, none⟩)

end Counter

theorem Memory.add_eq (now : Instant) (key : String) (delta : Int) (m : Entries) :
    add now key delta m =
      match Counter.value? (m.live? now key) with
      | none => (.error notAnInteger, m)
      | some v =>
        match Counter.add? v delta with
        | none => (.error sumOverflow, m)
        | some sum => (.ok sum, m.put key ⟨Counter.text sum, (m.live? now key).bind Entry.expiry⟩) := by
  unfold add Counter.value?
  cases m.live? now key with
  | none =>
    dsimp only
    cases Counter.add? 0 delta <;> rfl
  | some e =>
    dsimp only
    cases Counter.ofText? e.value with
    | none => rfl
    | some v =>
      dsimp only
      cases Counter.add? v delta <;> rfl

variable {m : Entries} {key : String} {n : Int}

/-- Time does nothing to a counter. -/
theorem Counter.Kept.live? (h : Kept n (m.find? key)) (now : Instant) :
    m.live? now key = m.find? key := by
  unfold Entries.live?
  generalize m.find? key = found at h ⊢
  cases h with
  | absent => rfl
  | present x => rfl

theorem Memory.add_of_kept (h : Counter.Kept n (m.find? key)) (now : Instant) (delta : Int) :
    ∃ x : Int64, x.toInt = n ∧ add now key delta m =
      match Counter.add? x delta with
      | some sum => (.ok sum, m.put key ⟨Counter.text sum, none⟩)
      | none => (.error sumOverflow, m) := by
  rw [add_eq, h.live?]
  generalize m.find? key = found at h ⊢
  cases h with
  | absent =>
    refine ⟨0, rfl, ?_⟩
    rw [Counter.value?]
    dsimp only
    cases Counter.add? 0 delta <;> rfl
  | present x =>
    refine ⟨x, rfl, ?_⟩
    rw [Counter.value?_text]
    dsimp only
    cases Counter.add? x delta <;> rfl

end Turnstile.Store
