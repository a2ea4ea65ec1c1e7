import Turnstile.Text.Decimal

/-! # Which texts are numbers

A reader goes through a text from the left and refuses it at the first fault, so it is not plain from
it which texts it takes. They are the ones that a grammar names: digits, at least one, perhaps with a
plus in front (`Unsigned`), of a number below the bound (`readUnsigned_eq_ok_iff`). Leading zeros are
fine, and the value of the digits so far never goes down, so that a number below the bound is not
refused on the way to it.

A counter's number may have a minus in front as well (`Signed`, `readInt64?_eq_some_iff`), and it is
read back from the text that is written for it (`readInt64?_ofInt`). -/

namespace Turnstile.Text.Decimal

/-- The text is made of digits, at least one, and they are the number's. -/
structure Denotes (cs : List Char) (n : Nat) : Prop where
  ne_nil : cs ≠ []
  digits : ∀ c ∈ cs, c.isDigit = true
  value : Nat.ofDigitChars 10 cs 0 = n

/-- The text is the number with at most one plus in front. -/
def Unsigned (cs : List Char) (n : Nat) : Prop :=
  Denotes cs n ∨ ∃ ds, cs = '+' :: ds ∧ Denotes ds n

theorem digits_of_readFrom {bound m : Nat} {cs : List Char} {n : Nat} (hn : n < bound)
    (h : readFrom bound n cs = .ok m) :
    (∀ c ∈ cs, c.isDigit = true) ∧ Nat.ofDigitChars 10 cs n = m ∧ m < bound := by
  induction cs generalizing n with
  | nil =>
    obtain rfl := Except.ok.inj h
    exact ⟨nofun, rfl, hn⟩
  | cons c cs ih =>
    unfold readFrom at h
    split at h
    · next hc =>
      split at h
      · next hlt =>
        obtain ⟨hdigits, hvalue, hm⟩ := ih hlt h
        exact ⟨List.forall_mem_cons.mpr ⟨hc, hdigits⟩, hvalue, hm⟩
      · cases h
    · cases h

theorem readBelow_eq_ok_iff {bound n : Nat} {cs : List Char} (hbound : 0 < bound) :
    readBelow bound cs = .ok n ↔ Denotes cs n ∧ n < bound := by
  cases cs with
  | nil => exact ⟨nofun, fun h => absurd rfl h.1.ne_nil⟩
  | cons c cs =>
    have hread : readBelow bound (c :: cs) = readFrom bound 0 (c :: cs) := rfl
    rw [hread]
    constructor
    · intro h
      obtain ⟨hdigits, hvalue, hn⟩ := digits_of_readFrom hbound h
      exact ⟨⟨nofun, hdigits, hvalue⟩, hn⟩
    · rintro ⟨⟨-, hdigits, rfl⟩, hn⟩
      exact readFrom_eq_ok hdigits 0 hn

theorem not_denotes_plus {ds : List Char} {n : Nat} : ¬ Denotes ('+' :: ds) n := fun h =>
  absurd (h.digits '+' List.mem_cons_self) (by decide)

/-- **The reader takes what the grammar names.** -/
theorem readUnsigned_eq_ok_iff {bound n : Nat} {cs : List Char} (hbound : 0 < bound) :
    readUnsigned bound cs = .ok n ↔ Unsigned cs n ∧ n < bound := by
  unfold readUnsigned Unsigned
  split
  · constructor
    · nofun
    · rintro ⟨h | ⟨ds, hds, h⟩, -⟩
      · exact absurd h not_denotes_plus
      · exact absurd (List.cons.inj hds).2.symm h.ne_nil
  · next ds _ =>
    rw [readBelow_eq_ok_iff hbound]
    constructor
    · rintro ⟨h, hn⟩
      exact ⟨Or.inr ⟨ds, rfl, h⟩, hn⟩
    · rintro ⟨h | ⟨ds', hds, h⟩, hn⟩
      · exact absurd h not_denotes_plus
      · rw [(List.cons.inj hds).2]
        exact ⟨h, hn⟩
  · next hplus =>
    rw [readBelow_eq_ok_iff hbound]
    constructor
    · rintro ⟨h, hn⟩
      exact ⟨Or.inl h, hn⟩
    · rintro ⟨h | ⟨ds, rfl, -⟩, hn⟩
      · exact ⟨h, hn⟩
      · exact absurd rfl (hplus ds)

theorem readUInt64_eq_ok_iff {cs : List Char} {x : UInt64} :
    readUInt64 cs = .ok x ↔ Unsigned cs x.toNat := by
  unfold readUInt64
  constructor
  · intro h
    cases hr : readUnsigned UInt64.size cs with
    | error e =>
      rw [hr] at h
      cases h
    | ok n =>
      rw [hr] at h
      obtain ⟨hn, hlt⟩ := (readUnsigned_eq_ok_iff (by decide)).mp hr
      obtain rfl := Except.ok.inj h
      rwa [UInt64.toNat_ofNat_of_lt' hlt]
  · intro h
    rw [(readUnsigned_eq_ok_iff (by decide)).mpr ⟨h, x.toNat_lt_size⟩]
    simp [Except.map]

/-! ### Signed numbers -/

/-- The text is the number with at most one sign in front. -/
def Signed (cs : List Char) (n : Int) : Prop :=
  (∃ k : Nat, Unsigned cs k ∧ n = k) ∨ ∃ ds, ∃ k : Nat, cs = '-' :: ds ∧ Denotes ds k ∧ n = -k

theorem not_unsigned_minus {ds : List Char} {k : Nat} : ¬ Unsigned ('-' :: ds) k := by
  rintro (h | ⟨ds', hds, -⟩)
  · exact absurd (h.digits '-' List.mem_cons_self) (by decide)
  · exact absurd (List.cons.inj hds).1 (by decide)

theorem signed_minus_iff {ds : List Char} {n : Int} :
    Signed ('-' :: ds) n ↔ ∃ k : Nat, Denotes ds k ∧ n = -k := by
  constructor
  · rintro (⟨k, h, -⟩ | ⟨ds', k, hds, h, hn⟩)
    · exact absurd h not_unsigned_minus
    · obtain rfl := (List.cons.inj hds).2
      exact ⟨k, h, hn⟩
  · rintro ⟨k, h, hn⟩
    exact Or.inr ⟨ds, k, rfl, h, hn⟩

theorem signed_plus_iff {ds : List Char} {n : Int} :
    Signed ('+' :: ds) n ↔ ∃ k : Nat, Denotes ds k ∧ n = k := by
  constructor
  · rintro (⟨k, h | ⟨ds', hds, h⟩, hn⟩ | ⟨ds', k, hds, -, -⟩)
    · exact absurd h not_denotes_plus
    · obtain rfl := (List.cons.inj hds).2
      exact ⟨k, h, hn⟩
    · exact absurd (List.cons.inj hds).1 (by decide)
  · rintro ⟨k, h, hn⟩
    exact Or.inl ⟨k, Or.inr ⟨ds, rfl, h⟩, hn⟩

theorem signed_iff_denotes {cs : List Char} {n : Int} (hminus : ∀ ds, cs ≠ '-' :: ds)
    (hplus : ∀ ds, cs ≠ '+' :: ds) : Signed cs n ↔ ∃ k : Nat, Denotes cs k ∧ n = k := by
  constructor
  · rintro (⟨k, h | ⟨ds, hds, -⟩, hn⟩ | ⟨ds, k, hds, -, -⟩)
    · exact ⟨k, h, hn⟩
    · exact absurd hds (hplus ds)
    · exact absurd hds (hminus ds)
  · rintro ⟨k, h, hn⟩
    exact Or.inl ⟨k, Or.inl h, hn⟩

theorem map_readBelow_eq_some_iff {bound : Nat} (hbound : 0 < bound) {cs : List Char}
    {f : Int → Int64} {x : Int64} :
    (readBelow bound cs).toOption.map f = some x ↔ ∃ k : Nat, (Denotes cs k ∧ k < bound) ∧ f k = x := by
  cases hread : readBelow bound cs with
  | error e =>
    refine ⟨nofun, ?_⟩
    rintro ⟨k, hk, -⟩
    rw [(readBelow_eq_ok_iff hbound).mpr hk] at hread
    cases hread
  | ok k =>
    constructor
    · intro h
      exact ⟨k, (readBelow_eq_ok_iff hbound).mp hread, Option.some.inj h⟩
    · rintro ⟨k', hk', rfl⟩
      rw [(readBelow_eq_ok_iff hbound).mpr hk'] at hread
      obtain rfl := Except.ok.inj hread
      rfl

theorem ofInt_eq_iff {n : Int} (hlow : -0x8000000000000000 ≤ n) (hhigh : n < 0x8000000000000000)
    {x : Int64} : Int64.ofInt n = x ↔ x.toInt = n := by
  constructor
  · rintro rfl
    exact Int64.toInt_ofInt_of_le hlow hhigh
  · rintro rfl
    exact x.ofInt_toInt

/-- **The reader of signed numbers takes what the grammar names**, and a number of 64 bits is never
out of bounds: a minus allows one more than a plus does. -/
theorem readInt64?_eq_some_iff {cs : List Char} {x : Int64} :
    readInt64? cs = some x ↔ Signed cs x.toInt := by
  have hlow := x.le_toInt
  have hhigh := x.toInt_lt
  have hpositive : ∀ ds : List Char,
      ((readBelow 0x8000000000000000 ds).toOption.map fun n => Int64.ofInt n) = some x ↔
        ∃ k : Nat, Denotes ds k ∧ x.toInt = k := by
    intro ds
    rw [map_readBelow_eq_some_iff (by decide)]
    constructor
    · rintro ⟨k, ⟨h, hk⟩, hx⟩
      exact ⟨k, h, (ofInt_eq_iff (by omega) (by omega)).mp hx⟩
    · rintro ⟨k, h, hx⟩
      exact ⟨k, ⟨h, by omega⟩, (ofInt_eq_iff (by omega) (by omega)).mpr hx⟩
  unfold readInt64?
  split
  · next ds =>
    rw [map_readBelow_eq_some_iff (by decide), signed_minus_iff]
    constructor
    · rintro ⟨k, ⟨h, hk⟩, hx⟩
      exact ⟨k, h, (ofInt_eq_iff (by omega) (by omega)).mp hx⟩
    · rintro ⟨k, h, hx⟩
      exact ⟨k, ⟨h, by omega⟩, (ofInt_eq_iff (by omega) (by omega)).mpr hx⟩
  · next ds => rw [hpositive, signed_plus_iff]
  · next hminus hplus => rw [hpositive, signed_iff_denotes hminus hplus]

theorem denotes_digits (n : Nat) : Denotes (digits n) n :=
  ((readBelow_eq_ok_iff (Nat.succ_pos n)).mp (readBelow_digits n.lt_succ_self)).1

theorem signed_ofInt (n : Int) : Signed (ofInt n) n := by
  cases n with
  | ofNat k => exact Or.inl ⟨k, Or.inl (denotes_digits k), rfl⟩
  | negSucc k => exact Or.inr ⟨digits (k + 1), k + 1, rfl, denotes_digits (k + 1), rfl⟩

/-- **What is written reads back**, the least number included, which has no positive counterpart. -/
theorem readInt64?_ofInt (x : Int64) : readInt64? (ofInt x.toInt) = some x :=
  readInt64?_eq_some_iff.mpr (signed_ofInt x.toInt)

end Turnstile.Text.Decimal
