/-!
# Decimal integers

Integers as shoppers' clients and operators write them: ASCII digits, most significant first, with
at most one sign in front.  A reader is given a bound and goes through the digits from the left, so
of two faults in one text the one further to the left is reported.

* writing: `digits`, `ofInt`;
* reading: `readBelow` (digits only, below a bound), `readUInt64` (an optional `+`), `readInt64?`
  (an optional `+` or `-`);
* what is written reads back: `readBelow_digits`, `readUInt64_digits`.
-/

namespace Turnstile.Text.Decimal

/-- Why a text is no integer below the bound. -/
inductive Refusal where
  | empty
  | invalidDigit
  | tooLarge
  deriving DecidableEq, Repr

/-- The wording of a refusal. -/
def Refusal.message : Refusal → String
  | .empty => "cannot parse integer from empty string"
  | .invalidDigit => "invalid digit found in string"
  | .tooLarge => "number too large to fit in target type"

/-- The digits of a number, without leading zeros. -/
def digits (n : Nat) : List Char := Nat.toDigits 10 n

/-- An integer: its digits, after a `-` if it is negative. -/
def ofInt : Int → List Char
  | .ofNat n => digits n
  | .negSucc n => '-' :: digits (n + 1)

/-- The value of one digit. -/
def digitValue (c : Char) : Nat := c.toNat - '0'.toNat

/-- Reads on after digits worth `n`.  The first character that is no digit, or whose digit takes the
number to the bound, decides. -/
def readFrom (bound n : Nat) : List Char → Except Refusal Nat
  | [] => .ok n
  | c :: cs =>
    if c.isDigit then
      if 10 * n + digitValue c < bound then readFrom bound (10 * n + digitValue c) cs
      else .error .tooLarge
    else .error .invalidDigit

/-- Digits alone, at least one, of a number below the bound. -/
def readBelow (bound : Nat) (text : List Char) : Except Refusal Nat :=
  if text.isEmpty then .error .empty else readFrom bound 0 text

/-- Digits with at most one `+` in front; a lone sign is a bad digit. -/
def readUnsigned (bound : Nat) : List Char → Except Refusal Nat
  | ['+'] => .error .invalidDigit
  | '+' :: cs => readBelow bound cs
  | cs => readBelow bound cs

/-- An unsigned 64-bit number. -/
def readUInt64 (text : List Char) : Except Refusal UInt64 :=
  (readUnsigned UInt64.size text).map UInt64.ofNat

/-- A signed 64-bit number, with at most one sign in front. -/
def readInt64? : List Char → Option Int64
  | '-' :: cs => (readBelow 0x8000000000000001 cs).toOption.map fun n => Int64.ofInt (-n)
  | '+' :: cs => (readBelow 0x8000000000000000 cs).toOption.map fun n => Int64.ofInt n
  | cs => (readBelow 0x8000000000000000 cs).toOption.map fun n => Int64.ofInt n

/-! ## What is written reads back -/

theorem digits_ne_nil (n : Nat) : digits n ≠ [] := Nat.toDigits_ne_nil

theorem isDigit_of_mem_digits {n : Nat} {c : Char} (h : c ∈ digits n) : c.isDigit = true :=
  Nat.isDigit_of_mem_toDigits (by decide) (by decide) h

/-- Digits after digits worth `n` give the number they stand for, if it is below the bound. -/
theorem readFrom_eq_ok {bound : Nat} {cs : List Char} (hd : ∀ c ∈ cs, c.isDigit = true) (n : Nat)
    (h : Nat.ofDigitChars 10 cs n < bound) :
    readFrom bound n cs = .ok (Nat.ofDigitChars 10 cs n) := by
  induction cs generalizing n with
  | nil => rfl
  | cons c cs ih =>
    have hc : c.isDigit = true := hd c (by simp)
    have hle : 10 * n + digitValue c ≤ Nat.ofDigitChars 10 cs (10 * n + digitValue c) := by
      generalize 10 * n + digitValue c = m
      clear ih h hd
      induction cs generalizing m with
      | nil => exact Nat.le_refl m
      | cons d ds ihd =>
        exact Nat.le_trans (by omega) (ihd (10 * m + digitValue d))
    have h' : Nat.ofDigitChars 10 cs (10 * n + digitValue c) < bound := h
    simp only [readFrom, hc, if_true, Nat.lt_of_le_of_lt hle h']
    exact ih (fun d hd' => hd d (by simp [hd'])) _ h'

theorem readBelow_digits {bound n : Nat} (h : n < bound) : readBelow bound (digits n) = .ok n := by
  have hv : Nat.ofDigitChars 10 (digits n) 0 = n :=
    Nat.ofDigitChars_toDigits (by decide) (by decide)
  have hne : (digits n).isEmpty = false := by
    simpa using digits_ne_nil n
  have hread : readFrom bound 0 (digits n) = .ok (Nat.ofDigitChars 10 (digits n) 0) :=
    readFrom_eq_ok (fun _ hc => isDigit_of_mem_digits hc) 0 (by rw [hv]; exact h)
  simp only [readBelow, hne, hread, hv]
  rfl

/-- Digits carry no sign, so the sign's rule leaves them alone. -/
theorem readUnsigned_digits {bound n : Nat} (h : n < bound) :
    readUnsigned bound (digits n) = .ok n := by
  have hplus : ∀ cs, digits n ≠ '+' :: cs := by
    intro cs hcs
    have : ('+' : Char).isDigit = true := isDigit_of_mem_digits (n := n) (by simp [hcs])
    exact absurd this (by decide)
  unfold readUnsigned
  split
  · next heq => exact absurd heq (hplus [])
  · next cs _ heq => exact absurd heq (hplus cs)
  · exact readBelow_digits h

theorem readUInt64_digits (x : UInt64) : readUInt64 (digits x.toNat) = .ok x := by
  simp [readUInt64, readUnsigned_digits x.toNat_lt_size, Except.map]

end Turnstile.Text.Decimal
