import Turnstile.Proofs.Json.Reread

/-! # What strings stand for

A literal stands for the characters in it, but for its codes: two of them may make up one character,
and half of such a pair stands for nothing. `Literal.Denotes` says so without the halves being looked
for; the reader that looks for them finds just what the literal stands for
(`Literal.chars?_eq_some_iff`). -/

namespace Turnstile.Json

open Turnstile.Text

namespace Literal

/-- The literal stands for the characters. A code stands for the character with its number, and two
codes that are halves of a pair stand for the character that lies so far above the first plane. -/
inductive Denotes : Literal → List Char → Prop where
  | nil : Denotes [] []
  | char {c : Char} {l : Literal} {cs : List Char} (h : Denotes l cs) :
      Denotes (.char c :: l) (c :: cs)
  | code {u : UInt16} {c : Char} {l : Literal} {cs : List Char} (hu : u.toNat = c.toNat)
      (h : Denotes l cs) : Denotes (.code u :: l) (c :: cs)
  | pair {u v : UInt16} {c : Char} {high low : Nat} {l : Literal} {cs : List Char}
      (hu : u.toNat = 0xd800 + high) (hhigh : high < 1024) (hv : v.toNat = 0xdc00 + low)
      (hlow : low < 1024) (hc : c.toNat = 0x10000 + (1024 * high + low)) (h : Denotes l cs) :
      Denotes (.code u :: .code v :: l) (c :: cs)

end Literal

namespace Glyph

theorem isHigh_iff {u : UInt16} : isHigh u = true ↔ 0xd800 ≤ u.toNat ∧ u.toNat < 0xdc00 := by
  unfold isHigh
  rw [Bool.and_eq_true, decide_eq_true_iff, decide_eq_true_iff, UInt16.le_iff_toNat_le,
    UInt16.le_iff_toNat_le]
  exact and_congr_right fun _ => Nat.lt_succ_iff.symm

theorem isLow_iff {u : UInt16} : isLow u = true ↔ 0xdc00 ≤ u.toNat ∧ u.toNat < 0xe000 := by
  unfold isLow
  rw [Bool.and_eq_true, decide_eq_true_iff, decide_eq_true_iff, UInt16.le_iff_toNat_le,
    UInt16.le_iff_toNat_le]
  exact and_congr_right fun _ => Nat.lt_succ_iff.symm

theorem toNat_ofNat_of_valid {n : Nat} (h : n.isValidChar) : (Char.ofNat n).toNat = n := by
  unfold Char.ofNat
  rw [dif_pos h]
  rfl

theorem toNat_ofNat_unit {u : UInt16} (hhigh : isHigh u = false) (hlow : isLow u = false) :
    (Char.ofNat u.toNat).toNat = u.toNat := by
  rw [← Bool.not_eq_true, isHigh_iff] at hhigh
  rw [← Bool.not_eq_true, isLow_iff] at hlow
  have hu := u.toNat_lt
  refine toNat_ofNat_of_valid ?_
  unfold Nat.isValidChar
  omega

theorem toNat_ofPair {u v : UInt16} (hu : isHigh u = true) (hv : isLow v = true) :
    (ofPair u v).toNat = 0x10000 + (1024 * (u.toNat - 0xd800) + (v.toNat - 0xdc00)) := by
  rw [isHigh_iff] at hu
  rw [isLow_iff] at hv
  unfold ofPair
  rw [toNat_ofNat_of_valid]
  · omega
  · unfold Nat.isValidChar
    omega

theorem not_half_of_toNat_eq {u : UInt16} {c : Char} (h : u.toNat = c.toNat) :
    isHigh u = false ∧ isLow u = false := by
  have hvalid : c.toNat < 0xd800 ∨ 0xdfff < c.toNat ∧ c.toNat < 0x110000 := c.valid
  rw [← Bool.not_eq_true, ← Bool.not_eq_true, isHigh_iff, isLow_iff, h]
  omega

end Glyph

namespace Literal

theorem Denotes.chars?_eq {l : Literal} {cs : List Char} (h : Denotes l cs) :
    chars? l = some cs := by
  induction h with
  | nil => rfl
  | char _ ih => rw [chars?, ih, Option.map_some]
  | code hu _ ih =>
    obtain ⟨hhigh, hlow⟩ := Glyph.not_half_of_toNat_eq hu
    rw [chars?_code_cons hhigh hlow, ih, Option.map_some, hu, Char.ofNat_toNat]
  | @pair u v c high low l cs hu hhigh hv hlow hc _ ih =>
    have hisHigh : Glyph.isHigh u = true := Glyph.isHigh_iff.mpr (by omega)
    have hisLow : Glyph.isLow v = true := Glyph.isLow_iff.mpr (by omega)
    have hpair : Glyph.ofPair u v = c := by
      rw [Char.ext_iff, UInt32.ext_iff]
      show (Glyph.ofPair u v).toNat = c.toNat
      rw [Glyph.toNat_ofPair hisHigh hisLow]
      omega
    rw [chars?, if_pos hisHigh, if_pos hisLow, ih, hpair, Option.map_some]

/-- **The characters that a literal is read as are those that it stands for.** -/
theorem chars?_eq_some_iff {l : Literal} {cs : List Char} : chars? l = some cs ↔ Denotes l cs := by
  refine ⟨fun h => ?_, Denotes.chars?_eq⟩
  fun_induction chars? l generalizing cs with
  | case1 =>
    cases h
    exact .nil
  | case2 c rest ih =>
    obtain ⟨ds, hds, rfl⟩ := Option.map_eq_some_iff.mp h
    exact .char (ih hds)
  | case3 u v rest hhigh hlow ih =>
    obtain ⟨ds, hds, rfl⟩ := Option.map_eq_some_iff.mp h
    have hu := Glyph.isHigh_iff.mp hhigh
    have hv := Glyph.isLow_iff.mp hlow
    obtain ⟨high, hhalf⟩ := Nat.le.dest hu.1
    obtain ⟨low, hother⟩ := Nat.le.dest hv.1
    refine .pair hhalf.symm (by omega) hother.symm (by omega) ?_ (ih hds)
    rw [Glyph.toNat_ofPair hhigh hlow]
    omega
  | case4 => cases h
  | case5 => cases h
  | case6 u v rest hhigh hlow ih =>
    obtain ⟨ds, hds, rfl⟩ := Option.map_eq_some_iff.mp h
    rw [Bool.not_eq_true] at hhigh hlow
    exact .code (Glyph.toNat_ofNat_unit hhigh hlow).symm (ih hds)
  | case7 => cases h
  | case8 u rest hrest hhalf ih =>
    obtain ⟨ds, hds, rfl⟩ := Option.map_eq_some_iff.mp h
    rw [Bool.not_eq_true, Bool.or_eq_false_iff] at hhalf
    exact .code (Glyph.toNat_ofNat_unit hhalf.1 hhalf.2).symm (ih hds)

/-- The literal stands for the text. -/
def Means (l : Literal) (s : String) : Prop := l.Denotes s.toList

theorem text?_eq_some_iff {l : Literal} {s : String} : l.text? = some s ↔ l.Means s := by
  unfold text? Means
  rw [← chars?_eq_some_iff, Option.map_eq_some_iff]
  constructor
  · rintro ⟨cs, hcs, rfl⟩
    rw [hcs, String.toList_ofList]
  · intro h
    exact ⟨_, h, String.ofList_toList⟩

end Literal

end Turnstile.Json
