import Mathlib.Data.List.Forall2
import Turnstile.Proofs.Redis.Stems

/-! # What a pattern picks

A text meets a pattern if it falls into pieces, one for each item of the pattern in turn: a run takes
any piece, and every other item a single character (`Item.Takes`, `Meets`). The matcher goes through
the text from the left and lets a run give way at each character; it finds such pieces exactly if
there are any (`itemsMatch_iff_meets`), so it is right for every pattern, with runs and classes at any
place.

A server does not know characters. To it a text is a row of bytes, and each of them counts as one
character (`octets`). The characters that mean something else than themselves are written in one byte,
and no other character has one of these bytes, so escaping a text escapes its bytes
(`octets_ofStem`). Be it by characters or by bytes, the pattern of a stem picks the keys that begin
with the stem (`ofStem_exact`). -/

namespace Turnstile.Redis.Glob

open Turnstile.Text

/-! ### Pieces -/

/-- The item can stand for the piece of a text. -/
def Item.Takes : Item → List Char → Prop
  | run, _ => True
  | i, piece => ∃ c, piece = [c] ∧ i.isMetBy c = true

/-- The text falls into pieces for the items. -/
def Meets (is : List Item) (cs : List Char) : Prop :=
  ∃ pieces, List.Forall₂ Item.Takes is pieces ∧ cs = pieces.flatten

theorem meets_nil {cs : List Char} : Meets [] cs ↔ cs = [] := by
  simp [Meets]

theorem meets_cons {i : Item} {is : List Item} {cs : List Char} :
    Meets (i :: is) cs ↔ ∃ piece rest, i.Takes piece ∧ Meets is rest ∧ cs = piece ++ rest := by
  constructor
  · rintro ⟨pieces, hpieces, rfl⟩
    cases hpieces with
    | cons hpiece hrest => exact ⟨_, _, hpiece, ⟨_, hrest, rfl⟩, rfl⟩
  · rintro ⟨piece, rest, hpiece, ⟨pieces, hpieces, rfl⟩, rfl⟩
    exact ⟨piece :: pieces, .cons hpiece hpieces, rfl⟩

theorem meets_run {is : List Item} {cs : List Char} :
    Meets (.run :: is) cs ↔ ∃ rest, rest <:+ cs ∧ Meets is rest := by
  rw [meets_cons]
  constructor
  · rintro ⟨piece, rest, -, hrest, rfl⟩
    exact ⟨rest, List.suffix_append piece rest, hrest⟩
  · rintro ⟨rest, ⟨piece, rfl⟩, hrest⟩
    exact ⟨piece, rest, trivial, hrest, rfl⟩

theorem meets_one {i : Item} (hi : i ≠ .run) {is : List Item} {cs : List Char} :
    Meets (i :: is) cs ↔ ∃ c rest, i.isMetBy c = true ∧ Meets is rest ∧ cs = c :: rest := by
  have htakes : ∀ piece, i.Takes piece ↔ ∃ c, piece = [c] ∧ i.isMetBy c = true := by
    intro piece
    cases i with
    | run => exact absurd rfl hi
    | _ => exact Iff.rfl
  rw [meets_cons]
  constructor
  · rintro ⟨piece, rest, hpiece, hrest, rfl⟩
    obtain ⟨c, rfl, hc⟩ := (htakes piece).mp hpiece
    exact ⟨c, rest, hc, hrest, rfl⟩
  · rintro ⟨c, rest, hc, hrest, rfl⟩
    exact ⟨[c], rest, (htakes [c]).mpr ⟨c, rfl, hc⟩, hrest, rfl⟩

/-- **The matcher finds the pieces if there are any.** -/
theorem itemsMatch_iff_meets (is : List Item) (cs : List Char) :
    itemsMatch is cs = true ↔ Meets is cs := by
  fun_induction itemsMatch is cs with
  | case1 cs => rw [meets_nil, List.isEmpty_iff]
  | case2 is ih =>
    rw [ih, meets_run]
    simp [List.suffix_nil]
  | case3 is c cs ihhere ihlater =>
    rw [Bool.or_eq_true, ihhere, ihlater, meets_run, meets_run]
    constructor
    · rintro (hhere | ⟨rest, hsuffix, hrest⟩)
      · exact ⟨c :: cs, List.suffix_refl _, hhere⟩
      · exact ⟨rest, hsuffix.trans (List.suffix_cons c cs), hrest⟩
    · rintro ⟨rest, hsuffix, hrest⟩
      rcases List.suffix_cons_iff.mp hsuffix with rfl | hlater
      · exact Or.inl hrest
      · exact Or.inr ⟨rest, hlater, hrest⟩
  | case4 i is hi =>
    rw [meets_one hi]
    simp
  | case5 i is c cs hi ih =>
    rw [meets_one hi, Bool.and_eq_true, ih]
    constructor
    · rintro ⟨hc, hrest⟩
      exact ⟨c, cs, hc, hrest, rfl⟩
    · rintro ⟨d, rest, hd, hrest, heq⟩
      obtain ⟨rfl, rfl⟩ := List.cons.inj heq
      exact ⟨hd, hrest⟩

/-! ### Bytes -/

/-- The bytes of a character, with the character of the same number for each of them. -/
def octetsOf (c : Char) : List Char := (String.utf8EncodeChar c).map Char.ofUInt8

/-- A text as a server sees it. -/
def octets (text : String) : List Char := (Utf8.encode text).map Char.ofUInt8

theorem octets_eq (text : String) : octets text = text.toList.flatMap octetsOf := by
  rw [octets, Utf8.encode_eq, List.map_flatMap]
  rfl

theorem toNat_ofUInt8 (b : UInt8) : (Char.ofUInt8 b).toNat = b.toNat := UInt8.toNat_toUInt32 b

theorem octetsOf_of_lt {c : Char} (h : c.toNat < 128) : octetsOf c = [c] := by
  have hbyte : Char.ofUInt8 (Utf8.byte c.toNat) = c := by
    apply Char.toNat_inj.mp
    rw [toNat_ofUInt8, Utf8.toNat_byte (by omega)]
  rw [octetsOf, Utf8.encodeChar_of_lt h, List.map_singleton, hbyte]

theorem le_of_mem_octetsOf {c d : Char} (h : 128 ≤ c.toNat) (hd : d ∈ octetsOf c) :
    128 ≤ d.toNat := by
  obtain ⟨b, hb, rfl⟩ := List.mem_map.mp hd
  rw [toNat_ofUInt8]
  exact Utf8.le_of_mem_encodeChar h hb

theorem toNat_lt_of_isSpecial {c : Char} (h : isSpecial c = true) : c.toNat < 128 := by
  simp only [isSpecial, Bool.or_eq_true, decide_eq_true_eq] at h
  rcases h with (((rfl | rfl) | rfl) | rfl) | rfl <;> decide

theorem escape_eq_self {cs : List Char} (h : ∀ c ∈ cs, isSpecial c = false) : escape cs = cs := by
  induction cs with
  | nil => rfl
  | cons c cs ih =>
    rw [List.forall_mem_cons] at h
    rw [escape, List.flatMap_cons, h.1, if_neg Bool.false_ne_true]
    exact congrArg (c :: ·) (ih h.2)

theorem escape_append (cs ds : List Char) : escape (cs ++ ds) = escape cs ++ escape ds :=
  List.flatMap_append

theorem flatMap_octetsOf_escape_singleton (c : Char) :
    (escape [c]).flatMap octetsOf = escape (octetsOf c) := by
  by_cases hlt : c.toNat < 128
  · rw [octetsOf_of_lt hlt]
    have hbackslash : octetsOf '\\' = ['\\'] := octetsOf_of_lt (by decide)
    cases hc : isSpecial c <;> simp [escape, hc, octetsOf_of_lt hlt, hbackslash]
  · have hplain : ∀ d, 128 ≤ d.toNat → isSpecial d = false := fun d hd =>
      (Bool.not_eq_true _).mp fun h => absurd (toNat_lt_of_isSpecial h) (Nat.not_lt_of_le hd)
    have hle : 128 ≤ c.toNat := Nat.le_of_not_lt hlt
    rw [escape_eq_self fun d hd => hplain d (le_of_mem_octetsOf hle hd),
      escape_eq_self (by simpa using hplain c hle)]
    simp

theorem flatMap_octetsOf_escape (cs : List Char) :
    (escape cs).flatMap octetsOf = escape (cs.flatMap octetsOf) := by
  induction cs with
  | nil => rfl
  | cons c cs ih =>
    rw [← List.singleton_append, escape_append, List.flatMap_append, ih,
      flatMap_octetsOf_escape_singleton, ← escape_append, List.singleton_append, List.flatMap_cons]

theorem octets_ofStem (stem : String) : octets (ofStem stem) = escape (octets stem) ++ ['*'] := by
  have hrun : octetsOf '*' = ['*'] := octetsOf_of_lt (by decide)
  rw [octets_eq, ofStem, String.toList_ofList, List.flatMap_append, flatMap_octetsOf_escape, octets_eq]
  simp [hrun]

theorem meets_escape_run (stem cs : List Char) :
    Meets (items (escape stem ++ ['*'])) cs ↔ stem <+: cs := by
  have hrun : items ['*'] = [.run] := by simp [items]
  rw [← itemsMatch_iff_meets, items_escape, hrun, itemsMatch_exactly_run]

theorem octets_prefix_iff (stem key : String) :
    octets stem <+: octets key ↔ beginsWith stem key = true := by
  have hinj : Function.Injective Char.ofUInt8 := by
    intro a b h
    have hnat := congrArg Char.toNat h
    rw [toNat_ofUInt8, toNat_ofUInt8] at hnat
    exact UInt8.toNat_inj.mp hnat
  rw [octets, octets, List.prefix_map_iff_of_injective hinj, ← picks_ofStem_iff_encode, picks_ofStem]

/-- **The pattern of a stem picks the keys that begin with it.** -/
theorem ofStem_exact (stem key : String) :
    (Meets (items (ofStem stem).toList) key.toList ↔ ∃ rest, key = stem ++ rest) ∧
      (Meets (items (octets (ofStem stem))) (octets key) ↔ ∃ rest, key = stem ++ rest) ∧
      (picks (ofStem stem) key = true ↔ ∃ rest, key = stem ++ rest) := by
  refine ⟨?_, ?_, ?_⟩
  · rw [← beginsWith_iff, ofStem, String.toList_ofList, meets_escape_run, beginsWith,
      List.isPrefixOf_iff_prefix]
  · rw [← beginsWith_iff, octets_ofStem, meets_escape_run, octets_prefix_iff]
  · rw [picks_ofStem, beginsWith_iff]

end Turnstile.Redis.Glob
