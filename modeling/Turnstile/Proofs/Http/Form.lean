import Mathlib.Data.List.Forall2
import Mathlib.Data.List.TakeWhile
import Turnstile.Http.Form
import Turnstile.Proofs.Text.Utf8

/-! # Queries with any escapes

One and the same list of pairs has many queries. A character can be written as it is, unless it means
something in a query, or as an escape for each of its bytes; a space also as a plus (`Spells`). A name
and its value stand with the first `=` between them, and a name without a value can stand alone
(`PairSpells`); between two `&` there may be nothing at all, which is no pair (`QuerySpells`).

Whatever is chosen, the pairs are what is read (`pairs_of_querySpells`). -/

namespace Turnstile

namespace Text.Percent

theorem decode_cons_of_ne {a : UInt8} (h : a ≠ mark) (bytes : List UInt8) :
    decode (a :: bytes) = a :: decode bytes := by
  match bytes with
  | [] => rfl
  | [_] => rfl
  | _ :: _ :: _ => rw [decode, if_neg h]

theorem decode_append_of_not_mem {before : List UInt8} (h : mark ∉ before) (bytes : List UInt8) :
    decode (before ++ bytes) = before ++ decode bytes := by
  induction before with
  | nil => rfl
  | cons a before ih =>
    rw [List.mem_cons, not_or] at h
    rw [List.cons_append, decode_cons_of_ne (Ne.symm h.1), ih h.2, List.cons_append]

theorem decode_escape {high low x : UInt8} (h : byte? high low = some x) (bytes : List UInt8) :
    decode (mark :: high :: low :: bytes) = x :: decode bytes := by
  rw [decode, if_pos rfl, h]

end Text.Percent

namespace Text.Hex

theorem bounds_of_value? {c : Char} {n : Nat} (h : value? c = some n) :
    c.toNat < 128 ∧ c ≠ '+' := by
  have hchars : '0' ≤ c ∧ c ≤ '9' ∨ 'a' ≤ c ∧ c ≤ 'f' ∨ 'A' ≤ c ∧ c ≤ 'F' := by
    unfold value? at h
    split at h
    · next hc => exact Or.inl hc
    · split at h
      · next hc => exact Or.inr (Or.inl hc)
      · split at h
        · next hc => exact Or.inr (Or.inr hc)
        · cases h
  have hplus : ('+' : Char).toNat = 43 := rfl
  have hrange : 48 ≤ c.toNat ∧ c.toNat < 128 := by
    simp only [Char.le_def, UInt32.le_iff_toNat_le] at hchars
    have hzero : ('0' : Char).val.toNat = 48 := rfl
    have hnine : ('9' : Char).val.toNat = 57 := rfl
    have ha : ('a' : Char).val.toNat = 97 := rfl
    have hf : ('f' : Char).val.toNat = 102 := rfl
    have hA : ('A' : Char).val.toNat = 65 := rfl
    have hF : ('F' : Char).val.toNat = 70 := rfl
    unfold Char.toNat
    omega
  refine ⟨hrange.2, ?_⟩
  rintro rfl
  omega

end Text.Hex

namespace Text.Split

theorem split_append_of_not_mem {sep : Char} {piece : List Char} (h : sep ∉ piece)
    (cs : List Char) : split sep (piece ++ sep :: cs) = piece :: split sep cs := by
  induction piece with
  | nil => rw [List.nil_append, split_cons, if_pos rfl]
  | cons c piece ih =>
    rw [List.mem_cons, not_or] at h
    rw [List.cons_append, split_cons, if_neg (Ne.symm h.1), ih h.2]
    rfl

theorem split_of_not_mem {sep : Char} {piece : List Char} (h : sep ∉ piece) :
    split sep piece = [piece] := by
  induction piece with
  | nil => rfl
  | cons c piece ih =>
    rw [List.mem_cons, not_or] at h
    rw [split_cons, if_neg (Ne.symm h.1), ih h.2]
    rfl

theorem split_join {sep : Char} {pieces : List (List Char)} (hne : pieces ≠ [])
    (h : ∀ piece ∈ pieces, sep ∉ piece) : split sep (join sep pieces) = pieces := by
  induction pieces with
  | nil => exact absurd rfl hne
  | cons piece pieces ih =>
    obtain ⟨hpiece, hrest⟩ := List.forall_mem_cons.mp h
    cases pieces with
    | nil => exact split_of_not_mem hpiece
    | cons next pieces =>
      rw [join, split_append_of_not_mem hpiece, ih (List.cons_ne_nil _ _) hrest]

section cut

variable {sep : Char} {before : List Char} (h : sep ∉ before)
include h

theorem ne_of_mem : ∀ c ∈ before, decide (c ≠ sep) = true := by
  intro c hc
  rw [decide_eq_true_iff]
  rintro rfl
  exact h hc

theorem cut_append_of_not_mem (after : List Char) :
    cut sep (before ++ sep :: after) = (before, some after) := by
  have hbefore := ne_of_mem h
  rw [cut, List.takeWhile_append_of_pos hbefore, List.dropWhile_append_of_pos hbefore]
  simp

theorem cut_of_not_mem : cut sep before = (before, none) := by
  rw [cut, List.takeWhile_eq_self_iff.mpr (ne_of_mem h),
    List.dropWhile_eq_nil_iff.mpr (ne_of_mem h)]

end cut

end Text.Split

namespace Http.Form

open Turnstile.Text

/-! ### Components -/

/-- The characters stand for the bytes: one for its own, unless it means something else, a plus for a
space, and an escape for the byte that its digits make up. -/
inductive Spells : List Char → List UInt8 → Prop where
  | nil : Spells [] []
  | char {c : Char} {cs : List Char} {bytes : List UInt8} (hc : c ∉ ['%', '+', '&'])
      (h : Spells cs bytes) : Spells (c :: cs) (String.utf8EncodeChar c ++ bytes)
  | space {cs : List Char} {bytes : List UInt8} (h : Spells cs bytes) :
      Spells ('+' :: cs) (0x20 :: bytes)
  | escape {high low : Char} {m n : Nat} {cs : List Char} {bytes : List UInt8}
      (hhigh : Hex.value? high = some m) (hlow : Hex.value? low = some n) (h : Spells cs bytes) :
      Spells ('%' :: high :: low :: cs) (UInt8.ofNat (16 * m + n) :: bytes)

theorem decode_char {c : Char} (hc : c ∉ ['%', '+', '&']) (bytes : List UInt8) :
    Percent.decode ((String.utf8EncodeChar c).map unplus ++ bytes) =
      String.utf8EncodeChar c ++ Percent.decode bytes := by
  simp only [List.mem_cons, List.not_mem_nil, or_false, not_or] at hc
  have hother : ∀ b ∈ String.utf8EncodeChar c, ∀ d : Char, d.toNat < 128 → c ≠ d →
      b ≠ Utf8.byte d.toNat := by
    rintro b hb d hd hne rfl
    have hnat : (Utf8.byte d.toNat).toNat = d.toNat := Utf8.toNat_byte (by omega)
    have heq := Utf8.toNat_eq_of_mem_encodeChar hb (by omega)
    exact hne (Char.toNat_inj.mp (heq.trans hnat))
  have hunplus : (String.utf8EncodeChar c).map unplus = String.utf8EncodeChar c := by
    have hself : ∀ b ∈ String.utf8EncodeChar c, unplus b = b :=
      fun b hb => if_neg (hother b hb '+' (by decide) hc.2.1)
    rw [List.map_congr_left hself, List.map_id']
  have hmark : Percent.mark ∉ String.utf8EncodeChar c :=
    fun hb => hother _ hb '%' (by decide) hc.1 rfl
  rw [hunplus, Percent.decode_append_of_not_mem hmark]

theorem unplus_digit {c : Char} {n : Nat} (h : Hex.value? c = some n) :
    (String.utf8EncodeChar c).map unplus = [Utf8.byte c.toNat] ∧
      Percent.digit? (Utf8.byte c.toNat) = some n := by
  obtain ⟨hlt, hplus⟩ := Hex.bounds_of_value? h
  have hnat : (Utf8.byte c.toNat).toNat = c.toNat := Utf8.toNat_byte (by omega)
  have hother : Utf8.byte c.toNat ≠ 0x2b := by
    intro heq
    have hcode : c.toNat = ('+' : Char).toNat := hnat.symm.trans (congrArg UInt8.toNat heq)
    exact hplus (Char.toNat_inj.mp hcode)
  constructor
  · rw [Utf8.encodeChar_of_lt hlt, List.map_singleton, unplus, if_neg hother]
  · rw [Percent.digit?, hnat, Char.ofNat_toNat, h]

theorem Spells.decode {cs : List Char} {bytes : List UInt8} (h : Spells cs bytes) :
    Percent.decode ((cs.flatMap String.utf8EncodeChar).map unplus) = bytes := by
  induction h with
  | nil => rfl
  | @char c cs bytes hc _ ih =>
    rw [List.flatMap_cons, List.map_append, decode_char hc, ih]
  | @space cs bytes _ ih =>
    have hplus : (String.utf8EncodeChar '+').map unplus = [0x20] := by decide
    have hspace : (0x20 : UInt8) ≠ Percent.mark := by decide
    rw [List.flatMap_cons, List.map_append, hplus, List.singleton_append,
      Percent.decode_cons_of_ne hspace, ih]
  | @escape high low m n cs bytes hhigh hlow _ ih =>
    obtain ⟨hhighbyte, hhighdigit⟩ := unplus_digit hhigh
    obtain ⟨hlowbyte, hlowdigit⟩ := unplus_digit hlow
    have hmark : (String.utf8EncodeChar '%').map unplus = [Percent.mark] := by decide
    have hbyte : Percent.byte? (Utf8.byte high.toNat) (Utf8.byte low.toNat) =
        some (UInt8.ofNat (16 * m + n)) := by
      rw [Percent.byte?, hhighdigit, hlowdigit]
      rfl
    simp only [List.flatMap_cons, List.map_append, hmark, hhighbyte, hlowbyte,
      List.singleton_append]
    rw [Percent.decode_escape hbyte, ih]

theorem Spells.component_eq {cs : List Char} {text : String} (h : Spells cs (Utf8.encode text)) :
    component cs = text := by
  rw [component, Utf8.encode_eq, String.toList_ofList, h.decode, Utf8.decodeLossy_encode,
    String.ofList_toList]

theorem spells_plain {text : String} (h : ∀ c ∈ text.toList, c ∉ ['%', '+', '&']) :
    Spells text.toList (Utf8.encode text) := by
  rw [Utf8.encode_eq]
  generalize text.toList = cs at h
  induction cs with
  | nil => exact .nil
  | cons c cs ih =>
    obtain ⟨hc, hcs⟩ := List.forall_mem_cons.mp h
    rw [List.flatMap_cons]
    exact .char hc (ih hcs)

theorem Spells.not_mem {cs : List Char} {bytes : List UInt8} (h : Spells cs bytes) : '&' ∉ cs := by
  induction h with
  | nil => exact List.not_mem_nil
  | char hc _ ih =>
    simp only [List.mem_cons, List.not_mem_nil, or_false, not_or] at hc ⊢
    exact ⟨Ne.symm hc.2.2, ih⟩
  | space _ ih => simpa using ih
  | @escape high low m n cs bytes hhigh hlow _ ih =>
    have hdigit : Hex.value? '&' = none := by decide
    have hother : ∀ {c : Char} {k : Nat}, Hex.value? c = some k → '&' ≠ c := by
      rintro c k hc rfl
      rw [hdigit] at hc
      cases hc
    simp only [List.mem_cons, not_or]
    exact ⟨by decide, hother hhigh, hother hlow, ih⟩

/-! ### Pairs -/

/-- The piece of a query stands for the pair. -/
inductive PairSpells : List Char → String × String → Prop where
  | both (name value : List Char) {p : String × String} (heq : '=' ∉ name)
      (hname : Spells name (Utf8.encode p.1)) (hvalue : Spells value (Utf8.encode p.2)) :
      PairSpells (name ++ '=' :: value) p
  | alone (name : List Char) {text : String} (hne : name ≠ []) (heq : '=' ∉ name)
      (hname : Spells name (Utf8.encode text)) : PairSpells name (text, "")

theorem PairSpells.pair_eq {piece : List Char} {p : String × String} (h : PairSpells piece p) :
    pair piece = p := by
  cases h with
  | both name value heq hname hvalue =>
    rw [pair, Split.cut_append_of_not_mem heq]
    exact Prod.ext hname.component_eq hvalue.component_eq
  | alone name _ heq hname =>
    have hempty : component [] = "" := by decide +kernel
    rw [pair, Split.cut_of_not_mem heq]
    exact Prod.ext hname.component_eq hempty

theorem PairSpells.not_mem {piece : List Char} {p : String × String} (h : PairSpells piece p) :
    '&' ∉ piece := by
  cases h with
  | both name value _ hname hvalue => simp [hname.not_mem, hvalue.not_mem]
  | alone name _ _ hname => exact hname.not_mem

/-- The query stands for the pairs, with empty pieces anywhere. -/
def QuerySpells (query : List Char) (ps : List (String × String)) : Prop :=
  ∃ pieces, query = Split.join '&' pieces ∧
    List.Forall₂ PairSpells (pieces.filter (!·.isEmpty)) ps

/-- **The pairs are what is read**, however they are written. -/
theorem pairs_of_querySpells {query : List Char} {ps : List (String × String)}
    (h : QuerySpells query ps) : pairs query = ps := by
  obtain ⟨pieces, rfl, hpairs⟩ := h
  have hmap : (pieces.filter (!·.isEmpty)).map pair = ps := by
    rw [← List.forall₂_eq_eq_eq, List.forall₂_map_left_iff]
    exact hpairs.imp fun _ _ h => h.pair_eq
  have hnonempty : ∀ piece ∈ pieces.filter (!·.isEmpty), '&' ∉ piece := by
    have hboth := hpairs.imp fun _ _ h => And.intro h.not_mem h
    exact ((List.forall₂_and_left _ _).mp hboth).1
  have hsep : ∀ piece ∈ pieces, '&' ∉ piece := by
    intro piece hpiece
    cases hempty : piece.isEmpty with
    | true => simp [List.isEmpty_iff.mp hempty]
    | false => exact hnonempty piece (List.mem_filter.mpr ⟨hpiece, by rw [hempty]; rfl⟩)
  rw [pairs]
  cases pieces with
  | nil => exact hmap
  | cons piece pieces => rw [Split.split_join (List.cons_ne_nil _ _) hsep, hmap]

end Http.Form

end Turnstile
