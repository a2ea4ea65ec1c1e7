import Mathlib.Data.Nat.Digits.Defs
import Turnstile.Http.Address
import Turnstile.Proofs.Http.Form
import Turnstile.Proofs.Json.Schema
import Turnstile.Proofs.Text.Decimal

/-! # Addresses are read as they are written

Whatever is written for an address, that address is read from it (`Address.ofText?_text`). Numbers and
groups come back from their digits; groups come back from between their colons, and the run of zeros
that is left out comes back from the gap, because the groups before it, as many zeros as are missing,
and the groups after it are all there are (`Address.eq_append_longestRun`).

The other way round a text that is read as an address can be written in more than one way, but only
with hexadecimal digits, colons and points (`Address.isMark_of_ofChars?`). -/

namespace Turnstile

open Turnstile.Text Turnstile.Json

/-! ### Digits and pieces -/

namespace Text

theorem exists_of_mapM {α β : Type} {f : α → Option β} {xs : List α} {ys : List β} {x : α}
    (h : xs.mapM f = some ys) (hx : x ∈ xs) : ∃ y, f x = some y := by
  induction mapM_eq_some_iff.mp h with
  | nil => cases hx
  | @cons x' y xs ys hy _ ih =>
    rcases List.mem_cons.mp hx with rfl | hx
    · exact ⟨y, hy⟩
    · exact ih (mapM_eq_some_iff.mpr ‹_›) hx

theorem Hex.isSome_value?_of_isDigit {c : Char} (h : c.isDigit = true) :
    (Hex.value? c).isSome = true := by
  have hrange : '0' ≤ c ∧ c ≤ '9' := by
    simpa [Char.isDigit, Char.le_def, UInt32.le_iff_toNat_le] using h
  rw [Hex.value?, if_pos hrange]
  rfl

theorem Hex.exists_values_toDigits (n : Nat) : ∃ ds, (Nat.toDigits 16 n).mapM Hex.value? = some ds ∧
    ds.foldl (fun n d => 16 * n + d) 0 = n := by
  induction n using Nat.strongRecOn with
  | ind n ih =>
    rcases Nat.lt_or_ge n 16 with hlt | hge
    · refine ⟨[n], ?_, by simp⟩
      rw [Nat.toDigits_of_lt_base hlt]
      exact mapM_eq_some_iff.mpr (.cons (Hex.value?_digit hlt) .nil)
    · obtain ⟨ds, hds, hworth⟩ := ih (n / 16) (by omega)
      refine ⟨ds ++ [n % 16], ?_, ?_⟩
      · rw [Nat.toDigits_of_base_le (by decide) hge]
        exact mapM_eq_some_iff.mpr (List.rel_append (mapM_eq_some_iff.mp hds)
          (.cons (Hex.value?_digit (Nat.mod_lt n (by decide))) .nil))
      · rw [List.foldl_append, hworth]
        exact Nat.div_add_mod n 16

namespace Split

variable {sep c : Char} {cs : List Char} {pieces : List (List Char)}

theorem mem_of_mem_join (h : c ∈ join sep pieces) : c = sep ∨ ∃ piece ∈ pieces, c ∈ piece := by
  fun_induction join sep pieces with
  | case1 => cases h
  | case2 piece => exact Or.inr ⟨piece, List.mem_singleton_self piece, h⟩
  | case3 piece next pieces ih =>
    rcases List.mem_append.mp h with hpiece | hrest
    · exact Or.inr ⟨piece, List.mem_cons_self, hpiece⟩
    · rcases List.mem_cons.mp hrest with rfl | hrest
      · exact Or.inl rfl
      · obtain hsep | ⟨p, hp, hc⟩ := ih hrest
        · exact Or.inl hsep
        · exact Or.inr ⟨p, List.mem_cons_of_mem _ hp, hc⟩

theorem mem_of_mem_split (sep : Char) (h : c ∈ cs) : c = sep ∨ ∃ piece ∈ split sep cs, c ∈ piece :=
  mem_of_mem_join ((join_split sep cs).symm ▸ h)

end Split

end Text

namespace Http.Address

/-! ### Numbers and groups -/

variable {c : Char} {cs : List Char}

theorem byte?_digits (n : UInt8) : byte? (Decimal.digits n.toNat) = some n := by
  have hread : ∀ k : Fin 256, byte? (Decimal.digits k.val) = some (UInt8.ofNat k.val) := by
    decide +kernel
  rw [hread ⟨n.toNat, n.toNat_lt_size⟩, UInt8.ofNat_toNat]

theorem isDigit_of_byte? {n : UInt8} (h : byte? cs = some n) (hc : c ∈ cs) : c.isDigit = true := by
  unfold byte? at h
  split at h
  · cases h
  · split at h
    · cases hread : Decimal.readBelow 256 cs with
      | error e =>
        rw [hread] at h
        cases h
      | ok k => exact ((Decimal.readBelow_eq_ok_iff (by decide)).mp hread).1.digits c hc
    · cases h

theorem dotted?_dotted (a b c d : UInt8) : dotted? (dotted a b c d) = some (a, b, c, d) := by
  have hsplit : Split.split '.' (dotted a b c d) =
      [a, b, c, d].map fun n => Decimal.digits n.toNat := by
    refine Split.split_join (List.cons_ne_nil _ _) fun piece hpiece => ?_
    obtain ⟨n, -, rfl⟩ := List.mem_map.mp hpiece
    exact fun hdot => absurd (Decimal.isDigit_of_mem_digits hdot) (by decide)
  have hbytes : (Split.split '.' (dotted a b c d)).mapM byte? = some [a, b, c, d] := by
    rw [hsplit, mapM_eq_some_iff, List.forall₂_map_left_iff, List.forall₂_same]
    exact fun n _ => byte?_digits n
  rw [dotted?, hbytes]

theorem dotted?_of_not_mem (h : '.' ∉ cs) : dotted? cs = none := by
  rw [dotted?, Split.split_of_not_mem h, List.mapM_cons]
  cases byte? cs <;> rfl

theorem isDigit_or_eq_of_dotted? {q : UInt8 × UInt8 × UInt8 × UInt8} (h : dotted? cs = some q)
    (hc : c ∈ cs) : c.isDigit = true ∨ c = '.' := by
  rcases Split.mem_of_mem_split '.' hc with rfl | ⟨piece, hpiece, hc⟩
  · exact Or.inr rfl
  · unfold dotted? at h
    split at h
    · next hbytes =>
      obtain ⟨n, hn⟩ := exists_of_mapM hbytes hpiece
      exact Or.inl (isDigit_of_byte? hn hc)
    · cases h

theorem dotted?_of_colon_mem (h : ':' ∈ cs) : dotted? cs = none := by
  cases hread : dotted? cs with
  | none => rfl
  | some q => exact absurd (isDigit_or_eq_of_dotted? hread h) (by decide)

theorem group?_group (g : UInt16) : group? (group g) = some g := by
  have hlength : 1 ≤ (group g).length ∧ (group g).length ≤ 4 :=
    ⟨List.length_pos_iff.mpr Nat.toDigits_ne_nil,
      Nat.toDigits_length 16 g.toNat 4 (by decide) g.toNat_lt⟩
  obtain ⟨ds, hds, hworth⟩ := Hex.exists_values_toDigits g.toNat
  rw [group?, if_pos hlength, group, hds, Option.map_some, hworth, UInt16.ofNat_toNat]

theorem isSome_value?_of_group? {g : UInt16} (h : group? cs = some g) (hc : c ∈ cs) :
    (Hex.value? c).isSome = true := by
  unfold group? at h
  split at h
  · obtain ⟨ds, hds, -⟩ := Option.map_eq_some_iff.mp h
    obtain ⟨d, hd⟩ := exists_of_mapM hds hc
    rw [hd]
    rfl
  · cases h

theorem isSome_value?_of_mem_group {g : UInt16} (h : c ∈ group g) : (Hex.value? c).isSome = true :=
  isSome_value?_of_group? (group?_group g) h

theorem colon_not_mem_group (g : UInt16) : ':' ∉ group g := fun h =>
  absurd (isSome_value?_of_mem_group h) (by decide)

theorem group_ne_nil (g : UInt16) : group g ≠ [] := Nat.toDigits_ne_nil

/-! ### Groups in a row -/

variable {gs : List UInt16}

theorem split_joined (h : gs ≠ []) : Split.split ':' (joined gs) = gs.map group := by
  refine Split.split_join (fun hnil => h (List.map_eq_nil_iff.mp hnil)) fun piece hpiece => ?_
  obtain ⟨g, -, rfl⟩ := List.mem_map.mp hpiece
  exact colon_not_mem_group g

theorem exists_joined_cons (g : UInt16) (gs : List UInt16) :
    ∃ c cs, joined (g :: gs) = c :: cs ∧ c ≠ ':' := by
  obtain ⟨c, cs, hgroup⟩ := List.exists_cons_of_ne_nil (group_ne_nil g)
  have hc : c ≠ ':' := by
    rintro rfl
    exact colon_not_mem_group g (hgroup ▸ List.mem_cons_self)
  cases gs with
  | nil => exact ⟨c, cs, hgroup, hc⟩
  | cons h gs =>
    refine ⟨c, cs ++ ':' :: joined (h :: gs), ?_, hc⟩
    show group g ++ ':' :: joined (h :: gs) = _
    rw [hgroup, List.cons_append]

theorem isEmpty_joined_cons (g : UInt16) (gs : List UInt16) : (joined (g :: gs)).isEmpty = false := by
  obtain ⟨c, cs, hjoined, -⟩ := exists_joined_cons g gs
  rw [hjoined]
  rfl

theorem plainGroups?_joined (gs : List UInt16) : plainGroups? (joined gs) = some gs := by
  cases gs with
  | nil => rfl
  | cons g gs =>
    rw [plainGroups?, isEmpty_joined_cons, split_joined (List.cons_ne_nil g gs)]
    refine mapM_eq_some_iff.mpr ?_
    rw [List.forall₂_map_left_iff, List.forall₂_same]
    exact fun g _ => group?_group g

theorem groups?_map_group (gs : List UInt16) : groups? (gs.map group) = some gs := by
  induction gs with
  | nil => rfl
  | cons g gs ih =>
    cases gs with
    | nil =>
      have hdot : '.' ∉ group g := fun h => absurd (isSome_value?_of_mem_group h) (by decide)
      rw [List.map_cons, List.map_nil, groups?, dotted?_of_not_mem hdot, group?_group]
      rfl
    | cons h gs =>
      rw [List.map_cons, List.map_cons, groups?, group?_group]
      · rw [List.map_cons] at ih
        rw [ih]
        rfl
      · exact List.cons_ne_nil _ _

theorem lastGroups?_joined (gs : List UInt16) : lastGroups? (joined gs) = some gs := by
  cases gs with
  | nil => rfl
  | cons g gs =>
    rw [lastGroups?, isEmpty_joined_cons, split_joined (List.cons_ne_nil g gs)]
    exact groups?_map_group (g :: gs)

/-! ### The gap -/

theorem cutGap_cons (hc : c ≠ ':') (cs : List Char) :
    cutGap (c :: cs) = (c :: (cutGap cs).1, (cutGap cs).2) := by
  rw [cutGap]
  exact fun _ h => absurd h hc

theorem cutGap_append_of_not_mem {piece : List Char} (h : ':' ∉ piece) (cs : List Char) :
    cutGap (piece ++ cs) = (piece ++ (cutGap cs).1, (cutGap cs).2) := by
  induction piece with
  | nil => rfl
  | cons c piece ih =>
    rw [List.mem_cons, not_or] at h
    rw [List.cons_append, cutGap_cons (Ne.symm h.1), ih h.2]
    rfl

theorem cutGap_joined_append (gs : List UInt16) (cs : List Char) :
    cutGap (joined gs ++ cs) = (joined gs ++ (cutGap cs).1, (cutGap cs).2) := by
  induction gs with
  | nil => rfl
  | cons g gs ih =>
    cases gs with
    | nil => exact cutGap_append_of_not_mem (colon_not_mem_group g) cs
    | cons h gs =>
      obtain ⟨d, ds, hjoined, hd⟩ := exists_joined_cons h gs
      have hcolon : cutGap (':' :: (joined (h :: gs) ++ cs)) =
          (':' :: (cutGap (joined (h :: gs) ++ cs)).1, (cutGap (joined (h :: gs) ++ cs)).2) := by
        rw [hjoined, List.cons_append, cutGap]
        exact fun _ _ hrest => hd (List.cons.inj hrest).1
      have hgroups : joined (g :: h :: gs) = group g ++ ':' :: joined (h :: gs) := rfl
      rw [hgroups, List.append_assoc, List.cons_append,
        cutGap_append_of_not_mem (colon_not_mem_group g), hcolon, ih]
      simp

theorem takeWhile_zero_append_drop (gs : List UInt16) :
    List.replicate (gs.takeWhile (· = 0)).length 0 ++ gs.drop (gs.takeWhile (· = 0)).length = gs := by
  have hzeros : gs.takeWhile (· = 0) = List.replicate (gs.takeWhile (· = 0)).length 0 := by
    refine List.eq_replicate_iff.mpr ⟨rfl, fun g hg => ?_⟩
    simpa using List.all_eq_true.mp (List.all_takeWhile (l := gs) (p := (· = 0))) g hg
  have hfront : gs.takeWhile (· = 0) = gs.take (gs.takeWhile (· = 0)).length :=
    List.prefix_iff_eq_take.mp (List.takeWhile_prefix _)
  rw [← hzeros]
  conv => lhs; lhs; rw [hfront]
  exact List.take_append_drop _ gs

/-- **The longest run is a run**: it is all zeros, and the groups before it and behind it are the rest. -/
theorem eq_append_longestRun (gs : List UInt16) :
    gs = gs.take (longestRun gs).1 ++ List.replicate (longestRun gs).2 0 ++
      gs.drop ((longestRun gs).1 + (longestRun gs).2) := by
  induction gs with
  | nil => rfl
  | cons g gs ih =>
    rw [longestRun]
    split
    · rw [List.take_zero, List.nil_append, Nat.zero_add]
      exact (takeWhile_zero_append_drop (g :: gs)).symm
    · rw [List.take_succ_cons, List.cons_append, List.cons_append, Nat.add_right_comm,
        List.drop_succ_cons, ← ih]

theorem v6?_joined (gs : List UInt16) : v6? (joined gs) = ofGroups? gs := by
  have hcut : cutGap (joined gs) = (joined gs, none) := by
    simpa [cutGap] using cutGap_joined_append gs []
  rw [v6?, hcut]
  exact congrArg (Option.bind · ofGroups?) (lastGroups?_joined gs)

theorem v6?_gap {head tail : List UInt16} (h : head.length + tail.length < 8) :
    v6? (joined head ++ [':', ':'] ++ joined tail) =
      ofGroups? (head ++ List.replicate (8 - (head.length + tail.length)) 0 ++ tail) := by
  have hcut : cutGap (joined head ++ [':', ':'] ++ joined tail) =
      (joined head, some (joined tail)) := by
    rw [List.append_assoc, cutGap_joined_append]
    simp [cutGap]
  rw [v6?, hcut]
  simp only [plainGroups?_joined, lastGroups?_joined, Option.bind_eq_bind, Option.bind_some, if_pos h]

theorem v6?_compressed (h : gs.length = 8) : v6? (compressed gs) = ofGroups? gs := by
  unfold compressed
  dsimp only
  split
  · next hrun =>
    have hpieces := eq_append_longestRun gs
    generalize gs.take (longestRun gs).1 = head at hpieces ⊢
    generalize gs.drop ((longestRun gs).1 + (longestRun gs).2) = tail at hpieces ⊢
    have hlength := congrArg List.length hpieces
    rw [h, List.length_append, List.length_append, List.length_replicate] at hlength
    -- What is missing to eight groups is as long as the run.
    have hmissing : 8 - (head.length + tail.length) = (longestRun gs).2 := by omega
    rw [v6?_gap (by omega), hmissing, ← hpieces]
  · exact v6?_joined gs

/-! ### Whole addresses -/

theorem groupOf_bytes (g : UInt16) : groupOf (highByte g) (lowByte g) = g := by
  have hlt : g.toNat < 65536 := g.toNat_lt
  rw [← UInt16.toNat_inj, groupOf, highByte, lowByte, UInt16.toNat_ofNat', UInt8.toNat_ofNat',
    UInt8.toNat_ofNat']
  omega

theorem ofGroups?_toList (groups : Vector UInt16 8) : ofGroups? groups.toList = some (.v6 groups) := by
  obtain ⟨array, hsize⟩ := groups
  exact dif_pos hsize

/-- An address of version 4 in the clothes of version 6 comes back in its clothes. -/
theorem v6?_mapped (g h : UInt16) :
    v6? ("::ffff:".toList ++ dotted (highByte g) (lowByte g) (highByte h) (lowByte h)) =
      ofGroups? [0, 0, 0, 0, 0, 0xffff, g, h] := by
  have hfront : "::ffff:".toList = ':' :: ':' :: ("ffff".toList ++ [':']) := by decide
  have hcolon : ':' ∉ dotted (highByte g) (lowByte g) (highByte h) (lowByte h) := fun hmem =>
    absurd (isDigit_or_eq_of_dotted? (dotted?_dotted ..) hmem) (by decide)
  have hlast : lastGroups? ("ffff".toList ++
      ':' :: dotted (highByte g) (lowByte g) (highByte h) (lowByte h)) = some [0xffff, g, h] := by
    have hffff : group? "ffff".toList = some 0xffff := by decide
    have hquad : groups? [dotted (highByte g) (lowByte g) (highByte h) (lowByte h)] = some [g, h] := by
      rw [groups?, dotted?_dotted]
      dsimp only
      rw [groupOf_bytes, groupOf_bytes]
    rw [lastGroups?, Split.split_append_of_not_mem (by decide), Split.split_of_not_mem hcolon,
      groups?, hffff, hquad]
    · rfl
    · exact List.cons_ne_nil _ _
  rw [hfront, List.cons_append, List.cons_append, List.append_assoc, List.singleton_append, v6?, cutGap]
  simp only [hlast]
  rfl

theorem isSome_value?_or_eq_of_mem_joined (h : c ∈ joined gs) :
    (Hex.value? c).isSome = true ∨ c = ':' := by
  rcases Split.mem_of_mem_join h with rfl | ⟨piece, hpiece, hc⟩
  · exact Or.inr rfl
  · obtain ⟨g, -, rfl⟩ := List.mem_map.mp hpiece
    exact Or.inl (isSome_value?_of_mem_group hc)

theorem dot_not_mem_compressed (gs : List UInt16) : '.' ∉ compressed gs := by
  have hjoined : ∀ gs, '.' ∉ joined gs := fun gs h =>
    absurd (isSome_value?_or_eq_of_mem_joined h) (by decide)
  unfold compressed
  dsimp only
  split
  · simp [hjoined]
  · exact hjoined gs

theorem ofChars?_chars (a : Address) : ofChars? a.chars = some a := by
  cases a with
  | v4 a b c d => rw [chars, ofChars?, dotted?_dotted]
  | v6 groups =>
    have hlength : groups.toList.length = 8 := by simp
    rw [← ofGroups?_toList, chars]
    split
    · next g h hgroups =>
      have hcolon : ':' ∈ "::ffff:".toList ++
          dotted (highByte g) (lowByte g) (highByte h) (lowByte h) :=
        List.mem_append_left _ (by decide)
      rw [ofChars?, dotted?_of_colon_mem hcolon, hgroups]
      exact v6?_mapped g h
    · rw [ofChars?, dotted?_of_not_mem (dot_not_mem_compressed _)]
      exact v6?_compressed hlength

/-- **An address is read as it is written.** -/
theorem ofText?_text (a : Address) : ofText? a.text = some a := by
  rw [ofText?, text, String.toList_ofList, ofChars?_chars]

/-! ### Other ways to write an address -/

/-- The character may stand in an address. -/
def IsMark (c : Char) : Prop := (Hex.value? c).isSome = true ∨ c = ':' ∨ c = '.'

instance (c : Char) : Decidable (IsMark c) := by
  unfold IsMark; infer_instance

theorem isMark_of_dotted? {q : UInt8 × UInt8 × UInt8 × UInt8} (h : dotted? cs = some q)
    (hc : c ∈ cs) : IsMark c := by
  rcases isDigit_or_eq_of_dotted? h hc with hdigit | hdot
  · exact Or.inl (Hex.isSome_value?_of_isDigit hdigit)
  · exact Or.inr (Or.inr hdot)

theorem isMark_of_groups? {pieces : List (List Char)} (h : groups? pieces = some gs)
    {piece : List Char} (hpiece : piece ∈ pieces) (hc : c ∈ piece) : IsMark c := by
  fun_induction groups? pieces generalizing gs with
  | case1 => cases hpiece
  | case2 last a b d e hquad =>
    obtain rfl := List.mem_singleton.mp hpiece
    exact isMark_of_dotted? hquad hc
  | case3 last hquad =>
    obtain rfl := List.mem_singleton.mp hpiece
    obtain ⟨g, hg, -⟩ := Option.map_eq_some_iff.mp h
    exact Or.inl (isSome_value?_of_group? hg hc)
  | case4 first pieces hne ih =>
    obtain ⟨g, hg, hrest⟩ := Option.bind_eq_some_iff.mp h
    obtain ⟨rest, hrest, -⟩ := Option.bind_eq_some_iff.mp hrest
    rcases List.mem_cons.mp hpiece with rfl | hpiece
    · exact Or.inl (isSome_value?_of_group? hg hc)
    · exact ih hrest hpiece

theorem isMark_of_pieces (h : ∀ piece ∈ Split.split ':' cs, c ∈ piece → IsMark c) (hc : c ∈ cs) :
    IsMark c := by
  rcases Split.mem_of_mem_split ':' hc with hcolon | ⟨piece, hpiece, hc⟩
  · exact Or.inr (Or.inl hcolon)
  · exact h piece hpiece hc

theorem isMark_of_lastGroups? (h : lastGroups? cs = some gs) (hc : c ∈ cs) : IsMark c := by
  unfold lastGroups? at h
  split at h
  · next hnil =>
    rw [List.isEmpty_iff.mp hnil] at hc
    cases hc
  · exact isMark_of_pieces (fun piece hpiece => isMark_of_groups? h hpiece) hc

theorem isMark_of_plainGroups? (h : plainGroups? cs = some gs) (hc : c ∈ cs) : IsMark c := by
  unfold plainGroups? at h
  split at h
  · next hnil =>
    rw [List.isEmpty_iff.mp hnil] at hc
    cases hc
  · refine isMark_of_pieces (fun piece hpiece hc => ?_) hc
    obtain ⟨g, hg⟩ := exists_of_mapM h hpiece
    exact Or.inl (isSome_value?_of_group? hg hc)

theorem append_cutGap (cs : List Char) :
    (cutGap cs).1 ++ ((cutGap cs).2.map (':' :: ':' :: ·)).getD [] = cs := by
  fun_induction cutGap cs with
  | case1 => rfl
  | case2 rest => rfl
  | case3 c cs _ r ih => exact congrArg (c :: ·) ih

theorem isMark_of_v6? {a : Address} (h : v6? cs = some a) (hc : c ∈ cs) : IsMark c := by
  rw [← append_cutGap cs] at hc
  unfold v6? at h
  split at h
  · next before hcut =>
    obtain ⟨gs, hgs, -⟩ := Option.bind_eq_some_iff.mp h
    rw [hcut, Option.map_none, Option.getD_none, List.append_nil] at hc
    exact isMark_of_lastGroups? hgs hc
  · next before after hcut =>
    obtain ⟨head, hhead, h⟩ := Option.bind_eq_some_iff.mp h
    obtain ⟨tail, htail, -⟩ := Option.bind_eq_some_iff.mp h
    rw [hcut, Option.map_some, Option.getD_some] at hc
    rcases List.mem_append.mp hc with hbefore | hafter
    · exact isMark_of_plainGroups? hhead hbefore
    · rcases List.mem_cons.mp hafter with hcolon | hafter
      · exact Or.inr (Or.inl hcolon)
      · rcases List.mem_cons.mp hafter with hcolon | hafter
        · exact Or.inr (Or.inl hcolon)
        · exact isMark_of_lastGroups? htail hafter

/-- **However an address is written**, it is written in digits of base sixteen, colons and points. -/
theorem isMark_of_ofChars? {a : Address} (h : ofChars? cs = some a) (hc : c ∈ cs) : IsMark c := by
  unfold ofChars? at h
  split at h
  · next hquad => exact isMark_of_dotted? hquad hc
  · exact isMark_of_v6? h hc

theorem isMark_of_mem_text (a : Address) (h : c ∈ a.text.toList) : IsMark c :=
  isMark_of_ofChars? a.ofText?_text h

theorem comma_not_mem_of_ofChars? {a : Address} (h : ofChars? cs = some a) : ',' ∉ cs := fun hc =>
  absurd (isMark_of_ofChars? h hc) (by decide)

end Http.Address

end Turnstile
