import Mathlib.Tactic.SplitIfs
import Turnstile.Text.Utf8

/-! # Texts are read from their bytes

A character is written in one to four bytes: the first tells how many follow and carries the highest
bits of the code, each of the others carries six bits. The machine that reads bytes collects them
again (`foldl_step_encodeChar`), and the narrower ranges behind some first bytes shut out only what no
character is written as (`first_three`, `first_four`). So what is read from the bytes of a text is the
text (`decode_encode`). -/

namespace Turnstile.Text.Utf8

/-- The byte of a number. -/
abbrev byte (n : Nat) : UInt8 := UInt8.ofNat n

theorem toNat_byte {n : Nat} (h : n < 256) : (byte n).toNat = n := by
  rw [UInt8.toNat_ofNat', Nat.mod_eq_of_lt h]

/-! ### One byte -/

section step

variable {done : List Piece} {l : Lead} {b : UInt8}

theorem step_last (hlow : l.low ≤ b) (hhigh : b ≤ l.high) (howed : l.owed = 1) :
    step ⟨done, some l⟩ b = ⟨.char (Char.ofNat (l.code * 64 + b.toNat % 64)) :: done, none⟩ := by
  simp only [step, hlow, hhigh, howed, and_self, if_true]

theorem step_more (hlow : l.low ≤ b) (hhigh : b ≤ l.high) (howed : l.owed ≠ 1) :
    step ⟨done, some l⟩ b =
      ⟨done, some ⟨l.seen + 1, l.owed - 1, 0x80, 0xbf, l.code * 64 + b.toNat % 64⟩⟩ := by
  simp only [step, hlow, hhigh, howed, and_self, if_true, if_false]

theorem first_two {n : Nat} (hlow : 2 ≤ n) (hhigh : n < 32) :
    first done (byte (n + 0xc0)) = ⟨done, some ⟨1, 1, 0x80, 0xbf, n⟩⟩ := by
  have hb : (byte (n + 0xc0)).toNat = n + 0xc0 := toNat_byte (by omega)
  have hcode : (n + 0xc0) % 32 = n := by omega
  simp only [first, UInt8.le_iff_toNat_le, hb, UInt8.reduceToNat]
  rw [if_neg (by omega), if_pos (by omega), hcode]

/-- The first byte of three. The second has a narrower range behind the first and the fourteenth of
them, where shorter codes and surrogates would be. -/
theorem first_three (done : List Piece) {n m : Nat} (hn : n < 16) (hm : m < 64) (hlow : n = 0 → 32 ≤ m)
    (hsurrogate : n = 13 → m < 32) :
    ∃ low high, first done (byte (n + 0xe0)) = ⟨done, some ⟨1, 2, low, high, n⟩⟩ ∧
      low ≤ byte (m + 0x80) ∧ byte (m + 0x80) ≤ high := by
  have hb : (byte (n + 0xe0)).toNat = n + 0xe0 := toNat_byte (by omega)
  have hnext : (byte (m + 0x80)).toNat = m + 0x80 := toNat_byte (by omega)
  have hcode : (n + 0xe0) % 16 = n := by omega
  simp only [first, UInt8.le_iff_toNat_le, ← UInt8.toNat_inj, hb, hnext, UInt8.reduceToNat]
  rw [if_neg (by omega), if_neg (by omega)]
  by_cases h0 : n = 0
  · rw [if_pos (by omega), h0]
    exact ⟨0xa0, 0xbf, rfl, by simp only [UInt8.reduceToNat]; omega,
      by simp only [UInt8.reduceToNat]; omega⟩
  · rw [if_neg (by omega)]
    by_cases h13 : n = 13
    · rw [if_pos (by omega), h13]
      exact ⟨0x80, 0x9f, rfl, by simp only [UInt8.reduceToNat]; omega,
        by simp only [UInt8.reduceToNat]; omega⟩
    · rw [if_neg (by omega), if_pos (by omega), hcode]
      exact ⟨0x80, 0xbf, rfl, by simp only [UInt8.reduceToNat]; omega,
        by simp only [UInt8.reduceToNat]; omega⟩

/-- The first byte of four. The second has a narrower range behind the first and the last of them,
where shorter codes and numbers above all codes would be. -/
theorem first_four (done : List Piece) {n m : Nat} (hn : n ≤ 4) (hm : m < 64) (hlow : n = 0 → 16 ≤ m)
    (hhigh : n = 4 → m < 16) :
    ∃ low high, first done (byte (n + 0xf0)) = ⟨done, some ⟨1, 3, low, high, n⟩⟩ ∧
      low ≤ byte (m + 0x80) ∧ byte (m + 0x80) ≤ high := by
  have hb : (byte (n + 0xf0)).toNat = n + 0xf0 := toNat_byte (by omega)
  have hnext : (byte (m + 0x80)).toNat = m + 0x80 := toNat_byte (by omega)
  simp only [first, UInt8.le_iff_toNat_le, ← UInt8.toNat_inj, hb, hnext, UInt8.reduceToNat]
  rw [if_neg (by omega), if_neg (by omega), if_neg (by omega), if_neg (by omega), if_neg (by omega)]
  by_cases h0 : n = 0
  · rw [if_pos (by omega), h0]
    exact ⟨0x90, 0xbf, rfl, by simp only [UInt8.reduceToNat]; omega,
      by simp only [UInt8.reduceToNat]; omega⟩
  · rw [if_neg (by omega)]
    by_cases h4 : n = 4
    · rw [if_neg (by omega), if_pos (by omega), h4]
      exact ⟨0x80, 0x8f, rfl, by simp only [UInt8.reduceToNat]; omega,
        by simp only [UInt8.reduceToNat]; omega⟩
    · have hcode : (n + 0xf0) % 8 = n := by omega
      rw [if_pos (by omega), hcode]
      exact ⟨0x80, 0xbf, rfl, by simp only [UInt8.reduceToNat]; omega,
        by simp only [UInt8.reduceToNat]; omega⟩

theorem tail_range {m : Nat} (hm : m < 64) :
    (byte (m + 0x80)).toNat % 64 = m ∧ 0x80 ≤ byte (m + 0x80) ∧ byte (m + 0x80) ≤ 0xbf := by
  have hb : (byte (m + 0x80)).toNat = m + 0x80 := toNat_byte (by omega)
  simp only [UInt8.le_iff_toNat_le, hb, UInt8.reduceToNat]
  omega

end step

/-! ### One character -/

/-- **The bytes of a character are read as the character.** -/
theorem foldl_step_encodeChar (done : List Piece) (c : Char) :
    (String.utf8EncodeChar c).foldl step ⟨done, none⟩ = ⟨.char c :: done, none⟩ := by
  have hvalid : c.val.toNat < 0xd800 ∨ 0xdfff < c.val.toNat ∧ c.val.toNat < 0x110000 := c.valid
  have hc : Char.ofNat c.val.toNat = c := Char.ofNat_toNat c
  unfold String.utf8EncodeChar
  generalize c.val.toNat = v at hvalid hc
  dsimp only
  split
  · next h1 =>
    have hb : (byte v).toNat = v := toNat_byte (by omega)
    have hle : byte v ≤ 0x7f := by
      rw [UInt8.le_iff_toNat_le, hb]
      exact h1
    simp only [List.foldl_cons, List.foldl_nil, step, first, hle, if_true, hb, hc]
  · split
    · next h1 h2 =>
      obtain ⟨hbits, hlow, hhigh⟩ := tail_range (m := v % 64) (by omega)
      have hfirst : v / 64 % 32 = v / 64 := by omega
      have hsum : v / 64 * 64 + v % 64 = v := by omega
      simp only [List.foldl_cons, List.foldl_nil, hfirst]
      rw [show step ⟨done, none⟩ _ = _ from first_two (n := v / 64) (by omega) (by omega),
        step_last hlow hhigh rfl]
      simp only [hbits, hsum, hc]
    · split
      · next h1 h2 h3 =>
        obtain ⟨low, high, hlead, hlow, hhigh⟩ := first_three done (n := v / 4096 % 16)
          (m := v / 64 % 64) (by omega) (by omega) (by omega) (by omega)
        obtain ⟨hbits, -, -⟩ := tail_range (m := v / 64 % 64) (by omega)
        obtain ⟨hbits', hlow', hhigh'⟩ := tail_range (m := v % 64) (by omega)
        have hsum : (v / 4096 % 16 * 64 + v / 64 % 64) * 64 + v % 64 = v := by omega
        simp only [List.foldl_cons, List.foldl_nil]
        rw [show step ⟨done, none⟩ _ = _ from hlead, step_more hlow hhigh (by simp),
          step_last hlow' hhigh' rfl]
        simp only [hbits, hbits', hsum, hc]
      · next h1 h2 h3 =>
        obtain ⟨low, high, hlead, hlow, hhigh⟩ := first_four done (n := v / 262144 % 8)
          (m := v / 4096 % 64) (by omega) (by omega) (by omega) (by omega)
        obtain ⟨hbits, -, -⟩ := tail_range (m := v / 4096 % 64) (by omega)
        obtain ⟨hbits', hlow', hhigh'⟩ := tail_range (m := v / 64 % 64) (by omega)
        obtain ⟨hbits'', hlow'', hhigh''⟩ := tail_range (m := v % 64) (by omega)
        have hsum : ((v / 262144 % 8 * 64 + v / 4096 % 64) * 64 + v / 64 % 64) * 64 + v % 64 = v := by
          omega
        simp only [List.foldl_cons, List.foldl_nil]
        rw [show step ⟨done, none⟩ _ = _ from hlead, step_more hlow hhigh (by simp),
          step_more hlow' hhigh' (by simp), step_last hlow'' hhigh'' rfl]
        simp only [hbits, hbits', hbits'', hsum, hc]

theorem encodeChar_of_lt {c : Char} (h : c.toNat < 128) :
    String.utf8EncodeChar c = [byte c.toNat] := by
  have hle : c.val.toNat ≤ 0x7f := Nat.le_of_lt_succ h
  unfold String.utf8EncodeChar
  dsimp only
  rw [if_pos hle]
  rfl

theorem le_of_mem_encodeChar {c : Char} {b : UInt8} (h : 128 ≤ c.toNat)
    (hb : b ∈ String.utf8EncodeChar c) : 128 ≤ b.toNat := by
  have hlt : ¬ c.val.toNat ≤ 0x7f := Nat.not_le_of_lt h
  unfold String.utf8EncodeChar at hb
  dsimp only at hb
  rw [if_neg hlt] at hb
  split_ifs at hb <;> simp only [List.mem_cons, List.not_mem_nil, or_false] at hb <;>
    rcases hb with rfl | rfl | rfl | rfl <;> rw [UInt8.toNat_ofNat'] <;> omega

theorem toNat_eq_of_mem_encodeChar {c : Char} {b : UInt8} (hb : b ∈ String.utf8EncodeChar c)
    (hlt : b.toNat < 128) : c.toNat = b.toNat := by
  rcases Nat.lt_or_ge c.toNat 128 with h | h
  · rw [encodeChar_of_lt h, List.mem_singleton] at hb
    rw [hb, toNat_byte (by omega)]
  · exact absurd (le_of_mem_encodeChar h hb) (Nat.not_le_of_lt hlt)

/-! ### Texts -/

/-- The loop behind `ByteArray.toList` goes on from where it stands. -/
theorem toList_loop (bytes : ByteArray) (i : Nat) (done : List UInt8) :
    ByteArray.toList.loop bytes i done = done.reverse ++ bytes.data.toList.drop i := by
  fun_induction ByteArray.toList.loop bytes i done with
  | case1 i done hi ih =>
    have hlt : i < bytes.data.toList.length := hi
    have hget : bytes.get! i = bytes.data.toList[i] := getElem!_pos bytes.data i hlt
    rw [ih, List.drop_eq_getElem_cons hlt, hget, List.reverse_cons, List.append_assoc]
    rfl
  | case2 i done hi =>
    have hle : bytes.data.toList.length ≤ i := Nat.le_of_not_lt hi
    rw [List.drop_eq_nil_of_le hle, List.append_nil]

theorem encode_eq (text : String) : encode text = text.toList.flatMap String.utf8EncodeChar := by
  rw [encode, String.toUTF8_eq_toByteArray, ← String.utf8Encode_toList, ByteArray.toList,
    toList_loop]
  exact List.toList_data_toByteArray

theorem pieces_encode (text : String) : pieces (encode text) = text.toList.map Piece.char := by
  have hrun : ∀ (cs : List Char) (done : List Piece),
      (cs.flatMap String.utf8EncodeChar).foldl step ⟨done, none⟩ =
        ⟨(cs.map Piece.char).reverse ++ done, none⟩ := by
    intro cs
    induction cs with
    | nil => intro done; rfl
    | cons c cs ih =>
      intro done
      rw [List.flatMap_cons, List.foldl_append, foldl_step_encodeChar, ih]
      simp
  rw [pieces, encode_eq, hrun text.toList []]
  simp

theorem firstFault_chars (cs : List Char) (index : Nat) :
    firstFault index (cs.map Piece.char) = none := by
  induction cs generalizing index with
  | nil => rfl
  | cons c cs ih => exact ih _

theorem decodeLossy_encode (text : String) : decodeLossy (encode text) = text.toList := by
  have hshown : Piece.shown ∘ Piece.char = id := rfl
  rw [decodeLossy, pieces_encode, List.map_map, hshown, List.map_id]

theorem decode_encode (text : String) : decode (encode text) = .ok text := by
  rw [decode, decodeLossy_encode, pieces_encode, firstFault_chars, String.ofList_toList]

end Turnstile.Text.Utf8
