import Turnstile.Json.Printer
import Turnstile.Proofs.Json.Parsing

/-! # What is written is read back

A tree that is written and read again comes back as it was, but for the spelling of some characters:
a control without a short escape is written as a code, and read as one (`Glyph.reread`). The texts
that literals stand for do not change (`Literal.text?_reread`).

That the tree comes back is a matter of the grammar alone: the text of a tree is one of the texts of
the tree that is read (`spelled_render`), and these are read as that tree. -/

namespace Turnstile.Json

open Turnstile.Text

/-! ### Literals -/

/-- The unit that is read where a unit was written. -/
def Glyph.reread : Glyph → Glyph
  | .char c =>
    if c.toNat < 0x20 ∧ c ∉ ['\x08', '\t', '\n', '\x0c', '\r'] then .code (UInt16.ofNat c.toNat)
    else .char c
  | .code u => .code u

/-- A character is read as itself, or as a code that stands for it alone. -/
theorem Glyph.reread_char (c : Char) : reread (.char c) = .char c ∨
    ∃ u, reread (.char c) = .code u ∧ isHigh u = false ∧ isLow u = false ∧
      Char.ofNat u.toNat = c := by
  unfold reread
  dsimp only
  split
  · next hc =>
    have hlt : c.toNat < 2 ^ 16 := by omega
    have hnat : (UInt16.ofNat c.toNat).toNat = c.toNat := UInt16.toNat_ofNat_of_lt' hlt
    have hbelow : ∀ v : UInt16, 0x20 ≤ v.toNat → ¬ v ≤ UInt16.ofNat c.toNat := by
      intro v hv hle
      rw [UInt16.le_iff_toNat_le, hnat] at hle
      omega
    refine Or.inr ⟨_, rfl, ?_, ?_, ?_⟩
    · unfold isHigh
      rw [decide_eq_false (hbelow _ (by decide)), Bool.false_and]
    · unfold isLow
      rw [decide_eq_false (hbelow _ (by decide)), Bool.false_and]
    · rw [hnat, Char.ofNat_toNat]
  · exact Or.inl rfl

/-- The literal that is read where a literal was written. -/
def Literal.reread (l : Literal) : Literal := l.map Glyph.reread

namespace Literal

theorem chars?_code_cons {u : UInt16} (hhigh : Glyph.isHigh u = false)
    (hlow : Glyph.isLow u = false) (l : Literal) :
    chars? (.code u :: l) = (chars? l).map (Char.ofNat u.toNat :: ·) := by
  cases l with
  | nil => simp [chars?, hhigh, hlow]
  | cons g rest => cases g <;> simp [chars?, hhigh, hlow]

theorem chars?_high_cons {u : UInt16} (hhigh : Glyph.isHigh u = true) {l : Literal}
    (hl : ∀ v rest, l = .code v :: rest → Glyph.isLow v = false) : chars? (.code u :: l) = none := by
  cases l with
  | nil => simp [chars?, hhigh]
  | cons g rest =>
    cases g with
    | char c => simp [chars?, hhigh]
    | code v => simp [chars?, hhigh, hl v rest rfl]

theorem chars?_low_cons {u : UInt16} (hhigh : Glyph.isHigh u = false) (hlow : Glyph.isLow u = true)
    (l : Literal) : chars? (.code u :: l) = none := by
  cases l with
  | nil => simp [chars?, hlow]
  | cons g rest => cases g <;> simp [chars?, hhigh, hlow]

theorem chars?_reread (l : Literal) : chars? l.reread = chars? l := by
  unfold reread
  fun_induction chars? l with
  | case1 => rfl
  | case2 c rest ih =>
    rw [List.map_cons]
    rcases Glyph.reread_char c with h | ⟨u, h, hhigh, hlow, hc⟩
    · rw [h, chars?, ih]
    · rw [h, chars?_code_cons hhigh hlow, ih, hc]
  | case3 u v rest hhigh hlow ih =>
    simp only [List.map_cons, Glyph.reread, chars?, hhigh, hlow, if_true, ih]
  | case4 u v rest hhigh hlow =>
    rw [Bool.not_eq_true] at hlow
    refine chars?_high_cons hhigh fun w other h => ?_
    rw [List.map_cons, List.cons.injEq] at h
    rw [← Glyph.code.inj h.1, hlow]
  | case5 u v rest hhigh hlow =>
    rw [Bool.not_eq_true] at hhigh
    exact chars?_low_cons hhigh hlow _
  | case6 u v rest hhigh hlow ih =>
    rw [Bool.not_eq_true] at hhigh hlow
    rw [List.map_cons, Glyph.reread, chars?_code_cons hhigh hlow, ih]
  | case7 u rest hrest hhalf =>
    rw [List.map_cons, Glyph.reread]
    cases hhigh : Glyph.isHigh u with
    | true =>
      -- A character that is read as a code is no second half.
      refine chars?_high_cons hhigh fun w other h => ?_
      cases rest with
      | nil => cases h
      | cons g rest =>
        cases g with
        | char c =>
          rw [List.map_cons, List.cons.injEq] at h
          rcases Glyph.reread_char c with hc | ⟨v, hc, -, hlow, -⟩
          · rw [hc] at h
            cases h.1
          · rw [hc] at h
            rw [← Glyph.code.inj h.1, hlow]
        | code v => exact absurd rfl (hrest v rest)
    | false =>
      rw [hhigh, Bool.false_or] at hhalf
      exact chars?_low_cons hhigh hhalf _
  | case8 u rest hrest hhalf ih =>
    rw [Bool.not_eq_true, Bool.or_eq_false_iff] at hhalf
    rw [List.map_cons, Glyph.reread, chars?_code_cons hhalf.1 hhalf.2, ih]

theorem text?_reread (l : Literal) : text? l.reread = text? l := by
  unfold text?
  rw [chars?_reread]

end Literal

/-! ### Tokens -/

theorem Glyph.spelled_code (u : UInt16) :
    (Glyph.code u).Spelled ('\\' :: 'u' :: Hex.ofUnit u) := by
  have hu := u.toNat_lt
  have hdigit : ∀ {n : Nat}, n < 16 → Hex.value? (Hex.digit n) = some n := Hex.value?_digit
  have hvalue : 16 * (16 * (16 * (u.toNat / 4096) + u.toNat / 256 % 16) + u.toNat / 16 % 16) +
      u.toNat % 16 = u.toNat := by omega
  have hcode := Glyph.Spelled.code (hdigit (n := u.toNat / 4096) (by omega))
    (hdigit (n := u.toNat / 256 % 16) (by omega)) (hdigit (n := u.toNat / 16 % 16) (by omega))
    (hdigit (n := u.toNat % 16) (by omega))
  rwa [hvalue, UInt16.ofNat_toNat] at hcode

theorem Glyph.spelled_render (g : Glyph) : g.reread.Spelled g.render := by
  cases g with
  | code u => exact spelled_code u
  | char c =>
    unfold render escape
    dsimp only
    split
    case h_8 hquote hback h8 h9 h10 h12 h13 =>
      unfold reread
      dsimp only
      split_ifs with hc hcontrol hcontrol
      · exact spelled_code _
      · exact absurd hc.1 hcontrol
      · have hshort : c ∉ ['\x08', '\t', '\n', '\x0c', '\r'] := by
          simp only [List.mem_cons, List.not_mem_nil, or_false, not_or]
          exact ⟨h8, h9, h10, h12, h13⟩
        exact absurd ⟨hcontrol, hshort⟩ hc
      · exact .plain hquote hback (Nat.le_of_not_lt hcontrol)
    all_goals exact .short (by decide)

theorem Literal.spelled_render (l : Literal) : Token.Spelled (.text l.reread) l.render := by
  refine .text ?_
  induction l with
  | nil => exact .nil
  | cons g l ih => exact .cons g.spelled_render ih

/-! ### Trees -/

mutual

/-- Every number in the tree has the lexeme of one. -/
def Sound : Json → Prop
  | .number lexeme => IsNumber lexeme
  | .array items => SoundItems items
  | .object fields => SoundFields fields
  | .null | .bool _ | .text _ => True

/-- Every number in the items has the lexeme of one. -/
def SoundItems : List Json → Prop
  | [] => True
  | j :: rest => Sound j ∧ SoundItems rest

/-- Every number in the fields has the lexeme of one. -/
def SoundFields : List (Literal × Json) → Prop
  | [] => True
  | (_, j) :: rest => Sound j ∧ SoundFields rest

end

mutual

/-- The tree that is read where a tree was written. -/
def reread : Json → Json
  | .null => .null
  | .bool b => .bool b
  | .number lexeme => .number lexeme
  | .text l => .text l.reread
  | .array items => .array (rereadItems items)
  | .object fields => .object (rereadFields fields)

/-- The items that are read where items were written. -/
def rereadItems : List Json → List Json
  | [] => []
  | j :: rest => reread j :: rereadItems rest

/-- The fields that are read where fields were written. -/
def rereadFields : List (Literal × Json) → List (Literal × Json)
  | [] => []
  | (n, j) :: rest => (n.reread, reread j) :: rereadFields rest

end

/-! ### The text of a tree -/

mutual

/-- **The tree that is read is written in the text.** -/
theorem spelled_render (j : Json) (hj : j.Sound) : Spelled j.reread.toTokens j.render := by
  cases j with
  | null => exact Token.Spelled.null.single
  | bool b =>
    cases b with
    | true => exact Token.Spelled.yes.single
    | false => exact Token.Spelled.no.single
  | number lexeme => exact (Token.Spelled.number (isNumber_iff.mp hj)).single
  | text l => exact l.spelled_render.single
  | array items =>
    exact Token.Spelled.openArray.cons ((spelled_renderItems items hj).concat .closeArray)
  | object fields =>
    exact Token.Spelled.openObject.cons ((spelled_renderFields fields hj).concat .closeObject)

theorem spelled_renderItems (items : List Json) (hitems : SoundItems items) :
    Spelled (itemsToTokens (rereadItems items)) (renderItems items) := by
  match items with
  | [] => exact .nil spaces_nil
  | [j] => exact spelled_render j hitems.1
  | j :: k :: rest =>
    exact (spelled_render j hitems.1).append
      (Token.Spelled.comma.cons (spelled_renderItems (k :: rest) hitems.2))

theorem spelled_renderFields (fields : List (Literal × Json)) (hfields : SoundFields fields) :
    Spelled (fieldsToTokens (rereadFields fields)) (renderFields fields) := by
  match fields with
  | [] => exact .nil spaces_nil
  | [(n, j)] =>
    exact n.spelled_render.cons (Token.Spelled.colon.cons (spelled_render j hfields.1))
  | (n, j) :: f :: rest =>
    have hmore := Token.Spelled.comma.cons (spelled_renderFields (f :: rest) hfields.2)
    rw [renderFields, List.append_assoc]
    exact n.spelled_render.cons
      (Token.Spelled.colon.cons ((spelled_render j hfields.1).append hmore))

end

/-- **What is written is read back**, up to the spelling of controls. -/
theorem parse_render {j : Json} (hj : j.Sound) : parse j.render = some j.reread :=
  parse_eq_some_iff.mpr (spelled_render j hj)

end Turnstile.Json
