import Turnstile.Proofs.Json.Assembling
import Turnstile.Proofs.Json.Numerals
import Turnstile.Text.Hex

/-! # What is JSON

Which texts a tree may have. Each of its tokens is written in one of the token's ways
(`Token.Spelled`); only strings have several, since a character may be escaped (`Glyph.Spelled`).
Between tokens there may be white space (`Spelled`). A text that is written so is a text of the tree
(`Json.Written`).

Nothing here mentions how texts are read; that they are read by this grammar, all of them and no
others, is `parse_eq_some_iff`. -/

namespace Turnstile.Json

open Turnstile.Text

/-! ### White space -/

/-- JSON's white space. -/
def IsSpace (c : Char) : Prop := c ∈ [' ', '\t', '\n', '\r']

instance (c : Char) : Decidable (IsSpace c) := by
  unfold IsSpace; infer_instance

/-- Nothing but white space. -/
def Spaces (cs : List Char) : Prop := ∀ c ∈ cs, IsSpace c

instance (cs : List Char) : Decidable (Spaces cs) := List.decidableBAll IsSpace cs

theorem spaces_nil : Spaces [] := List.forall_mem_nil _

theorem spaces_append {cs ds : List Char} : Spaces (cs ++ ds) ↔ Spaces cs ∧ Spaces ds :=
  List.forall_mem_append

/-! ### Tokens -/

/-- The letters that may stand behind a backslash, with the characters that they stand for. -/
def shortEscapes : List (Char × Char) :=
  [('"', '"'), ('\\', '\\'), ('/', '/'), ('b', '\x08'), ('f', '\x0c'), ('n', '\n'), ('r', '\r'),
    ('t', '\t')]

/-- The ways to write a unit of a string: as it is, unless it is a quote, a backslash or a control,
behind a backslash, or by its number. -/
inductive Glyph.Spelled : Glyph → List Char → Prop where
  | plain {c : Char} (hquote : c ≠ '"') (hbackslash : c ≠ '\\') (hcontrol : 0x20 ≤ c.toNat) :
      Spelled (.char c) [c]
  | short {letter c : Char} (h : (letter, c) ∈ shortEscapes) : Spelled (.char c) ['\\', letter]
  | code {a b c d : Char} {w x y z : Nat} (ha : Hex.value? a = some w) (hb : Hex.value? b = some x)
      (hc : Hex.value? c = some y) (hd : Hex.value? d = some z) :
      Spelled (.code (UInt16.ofNat (16 * (16 * (16 * w + x) + y) + z))) ['\\', 'u', a, b, c, d]

/-- The ways to write the inside of a string. -/
inductive Literal.Spelled : Literal → List Char → Prop where
  | nil : Spelled [] []
  | cons {g : Glyph} {l : Literal} {x cs : List Char} (hg : g.Spelled x) (hl : Spelled l cs) :
      Spelled (g :: l) (x ++ cs)

/-- The ways to write a token. -/
inductive Token.Spelled : Token → List Char → Prop where
  | openArray : Spelled .openArray ['[']
  | closeArray : Spelled .closeArray [']']
  | openObject : Spelled .openObject ['\x7b']
  | closeObject : Spelled .closeObject ['\x7d']
  | comma : Spelled .comma [',']
  | colon : Spelled .colon [':']
  | text {l : Literal} {cs : List Char} (h : Literal.Spelled l cs) :
      Spelled (.text l) ('"' :: (cs ++ ['"']))
  | null : Spelled (.scalar .null) ['n', 'u', 'l', 'l']
  | yes : Spelled (.scalar (.bool true)) ['t', 'r', 'u', 'e']
  | no : Spelled (.scalar (.bool false)) ['f', 'a', 'l', 's', 'e']
  | number {lexeme : List Char} (h : Numeral lexeme) : Spelled (.scalar (.number lexeme)) lexeme

theorem Token.Spelled.proper {t : Token} {x : List Char} (h : t.Spelled x) : t.Proper := by
  cases h <;> trivial

/-- Tokens one after another, with white space around them. -/
inductive Spelled : List Token → List Char → Prop where
  | nil {w : List Char} (hw : Spaces w) : Spelled [] w
  | cons {t : Token} {ts : List Token} {w x cs : List Char} (hw : Spaces w) (ht : t.Spelled x)
      (hts : Spelled ts cs) : Spelled (t :: ts) (w ++ (x ++ cs))

/-- **The text is one of the tree.** -/
def Written (j : Json) (cs : List Char) : Prop := Spelled j.toTokens cs

/-! ### Longer texts -/

theorem Literal.Spelled.append {l m : Literal} {cs ds : List Char} (hl : Literal.Spelled l cs)
    (hm : Literal.Spelled m ds) : Literal.Spelled (l ++ m) (cs ++ ds) := by
  induction hl with
  | nil => exact hm
  | cons hg _ ih =>
    rw [List.append_assoc]
    exact .cons hg ih

theorem Literal.Spelled.concat {l : Literal} {g : Glyph} {cs x : List Char}
    (hl : Literal.Spelled l cs) (hg : g.Spelled x) : Literal.Spelled (l ++ [g]) (cs ++ x) := by
  have hone : Literal.Spelled [g] x := by
    have h := Literal.Spelled.cons hg .nil
    rwa [List.append_nil] at h
  exact hl.append hone

theorem Spelled.spaces_append {ts : List Token} {cs w : List Char} (hw : Spaces w)
    (h : Spelled ts cs) : Spelled ts (w ++ cs) := by
  cases h with
  | nil hw' => exact .nil (Json.spaces_append.mpr ⟨hw, hw'⟩)
  | cons hw' ht hts =>
    rw [← List.append_assoc]
    exact .cons (Json.spaces_append.mpr ⟨hw, hw'⟩) ht hts

theorem Spelled.append {ts us : List Token} {cs ds : List Char} (h : Spelled ts cs)
    (h' : Spelled us ds) : Spelled (ts ++ us) (cs ++ ds) := by
  induction h with
  | nil hw => exact h'.spaces_append hw
  | cons hw ht _ ih =>
    rw [List.append_assoc, List.append_assoc]
    exact .cons hw ht ih

theorem Spelled.append_spaces {ts : List Token} {cs w : List Char} (h : Spelled ts cs)
    (hw : Spaces w) : Spelled ts (cs ++ w) := by
  have h' := h.append (.nil hw)
  rwa [List.append_nil] at h'

theorem Token.Spelled.cons {t : Token} {ts : List Token} {x cs : List Char} (ht : t.Spelled x)
    (h : Json.Spelled ts cs) : Json.Spelled (t :: ts) (x ++ cs) := .cons spaces_nil ht h

theorem Token.Spelled.single {t : Token} {x : List Char} (ht : t.Spelled x) :
    Json.Spelled [t] x := by
  have h := ht.cons (.nil spaces_nil)
  rwa [List.append_nil] at h

theorem Spelled.concat {ts : List Token} {t : Token} {cs x : List Char} (h : Spelled ts cs)
    (ht : t.Spelled x) : Spelled (ts ++ [t]) (cs ++ x) := h.append ht.single

theorem Spelled.proper {ts : List Token} {cs : List Char} (h : Spelled ts cs) :
    ∀ t ∈ ts, t.Proper := by
  induction h with
  | nil => exact List.forall_mem_nil _
  | cons _ ht _ ih => exact List.forall_mem_cons.mpr ⟨ht.proper, ih⟩

end Turnstile.Json
