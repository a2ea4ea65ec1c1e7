/-!
# UTF-8

Bytes as characters.  A machine takes one byte at a time (`step`) and leaves a list of pieces: the
characters, and the byte runs that belong to none.  A run ends before the first byte that cannot
continue it, so a bad run is never longer than the character it started.

* `encode`: the bytes of a text;
* `decode`: the text, or the first run that belongs to no character and where it begins;
* `decodeLossy`: the text with U+FFFD for every such run.
-/

namespace Turnstile.Text.Utf8

/-- The bytes of a text. -/
def encode (text : String) : List UInt8 := text.toUTF8.toList

/-- A part of a byte sequence. -/
inductive Piece where
  /-- A character. -/
  | char (c : Char)
  /-- Bytes that the next byte does not continue. -/
  | bad (bytes : Nat)
  /-- Bytes that the end of the sequence cuts off. -/
  | cut (bytes : Nat)
  deriving DecidableEq, Repr

/-- A character of which some bytes have been read and at least one is owed. -/
structure Lead where
  seen : Nat
  owed : Nat
  low : UInt8
  high : UInt8
  code : Nat
  deriving DecidableEq, Repr

/-- The pieces so far, last first, and the character being read. -/
structure State where
  pieces : List Piece := []
  lead : Option Lead := none

/-- A byte that follows a whole piece. -/
def first (pieces : List Piece) (b : UInt8) : State :=
  if b ≤ 0x7f then ⟨.char (Char.ofNat b.toNat) :: pieces, none⟩
  else if 0xc2 ≤ b ∧ b ≤ 0xdf then ⟨pieces, some ⟨1, 1, 0x80, 0xbf, b.toNat % 32⟩⟩
  else if b = 0xe0 then ⟨pieces, some ⟨1, 2, 0xa0, 0xbf, 0⟩⟩
  else if b = 0xed then ⟨pieces, some ⟨1, 2, 0x80, 0x9f, 13⟩⟩
  else if 0xe1 ≤ b ∧ b ≤ 0xef then ⟨pieces, some ⟨1, 2, 0x80, 0xbf, b.toNat % 16⟩⟩
  else if b = 0xf0 then ⟨pieces, some ⟨1, 3, 0x90, 0xbf, 0⟩⟩
  else if 0xf1 ≤ b ∧ b ≤ 0xf3 then ⟨pieces, some ⟨1, 3, 0x80, 0xbf, b.toNat % 8⟩⟩
  else if b = 0xf4 then ⟨pieces, some ⟨1, 3, 0x80, 0x8f, 4⟩⟩
  else ⟨.bad 1 :: pieces, none⟩

/-- One byte. -/
def step (s : State) (b : UInt8) : State :=
  match s.lead with
  | none => first s.pieces b
  | some l =>
    if l.low ≤ b ∧ b ≤ l.high then
      if l.owed = 1 then ⟨.char (Char.ofNat (l.code * 64 + b.toNat % 64)) :: s.pieces, none⟩
      else ⟨s.pieces, some ⟨l.seen + 1, l.owed - 1, 0x80, 0xbf, l.code * 64 + b.toNat % 64⟩⟩
    else first (.bad l.seen :: s.pieces) b

/-- The pieces of a byte sequence. -/
def pieces (bytes : List UInt8) : List Piece :=
  let s := bytes.foldl step {}
  match s.lead with
  | none => s.pieces.reverse
  | some l => (.cut l.seen :: s.pieces).reverse

/-- Why bytes are no text, and the index of the first byte concerned. -/
inductive Fault where
  | invalid (bytes index : Nat)
  | incomplete (index : Nat)
  deriving DecidableEq, Repr

/-- The wording of a fault. -/
def Fault.message : Fault → String
  | .invalid n i => s!"invalid utf-8 sequence of {n} bytes from index {i}"
  | .incomplete i => s!"incomplete utf-8 byte sequence from index {i}"

/-- The first fault among pieces of which the first begins at an index. -/
def firstFault (index : Nat) : List Piece → Option Fault
  | [] => none
  | .char c :: rest => firstFault (index + c.utf8Size) rest
  | .bad n :: _ => some (.invalid n index)
  | .cut _ :: _ => some (.incomplete index)

/-- The character that stands for a piece when no fault is reported. -/
def Piece.shown : Piece → Char
  | .char c => c
  | .bad _ | .cut _ => '\ufffd'

/-- Bytes as text, with U+FFFD for every run that belongs to no character. -/
def decodeLossy (bytes : List UInt8) : List Char := (pieces bytes).map Piece.shown

/-- Bytes as text. -/
def decode (bytes : List UInt8) : Except Fault String :=
  match firstFault 0 (pieces bytes) with
  | none => .ok (String.ofList (decodeLossy bytes))
  | some fault => .error fault

end Turnstile.Text.Utf8
