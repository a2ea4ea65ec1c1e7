import Turnstile.Text.Decimal
import Turnstile.Text.Hex
import Turnstile.Text.Split

/-!
# Network addresses

Addresses of clients, read and written as text.  An address of version 4 is four numbers with points
between them; one of version 6 is eight groups of hexadecimal digits with colons between them, where
two colons may stand for a run of zero groups and the last two groups may be written as an address of
version 4.

Reading is generous and writing is not: `ofText?` takes either case, leading zeros in groups and any
run of zeros left out; `text` writes lower case and leaves out the first longest run of at least two,
so every address has one written form.
-/

namespace Turnstile.Http

open Turnstile.Text

/-- A network address. -/
inductive Address where
  /-- Version 4: four bytes. -/
  | v4 (a b c d : UInt8)
  /-- Version 6: eight groups. -/
  | v6 (groups : Vector UInt16 8)
  deriving DecidableEq, Repr

namespace Address

/-- The machine itself. -/
def localhost : Address := .v4 127 0 0 1

/-! ## Writing -/

/-- Four numbers with points between them. -/
def dotted (a b c d : UInt8) : List Char :=
  Split.join '.' ([a, b, c, d].map fun n => Decimal.digits n.toNat)

/-- A group without leading zeros. -/
def group (g : UInt16) : List Char := Nat.toDigits 16 g.toNat

/-- Groups with colons between them. -/
def joined (groups : List UInt16) : List Char := Split.join ':' (groups.map group)

/-- Where the first longest run of zeros begins, and how long it is. -/
def longestRun : List UInt16 → Nat × Nat
  | [] => (0, 0)
  | g :: gs =>
    let here := ((g :: gs).takeWhile (· = 0)).length
    let later := longestRun gs
    if later.2 ≤ here then (0, here) else (later.1 + 1, later.2)

/-- Eight groups, the first longest run of at least two zeros left out. -/
def compressed (groups : List UInt16) : List Char :=
  let run := longestRun groups
  if 2 ≤ run.2 then
    joined (groups.take run.1) ++ [':', ':'] ++ joined (groups.drop (run.1 + run.2))
  else joined groups

/-- The high byte of a group. -/
def highByte (g : UInt16) : UInt8 := UInt8.ofNat (g.toNat / 256)

/-- The low byte of a group. -/
def lowByte (g : UInt16) : UInt8 := UInt8.ofNat (g.toNat % 256)

/-- The written form of an address.  An address of version 4 in the clothes of version 6 keeps its
points. -/
def chars : Address → List Char
  | .v4 a b c d => dotted a b c d
  | .v6 groups =>
    match groups.toList with
    | [0, 0, 0, 0, 0, 0xffff, g, h] =>
      "::ffff:".toList ++ dotted (highByte g) (lowByte g) (highByte h) (lowByte h)
    | gs => compressed gs

/-- The written form of an address. -/
def text (a : Address) : String := String.ofList a.chars

/-! ## Reading -/

/-- At most three digits of a number below 256, without a leading zero. -/
def byte? (cs : List Char) : Option UInt8 :=
  match cs with
  | '0' :: _ :: _ => none
  | _ => if cs.length ≤ 3 then (Decimal.readBelow 256 cs).toOption.map UInt8.ofNat else none

/-- Four numbers with points between them. -/
def dotted? (cs : List Char) : Option (UInt8 × UInt8 × UInt8 × UInt8) :=
  match (Split.split '.' cs).mapM byte? with
  | some [a, b, c, d] => some (a, b, c, d)
  | _ => none

/-- One to four hexadecimal digits of either case. -/
def group? (cs : List Char) : Option UInt16 :=
  if 1 ≤ cs.length ∧ cs.length ≤ 4 then
    (cs.mapM Hex.value?).map fun digits =>
      UInt16.ofNat (digits.foldl (fun n d => 16 * n + d) 0)
  else none

/-- The group of two bytes. -/
def groupOf (high low : UInt8) : UInt16 := UInt16.ofNat (256 * high.toNat + low.toNat)

/-- The groups of pieces; the last piece may be an address of version 4 and count for two. -/
def groups? : List (List Char) → Option (List UInt16)
  | [] => some []
  | [piece] =>
    match dotted? piece with
    | some (a, b, c, d) => some [groupOf a b, groupOf c d]
    | none => (group? piece).map fun g => [g]
  | piece :: pieces => do return (← group? piece) :: (← groups? pieces)

/-- Groups before the gap, where no address of version 4 may stand. -/
def plainGroups? (cs : List Char) : Option (List UInt16) :=
  if cs.isEmpty then some [] else (Split.split ':' cs).mapM group?

/-- Groups at the end of an address. -/
def lastGroups? (cs : List Char) : Option (List UInt16) :=
  if cs.isEmpty then some [] else groups? (Split.split ':' cs)

/-- The text before the first two colons in a row, and the text after them if they are there. -/
def cutGap : List Char → List Char × Option (List Char)
  | [] => ([], none)
  | ':' :: ':' :: rest => ([], some rest)
  | c :: cs =>
    let r := cutGap cs
    (c :: r.1, r.2)

/-- The address of eight groups. -/
def ofGroups? (groups : List UInt16) : Option Address :=
  if h : groups.toArray.size = 8 then some (.v6 ⟨groups.toArray, h⟩) else none

/-- The address of version 6 that a text is.  A gap stands for at least one group. -/
def v6? (cs : List Char) : Option Address :=
  match cutGap cs with
  | (before, none) => (lastGroups? before).bind ofGroups?
  | (before, some after) => do
    let head ← plainGroups? before
    let tail ← lastGroups? after
    if head.length + tail.length < 8 then
      ofGroups? (head ++ List.replicate (8 - (head.length + tail.length)) 0 ++ tail)
    else none

/-- The address that a text is. -/
def ofChars? (cs : List Char) : Option Address :=
  match dotted? cs with
  | some (a, b, c, d) => some (.v4 a b c d)
  | none => v6? cs

/-- The address that a text is. -/
def ofText? (s : String) : Option Address := ofChars? s.toList

/-! ## Peers -/

/-- The text is the number of an endpoint. -/
def isEndpoint (cs : List Char) : Bool := (Decimal.readBelow UInt16.size cs).toOption.isSome

/-- The text is a scope number. -/
def isScope (cs : List Char) : Bool := (Decimal.readBelow UInt32.size cs).toOption.isSome

/-- The address at the other end of a connection, of which the text also has the endpoint: behind
a colon, and after brackets round an address of version 6 with its scope. -/
def ofPeer? (s : String) : Option Address :=
  match s.toList with
  | '[' :: cs =>
    match Split.cut ']' cs with
    | (inside, some (':' :: endpoint)) =>
      let (address, scope) := Split.cut '%' inside
      if isEndpoint endpoint && scope.all isScope then v6? address else none
    | _ => none
  | cs =>
    match Split.cut ':' cs with
    | (address, some endpoint) =>
      if isEndpoint endpoint then (dotted? address).map fun (a, b, c, d) => .v4 a b c d else none
    | _ => none

end Address

end Turnstile.Http
