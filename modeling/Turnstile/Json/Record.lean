import Turnstile.Json.Printer
import Turnstile.Json.Reader

/-!
# Typed values as JSON

`ToJson` writes a value as a tree, if it has one; `OfJson` reads a tree, if it is one of the type's.

A record is read from an object or from an array (`slots?`).  In an object its fields stand in any
order among any others, each at most once; in an array exactly its fields stand in their order.  A
slot is empty where an object leaves the field out, and it is for the field to say whether it may.  A
type of records need only list its fields (`record?`, `Fields`).
-/

namespace Turnstile.Json

open Turnstile.Text

/-- Values that can be written as JSON. -/
class ToJson (α : Type) where
  toJson? : α → Option Json

/-- Values that can be read from JSON. -/
class OfJson (α : Type) where
  ofJson? : Json → Option α

export ToJson (toJson?)
export OfJson (ofJson?)

/-! ## Records -/

/-- The value of a name, if it is there; nothing at all if it is there twice. -/
def slot? (fields : List (String × Json)) (name : String) : Option (Option Json) :=
  match fields.filter (·.1 = name) with
  | [] => some none
  | [f] => some (some f.2)
  | _ => none

/-- The fields with their names as texts. -/
def named? (fields : List (Literal × Json)) : Option (List (String × Json)) :=
  fields.mapM fun f => f.1.text?.map fun n => (n, f.2)

/-- What a tree holds for each of a record's names. -/
def slots? (names : List String) : Json → Option (List (Option Json))
  | .object fields => do
    let fields ← named? fields
    names.mapM (slot? fields)
  | .array items => if items.length = names.length then some (items.map some) else none
  | _ => none

/-! ## Plain values -/

/-- The value of a lexeme that is a natural number's: digits only. -/
def natural? (bound : Nat) (lexeme : List Char) : Option Nat :=
  (Decimal.readBelow bound lexeme).toOption

instance : ToJson UInt64 := ⟨fun n => some (ofNat n.toNat)⟩

instance : OfJson UInt64 where
  ofJson?
    | .number lexeme => (natural? UInt64.size lexeme).map UInt64.ofNat
    | _ => none

instance : ToJson Int64 := ⟨fun n => some (ofInt n.toInt)⟩

instance : ToJson String := ⟨fun s => some (ofText s)⟩

instance : OfJson String where
  ofJson?
    | .text l => l.text?
    | _ => none

instance : ToJson Bool := ⟨fun b => some (.bool b)⟩

instance : OfJson Bool where
  ofJson?
    | .bool b => some b
    | _ => none

instance {α : Type} [ToJson α] : ToJson (Option α) where
  toJson?
    | none => some .null
    | some x => toJson? x

instance {α : Type} [OfJson α] : OfJson (Option α) where
  ofJson?
    | .null => some none
    | j => (ofJson? j).map some

instance {α : Type} [ToJson α] : ToJson (List α) := ⟨fun xs => (xs.mapM toJson?).map .array⟩

instance {α : Type} [OfJson α] : OfJson (List α) where
  ofJson?
    | .array items => items.mapM ofJson?
    | _ => none

@[simp] theorem ofJson?_uint64 (n : UInt64) : ofJson? (ofNat n.toNat) = some n := by
  simp [ofJson?, ofNat, natural?, Decimal.readBelow_digits n.toNat_lt_size, Except.toOption]

/-! ## Types of records -/

/-- A record of values that can all be written. -/
def record? (fields : List (String × Option Json)) : Option Json := do
  return record (← fields.mapM fun f => return (f.1, ← f.2))

/-- How records are read, the tuples of whose values are `τ`: the names of the fields in order, and
what is made of what a tree holds for them. -/
structure Fields (τ : Type) where
  names : List String
  read? : List (Option Json) → Option τ

namespace Fields

variable {α β τ : Type} [OfJson β]

/-- No fields. -/
def done : Fields Unit where
  names := []
  read? slots := if slots.isEmpty then some () else none

/-- One field more, in front of the others, which must be there. -/
def required (name : String) (rest : Fields τ) : Fields (β × τ) where
  names := name :: rest.names
  read?
    | some j :: slots => do return (← ofJson? j, ← rest.read? slots)
    | _ => none

/-- One field more, in front of the others, which an object may leave out where `null` would do. -/
def optional (name : String) (rest : Fields τ) : Fields (β × τ) where
  names := name :: rest.names
  read?
    | slot :: slots => do return (← ofJson? (slot.getD .null), ← rest.read? slots)
    | [] => none

/-- The record that a tree is. -/
def ofTree? (fields : Fields τ) (make : τ → α) (j : Json) : Option α :=
  ((slots? fields.names j).bind fields.read?).map make

end Fields

end Turnstile.Json
