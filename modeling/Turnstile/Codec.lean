import Turnstile.Json.Record

/-!
# Codecs

How values are kept as texts in the shared store: `Codec.json` keeps them as compact JSON,
`Codec.raw` keeps a text as it is.
-/

namespace Turnstile

open Turnstile.Json

namespace Codec

/-- Why a value has no text, or a text no value. -/
inductive Failure where
  | encoding (detail : String)
  | decoding (detail : String)
  deriving DecidableEq, Repr

/-- The wording of a failure. -/
def Failure.message : Failure → String
  | .encoding detail => s!"Serialization error: {detail}"
  | .decoding detail => s!"Deserialization error: {detail}"

end Codec

/-- A way to keep values as texts. -/
structure Codec (α : Type) where
  encode : α → Except Codec.Failure String
  decode : String → Except Codec.Failure α

namespace Codec

/-- Compact JSON. -/
def json (α : Type) [ToJson α] [OfJson α] : Codec α where
  encode x :=
    match toJson? x with
    | some j => .ok j.compact
    | none => .error (.encoding "key must be a string")
  decode text :=
    match (parse text.toList).bind ofJson? with
    | some x => .ok x
    | none => .error (.decoding "no value of the expected shape")

/-- The text itself. -/
def raw : Codec String := ⟨.ok, .ok⟩

end Codec

end Turnstile
