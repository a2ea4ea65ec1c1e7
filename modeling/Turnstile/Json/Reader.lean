import Turnstile.Json.Token

/-!
# Reading JSON

The tree of a token sequence, by a second machine that takes one token at a time and keeps the
arrays and objects it is inside of on a stack (`Assembly.step`).  Nesting costs stack frames of the
machine, not of the program, so any depth can be read.

* `Json.ofTokens?`: the tree that tokens make up;
* `Json.parse`: the tree of a text.  Nothing may stand beside it but white space.
-/

namespace Turnstile.Json

namespace Assembly

/-- An array or object that is not closed yet, with its earlier parts, last first. -/
inductive Frame where
  | items (done : List Json)
  /-- The value of `name` is being read. -/
  | fields (done : List (Literal × Json)) (name : Literal)

/-- What is due. -/
inductive State where
  /-- A value. -/
  | value (outer : List Frame)
  /-- A first item, or the end of the array. -/
  | firstItem (outer : List Frame)
  /-- A first name, or the end of the object. -/
  | firstName (outer : List Frame)
  /-- A name, after a comma. -/
  | name (done : List (Literal × Json)) (outer : List Frame)
  /-- The colon after a name. -/
  | colon (done : List (Literal × Json)) (name : Literal) (outer : List Frame)
  /-- What follows a whole value: a comma, an end, or nothing at all. -/
  | whole (value : Json) (outer : List Frame)

/-- Where every text is read from. -/
def State.start : State := .value []

/-- A token where a value is due. -/
def value (outer : List Frame) : Token → Option State
  | .openArray => some (.firstItem outer)
  | .openObject => some (.firstName outer)
  | .text l => some (.whole (.text l) outer)
  | .scalar j => some (.whole j outer)
  | _ => none

/-- A token where a name is due. -/
def name (done : List (Literal × Json)) (outer : List Frame) : Token → Option State
  | .text l => some (.colon done l outer)
  | _ => none

/-- A token after a whole value. -/
def afterValue (j : Json) : List Frame → Token → Option State
  | .items done :: outer, .comma => some (.value (.items (j :: done) :: outer))
  | .items done :: outer, .closeArray => some (.whole (.array (j :: done).reverse) outer)
  | .fields done n :: outer, .comma => some (.name ((n, j) :: done) outer)
  | .fields done n :: outer, .closeObject => some (.whole (.object ((n, j) :: done).reverse) outer)
  | _, _ => none

/-- One token. -/
def step : State → Token → Option State
  | .value outer, t => value outer t
  | .firstItem outer, .closeArray => some (.whole (.array []) outer)
  | .firstItem outer, t => value (.items [] :: outer) t
  | .firstName outer, .closeObject => some (.whole (.object []) outer)
  | .firstName outer, t => name [] outer t
  | .name done outer, t => name done outer t
  | .colon done n outer, .colon => some (.value (.fields done n :: outer))
  | .colon .., _ => none
  | .whole j outer, t => afterValue j outer t

/-- The tokens of a text, one after another. -/
def run (s : State) (ts : List Token) : Option State := ts.foldlM step s

/-- The tree at the end, if one value is whole and nothing is open. -/
def finish : State → Option Json
  | .whole j [] => some j
  | _ => none

theorem run_append (s : State) (ts us : List Token) :
    run s (ts ++ us) = (run s ts).bind fun t => run t us := by
  simp only [run, List.foldlM_append]
  rfl

theorem run_cons (s : State) (t : Token) (ts : List Token) :
    run s (t :: ts) = (step s t).bind fun u => run u ts := by
  simp only [run, List.foldlM_cons]
  rfl

end Assembly

/-- The tree that tokens make up. -/
def ofTokens? (ts : List Token) : Option Json := (Assembly.run .start ts).bind Assembly.finish

/-- The tree of a text. -/
def parse (cs : List Char) : Option Json := (tokens? cs).bind ofTokens?

end Turnstile.Json
