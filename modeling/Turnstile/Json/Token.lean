import Turnstile.Json.Tree
import Turnstile.Text.Hex

/-!
# JSON tokens

The lexer is a machine that takes one character at a time: `Lexer.step` leaves the tokens that are
complete and the token being read.  A number ends where the next character cannot continue it, so a
character may both end one token and be another.  White space leaves no trace, and the machine never
looks back; hence the tokens of a text followed by another are found by going on from where the first
one stopped (`run_append`).
-/

namespace Turnstile.Json

open Turnstile.Text

/-- The smallest meaningful parts of a JSON text. -/
inductive Token where
  | openArray
  | closeArray
  | openObject
  | closeObject
  | comma
  | colon
  | text (literal : Literal)
  /-- A number, `true`, `false` or `null`. -/
  | scalar (value : Json)

/-- How far a number has been read. -/
inductive Phase where
  | sign
  | zero
  | whole
  | point
  | fraction
  | mark
  | markSign
  | exponent
  deriving DecidableEq, Repr

namespace Phase

/-- The phase after one more character, if the number goes on with it. -/
def next? (p : Phase) (c : Char) : Option Phase :=
  match p with
  | sign => if c = '0' then some zero else if c.isDigit then some whole else none
  | zero => if c = '.' then some point else if c = 'e' ∨ c = 'E' then some mark else none
  | whole =>
    if c.isDigit then some whole
    else if c = '.' then some point
    else if c = 'e' ∨ c = 'E' then some mark
    else none
  | point => if c.isDigit then some fraction else none
  | fraction =>
    if c.isDigit then some fraction else if c = 'e' ∨ c = 'E' then some mark else none
  | mark => if c.isDigit then some exponent else if c = '+' ∨ c = '-' then some markSign else none
  | markSign | exponent => if c.isDigit then some exponent else none

/-- The number may end here. -/
def mayEnd : Phase → Bool
  | zero | whole | fraction | exponent => true
  | sign | point | mark | markSign => false

end Phase

namespace Lexer

/-- The token being read. -/
inductive Mode where
  | between
  /-- Inside a word, before the letters `rest`. -/
  | word (rest : List Char) (value : Json)
  /-- Inside a number; its characters, last first. -/
  | number (phase : Phase) (lexeme : List Char)
  /-- Inside a string; its units, last first. -/
  | text (glyphs : Literal)
  /-- After a backslash. -/
  | escape (glyphs : Literal)
  /-- Before the last `owed` digits of a code of which the first are worth `value`. -/
  | code (glyphs : Literal) (owed value : Nat)

/-- The tokens so far, last first, and the one being read. -/
structure State where
  tokens : List Token
  mode : Mode

/-- Where every text is read from. -/
def State.start : State := ⟨[], .between⟩

/-- A character that no earlier token needs. -/
def between (tokens : List Token) (c : Char) : Option State :=
  match c with
  | ' ' | '\t' | '\n' | '\r' => some ⟨tokens, .between⟩
  | '[' => some ⟨.openArray :: tokens, .between⟩
  | ']' => some ⟨.closeArray :: tokens, .between⟩
  | '\x7b' => some ⟨.openObject :: tokens, .between⟩
  | '\x7d' => some ⟨.closeObject :: tokens, .between⟩
  | ',' => some ⟨.comma :: tokens, .between⟩
  | ':' => some ⟨.colon :: tokens, .between⟩
  | '"' => some ⟨tokens, .text []⟩
  | 'n' => some ⟨tokens, .word ['u', 'l', 'l'] .null⟩
  | 't' => some ⟨tokens, .word ['r', 'u', 'e'] (.bool true)⟩
  | 'f' => some ⟨tokens, .word ['a', 'l', 's', 'e'] (.bool false)⟩
  | '-' => some ⟨tokens, .number .sign ['-']⟩
  | c => (Phase.sign.next? c).map fun p => ⟨tokens, .number p [c]⟩

/-- The character that a backslash and a letter stand for. -/
def escaped? : Char → Option Char
  | '"' => some '"'
  | '\\' => some '\\'
  | '/' => some '/'
  | 'b' => some '\x08'
  | 'f' => some '\x0c'
  | 'n' => some '\n'
  | 'r' => some '\r'
  | 't' => some '\t'
  | _ => none

/-- One character. -/
def step (s : State) (c : Char) : Option State :=
  match s.mode with
  | .between => between s.tokens c
  | .word [] _ => none
  | .word (x :: rest) value =>
    if c = x then
      if rest.isEmpty then some ⟨.scalar value :: s.tokens, .between⟩
      else some ⟨s.tokens, .word rest value⟩
    else none
  | .number phase lexeme =>
    match phase.next? c with
    | some phase => some ⟨s.tokens, .number phase (c :: lexeme)⟩
    | none =>
      if phase.mayEnd then between (.scalar (.number lexeme.reverse) :: s.tokens) c else none
  | .text glyphs =>
    if c = '"' then some ⟨.text glyphs.reverse :: s.tokens, .between⟩
    else if c = '\\' then some ⟨s.tokens, .escape glyphs⟩
    else if c.toNat < 0x20 then none
    else some ⟨s.tokens, .text (.char c :: glyphs)⟩
  | .escape glyphs =>
    if c = 'u' then some ⟨s.tokens, .code glyphs 4 0⟩
    else (escaped? c).map fun x => ⟨s.tokens, .text (.char x :: glyphs)⟩
  | .code glyphs owed value =>
    (Hex.value? c).map fun d =>
      if owed = 1 then ⟨s.tokens, .text (.code (UInt16.ofNat (16 * value + d)) :: glyphs)⟩
      else ⟨s.tokens, .code glyphs (owed - 1) (16 * value + d)⟩

/-- The characters of a text, one after another. -/
def run (s : State) (cs : List Char) : Option State := cs.foldlM step s

/-- The tokens at the end of the text, unless it breaks off inside one. -/
def finish (s : State) : Option (List Token) :=
  match s.mode with
  | .between => some s.tokens.reverse
  | .number phase lexeme =>
    if phase.mayEnd then some (.scalar (.number lexeme.reverse) :: s.tokens).reverse else none
  | _ => none

theorem run_append (s : State) (cs ds : List Char) :
    run s (cs ++ ds) = (run s cs).bind fun t => run t ds := by
  simp only [run, List.foldlM_append]
  rfl

@[simp] theorem run_nil (s : State) : run s [] = some s := rfl

theorem run_cons (s : State) (c : Char) (cs : List Char) :
    run s (c :: cs) = (step s c).bind fun t => run t cs := by
  simp only [run, List.foldlM_cons]
  rfl

end Lexer

/-- The tokens of a text. -/
def tokens? (cs : List Char) : Option (List Token) := (Lexer.run .start cs).bind Lexer.finish

end Turnstile.Json
