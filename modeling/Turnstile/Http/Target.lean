import Turnstile.Text.Split
import Turnstile.Text.Stem

/-!
# Request targets

What a request line names: a path and perhaps a query.  A target may be a path, an asterisk, a whole
address with a scheme, or an authority alone; scheme, authority and fragment are checked and then
dropped.  The path is kept as it was sent, with its escapes.
-/

namespace Turnstile.Http

open Turnstile.Text

/-- What a request names. -/
structure Target where
  path : String
  query : Option String
  deriving DecidableEq, Repr

namespace Target

/-- The code of the character is in one of the ranges. -/
def inRanges (ranges : List (Nat × Nat)) (c : Char) : Bool :=
  ranges.any fun r => r.1 ≤ c.toNat && c.toNat ≤ r.2

/-- Characters of a path. -/
def isPathChar (c : Char) : Bool :=
  inRanges [(0x21, 0x22), (0x24, 0x3b), (0x3d, 0x3d), (0x40, 0x5f), (0x61, 0x7e),
    (0x80, 0x10ffff)] c

/-- Characters of a query. -/
def isQueryChar (c : Char) : Bool :=
  inRanges [(0x21, 0x21), (0x24, 0x3b), (0x3d, 0x3d), (0x3f, 0x7e), (0x80, 0x10ffff)] c

/-- Characters of a scheme. -/
def isSchemeChar (c : Char) : Bool := c.isAlphanum || c = '+' || c = '-' || c = '.' || c = '~'

/-- Characters of an authority; `%` has a rule of its own. -/
def isAuthorityChar (c : Char) : Bool :=
  inRanges [(0x21, 0x21), (0x24, 0x24), (0x26, 0x2e), (0x30, 0x3b), (0x3d, 0x3d), (0x40, 0x5b),
    (0x5d, 0x5d), (0x5f, 0x5f), (0x61, 0x7a), (0x7e, 0x7e)] c

/-- The character ends an authority. -/
def endsAuthority (c : Char) : Bool := c = '/' || c = '?' || c = '#'

/-! ## Path and query -/

/-- A path and a query, up to the fragment. -/
def pathAndQuery? (cs : List Char) : Option Target :=
  match Split.cut '?' (Split.cut '#' cs).1 with
  | (path, query) =>
    if path.all isPathChar && query.all (·.all isQueryChar) then
      some ⟨String.ofList (if path.isEmpty then ['/'] else path), query.map String.ofList⟩
    else none

/-! ## Authority -/

/-- How far an authority has been read: the colons since the last mark that makes them part of a
user's or a host's name, the brackets, whether a `%` waits for such a mark, and whether the last
character was an at sign. -/
structure Authority where
  colons : Nat := 0
  opened : Bool := false
  closed : Bool := false
  escaped : Bool := false
  bare : Bool := false
  deriving DecidableEq, Repr

namespace Authority

/-- One character of an authority. -/
def step (a : Authority) (c : Char) : Option Authority :=
  let a := { a with bare := false }
  if c = ':' then if 8 ≤ a.colons then none else some { a with colons := a.colons + 1 }
  else if c = '[' then if a.escaped || a.opened then none else some { a with opened := true }
  else if c = ']' then
    if !a.opened || a.closed then none
    else some { a with closed := true, colons := 0, escaped := false }
  else if c = '@' then some { a with colons := 0, escaped := false, bare := true }
  else if c = '%' then some { a with escaped := true }
  else if isAuthorityChar c then some a
  else none

/-- The authority may end here. -/
def isWhole (a : Authority) : Bool :=
  a.opened = a.closed && a.colons ≤ 1 && !a.bare && !a.escaped

/-- The text is an authority. -/
def accepts (cs : List Char) : Bool :=
  match cs.foldlM step {} with
  | some a => a.isWhole
  | none => false

end Authority

/-! ## Scheme -/

/-- The text after a scheme and its `://`; nothing if there is no scheme, and a fault if the scheme
is too long. -/
def afterScheme (cs : List Char) : Except Unit (Option (List Char)) :=
  match cs.dropWhile isSchemeChar with
  | ':' :: '/' :: '/' :: rest =>
    if (cs.takeWhile isSchemeChar).length ≤ 64 then .ok (some rest) else .error ()
  | _ => .ok none

/-- A text that does not begin with a slash: a whole address, or an authority alone, which names no
path. -/
def wholeOrAuthority? (cs : List Char) : Option Target :=
  match afterScheme cs with
  | .error () => none
  | .ok none => if Authority.accepts cs then some ⟨"", none⟩ else none
  | .ok (some rest) =>
    let authority := rest.takeWhile (!endsAuthority ·)
    if authority.isEmpty then none
    else if Authority.accepts authority then pathAndQuery? (rest.dropWhile (!endsAuthority ·))
    else none

/-- The greatest number of bytes of a target. -/
def maxBytes : Nat := 65534

/-- The target that a text is. -/
def parse? (s : String) : Option Target :=
  if maxBytes < s.utf8ByteSize then none
  else
    match s.toList with
    | [] => none
    | ['*'] => some ⟨"*", none⟩
    | '/' :: cs => pathAndQuery? ('/' :: cs)
    | cs => wholeOrAuthority? cs

end Target

end Turnstile.Http
