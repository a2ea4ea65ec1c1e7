import Turnstile.Text.Utf8

/-!
# Headers

Names with bytes.  Of several headers with one name the first counts, and the case of a name makes no
difference.  A value is text only if all its bytes are visible ASCII, spaces or tabs; a value with any
other byte may be sent but cannot be read.
-/

namespace Turnstile.Http

open Turnstile.Text

/-- A header of a request. -/
structure Header where
  name : String
  value : List UInt8
  deriving DecidableEq, Repr

/-- The character may stand in a header's name or a method. -/
def isTokenChar (c : Char) : Bool := c.isAlphanum || "!#$%&'*+-.^_`|~".toList.contains c

/-- The text is a method or the name of a header. -/
def isToken (s : String) : Bool := !s.isEmpty && s.toList.all isTokenChar

namespace Header

/-- The greatest number of characters of a name. -/
def maxNameLength : Nat := 65535

/-- The byte may stand in a value. -/
def isValueByte (b : UInt8) : Bool := b = 0x09 || (0x20 ≤ b && b ≠ 0x7f)

/-- The header may be sent. -/
def isValid (h : Header) : Bool :=
  isToken h.name && h.name.length ≤ maxNameLength && h.value.all isValueByte

/-- The byte is visible ASCII, a space or a tab. -/
def isReadable (b : UInt8) : Bool := b = 0x09 || (0x20 ≤ b && b ≤ 0x7e)

/-- Bytes as text, if all of them can be read. -/
def text? (value : List UInt8) : Option (List Char) :=
  if value.all isReadable then some (value.map fun b => Char.ofNat b.toNat) else none

/-- A name in lower case. -/
def lower (name : String) : List Char := name.toList.map Char.toLower

/-- The value of the first header of a name. -/
def first? (headers : List Header) (name : String) : Option (List UInt8) :=
  (headers.find? fun h => lower h.name = lower name).map Header.value

/-- The text of the first header of a name, if it is there and can be read. -/
def read? (headers : List Header) (name : String) : Option (List Char) :=
  (first? headers name).bind text?

end Header

end Turnstile.Http
