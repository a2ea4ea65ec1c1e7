import Turnstile.Text.Percent
import Turnstile.Text.Split
import Turnstile.Text.Utf8

/-!
# Form-encoded pairs

A query as names and values: pairs stand between `&`, and the first `=` of a pair ends its name.  In
both, `+` is a space and percent escapes are bytes of UTF-8.  Any query can be read: broken escapes
stand for themselves, bytes that are no text become U+FFFD, and a pair without `=` has an empty value.
-/

namespace Turnstile.Http.Form

open Turnstile.Text

/-- The byte of a space for `+`, and other bytes for themselves. -/
def unplus (b : UInt8) : UInt8 := if b = 0x2b then 0x20 else b

/-- The text that a part of a query stands for. -/
def component (cs : List Char) : String :=
  String.ofList
    (Utf8.decodeLossy (Percent.decode ((Utf8.encode (String.ofList cs)).map unplus)))

/-- The name and the value of a pair. -/
def pair (cs : List Char) : String × String :=
  let r := Split.cut '=' cs
  (component r.1, component (r.2.getD []))

/-- The pairs of a query in their order; empty ones do not count. -/
def pairs (query : List Char) : List (String × String) :=
  ((Split.split '&' query).filter (!·.isEmpty)).map pair

end Turnstile.Http.Form
