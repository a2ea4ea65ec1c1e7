import Turnstile.Http.Address

/-!
# Addresses of Redis servers

The address of a server is a scheme and a colon, and behind two slashes a user before the last `@`,
the host, the endpoint behind a colon, and the path.  Control characters and blanks do not count at
the ends of an address, tabs and line breaks nowhere.

`Url.ofText?` reads an address, and `Url.fault?` says what keeps a client from using it; `Url.check`
is both.  What stands behind the host and the endpoint is never unreadable: a path ends at the first
`?` or `#`, and the rest says nothing.
-/

namespace Turnstile.Redis

open Turnstile.Http Turnstile.Text

/-- How a server is reached. -/
inductive Scheme where
  | tcp
  | tls
  | socket
  deriving DecidableEq, Repr

/-- The scheme of a name in lower case. -/
def Scheme.ofName? : List Char → Option Scheme
  | ['r', 'e', 'd', 'i', 's'] => some .tcp
  | ['r', 'e', 'd', 'i', 's', 's'] => some .tls
  | ['u', 'n', 'i', 'x'] => some .socket
  | ['r', 'e', 'd', 'i', 's', '+', 'u', 'n', 'i', 'x'] => some .socket
  | _ => none

/-- The parts of an address that a client looks at.  An address without a host has the empty one. -/
structure Url where
  scheme : Scheme
  host : List Char
  path : List Char
  deriving DecidableEq, Repr

/-- Why a client cannot use an address. -/
inductive UrlFault where
  | malformed
  | hostMissing
  | encryptionMissing
  | databaseInvalid
  deriving DecidableEq, Repr

/-- The wording of a fault. -/
def UrlFault.message : UrlFault → String
  | .malformed => "Redis URL did not parse- InvalidClientConfig"
  | .hostMissing => "Missing hostname- InvalidClientConfig"
  | .encryptionMissing => "can't connect with TLS, the feature is not enabled- InvalidClientConfig"
  | .databaseInvalid => "Invalid database number- InvalidClientConfig"

namespace Url

/-! ## Cutting an address into parts -/

/-- The character does not count at the ends of an address. -/
def isEdge (c : Char) : Bool := decide (c.toNat ≤ 0x20)

/-- The character counts nowhere in an address. -/
def isBreak (c : Char) : Bool := c = '\t' || c = '\n' || c = '\r'

/-- The characters of an address that count. -/
def clean (cs : List Char) : List Char :=
  ((cs.dropWhile isEdge).reverse.dropWhile isEdge).reverse.filter fun c => !isBreak c

/-- The scheme of an address, and what follows its colon.  The case of the name does not matter. -/
def cutScheme? (cs : List Char) : Option (Scheme × List Char) :=
  match Split.cut ':' cs with
  | (name, some rest) => (Scheme.ofName? (name.map Char.toLower)).map fun s => (s, rest)
  | (_, none) => none

/-- The character ends the part of an address that names the server. -/
def endsPlace (c : Char) : Bool := c = '/' || c = '?' || c = '#'

/-- The character ends a path. -/
def endsPath (c : Char) : Bool := c = '?' || c = '#'

/-- The user before the last `@`, if there is one, and what follows it. -/
def cutUser (cs : List Char) : Option (List Char) × List Char :=
  match Split.cut '@' cs.reverse with
  | (place, some user) => (some user.reverse, place.reverse)
  | (_, none) => (none, cs)

/-- The host before the first colon that is not in brackets, and what follows the colon. -/
def cutHost (bracketed : Bool) : List Char → List Char × Option (List Char)
  | [] => ([], none)
  | c :: cs =>
    if c = ':' && !bracketed then ([], some cs)
    else
      let r := cutHost (c = '[' || bracketed && c ≠ ']') cs
      (c :: r.1, r.2)

/-! ## Reading an address -/

/-- The characters that no name of a host holds. -/
def forbidden : List Char :=
  ['\x00', '\t', '\n', '\r', ' ', '#', '/', ':', '<', '>', '?', '@', '[', '\\', ']', '^', '|']

/-- The text is a host: an address of version 6 in brackets, or a name, which may be empty. -/
def isHost : List Char → Bool
  | '[' :: cs => cs.getLast? = some ']' && (Address.v6? cs.dropLast).isSome
  | cs => cs.all fun c => !forbidden.contains c

/-- The text is the number of an endpoint, or nothing. -/
def isEndpoint (cs : List Char) : Bool := cs.isEmpty || Address.isEndpoint cs

/-- The user has a name or a password. -/
def isNamed (user : List Char) : Bool := user ≠ [] && user ≠ [':']

/-- The host and the path of the text behind the two slashes.  The host may be empty, but not with a
named user before it or a colon behind it, nor between a lone `@` and more text. -/
def hostAndPath? (cs : List Char) : Option (List Char × List Char) :=
  let rest := cs.dropWhile fun c => !endsPlace c
  let (user, place) := cutUser (cs.takeWhile fun c => !endsPlace c)
  let (host, behind) := cutHost false place
  let endpoint := (behind.getD []).takeWhile (· ≠ '\\')
  let path := (behind.getD []).dropWhile (· ≠ '\\') ++ rest.takeWhile fun c => !endsPath c
  if !isHost host || !isEndpoint endpoint then none
  else if host.isEmpty && (behind.isSome || user.any isNamed || user = some [] && !rest.isEmpty) then
    none
  else some (host, path)

/-- The address that a text is.  Without the two slashes it has no host. -/
def ofText? (s : String) : Option Url := do
  let (scheme, rest) ← cutScheme? (clean s.toList)
  match rest with
  | '/' :: '/' :: cs =>
    let (host, path) ← hostAndPath? cs
    return ⟨scheme, host, path⟩
  | path => return ⟨scheme, [], path.takeWhile fun c => !endsPath c⟩

/-! ## Using an address -/

/-- The text without slashes at its front. -/
def dropSlashes (cs : List Char) : List Char := cs.dropWhile (· = '/')

/-- The name of a database that an address has: its path without slashes at the ends. -/
def database (url : Url) : List Char := (dropSlashes (dropSlashes url.path).reverse).reverse

/-- What keeps a client from using an address.  A socket is a file and needs neither host nor
database; elsewhere a host is needed, a secured line is not to be had, and a database is a number. -/
def fault? (url : Url) : Option UrlFault :=
  if url.scheme = .socket then none
  else if url.host.isEmpty then some .hostMissing
  else if url.scheme = .tls then some .encryptionMissing
  else if url.database.isEmpty || (Decimal.readInt64? url.database).isSome then none
  else some .databaseInvalid

/-- The address that a text is, if a client can use it. -/
def check (s : String) : Except UrlFault Url :=
  match ofText? s with
  | none => .error .malformed
  | some url =>
    match url.fault? with
    | none => .ok url
    | some fault => .error fault

end Url

end Turnstile.Redis
