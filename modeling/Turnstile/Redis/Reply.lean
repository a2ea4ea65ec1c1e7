import Turnstile.Store.Failure
import Turnstile.Text.Decimal
import Turnstile.Text.Split
import Turnstile.Text.Utf8

/-!
# Replies of a Redis server

What a server answers, and how it is read as a text, a number or a page of keys.  A server writes
numbers as it likes, as integers or as texts, so both are read; a reply that does not fit what was
asked for, or that is an error, is a refusal.
-/

namespace Turnstile.Redis

open Turnstile.Store Turnstile.Text Turnstile.Time

/-- A reply of a server. -/
inductive Reply where
  | simple (text : String)
  | bulk (bytes : List UInt8)
  | integer (n : Int64)
  | nil
  | error (line : String)
  | array (items : List Reply)
  deriving Repr

/-- What comes back for what was sent. -/
inductive Outcome where
  | reply (r : Reply)
  /-- Nothing, within the limit. -/
  | silence
  /-- The end of the connection. -/
  | closed
  deriving Repr

namespace Reply

/-! ## Errors -/

/-- The names of the errors that a server tells by a code of its own. -/
def errorNames : List (String × String) :=
  [("ERR", "ResponseError"), ("EXECABORT", "ExecAbortError"), ("LOADING", "BusyLoadingError"),
    ("NOSCRIPT", "NoScriptError"), ("MOVED", "Moved"), ("ASK", "Ask"), ("TRYAGAIN", "TryAgain"),
    ("CLUSTERDOWN", "ClusterDown"), ("CROSSSLOT", "CrossSlot"), ("MASTERDOWN", "MasterDown"),
    ("READONLY", "ReadOnly"), ("NOTBUSY", "NotBusy")]

/-- The wording of an error line: a code and, behind a blank, a detail. -/
def errorMessage (line : String) : String :=
  let r := Split.cut ' ' line.toList
  let code := String.ofList r.1
  let detail := r.2.map String.ofList
  match errorNames.lookup code, detail with
  | some errorName, some d => s!"An error was signalled by the server - {errorName}: {d}"
  | some errorName, none => s!"An error was signalled by the server- {errorName}"
  | none, some d => s!"{code}: {d}"
  | none, none => s!"{code}: Unknown extension error encountered"

/-! ## Reading -/

/-- A text, or an integer's digits. -/
def text? : Reply → Option String
  | simple t => some t
  | bulk bytes => (Utf8.decode bytes).toOption
  | integer n => some (String.ofList (Decimal.ofInt n.toInt))
  | _ => none

/-- A text, or that there is none. -/
def optionalText? : Reply → Option (Option String)
  | nil => some none
  | r => r.text?.map some

/-- A number with a sign. -/
def signed? : Reply → Option Int64
  | integer n => some n
  | simple t => Decimal.readInt64? t.toList
  | bulk bytes => (Utf8.decode bytes).toOption.bind fun t => Decimal.readInt64? t.toList
  | _ => none

/-- A number without a sign; of an integer, its word. -/
def unsigned? : Reply → Option UInt64
  | integer n => some n.toUInt64
  | simple t => (Decimal.readUInt64 t.toList).toOption
  | bulk bytes => (Utf8.decode bytes).toOption.bind fun t => (Decimal.readUInt64 t.toList).toOption
  | _ => none

/-- A list of texts. A lone text in the place of the list is refused here, where the driver takes it
for a list of one; no server answers `SCAN` so. -/
def texts? : Reply → Option (List String)
  | nil => some []
  | array items => items.mapM text?
  | _ => none

/-- A page of keys, and the cursor of the next one. -/
def page? : Reply → Option (UInt64 × List String)
  | array [cursor, keys] => do return (← cursor.unsigned?, ← keys.texts?)
  | _ => none

end Reply

/-- What a reply that was waited for comes to, read in the way that fits what was asked for. The
wordings for a reply of another kind and for the end of the connection stand for the driver's, which
name the reply or the operating system's error; only that of an error line is the driver's own. -/
def Outcome.read {α : Type} (limit : Span) (fits : Reply → Option α) : Outcome → Except Failure α
  | reply (.error line) => .error (.refused (Reply.errorMessage line))
  | reply r =>
    match fits r with
    | some a => .ok a
    | none => .error (.refused "the reply is not of the expected kind")
  | silence => .error (.timedOut limit)
  | closed => .error (.unavailable "the connection was closed")

end Turnstile.Redis
