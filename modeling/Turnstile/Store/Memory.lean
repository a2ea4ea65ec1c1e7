import Turnstile.Store.Command
import Turnstile.Store.Entries
import Turnstile.Text.Decimal

/-!
# The store in memory

One step of the store for each command, at a reading of the clock.  A key whose entry is over counts
as absent: writing it if absent succeeds, removing it answers that nothing was there, and adding to
it begins again at zero.  Counters are integers of 64 bits with a sign; a sum outside their range is
refused and changes nothing.
-/

namespace Turnstile.Store

open Turnstile.Time Turnstile.Text

/-- The exact sum of a counter and a change, if it is in the range of counters. -/
def Counter.add? (current : Int64) (delta : Int) : Option Int64 :=
  let sum := current.toInt + delta
  if -0x8000000000000000 ≤ sum ∧ sum < 0x8000000000000000 then some (Int64.ofInt sum) else none

/-- The text of a counter. -/
def Counter.text (n : Int64) : String := String.ofList (Decimal.ofInt n.toInt)

/-- The counter that a text holds. -/
def Counter.ofText? (s : String) : Option Int64 := Decimal.readInt64? s.toList

namespace Memory

def notAnInteger : Failure := .refused "ERR value is not an integer or out of range"

def sumOverflow : Failure := .refused "ERR increment or decrement would overflow"

def negationOverflow : Failure := .refused "ERR decrement would overflow"

/-- Adds to the counter under a key.  A key without one counts as zero and gets no end; otherwise the
end stays as it is. -/
def add (now : Instant) (key : String) (delta : Int) (m : Entries) :
    Except Failure Int64 × Entries :=
  let found : Except Failure (Int64 × Option Instant) :=
    match m.live? now key with
    | none => .ok (0, none)
    | some e =>
      match Counter.ofText? e.value with
      | some n => .ok (n, e.expiry)
      | none => .error notAnInteger
  match found with
  | .error failure => (.error failure, m)
  | .ok (current, expiry) =>
    match Counter.add? current delta with
    | some next => (.ok next, m.put key ⟨Counter.text next, expiry⟩)
    | none => (.error sumOverflow, m)

/-- One command at a reading of the clock. -/
def step (now : Instant) : (c : Command) → Entries → c.Reply × Entries
  | .setIfAbsent key value lifetime, m =>
    match m.live? now key with
    | some _ => (.ok false, m)
    | none => (.ok true, m.put key ⟨value, some (now.after lifetime)⟩)
  | .get key, m => (.ok ((m.live? now key).map Entry.value), m)
  | .set key value lifetime, m => (.ok (), m.put key ⟨value, lifetime.map now.after⟩)
  | .incrBy key delta, m => add now key delta.toInt m
  | .decrBy key delta, m =>
    if delta = Int64.minValue then (.error negationOverflow, m) else add now key (-delta.toInt) m
  | .delete key, m => (.ok (m.live? now key).isSome, m.erase key)
  | .deleteByPrefix stem, m => (.ok (m.countWith now stem), m.eraseWhere (beginsWith stem))
  | .ping, m => (.ok (), m)

/-! ## Looking in -/

/-- Plants a text without an end. -/
def plant (key value : String) (m : Entries) : Entries := m.put key ⟨value, none⟩

/-- The key holds an entry that counts. -/
def contains (now : Instant) (key : String) (m : Entries) : Bool := (m.live? now key).isSome

/-- The time that an entry has left; nothing if it is absent or has no end. -/
def remaining? (now : Instant) (key : String) (m : Entries) : Option Span :=
  (m.live? now key).bind fun e => e.expiry.map now.spanTo

/-- The number of entries that count. -/
def size (now : Instant) (m : Entries) : Nat := (m.liveList now).length

/-- The keys whose entries count, in order. -/
def keys (now : Instant) (m : Entries) : List String := (m.sorted now).map Prod.fst

/-- The keys, texts and remaining times of the entries that count, in the order of the keys. -/
def listing (now : Instant) (m : Entries) : List (String × String × Option Span) :=
  (m.sorted now).map fun p => (p.1, p.2.value, p.2.expiry.map now.spanTo)

/-- How the store shows itself in a log. -/
def summary (now : Instant) (m : Entries) : String :=
  let count := size now m
  s!"InMemoryKeyValueStore \x7b entries: {count}, .. \x7d"

end Memory

end Turnstile.Store
