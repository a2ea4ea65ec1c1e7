import Turnstile.Time.Instant
import Turnstile.Text.Stem

/-!
# Store entries

What a store in memory holds: at most one entry for each key, a text with an instant from which on it
no longer counts.  Entries that are over stay until they are overwritten or removed, so every reader
looks at the clock (`live?`).

The view of `Entries` is `find?`; `find?_put`, `find?_erase` and `find?_eraseWhere` say what each
change does to it.
-/

namespace Turnstile.Store

open Turnstile.Time Turnstile.Text

/-- A text under a key, and the instant from which on it no longer counts. -/
structure Entry where
  value : String
  expiry : Option Instant
  deriving DecidableEq, Repr

/-- The entry still counts. -/
def Entry.isLive (now : Instant) (e : Entry) : Bool :=
  match e.expiry with
  | none => true
  | some t => now < t

/-- Entries under distinct keys. -/
structure Entries where
  toList : List (String × Entry)
  nodup : (toList.map Prod.fst).Nodup

namespace Entries

/-- No entries. -/
def empty : Entries := ⟨[], by simp⟩

/-- The entry of a key, whether it still counts or not. -/
def find? (m : Entries) (key : String) : Option Entry := m.toList.lookup key

/-- The entry of a key, if it still counts. -/
def live? (m : Entries) (now : Instant) (key : String) : Option Entry :=
  (m.find? key).filter (·.isLive now)

/-- The entries whose keys satisfy no test. -/
def eraseWhere (m : Entries) (test : String → Bool) : Entries where
  toList := m.toList.filter fun p => !test p.1
  nodup := (List.Sublist.map Prod.fst List.filter_sublist).nodup m.nodup

/-- The entries without a key. -/
def erase (m : Entries) (key : String) : Entries := m.eraseWhere (· = key)

/-- The entries with a key's entry replaced. -/
def put (m : Entries) (key : String) (e : Entry) : Entries where
  toList := (key, e) :: (m.erase key).toList
  nodup := by
    simp only [List.map_cons, List.nodup_cons]
    refine ⟨?_, (m.erase key).nodup⟩
    simp [erase, eraseWhere]

/-- The entries that still count. -/
def liveList (m : Entries) (now : Instant) : List (String × Entry) :=
  m.toList.filter fun p => p.2.isLive now

/-- The entries that still count, in the order of their keys. -/
def sorted (m : Entries) (now : Instant) : List (String × Entry) :=
  (m.liveList now).mergeSort fun p q => p.1 ≤ q.1

/-- The number of keys with a stem whose entries still count. -/
def countWith (m : Entries) (now : Instant) (stem : String) : Nat :=
  (m.liveList now).countP fun p => beginsWith stem p.1

/-! ## The view -/

@[simp] theorem find?_empty (key : String) : empty.find? key = none := rfl

theorem find?_eraseWhere (m : Entries) (test : String → Bool) (key : String) :
    (m.eraseWhere test).find? key = if test key then none else m.find? key := by
  simp only [find?, eraseWhere]
  induction m.toList with
  | nil => simp
  | cons p ps ih =>
    obtain ⟨k, e⟩ := p
    rw [List.filter_cons]
    by_cases hk : key = k
    · subst hk
      cases ht : test key <;> simp [ht] at ih ⊢
      exact ih
    · have hkey : (key == k) = false := by simpa using hk
      cases test k <;> simp [List.lookup_cons, hkey, ih]

@[simp] theorem find?_erase (m : Entries) (key other : String) :
    (m.erase key).find? other = if other = key then none else m.find? other := by
  simp [erase, find?_eraseWhere]

@[simp] theorem find?_put (m : Entries) (key other : String) (e : Entry) :
    (m.put key e).find? other = if other = key then some e else m.find? other := by
  by_cases h : other = key
  · simp [find?, put, h]
  · have hkey : (other == key) = false := by simpa using h
    have herase := find?_erase m key other
    simp only [find?, h, if_false] at herase
    simp [find?, put, List.lookup_cons, hkey, herase, h]

theorem live?_put (m : Entries) (now : Instant) (key other : String) (e : Entry) :
    (m.put key e).live? now other =
      if other = key then (some e).filter (·.isLive now) else m.live? now other := by
  simp only [live?, find?_put]
  split <;> rfl

end Entries

end Turnstile.Store
