/-!
# Metrics

What happened at the gate, in the caches and at the view counters, counted.  The counts are a log of
the events that were counted; a counter's value is the number of times it occurs (`Metrics.value`),
so counting is adding to a log, and two runs count the same if their logs are equal up to order.

`Metrics.exposition` is the text that a monitoring system reads: a line for each counter that was
ever touched and, once the counters are described, a help line before the lines of each name.
-/

namespace Turnstile

namespace Metrics

/-- What is counted.  The events of caches are counted for each key namespace apart. -/
inductive Counter where
  | gateAcquired
  | gateRejected
  | gateStoreErrors
  | cacheHits (space : String)
  | cacheMisses (space : String)
  | cacheDecodeErrors (space : String)
  | cacheWriteErrors (space : String)
  | viewIncrements
  | viewErrors
  deriving DecidableEq, Repr

namespace Counter

/-- The name that a monitoring system knows the counter by. -/
def name : Counter → String
  | gateAcquired => "idempotency_gate_acquired_total"
  | gateRejected => "idempotency_gate_rejected_total"
  | gateStoreErrors => "idempotency_gate_store_errors_total"
  | cacheHits _ => "cache_hits_total"
  | cacheMisses _ => "cache_misses_total"
  | cacheDecodeErrors _ => "cache_decode_errors_total"
  | cacheWriteErrors _ => "cache_write_errors_total"
  | viewIncrements => "view_counter_increments_total"
  | viewErrors => "view_counter_errors_total"

/-- What the counter's name means. -/
def help : Counter → String
  | gateAcquired => "Total number of idempotency locks acquired"
  | gateRejected => "Total number of mutating requests rejected as duplicates"
  | gateStoreErrors => "Total number of shared store failures seen by the idempotency gate"
  | cacheHits _ => "Total number of cache hits"
  | cacheMisses _ => "Total number of cache misses"
  | cacheDecodeErrors _ => "Total number of cached entries discarded as undecodable"
  | cacheWriteErrors _ => "Total number of skipped cache writes"
  | viewIncrements => "Total number of recorded product views"
  | viewErrors => "Total number of dropped product views"

/-- The key namespace that the counter is for. -/
def space? : Counter → Option String
  | cacheHits s | cacheMisses s | cacheDecodeErrors s | cacheWriteErrors s => some s
  | _ => none

end Counter

/-- A label's text between its quotes.  Quotes and line ends are escaped; a backslash is written
twice unless it already escapes the quote or the backslash after it. -/
def labelText (held : Bool) : List Char → List Char
  | [] => if held then ['\\', '\\'] else []
  | '\n' :: cs => '\\' :: 'n' :: labelText held cs
  | '"' :: cs => '\\' :: '"' :: labelText false cs
  | '\\' :: cs => if held then '\\' :: '\\' :: labelText false cs else labelText true cs
  | c :: cs => if held then '\\' :: '\\' :: c :: labelText false cs else c :: labelText false cs

/-- The name of a counter with its label. -/
def Counter.sample (c : Counter) : String :=
  match c.space? with
  | none => c.name
  | some s =>
    let label := String.ofList (labelText false s.toList)
    s!"{c.name}\x7bnamespace=\"{label}\"\x7d"

end Metrics

/-- The events counted so far, last first. -/
structure Metrics where
  log : List Metrics.Counter := []
  deriving Repr

namespace Metrics

/-- One more event. -/
def add (c : Counter) (m : Metrics) : Metrics := ⟨c :: m.log⟩

/-- How often a counter's event happened. -/
def value (m : Metrics) (c : Counter) : Nat := m.log.count c

@[simp] theorem value_add (m : Metrics) (c d : Counter) :
    (m.add c).value d = m.value d + if c = d then 1 else 0 := by
  simp only [value, add, List.count_cons, beq_iff_eq]

/-- The counters that were touched. -/
def touched (m : Metrics) : List Counter := m.log.eraseDups

/-- The line of a counter. -/
def sampleLine (m : Metrics) (c : Counter) : String := s!"{c.sample} {m.value c}"

/-- The help line of a counter's name. -/
def helpLine (c : Counter) : String := s!"# HELP {c.name} {c.help}"

/-- The lines of all counters that were touched, in order, with help for their names if the counters
are described. -/
def lines (described : Bool) (m : Metrics) : List String :=
  let help := if described then (m.touched.map helpLine).eraseDups else []
  (help ++ m.touched.map m.sampleLine).mergeSort (· ≤ ·)

/-- The lines as one text. -/
def exposition (described : Bool) (m : Metrics) : String :=
  String.join ((m.lines described).map (· ++ "\n"))

end Metrics

end Turnstile
