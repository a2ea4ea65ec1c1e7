import Turnstile.Store.Memory
import Turnstile.Store.Program

/-!
# The test bench

Programs are tried out on a bench: a store, a clock that only moves when it is told to, and failures
to order.  A command whose kind is ordered to fail fails before it reaches the store, so the store
neither changes nor counts it.  The bench keeps what programs leave behind: their metrics, and how
often they called code of their caller.

Two stores can stand on it: one in memory, and one that nobody can reach.
-/

namespace Turnstile.Store

open Turnstile.Time

/-- A store that can stand on the bench: its answer to a command, at a reading of the clock. -/
structure Backend (σ : Type) where
  step : Instant → (c : Command) → σ → c.Reply × σ

/-- The store in memory. -/
def Memory.backend : Backend Entries := ⟨Memory.step⟩

/-- The failure of every command to a store that nobody can reach. -/
def Outage.failure : Failure := .unavailable "connection refused"

/-- A store that nobody can reach; it counts the commands that were meant for it. -/
def Outage.backend : Backend Nat := ⟨fun _ _ commands => (.error Outage.failure, commands + 1)⟩

/-- A store on the bench. -/
structure Bench (σ : Type) where
  store : σ
  now : Instant := .start
  failing : Command.Kind → Option Failure := fun _ => none
  metrics : Metrics := {}
  calls : Nat := 0

namespace Bench

variable {α σ : Type}

/-- A command to the store on the bench. -/
def perform (b : Backend σ) (c : Command) (s : Bench σ) : c.Reply × Bench σ :=
  match s.failing c.kind with
  | some failure => (.error failure, s)
  | none =>
    let r := b.step s.now c s.store
    (r.1, { s with store := r.2 })

/-- A trace left on the bench. -/
def note (e : Event) (s : Bench σ) : Bench σ :=
  match e with
  | .counted c => { s with metrics := s.metrics.add c }
  | .called => { s with calls := s.calls + 1 }

/-- The bench as a store to run programs on. -/
def handler (b : Backend σ) : Handler (Bench σ) := ⟨perform b, note⟩

/-- Runs a program on the bench. -/
def run (b : Backend σ) (p : Program α) (s : Bench σ) : α × Bench σ := p.run (handler b) s

/-- Lets time go by. -/
def advance (d : Span) (s : Bench σ) : Bench σ := { s with now := s.now.after d }

/-- Orders commands of one kind to fail from now on, or no longer to fail. -/
def order (k : Command.Kind) (failure : Option Failure) (s : Bench σ) : Bench σ :=
  { s with failing := fun other => if other = k then failure else s.failing other }

/-! ## What commands leave alone -/

@[simp] theorem now_perform (b : Backend σ) (c : Command) (s : Bench σ) :
    (perform b c s).2.now = s.now := by
  unfold perform
  split <;> rfl

@[simp] theorem failing_perform (b : Backend σ) (c : Command) (s : Bench σ) :
    (perform b c s).2.failing = s.failing := by
  unfold perform
  split <;> rfl

@[simp] theorem metrics_perform (b : Backend σ) (c : Command) (s : Bench σ) :
    (perform b c s).2.metrics = s.metrics := by
  unfold perform
  split <;> rfl

@[simp] theorem calls_perform (b : Backend σ) (c : Command) (s : Bench σ) :
    (perform b c s).2.calls = s.calls := by
  unfold perform
  split <;> rfl

theorem perform_of_failing {b : Backend σ} {c : Command} {s : Bench σ} {failure : Failure}
    (h : s.failing c.kind = some failure) : perform b c s = (.error failure, s) := by
  simp [perform, h]

end Bench

end Turnstile.Store
