import Turnstile.Store.Command
import Turnstile.Metrics

/-!
# Programs over a store

A component is a `Program`: a tree that gives store commands and goes on with their answers, and that
leaves traces which are no commands, an `Event` each.  What a component does is thereby independent
of the store that it runs on, and of whether and why its commands fail: any store, with any failures,
is a `Handler` to run it with.

* `Program` is a monad (`bind_assoc` and the other laws), so components are written with `do`;
* `Program.run` runs a program on a handler; `run_bind` says that it goes step by step.
-/

namespace Turnstile.Store

/-- A trace that is no store command. -/
inductive Event where
  /-- Something that is counted happened once. -/
  | counted (c : Metrics.Counter)
  /-- The program handed over to code of its caller: a loader, or a guarded operation. -/
  | called
  deriving DecidableEq, Repr

/-- A component at work. -/
inductive Program (α : Type) where
  /-- The end, with a result. -/
  | done (result : α)
  /-- A command, and how its answer is taken. -/
  | ask (c : Command) (next : c.Reply → Program α)
  /-- A trace. -/
  | emit (e : Event) (next : Program α)

namespace Program

variable {α β γ : Type}

/-- One program after another. -/
def bind : Program α → (α → Program β) → Program β
  | done a, f => f a
  | ask c next, f => ask c fun r => (next r).bind f
  | emit e next, f => emit e (next.bind f)

instance : Monad Program where
  pure := done
  bind := bind

/-- Gives a command and takes its answer. -/
def command (c : Command) : Program c.Reply := ask c done

/-- Counts one event. -/
def count (c : Metrics.Counter) : Program Unit := emit (.counted c) (done ())

/-- Code of the caller that comes to a result. -/
def call (result : α) : Program α := emit .called (done result)

theorem bind_done (p : Program α) : p.bind done = p := by
  induction p with
  | done a => rfl
  | ask c next ih => simp only [bind]; congr; funext r; exact ih r
  | emit e next ih => simp only [bind, ih]

theorem bind_assoc (p : Program α) (f : α → Program β) (g : β → Program γ) :
    (p.bind f).bind g = p.bind fun a => (f a).bind g := by
  induction p with
  | done a => rfl
  | ask c next ih => simp only [bind]; congr; funext r; exact ih r
  | emit e next ih => simp only [bind, ih]

instance : LawfulMonad Program :=
  LawfulMonad.mk' Program bind_done (fun _ _ => rfl) bind_assoc

end Program

/-- A store to run programs on: it answers commands and notes events. -/
structure Handler (σ : Type) where
  perform : (c : Command) → σ → c.Reply × σ
  note : Event → σ → σ

namespace Program

variable {α β σ : Type}

/-- Runs a program to its end. -/
def run (h : Handler σ) : Program α → σ → α × σ
  | done a, s => (a, s)
  | ask c next, s =>
    let r := h.perform c s
    run h (next r.1) r.2
  | emit e next, s => run h next (h.note e s)

@[simp] theorem run_pure (h : Handler σ) (a : α) (s : σ) : (pure a : Program α).run h s = (a, s) :=
  rfl

@[simp] theorem run_command (h : Handler σ) (c : Command) (s : σ) :
    (command c).run h s = h.perform c s := rfl

@[simp] theorem run_bind (h : Handler σ) (p : Program α) (f : α → Program β) (s : σ) :
    (p >>= f).run h s = (f (p.run h s).1).run h (p.run h s).2 := by
  show (p.bind f).run h s = _
  induction p generalizing s with
  | done a => rfl
  | ask c next ih => exact ih _ _
  | emit e next ih => exact ih _

end Program

end Turnstile.Store
