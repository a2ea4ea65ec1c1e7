import Mathlib.Data.List.Induction
import Turnstile.Shop.Operation
import Turnstile.Store.Bench

/-! # The shop over time

What happens to a shop is a list of steps: operations of its components, time that goes by, and
orders that make store commands of one kind fail or let them through again. An operation gives at
most one command of each kind, so with orders between the operations any of their commands can fail
and any other reach the store. `Shop.after` is the bench after some steps, and `Shop.moments` are the
operations among them, each with the bench that it found; `moments_after_induction` is how a property
of both is proved. -/

namespace Turnstile.Shop

open Turnstile.Store Turnstile.Time

variable {β σ : Type}

/-- One step in the life of a shop. -/
inductive Step (β : Type) where
  /-- A component is asked for something. -/
  | operate (o : Operation β)
  /-- Time goes by. -/
  | advance (d : Span)
  /-- Commands of one kind fail from now on, or no longer fail. -/
  | order (kind : Command.Kind) (failure : Option Failure)

/-- The bench after one step. -/
def Step.after (s : Shop) (store : Backend σ) : Step β → Bench σ → Bench σ
  | operate o, b => (b.run store (o.program s)).2
  | advance d, b => b.advance d
  | order kind failure, b => b.order kind failure

/-- The bench after some steps. -/
def after (s : Shop) (store : Backend σ) (steps : List (Step β)) (b : Bench σ) : Bench σ :=
  steps.foldl (fun b x => x.after s store b) b

@[simp] theorem after_nil (s : Shop) (store : Backend σ) (b : Bench σ) :
    s.after store ([] : List (Step β)) b = b := rfl

theorem after_append (s : Shop) (store : Backend σ) (xs ys : List (Step β)) (b : Bench σ) :
    s.after store (xs ++ ys) b = s.after store ys (s.after store xs b) :=
  List.foldl_append

theorem after_concat (s : Shop) (store : Backend σ) (xs : List (Step β)) (x : Step β) (b : Bench σ) :
    s.after store (xs ++ [x]) b = x.after s store (s.after store xs b) :=
  after_append s store xs [x] b

/-! ### Operations one by one -/

/-- An operation that is asked for, and the bench as it finds it. -/
structure Moment (σ β : Type) where
  bench : Bench σ
  operation : Operation β

namespace Moment

variable (s : Shop) (store : Backend σ) (x : Moment σ β)

/-- What the operation is answered. -/
def answer : x.operation.Answer := (x.bench.run store (x.operation.program s)).1

/-- The bench as the operation leaves it. -/
def after : Bench σ := (x.bench.run store (x.operation.program s)).2

end Moment

def Step.moment? (b : Bench σ) : Step β → Option (Moment σ β)
  | operate o => some ⟨b, o⟩
  | _ => none

/-- The operations among some steps. -/
def moments (s : Shop) (store : Backend σ) : List (Step β) → Bench σ → List (Moment σ β)
  | [], _ => []
  | x :: xs, b => (x.moment? b).toList ++ moments s store xs (x.after s store b)

theorem moments_concat (s : Shop) (store : Backend σ) (xs : List (Step β)) (x : Step β)
    (b : Bench σ) :
    s.moments store (xs ++ [x]) b =
      s.moments store xs b ++ (x.moment? (s.after store xs b)).toList := by
  induction xs generalizing b with
  | nil => simp [moments]
  | cons y ys ih =>
    rw [List.cons_append, moments, ih, moments, List.append_assoc]
    rfl

/-- **Induction over a run**, on the operations so far and the bench that they leave: a property of the
two holds after all steps if it holds at first, time and orders keep it, and every operation keeps it
with itself added. -/
theorem moments_after_induction {s : Shop} {store : Backend σ} {b₀ : Bench σ} {steps : List (Step β)}
    {P : List (Moment σ β) → Bench σ → Prop} (start : P [] b₀)
    (advance : ∀ xs b d, P xs b → P xs (b.advance d))
    (order : ∀ xs b kind failure, P xs b → P xs (b.order kind failure))
    (operate : ∀ xs b o, .operate o ∈ steps → P xs b →
      P (xs ++ [⟨b, o⟩]) (b.run store (o.program s)).2) :
    P (s.moments store steps b₀) (s.after store steps b₀) := by
  induction steps using List.reverseRecOn with
  | nil => exact start
  | append_singleton steps x ih =>
    have hbefore := ih fun xs b o ho => operate xs b o (List.mem_append_left _ ho)
    rw [after_concat, moments_concat]
    cases x with
    | advance d =>
      simp only [Step.moment?, Option.toList_none, List.append_nil]
      exact advance _ _ d hbefore
    | order kind failure =>
      simp only [Step.moment?, Option.toList_none, List.append_nil]
      exact order _ _ kind failure hbefore
    | operate o => exact operate _ _ o (by simp) hbefore

/-- A store in memory that holds nothing yet, beside a clock. -/
def freshBench (start : Instant) : Bench Entries := { store := .empty, now := start }

end Turnstile.Shop
