import Turnstile.Proofs.Store.Failing

/-! # Keys that are spared

A program spares a key on a bench if no command writes the key that it gives and that reaches the
store (`Bench.Spares`). That is said of the commands that are given there, not of those that might
be: a program that would write after a miss spares the key when it hits. A key keeps its entry while
it is spared (`find?_run_of_spares`), whatever becomes of the bench meanwhile
(`Meanwhile.find?_eq`). -/

namespace Turnstile.Store

open Turnstile.Time

instance (c : Command) (key : String) : Decidable (c.Writes key) := by
  cases c <;> unfold Command.Writes Command.Puts Command.Removes <;> infer_instance

theorem Memory.find?_afterAll {cs : List Command} {key : String} (h : ∀ c ∈ cs, ¬ c.Writes key)
    (now : Instant) (m : Entries) : (Memory.backend.afterAll now cs m).find? key = m.find? key := by
  unfold Backend.afterAll
  induction cs generalizing m with
  | nil => rfl
  | cons c cs ih =>
    rw [List.forall_mem_cons] at h
    rw [List.foldl_cons, ih h.2]
    exact Memory.find?_step h.1 now m

namespace Bench

variable {α : Type} {key : String} {b b' : Bench Entries} {p : Program α}

/-- No command that the program gives and that reaches the store writes the key. -/
def Spares (key : String) (b : Bench Entries) (p : Program α) : Prop :=
  ∀ c ∈ b.given Memory.backend p, b.failing c.kind = none → ¬ c.Writes key

instance : Decidable (b.Spares key p) := by
  unfold Spares; infer_instance

theorem find?_run_of_spares (h : b.Spares key p) :
    (b.run Memory.backend p).2.store.find? key = b.store.find? key := by
  rw [store_run]
  refine Memory.find?_afterAll (fun c hc => ?_) _ _
  rw [List.mem_filter, Option.isNone_iff_eq_none] at hc
  exact h c hc.1 hc.2

/-- What a bench may become while a key is spared: programs run, time goes by, and commands fail or
no longer fail. -/
inductive Meanwhile (key : String) (b : Bench Entries) : Bench Entries → Prop where
  | start : Meanwhile key b b
  | run {b' : Bench Entries} {α : Type} (p : Program α) (h : Meanwhile key b b')
    (hspares : b'.Spares key p) : Meanwhile key b (b'.run Memory.backend p).2
  | advance {b' : Bench Entries} (d : Span) (h : Meanwhile key b b') :
    Meanwhile key b (b'.advance d)
  | order {b' : Bench Entries} (kind : Command.Kind) (failure : Option Failure)
    (h : Meanwhile key b b') : Meanwhile key b (b'.order kind failure)

theorem Meanwhile.find?_eq (h : Meanwhile key b b') : b'.store.find? key = b.store.find? key := by
  induction h with
  | start => rfl
  | run p _ hspares ih => exact (find?_run_of_spares hspares).trans ih
  | advance d _ ih => exact ih
  | order kind failure _ ih => exact ih

end Bench

end Turnstile.Store
