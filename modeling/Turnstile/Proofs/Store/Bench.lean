import Turnstile.Proofs.Time.Order
import Turnstile.Store.Bench

/-! # Programs on the bench

A command either puts an entry under one key, or removes the entries of some keys, or changes
nothing: `Command.Puts` and `Command.Removes` say which keys are concerned. A key that is not
concerned keeps its entry (`Memory.find?_step`), and a key whose entry is not put at most loses it
(`Memory.find?_step_of_not_puts`).

`Program.Within P` says that all commands which a program can give satisfy `P`, whatever it is
answered. What one command keeps, a whole program keeps (`Program.run_preserves`); so a program that
does not write a key leaves its entry alone (`Bench.find?_run`), and none moves the clock.

A program that begins with a command goes on with a failure if that is ordered
(`Bench.run_ask_of_failing`), else with what the store answers (`Bench.run_ask_of_ready`). -/

namespace Turnstile.Store

open Turnstile.Time Turnstile.Text

/-! ### Commands -/

namespace Command

/-- The command may put an entry under the key. -/
def Puts : Command → String → Prop
  | setIfAbsent k _ _, key | set k _ _, key | incrBy k _, key | decrBy k _, key => k = key
  | _, _ => False

/-- The command takes the key's entry away. -/
def Removes : Command → String → Prop
  | delete k, key => k = key
  | deleteByPrefix stem, key => beginsWith stem key = true
  | _, _ => False

/-- The command may change what the key holds. -/
def Writes (c : Command) (key : String) : Prop := c.Puts key ∨ c.Removes key

variable {k key value stem : String}

@[simp] theorem not_writes_get : ¬ (get k).Writes key := fun h => h.elim id id

@[simp] theorem writes_set {lifetime : Option Span} : (set k value lifetime).Writes key ↔ k = key :=
  or_iff_left id

@[simp] theorem writes_incrBy {delta : Int64} : (incrBy k delta).Writes key ↔ k = key :=
  or_iff_left id

@[simp] theorem writes_delete : (delete k).Writes key ↔ k = key := or_iff_right id

@[simp] theorem writes_deleteByPrefix :
    (deleteByPrefix stem).Writes key ↔ beginsWith stem key = true := or_iff_right id

end Command

namespace Memory

theorem find?_add {now : Instant} {key other : String} (h : key ≠ other) (delta : Int)
    (m : Entries) : (add now key delta m).2.find? other = m.find? other := by
  unfold add
  dsimp only
  split
  · rfl
  · split
    · rw [Entries.find?_put, if_neg (Ne.symm h)]
    · rfl

/-- **Frame.** A key that a command does not write keeps its entry. -/
theorem find?_step {c : Command} {key : String} (h : ¬ c.Writes key) (now : Instant)
    (m : Entries) : (step now c m).2.find? key = m.find? key := by
  simp only [Command.Writes, not_or] at h
  obtain ⟨hput, hremove⟩ := h
  cases c with
  | setIfAbsent k value lifetime =>
    simp only [step]
    split
    · rfl
    · rw [Entries.find?_put, if_neg (Ne.symm hput)]
  | get k => rfl
  | set k value lifetime =>
    simp only [step]
    rw [Entries.find?_put, if_neg (Ne.symm hput)]
  | incrBy k delta => exact find?_add hput delta.toInt m
  | decrBy k delta =>
    simp only [step]
    split
    · rfl
    · exact find?_add hput (-delta.toInt) m
  | delete k =>
    simp only [step]
    rw [Entries.find?_erase, if_neg (Ne.symm hremove)]
  | deleteByPrefix stem =>
    simp only [step]
    exact (Entries.find?_eraseWhere m _ key).trans (if_neg hremove)
  | ping => rfl

theorem find?_step_of_removes {c : Command} {key : String} (h : c.Removes key) (now : Instant)
    (m : Entries) : (step now c m).2.find? key = none := by
  cases c with
  | delete k =>
    simp only [step]
    rw [Entries.find?_erase, if_pos (Eq.symm h)]
  | deleteByPrefix stem =>
    simp only [step]
    exact (Entries.find?_eraseWhere m _ key).trans (if_pos h)
  | _ => exact absurd h id

theorem find?_step_of_not_puts {c : Command} {key : String} (h : ¬ c.Puts key) (now : Instant)
    (m : Entries) :
    (step now c m).2.find? key = none ∨ (step now c m).2.find? key = m.find? key := by
  by_cases hr : c.Removes key
  · exact Or.inl (find?_step_of_removes hr now m)
  · exact Or.inr (find?_step (fun hw => hw.elim h hr) now m)

end Memory

/-! ### Programs -/

namespace Program

variable {α β σ : Type} {P Q : Command → Prop}

/-- All commands that the program can give satisfy `P`. -/
def Within (P : Command → Prop) : Program α → Prop
  | done _ => True
  | ask c next => P c ∧ ∀ r, (next r).Within P
  | emit _ next => next.Within P

theorem within_pure (a : α) : (pure a : Program α).Within P := trivial

theorem within_command {c : Command} (h : P c) : (command c).Within P := ⟨h, fun _ => trivial⟩

theorem within_count (c : Metrics.Counter) : (count c).Within P := trivial

theorem within_call (a : α) : (call a).Within P := trivial

theorem within_bind {p : Program α} {f : α → Program β} (hp : p.Within P)
    (hf : ∀ a, (f a).Within P) : (p >>= f).Within P := by
  show (p.bind f).Within P
  induction p with
  | done a => exact hf a
  | ask c next ih => exact ⟨hp.1, fun r => ih r (hp.2 r)⟩
  | emit e next ih => exact ih hp

theorem Within.mono {p : Program α} (hp : p.Within P) (h : ∀ c, P c → Q c) : p.Within Q := by
  induction p with
  | done a => trivial
  | ask c next ih => exact ⟨h c hp.1, fun r => ih r (hp.2 r)⟩
  | emit e next ih => exact ih hp

theorem run_preserves {h : Handler σ} {I : σ → Prop}
    (hask : ∀ c s, P c → I s → I (h.perform c s).2) (hnote : ∀ e s, I s → I (h.note e s))
    {p : Program α} (hp : p.Within P) (s : σ) (hs : I s) : I (p.run h s).2 := by
  induction p generalizing s with
  | done a => exact hs
  | ask c next ih => exact ih _ (hp.2 _) _ (hask c s hp.1 hs)
  | emit e next ih => exact ih hp _ (hnote e s hs)

theorem within_true (p : Program α) : p.Within fun _ => True := by
  induction p with
  | done a => trivial
  | ask c next ih => exact ⟨trivial, ih⟩
  | emit e next ih => exact ih

end Program

/-! ### The bench -/

namespace Bench

variable {α β σ : Type}

theorem run_bind (b : Backend σ) (p : Program α) (f : α → Program β) (s : Bench σ) :
    s.run b (p >>= f) = (s.run b p).2.run b (f (s.run b p).1) :=
  Program.run_bind _ _ _ _

@[simp] theorem now_note (e : Event) (s : Bench σ) : (note e s).now = s.now := by
  cases e <;> rfl

@[simp] theorem failing_note (e : Event) (s : Bench σ) : (note e s).failing = s.failing := by
  cases e <;> rfl

@[simp] theorem store_note (e : Event) (s : Bench σ) : (note e s).store = s.store := by
  cases e <;> rfl

@[simp] theorem now_run (b : Backend σ) (p : Program α) (s : Bench σ) :
    (s.run b p).2.now = s.now :=
  Program.run_preserves (I := fun t => t.now = s.now) (fun c t _ ht => (now_perform b c t).trans ht)
    (fun e t ht => (now_note e t).trans ht) p.within_true s rfl

@[simp] theorem failing_run (b : Backend σ) (p : Program α) (s : Bench σ) :
    (s.run b p).2.failing = s.failing :=
  Program.run_preserves (I := fun t => t.failing = s.failing)
    (fun c t _ ht => (failing_perform b c t).trans ht) (fun e t ht => (failing_note e t).trans ht)
    p.within_true s rfl

theorem find?_perform {c : Command} {key : String} (h : ¬ c.Writes key) (s : Bench Entries) :
    (perform Memory.backend c s).2.store.find? key = s.store.find? key := by
  unfold perform
  split
  · rfl
  · exact Memory.find?_step h s.now s.store

/-- **Frame.** A program that cannot write a key leaves its entry alone. -/
theorem find?_run {p : Program α} {key : String} (hp : p.Within fun c => ¬ c.Writes key)
    (s : Bench Entries) : (s.run Memory.backend p).2.store.find? key = s.store.find? key :=
  Program.run_preserves (I := fun t => t.store.find? key = s.store.find? key)
    (fun _ t hc ht => (find?_perform hc t).trans ht)
    (fun e t ht => (congrArg (Entries.find? · key) (store_note e t)).trans ht) hp s rfl

theorem perform_of_ready {b : Backend σ} {c : Command} {s : Bench σ} (h : s.failing c.kind = none) :
    perform b c s = ((b.step s.now c s.store).1, { s with store := (b.step s.now c s.store).2 }) := by
  simp only [perform, h]

theorem run_ask (b : Backend σ) (c : Command) (f : c.Reply → Program α) (s : Bench σ) :
    s.run b (Program.command c >>= f) = (perform b c s).2.run b (f (perform b c s).1) := rfl

theorem run_ask_of_failing {b : Backend σ} {c : Command} {s : Bench σ} {failure : Failure}
    (h : s.failing c.kind = some failure) (f : c.Reply → Program α) :
    s.run b (Program.command c >>= f) = s.run b (f (.error failure)) := by
  rw [run_ask, perform_of_failing h]

theorem run_ask_of_ready {b : Backend σ} {c : Command} {s : Bench σ} (h : s.failing c.kind = none)
    (f : c.Reply → Program α) :
    s.run b (Program.command c >>= f) =
      { s with store := (b.step s.now c s.store).2 }.run b (f (b.step s.now c s.store).1) := by
  rw [run_ask, perform_of_ready h]

end Bench

end Turnstile.Store
