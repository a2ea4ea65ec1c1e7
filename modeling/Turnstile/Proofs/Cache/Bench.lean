import Turnstile.Cache
import Turnstile.Proofs.Store.Bench

/-! # Caches on the bench

What a cache does on a bench, one statement for each operation. A read finds a value if the store
answers and holds an entry that counts and can be decoded (`found?`); it changes nothing. A write
leaves its entry if the value has a text and the store takes it (`run_set`), a removal takes entries
away if it reaches the store (`run_delete`, `run_invalidate`). A read through the cache either finds
the value and calls nobody, or hands over to the loader once and writes what that came to
(`run_readThrough_hit`, `run_readThrough_miss`). -/

namespace Turnstile.Cache

open Turnstile.Store Turnstile.Time Turnstile.Text

variable {κ α ε σ : Type} (c : Cache κ α) (k : κ) (b : Bench Entries)

/-- The value that a read finds. -/
def found? : Option α :=
  match b.failing .get with
  | some _ => none
  | none => (b.store.live? b.now (c.keyFor k)).bind fun e => (c.codec.decode e.value).toOption

theorem found?_eq_some {c : Cache κ α} {k : κ} {b : Bench Entries} {v : α}
    (h : c.found? k b = some v) :
    ∃ e, b.store.find? (c.keyFor k) = some e ∧ e.isLive b.now = true ∧
      c.codec.decode e.value = .ok v := by
  unfold found? at h
  split at h
  · cases h
  · obtain ⟨e, hlive, hdecode⟩ := Option.bind_eq_some_iff.mp h
    obtain ⟨hfind, hcounts⟩ := Entries.live?_eq_some_iff.mp hlive
    refine ⟨e, hfind, hcounts, ?_⟩
    cases hd : c.codec.decode e.value with
    | error failure =>
      rw [hd] at hdecode
      cases hdecode
    | ok x =>
      rw [hd] at hdecode
      cases hdecode
      rfl

/-- **A read** answers what it finds, and changes nothing. -/
theorem run_get : (b.run Memory.backend (c.get k)).1 = c.found? k b ∧
    (b.run Memory.backend (c.get k)).2.store = b.store ∧
    (b.run Memory.backend (c.get k)).2.calls = b.calls := by
  unfold get found?
  cases hf : b.failing .get with
  | some failure =>
    rw [Bench.run_ask_of_failing hf]
    exact ⟨rfl, rfl, rfl⟩
  | none =>
    rw [Bench.run_ask_of_ready hf]
    simp only [Memory.backend, Memory.step]
    cases hlive : b.store.live? b.now (c.keyFor k) with
    | none => exact ⟨rfl, rfl, rfl⟩
    | some e =>
      simp only [Option.map_some, Option.bind_some]
      cases hdecode : c.codec.decode e.value with
      | ok v => exact ⟨rfl, rfl, rfl⟩
      | error failure => exact ⟨rfl, rfl, rfl⟩

/-- **A write** leaves its entry, or leaves everything as it was. -/
theorem run_set (v : α) (lifetime : Option Span) :
    (b.run Memory.backend (c.set k v lifetime)).2.calls = b.calls ∧
      (b.run Memory.backend (c.set k v lifetime)).2.store =
        match b.failing .set, c.codec.encode v with
        | none, .ok text =>
          b.store.put (c.keyFor k) ⟨text, some (b.now.after (lifetime.getD c.lifetime))⟩
        | _, _ => b.store := by
  unfold set
  cases hencode : c.codec.encode v with
  | error failure =>
    dsimp only
    cases b.failing .set <;> exact ⟨rfl, rfl⟩
  | ok text =>
    dsimp only
    cases hf : b.failing .set with
    | some failure =>
      rw [Bench.run_ask_of_failing hf]
      exact ⟨rfl, rfl⟩
    | none =>
      rw [Bench.run_ask_of_ready hf]
      exact ⟨rfl, rfl⟩

theorem run_delete : (b.run Memory.backend (c.delete k)).2.store =
    if b.failing .delete = none then b.store.erase (c.keyFor k) else b.store := by
  unfold delete
  cases hf : b.failing .delete with
  | some failure =>
    rw [Bench.run_ask_of_failing hf]
    rfl
  | none =>
    rw [Bench.run_ask_of_ready hf]
    rfl

theorem answer_delete : (b.run Memory.backend (c.delete k)).1 =
    (decide (b.failing .delete = none) && (b.store.live? b.now (c.keyFor k)).isSome) := by
  unfold delete
  cases hf : b.failing .delete with
  | some failure =>
    rw [Bench.run_ask_of_failing hf]
    rfl
  | none =>
    rw [Bench.run_ask_of_ready hf]
    rfl

theorem run_invalidate (stem : String) : (b.run Memory.backend (c.invalidate stem)).2.store =
    if b.failing .deleteByPrefix = none then
      b.store.eraseWhere (beginsWith (Key.namespaced c.space stem))
    else b.store := by
  unfold invalidate
  cases hf : b.failing .deleteByPrefix with
  | some failure =>
    rw [Bench.run_ask_of_failing hf]
    rfl
  | none =>
    rw [Bench.run_ask_of_ready hf]
    rfl

theorem find?_invalidate (stem key : String) :
    (b.run Memory.backend (c.invalidate stem)).2.store.find? key =
      if b.failing .deleteByPrefix = none ∧ beginsWith (Key.namespaced c.space stem) key = true then
        none
      else b.store.find? key := by
  rw [run_invalidate]
  by_cases hf : b.failing .deleteByPrefix = none
  · rw [if_pos hf, Entries.find?_eraseWhere]
    simp only [hf, true_and]
  · rw [if_neg hf, if_neg fun h => hf h.1]

theorem find?_delete (key : String) :
    (b.run Memory.backend (c.delete k)).2.store.find? key =
      if b.failing .delete = none ∧ key = c.keyFor k then none else b.store.find? key := by
  rw [run_delete]
  by_cases hf : b.failing .delete = none
  · rw [if_pos hf, Entries.find?_erase]
    simp only [hf, true_and]
  · rw [if_neg hf, if_neg fun h => hf h.1]

/-! ### Reads through the cache

On whatever store, a read through the cache is settled by the read that it begins with. -/

section readThrough

variable {c : Cache κ α} {k : κ} {store : Backend σ} {b : Bench σ}

theorem run_readThrough_of_hit {v : α} (h : (b.run store (c.get k)).1 = some v)
    (load : Program (Except ε (Option α))) :
    b.run store (c.readThrough k load) = (.ok (some v), (b.run store (c.get k)).2) := by
  rw [readThrough, Bench.run_bind, h]
  rfl

theorem run_readThrough_of_miss (h : (b.run store (c.get k)).1 = none)
    (load : Program (Except ε (Option α))) :
    b.run store (c.readThrough k load) =
      let loaded := (b.run store (c.get k)).2.run store load
      (loaded.1, match loaded.1 with
        | .ok (some v) => (loaded.2.run store (c.set k v none)).2
        | _ => loaded.2) := by
  rw [readThrough, Bench.run_bind, h]
  dsimp only
  rw [Bench.run_bind]
  rcases (Bench.run store load _).1 with failure | _ | v
  · rfl
  · rfl
  · dsimp only
    rw [Bench.run_bind]
    rfl

end readThrough

theorem run_readThrough_hit {v : α} (h : c.found? k b = some v)
    (load : Program (Except ε (Option α))) :
    (b.run Memory.backend (c.readThrough k load)).1 = .ok (some v) ∧
      (b.run Memory.backend (c.readThrough k load)).2.store = b.store ∧
      (b.run Memory.backend (c.readThrough k load)).2.calls = b.calls := by
  obtain ⟨hanswer, hstore, hcalls⟩ := run_get c k b
  rw [run_readThrough_of_hit (hanswer.trans h)]
  exact ⟨rfl, hstore, hcalls⟩

theorem run_readThrough_miss (h : c.found? k b = none) (loaded : Except ε (Option α)) :
    (b.run Memory.backend (c.readThrough k (Program.call loaded))).1 = loaded ∧
      (b.run Memory.backend (c.readThrough k (Program.call loaded))).2.calls = b.calls + 1 ∧
      (b.run Memory.backend (c.readThrough k (Program.call loaded))).2.store =
        match loaded with
        | .error _ => b.store
        | .ok none => b.store
        | .ok (some v) => (b.run Memory.backend (c.set k v none)).2.store := by
  obtain ⟨hanswer, hstore, hcalls⟩ := run_get c k b
  rw [run_readThrough_of_miss (hanswer.trans h)]
  -- What is loaded is written on a bench that only differs in its traces.
  let b' : Bench Entries := Bench.note .called (b.run Memory.backend (c.get k)).2
  have hcalls' : b'.calls = b.calls + 1 := congrArg (· + 1) hcalls
  have hload : (b.run Memory.backend (c.get k)).2.run Memory.backend (Program.call loaded) =
      (loaded, b') := rfl
  rw [hload]
  rcases loaded with failure | _ | v
  · exact ⟨rfl, hcalls', hstore⟩
  · exact ⟨rfl, hcalls', hstore⟩
  · obtain ⟨hset, hput⟩ := run_set c k b' v none
    have hnow : b'.now = b.now := (Bench.now_note _ _).trans (Bench.now_run _ _ _)
    have hfailing : b'.failing = b.failing := (Bench.failing_note _ _).trans (Bench.failing_run _ _ _)
    have hsame : b'.store = b.store := hstore
    dsimp only
    rw [hset, hput, (run_set c k b v none).2, hnow, hfailing, hsame]
    exact ⟨rfl, hcalls', rfl⟩

end Turnstile.Cache
