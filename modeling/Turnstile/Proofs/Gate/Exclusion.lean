import Turnstile.Proofs.Shop.Run
import Turnstile.Proofs.Shop.Spaces
import Mathlib.Data.List.Induction

/-! # One request at a time

The gate lets a request through if the lock under its key is free (`Gate.Free`): the command that
takes it reaches the store, and no entry that counts stands there. It then leaves the lock behind,
and nothing else in the shop touches it. So what stands under a lock's key is known from the requests
that were let through before (`LockInv`): it ends with the lifetime of one of them, and no earlier
than that of any other.

`exclusive_and_released` draws the conclusions over a whole run: two requests for one key are let
through a lifetime apart; one is refused only while an earlier one holds the lock, or because the
store failed; and a guarded operation is carried out once if its request is let through, and not at
all otherwise. -/

namespace Turnstile

open Turnstile.Store Turnstile.Time

/-! ### One attempt -/

namespace Gate

variable {α ε σ : Type}

/-- The lock under the key can be taken. -/
def Free (key : String) (b : Bench Entries) : Prop :=
  b.failing .setIfAbsent = none ∧ b.store.live? b.now key = none

instance (key : String) (b : Bench Entries) : Decidable (Free key b) := by
  unfold Free; infer_instance

/-- What a lock holds that is taken now. -/
def lock (g : Gate) (now : Instant) : Entry := ⟨"1", some (now.after g.lifetime)⟩

theorem run_tryAcquire_of_failing {b : Bench Entries} {failure : Failure}
    (h : b.failing .setIfAbsent = some failure) (g : Gate) (key : RequestKey) :
    b.run Memory.backend (g.tryAcquire key) =
      (false, { b with metrics := (b.metrics.add .gateStoreErrors).add .gateRejected }) := by
  rw [tryAcquire, Bench.run_ask_of_failing h]
  rfl

theorem run_tryAcquire_of_taken {b : Bench Entries} {key : RequestKey} {e : Entry}
    (hf : b.failing .setIfAbsent = none) (hl : b.store.live? b.now key.storeKey = some e)
    (g : Gate) :
    b.run Memory.backend (g.tryAcquire key) =
      (false, { b with metrics := b.metrics.add .gateRejected }) := by
  rw [tryAcquire, Bench.run_ask_of_ready hf]
  simp only [Memory.backend, Memory.step, hl]
  rfl

theorem run_tryAcquire_of_free {b : Bench Entries} {key : RequestKey}
    (h : Free key.storeKey b) (g : Gate) :
    b.run Memory.backend (g.tryAcquire key) =
      (true, { b with
        store := b.store.put key.storeKey (g.lock b.now)
        metrics := b.metrics.add .gateAcquired }) := by
  rw [tryAcquire, Bench.run_ask_of_ready h.1]
  simp only [Memory.backend, Memory.step, h.2]
  rfl

/-- **One attempt.** It succeeds if the lock is free, and takes it then; it does nothing else to the
store and calls nobody. -/
theorem run_tryAcquire (g : Gate) (key : RequestKey) (b : Bench Entries) :
    (b.run Memory.backend (g.tryAcquire key)).1 = decide (Free key.storeKey b) ∧
      (b.run Memory.backend (g.tryAcquire key)).2.store =
        (if Free key.storeKey b then b.store.put key.storeKey (g.lock b.now) else b.store) ∧
      (b.run Memory.backend (g.tryAcquire key)).2.calls = b.calls := by
  by_cases h : Free key.storeKey b
  · rw [run_tryAcquire_of_free h, if_pos h, decide_eq_true h]
    exact ⟨rfl, rfl, rfl⟩
  · rw [if_neg h, decide_eq_false h]
    cases hf : b.failing .setIfAbsent with
    | some failure =>
      rw [run_tryAcquire_of_failing hf]
      exact ⟨rfl, rfl, rfl⟩
    | none =>
      obtain ⟨e, he⟩ := Option.ne_none_iff_exists'.mp fun hl => h ⟨hf, hl⟩
      rw [run_tryAcquire_of_taken hf he]
      exact ⟨rfl, rfl, rfl⟩

/-- **One guarded operation.** It is carried out once the lock is taken, and only then. -/
theorem run_guard {store : Backend σ} (g : Gate) (key : RequestKey)
    (operation : Program (Except ε α)) (b : Bench σ) :
    b.run store (g.guard key operation) =
      let attempt := b.run store (g.tryAcquire key)
      let outcome := attempt.2.run store operation
      if attempt.1 then (outcome.1.mapError .operation, outcome.2)
      else (.error (.duplicate key.storeKey), attempt.2) := by
  rw [guard, Bench.run_bind]
  dsimp only
  cases (b.run store (g.tryAcquire key)).1 with
  | true =>
    rw [if_pos rfl, if_pos rfl, Bench.run_bind]
    rfl
  | false =>
    rw [if_neg Bool.false_ne_true, if_neg Bool.false_ne_true]
    rfl

end Gate

/-! ### The gate in the shop's steps -/

namespace Shop

variable {β : Type}

/-- The answer tells that the gate let the request through. -/
def Operation.letThrough : (o : Operation β) → o.Answer → Bool
  | .acquire _, answer => answer
  | .guard .., .error (.duplicate _) => false
  | .guard .., _ => true
  | _, _ => false

/-- The key of the lock that a step asks the gate for. -/
def Step.lockKey? : Step β → Option String
  | operate (.acquire key) | operate (.guard key _) => some key.storeKey
  | _ => none

/-- The step asks the gate, and its caller is answered that the request is let through. -/
def Step.passes (s : Shop) (b : Bench Entries) : Step β → Bool
  | operate o => o.letThrough (b.run Memory.backend (o.program s)).1
  | _ => false

variable {s : Shop} {b : Bench Entries} {x : Step β} {k : String}

theorem Step.passes_and_store (h : x.lockKey? = some k) :
    (x.passes s b = true ↔ Gate.Free k b) ∧
      (x.after s Memory.backend b).store =
        if Gate.Free k b then b.store.put k (s.gate.lock b.now) else b.store := by
  cases x with
  | advance d => cases h
  | order kind failure => cases h
  | operate o =>
    cases o with
    | acquire key =>
      cases h
      obtain ⟨hanswer, hstore, -⟩ := Gate.run_tryAcquire s.gate key b
      refine ⟨?_, hstore⟩
      show (b.run Memory.backend (s.gate.tryAcquire key)).1 = true ↔ _
      rw [hanswer, decide_eq_true_iff]
    | guard key outcome =>
      cases h
      obtain ⟨hanswer, hstore, -⟩ := Gate.run_tryAcquire s.gate key b
      simp only [passes, Step.after, Operation.program, Gate.run_guard]
      by_cases hfree : Gate.Free key.storeKey b
      · rw [if_pos hfree] at hstore ⊢
        rw [hanswer, decide_eq_true hfree, if_pos rfl]
        refine ⟨⟨fun _ => hfree, fun _ => ?_⟩, hstore⟩
        cases outcome <;> rfl
      · rw [if_neg hfree] at hstore ⊢
        rw [hanswer, decide_eq_false hfree, if_neg Bool.false_ne_true]
        refine ⟨⟨fun hpass => ?_, fun hf => absurd hf hfree⟩, hstore⟩
        cases hpass
    | _ => cases h

theorem Step.lockKey?_eq (h : x.lockKey? = some k) :
    ∃ name, k = Key.namespaced Key.requestLock name := by
  cases x with
  | operate o =>
    cases o with
    | acquire key => exact ⟨key.name, (Option.some.inj h).symm⟩
    | guard key outcome => exact ⟨key.name, (Option.some.inj h).symm⟩
    | _ => cases h
  | _ => cases h

theorem Step.find?_after {t : Lifetimes} {notes name : String}
    (hnotes : ∀ o, x = .operate (.noted o) → Key.IsSpace notes ∧ notes ≠ Key.requestLock)
    (h : x.lockKey? ≠ some (Key.namespaced Key.requestLock name)) :
    (x.after (Shop.make t notes) Memory.backend b).store.find?
        (Key.namespaced Key.requestLock name) =
      b.store.find? (Key.namespaced Key.requestLock name) := by
  cases hx : x.lockKey? with
  | some k' =>
    rw [(passes_and_store hx).2]
    split
    · rw [Entries.find?_put, if_neg (fun hk => h (by rw [hx, hk]))]
    · rfl
  | none =>
    cases x with
    | advance d => rfl
    | order kind failure => rfl
    | operate o =>
      have hspace : Key.IsSpace (o.space notes) := by
        refine Operation.isSpace_space ?_
        rintro o' rfl
        exact (hnotes o' rfl).1
      have hne : o.space notes ≠ Key.requestLock := by
        cases o with
        | acquire key => cases hx
        | guard key outcome => cases hx
        | noted o => exact (hnotes o rfl).2
        | _ => simp only [Operation.space]; decide
      exact Operation.find?_run_of_ne hspace Key.isSpace_requestLock hne t name b

/-! ### Whole runs -/

/-- A request for the lock was let through at the reading `t`. -/
def PassedAt (s : Shop) (b₀ : Bench Entries) (steps : List (Step β)) (k : String) (t : Instant) :
    Prop :=
  ∃ past x rest, steps = past ++ x :: rest ∧ x.lockKey? = some k ∧
    x.passes s (s.after Memory.backend past b₀) = true ∧ (s.after Memory.backend past b₀).now = t

variable {b₀ : Bench Entries} {steps : List (Step β)} {t : Instant}

theorem not_passedAt_nil : ¬ PassedAt s b₀ ([] : List (Step β)) k t := by
  rintro ⟨past, x, rest, h, -⟩
  simp at h

theorem passedAt_concat :
    PassedAt s b₀ (steps ++ [x]) k t ↔ PassedAt s b₀ steps k t ∨ x.lockKey? = some k ∧
      x.passes s (s.after Memory.backend steps b₀) = true ∧
      (s.after Memory.backend steps b₀).now = t := by
  constructor
  · rintro ⟨past, y, rest, h, hy⟩
    rcases List.eq_nil_or_concat rest with rfl | ⟨rest, z, rfl⟩
    · obtain ⟨rfl, hxy⟩ := List.append_inj' h rfl
      obtain ⟨rfl, -⟩ := List.cons.inj hxy
      exact Or.inr hy
    · have h' : steps ++ [x] = (past ++ y :: rest) ++ [z] := by
        rw [h, List.concat_eq_append, List.append_assoc, List.cons_append]
      exact Or.inl ⟨past, y, rest, (List.append_inj' h' rfl).1, hy⟩
  · rintro (⟨past, y, rest, rfl, hy⟩ | hx)
    · exact ⟨past, y, rest ++ [x], by simp, hy⟩
    · exact ⟨steps, x, [], rfl, hx⟩

/-- What stands under a lock's key once requests for it were let through at the readings `passed`:
it ends a lifetime after one of them, and no earlier than a lifetime after any of them. -/
structure LockInv (lifetime : Span) (passed : Instant → Prop) (entry : Option Entry) : Prop where
  ends : ∀ e, entry = some e → ∃ t, passed t ∧ e.expiry = some (t.after lifetime)
  covers : ∀ t, passed t → ∃ e u, entry = some e ∧ e.expiry = some u ∧ t.after lifetime ≤ u

/-- **A lock that is taken anew** covers all who held it before: the last of their lifetimes is
over. -/
theorem LockInv.put {g : Gate} {passed : Instant → Prop} {entry : Option Entry} {now : Instant}
    (h : LockInv g.lifetime passed entry) (hover : ∀ e, entry = some e → e.isLive now = false) :
    LockInv g.lifetime (fun t => passed t ∨ now = t) (some (g.lock now)) := by
  refine ⟨?_, ?_⟩
  · rintro e he
    obtain rfl := Option.some.inj he
    exact ⟨now, Or.inr rfl, rfl⟩
  · rintro t (ht | rfl)
    · obtain ⟨e, u, he, hu, hle⟩ := h.covers t ht
      have hdead : ¬ now < u := by
        rw [← Entry.isLive_of_expiry hu, hover e he]
        exact Bool.false_ne_true
      refine ⟨g.lock now, now.after g.lifetime, rfl, rfl, ?_⟩
      exact Instant.after_le_after_of_le (Instant.le_trans hle (Instant.not_lt.mp hdead)) _
    · exact ⟨g.lock now, now.after g.lifetime, rfl, rfl, Instant.le_refl _⟩

/-- **One step** keeps what is known of a lock. -/
theorem LockInv.step {lifetimes : Lifetimes} {notes name : String}
    (hnotes : ∀ o, x = .operate (.noted o) → Key.IsSpace notes ∧ notes ≠ Key.requestLock)
    {passed : Instant → Prop} (hk : k = Key.namespaced Key.requestLock name)
    (h : LockInv lifetimes.lock passed (b.store.find? k)) :
    LockInv lifetimes.lock
      (fun t => passed t ∨ x.lockKey? = some k ∧ x.passes (Shop.make lifetimes notes) b = true ∧
        b.now = t)
      ((x.after (Shop.make lifetimes notes) Memory.backend b).store.find? k) := by
  by_cases hx : x.lockKey? = some k
  · obtain ⟨hpass, hstore⟩ := Step.passes_and_store (s := Shop.make lifetimes notes) (b := b) hx
    rw [hstore]
    simp only [hx, hpass, true_and]
    by_cases hfree : Gate.Free k b
    · rw [if_pos hfree, Entries.find?_put, if_pos rfl]
      simp only [hfree, true_and]
      exact LockInv.put (g := (Shop.make lifetimes notes).gate) h
        (Entries.live?_eq_none_iff.mp hfree.2)
    · rw [if_neg hfree]
      simp only [hfree, false_and, or_false]
      exact h
  · subst hk
    rw [Step.find?_after hnotes hx]
    simp only [hx, false_and, or_false]
    exact h

/-- **A whole run** keeps it. -/
theorem lockInv_after (lifetimes : Lifetimes) {notes name : String} (start : Instant)
    (steps : List (Step β))
    (hnotes : ∀ o, .operate (.noted o) ∈ steps → Key.IsSpace notes ∧ notes ≠ Key.requestLock)
    (hk : k = Key.namespaced Key.requestLock name) :
    LockInv lifetimes.lock
      (PassedAt (Shop.make lifetimes notes) (freshBench start) steps k)
      (((Shop.make lifetimes notes).after Memory.backend steps (freshBench start)).store.find?
        k) := by
  induction steps using List.reverseRecOn with
  | nil =>
    exact ⟨fun e he => absurd he (by simp [freshBench]), fun t ht => absurd ht not_passedAt_nil⟩
  | append_singleton steps x ih =>
    have hbefore := ih fun o ho => hnotes o (List.mem_append_left _ ho)
    have hstep := LockInv.step (x := x) (fun o ho => hnotes o (by simp [ho])) hk hbefore
    rw [after_concat]
    have hpassed : PassedAt (Shop.make lifetimes notes) (freshBench start) (steps ++ [x]) k = _ :=
      funext fun t => propext passedAt_concat
    rw [hpassed]
    exact hstep

/-! ### What the gate promises -/

/-- What the gate promises over the steps of a run that begins on the bench `b₀`. -/
structure Exclusive (s : Shop) (b₀ : Bench Entries) (steps : List (Step β)) : Prop where
  /-- Two requests for one lock are let through a lifetime apart, as far as the calendar goes. -/
  apart : ∀ past x rest k t, steps = past ++ x :: rest → x.lockKey? = some k →
    PassedAt s b₀ past k t → x.passes s (s.after Memory.backend past b₀) = true →
    min (t.nanos + s.gate.lifetime.nanos) Instant.last.nanos ≤
      (s.after Memory.backend past b₀).now.nanos
  /-- A request is refused only if the store fails, or while an earlier one holds the lock. -/
  refused : ∀ past x rest k, steps = past ++ x :: rest → x.lockKey? = some k →
    x.passes s (s.after Memory.backend past b₀) = false →
    (s.after Memory.backend past b₀).failing .setIfAbsent ≠ none ∨
      ∃ t, PassedAt s b₀ past k t ∧ (s.after Memory.backend past b₀).now.nanos <
        min (t.nanos + s.gate.lifetime.nanos) Instant.last.nanos
  /-- A guarded operation is called once if its request is let through, and its caller is answered
  what it comes to; else it is not called. Whatever it comes to, the lock stays. -/
  guarded : ∀ past key outcome rest, steps = past ++ .operate (.guard key outcome) :: rest →
    let b := s.after Memory.backend past b₀
    let r := b.run Memory.backend ((Operation.guard key outcome).program s)
    if Step.passes s b (.operate (.guard key outcome)) then
      r.1 = outcome.mapError .operation ∧ r.2.calls = b.calls + 1 ∧
        r.2.store.find? key.storeKey = some ⟨"1", some (b.now.after s.gate.lifetime)⟩
    else r.1 = .error (.duplicate key.storeKey) ∧ r.2.calls = b.calls ∧ r.2.store = b.store
  /-- A guarded operation that is a program of its own runs once, on what the attempt leaves, or
  not at all. -/
  guardedProgram : ∀ (ε α : Type) (operation : Program (Except ε α)) (key : RequestKey)
    (b : Bench Entries), b.run Memory.backend (s.gate.guard key operation) =
      let attempt := b.run Memory.backend (s.gate.tryAcquire key)
      let outcome := attempt.2.run Memory.backend operation
      if attempt.1 then (outcome.1.mapError .operation, outcome.2)
      else (.error (.duplicate key.storeKey), attempt.2)

theorem run_guard_call (s : Shop) (b : Bench Entries) (key : RequestKey)
    (outcome : Except String β) :
    let r := b.run Memory.backend ((Operation.guard key outcome).program s)
    if Step.passes s b (.operate (.guard key outcome)) then
      r.1 = outcome.mapError .operation ∧ r.2.calls = b.calls + 1 ∧
        r.2.store.find? key.storeKey = some ⟨"1", some (b.now.after s.gate.lifetime)⟩
    else r.1 = .error (.duplicate key.storeKey) ∧ r.2.calls = b.calls ∧ r.2.store = b.store := by
  obtain ⟨hanswer, hstore, hcalls⟩ := Gate.run_tryAcquire s.gate key b
  have hpasses := (Step.passes_and_store (s := s) (b := b)
    (x := .operate (.guard key outcome)) rfl).1
  simp only [Operation.program, Gate.run_guard]
  by_cases hfree : Gate.Free key.storeKey b
  · rw [if_pos hfree] at hstore
    rw [if_pos (hpasses.mpr hfree), hanswer, decide_eq_true hfree, if_pos rfl]
    refine ⟨rfl, congrArg (· + 1) hcalls, ?_⟩
    show Entries.find? (b.run Memory.backend (s.gate.tryAcquire key)).2.store _ = _
    rw [hstore, Entries.find?_put, if_pos rfl]
    rfl
  · rw [if_neg hfree] at hstore
    rw [if_neg (fun h => hfree (hpasses.mp h)), hanswer, decide_eq_false hfree,
      if_neg Bool.false_ne_true]
    exact ⟨rfl, hcalls, hstore⟩

/-- **One request at a time.** Over every run of a shop on a fresh store, requests for one lock are
let through a lifetime apart, are refused for no other reason than the lock or the store, and
guarded operations are carried out once if their requests are let through. Notes may be kept in any
other namespace than that of the locks. -/
theorem exclusive_and_released (lifetimes : Lifetimes) {notes : String} (start : Instant)
    (steps : List (Step β))
    (hnotes : ∀ o, .operate (.noted o) ∈ steps → Key.IsSpace notes ∧ notes ≠ Key.requestLock) :
    Exclusive (Shop.make lifetimes notes) (freshBench start) steps := by
  have hinv : ∀ (past : List (Step β)) (x : Step β) (rest : List (Step β)) (k : String),
      steps = past ++ x :: rest → x.lockKey? = some k →
      LockInv lifetimes.lock (PassedAt (Shop.make lifetimes notes) (freshBench start) past k)
        (((Shop.make lifetimes notes).after Memory.backend past (freshBench start)).store.find?
          k) := by
    intro past x rest k hsteps hx
    obtain ⟨name, hname⟩ := Step.lockKey?_eq hx
    refine lockInv_after lifetimes start past (fun o ho => hnotes o ?_) hname
    rw [hsteps]
    exact List.mem_append_left _ ho
  refine ⟨?_, ?_, ?_, fun _ _ operation key b => Gate.run_guard _ key operation b⟩
  · intro past x rest k t hsteps hx hpassed hpasses
    obtain ⟨e, u, he, hu, hle⟩ := (hinv past x rest k hsteps hx).covers t hpassed
    have hfree := (Step.passes_and_store hx).1.mp hpasses
    have hdead := Entries.live?_eq_none_iff.mp hfree.2 e he
    rw [← Bool.not_eq_true, Entry.isLive_of_expiry hu, Instant.not_lt] at hdead
    rw [← Instant.nanos_after]
    exact Instant.le_trans hle hdead
  · intro past x rest k hsteps hx hpasses
    by_cases hf : ((Shop.make lifetimes notes).after Memory.backend past
        (freshBench start)).failing .setIfAbsent = none
    · refine Or.inr ?_
      have hfree : ¬ Gate.Free k _ := fun h => by
        rw [(Step.passes_and_store hx).1.mpr h] at hpasses
        exact Bool.false_ne_true hpasses.symm
      obtain ⟨e, he⟩ := Option.ne_none_iff_exists'.mp fun hl => hfree ⟨hf, hl⟩
      obtain ⟨hfind, hlive⟩ := Entries.live?_eq_some_iff.mp he
      obtain ⟨t, ht, hends⟩ := (hinv past x rest k hsteps hx).ends e hfind
      refine ⟨t, ht, ?_⟩
      rw [← Instant.nanos_after]
      exact (Entry.isLive_of_expiry hends).mp hlive
    · exact Or.inl hf
  · intro past key outcome rest _
    exact run_guard_call _ _ key outcome

/-- An order that is placed again before its second is over, and once more when it is over. -/
def repeatedOrder : List (Step Nat) :=
  let key := RequestKey.make "7" "post" "/api/orders/?page=2"
  [.operate (.guard key (.error "payment declined")), .advance (.ofMillis 400),
    .operate (.acquire key), .advance (.ofMillis 600), .operate (.acquire key)]

/-- The order is let through at first and at last, and refused in between, though nothing came of it
at first. -/
theorem exclusive_repeatedOrder :
    (∀ o, .operate (.noted o) ∈ repeatedOrder →
        Key.IsSpace "named" ∧ "named" ≠ Key.requestLock) ∧
      ([0, 2, 4].map fun i => repeatedOrder[i]?.map (Step.passes (Shop.make {} "named")
          ((Shop.make {} "named").after Memory.backend (repeatedOrder.take i)
            (freshBench .start)))) = [some true, some false, some true] ∧
      Exclusive (Shop.make {} "named") (freshBench .start) repeatedOrder := by
  have hnotes : ∀ o, .operate (.noted o) ∈ repeatedOrder →
      Key.IsSpace "named" ∧ "named" ≠ Key.requestLock := fun _ _ => ⟨by decide, by decide⟩
  exact ⟨hnotes, by decide +kernel, exclusive_and_released {} .start repeatedOrder hnotes⟩

end Shop

end Turnstile
