import Turnstile.Proofs.Store.Bench

/-! # Commands that fail

On the bench a program gives certain commands in turn (`Bench.given`), and of these the ones that are
not ordered to fail reach the store. The store after the program is what they make of it
(`Bench.store_run`); so if none of them reaches the store, it is the store from before.

A program that goes on alike after all failures of a command (`Program.Blind`) can tell that a command
has failed, but not why: with other failures in place of the ones it met, it comes to the same result
and leaves the same bench (`Bench.run_of_blind`). -/

namespace Turnstile.Store

open Turnstile.Time

variable {α β σ : Type}

/-! ### What reaches the store -/

/-- What commands make of what the store holds. -/
def Backend.afterAll (store : Backend σ) (now : Instant) (cs : List Command) (m : σ) : σ :=
  cs.foldl (fun m c => (store.step now c m).2) m

namespace Bench

variable {store : Backend σ} {b : Bench σ} {c : Command}

/-- The command is answered with a failure. -/
def Fails (store : Backend σ) (b : Bench σ) (c : Command) : Prop :=
  ∃ failure, (perform store c b).1 = .error failure

theorem fails_of_failing (h : b.failing c.kind ≠ none) : b.Fails store c := by
  obtain ⟨failure, hfailing⟩ := Option.ne_none_iff_exists'.mp h
  exact ⟨failure, by rw [perform_of_failing hfailing]⟩

theorem run_ask_of_fails (h : b.Fails store c) (f : c.Reply → Program α) :
    ∃ failure, b.run store (Program.command c >>= f) =
      (perform store c b).2.run store (f (.error failure)) := by
  obtain ⟨failure, hfails⟩ := h
  exact ⟨failure, by rw [run_ask, hfails]⟩

/-- The commands that a program gives on the bench, in turn. -/
def given (store : Backend σ) : Program α → Bench σ → List Command
  | .done _, _ => []
  | .ask c next, b => c :: given store (next (perform store c b).1) (perform store c b).2
  | .emit e next, b => given store next (note e b)

theorem given_ask (store : Backend σ) (c : Command) (f : c.Reply → Program α) (b : Bench σ) :
    b.given store (Program.command c >>= f) =
      c :: (perform store c b).2.given store (f (perform store c b).1) := rfl

theorem given_bind (store : Backend σ) (p : Program α) (f : α → Program β) (b : Bench σ) :
    b.given store (p >>= f) =
      b.given store p ++ (b.run store p).2.given store (f (b.run store p).1) := by
  show given store (p.bind f) b = _
  induction p generalizing b with
  | done a => rfl
  | ask c next ih => exact congrArg (c :: ·) (ih _ _)
  | emit e next ih => exact ih _

theorem given_bind_pure (store : Backend σ) (p : Program α) (f : α → β) (b : Bench σ) :
    b.given store (p >>= fun a => pure (f a)) = b.given store p :=
  (given_bind store p _ b).trans (List.append_nil _)

/-- **The store afterwards** is what the commands that reach it make of it. -/
theorem store_run (store : Backend σ) (p : Program α) (b : Bench σ) :
    (b.run store p).2.store = store.afterAll b.now
      ((b.given store p).filter fun c => (b.failing c.kind).isNone) b.store := by
  induction p generalizing b with
  | done a => rfl
  | ask c next ih =>
    have hrest := ih (perform store c b).1 (perform store c b).2
    rw [now_perform, failing_perform] at hrest
    show ((perform store c b).2.run store (next (perform store c b).1)).2.store = _
    rw [hrest, given]
    unfold perform
    cases hf : b.failing c.kind with
    | some failure =>
      rw [List.filter_cons_of_neg (by rw [hf]; exact Bool.false_ne_true)]
    | none =>
      rw [List.filter_cons_of_pos (by rw [hf]; rfl)]
      rfl
  | emit e next ih =>
    have hrest := ih (note e b)
    rw [now_note, failing_note, store_note] at hrest
    exact hrest

theorem store_run_of_failing {p : Program α} (h : ∀ c ∈ b.given store p, b.failing c.kind ≠ none) :
    (b.run store p).2.store = b.store := by
  have hnone : (b.given store p).filter (fun c => (b.failing c.kind).isNone) = [] :=
    List.filter_eq_nil_iff.mpr fun c hc hready => h c hc (Option.isNone_iff_eq_none.mp hready)
  rw [store_run, hnone]
  rfl

end Bench

/-! ### What is told of a failure -/

namespace Program

/-- After a failure the program goes on alike, whatever the failure is. -/
def Blind : Program α → Prop
  | done _ => True
  | ask _ next => (∀ x y, next (.error x) = next (.error y)) ∧ ∀ r, (next r).Blind
  | emit _ next => next.Blind

theorem blind_pure (a : α) : (pure a : Program α).Blind := trivial

theorem blind_count (c : Metrics.Counter) : (count c).Blind := trivial

theorem blind_call (a : α) : (call a).Blind := trivial

theorem blind_ask {c : Command} {f : c.Reply → Program α}
    (herror : ∀ x y, f (.error x) = f (.error y)) (hf : ∀ r, (f r).Blind) :
    (command c >>= f).Blind := ⟨herror, hf⟩

theorem blind_bind {p : Program α} {f : α → Program β} (hp : p.Blind) (hf : ∀ a, (f a).Blind) :
    (p >>= f).Blind := by
  show (p.bind f).Blind
  induction p with
  | done a => exact hf a
  | ask c next ih =>
    exact ⟨fun x y => congrArg (Program.bind · f) (hp.1 x y), fun r => ih r (hp.2 r)⟩
  | emit e next ih => exact ih hp

end Program

/-- The stores differ in nothing but the failures that they answer with. -/
def Backend.Alike (store store' : Backend σ) : Prop :=
  ∀ now c m, (store'.step now c m).1.toOption = (store.step now c m).1.toOption ∧
    (store'.step now c m).2 = (store.step now c m).2

namespace Bench

variable {store store' : Backend σ} {b : Bench σ}

/-- The same commands fail on the bench, for other reasons. -/
def withFailing (b : Bench σ) (failing : Command.Kind → Option Failure) : Bench σ :=
  { b with failing := failing }

theorem perform_withFailing (hstore : store.Alike store') {failing : Command.Kind → Option Failure}
    (hfailing : ∀ kind, (failing kind).isSome = (b.failing kind).isSome) (c : Command) :
    (perform store' c (b.withFailing failing)).1.toOption = (perform store c b).1.toOption ∧
      (perform store' c (b.withFailing failing)).2 = (perform store c b).2.withFailing failing := by
  have hkind := hfailing c.kind
  unfold perform withFailing
  dsimp only
  cases hf : b.failing c.kind with
  | some failure =>
    rw [hf, Option.isSome_some, Option.isSome_iff_exists] at hkind
    obtain ⟨failure', hf'⟩ := hkind
    rw [hf']
    exact ⟨rfl, rfl⟩
  | none =>
    rw [hf, Option.isSome_none, Option.isSome_eq_false_iff, Option.isNone_iff_eq_none] at hkind
    rw [hkind]
    obtain ⟨hreply, hleft⟩ := hstore b.now c b.store
    exact ⟨hreply, by rw [hleft]⟩

/-- **A blind program** comes to the same result with other failures, and leaves the same bench. -/
theorem run_of_blind {p : Program α} (hp : p.Blind) (hstore : store.Alike store')
    {failing : Command.Kind → Option Failure}
    (hfailing : ∀ kind, (failing kind).isSome = (b.failing kind).isSome) :
    (b.withFailing failing).run store' p =
      ((b.run store p).1, (b.run store p).2.withFailing failing) := by
  induction p generalizing b with
  | done a => rfl
  | ask c next ih =>
    obtain ⟨hreply, hleft⟩ := perform_withFailing hstore hfailing c
    show (perform store' c (b.withFailing failing)).2.run store'
      (next (perform store' c (b.withFailing failing)).1) = _
    rw [hleft]
    have hnext : next (perform store' c (b.withFailing failing)).1 =
        next (perform store c b).1 := by
      cases h' : (perform store' c (b.withFailing failing)).1 with
      | error x =>
        cases h : (perform store c b).1 with
        | error y => exact hp.1 x y
        | ok a => rw [h', h] at hreply; cases hreply
      | ok a' =>
        cases h : (perform store c b).1 with
        | error y => rw [h', h] at hreply; cases hreply
        | ok a =>
          rw [h', h] at hreply
          rw [Option.some.inj hreply]
    rw [hnext]
    exact ih _ (hp.2 _) (by rw [failing_perform]; exact hfailing)
  | emit e next ih =>
    have hnote : note e (b.withFailing failing) = (note e b).withFailing failing := by
      cases e <;> rfl
    show (note e (b.withFailing failing)).run store' next = _
    rw [hnote]
    exact ih hp (by rw [failing_note]; exact hfailing)

end Bench

end Turnstile.Store
