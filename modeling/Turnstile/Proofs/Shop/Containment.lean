import Turnstile.Proofs.Cache.Bench
import Turnstile.Proofs.Gate.Exclusion
import Turnstile.Proofs.Store.Failing
import Turnstile.Proofs.Tokens.Current

/-! # Failures are contained

What a store fails to do stays with the component that asked for it. The gate refuses
(`Gate.Contained`); a cache misses, skips or removes nothing (`Cache.Contained`), and a read through
it still comes to what its loader comes to, which runs once. So it goes for every operation whose
first command fails (`Operation.fallback`).

Nothing else is told of a failure. Components are blind to which failure it is
(`Operation.blind_program`), and the errors that they answer are their callers' own. And a command
that is made to fail has done nothing, so the store is what the other commands make of it.

All this holds for whichever commands of an operation fail: it gives them in a fixed order and none
twice (`Operation.kinds`), so that any of them can be ordered to fail beforehand
(`Operation.exists_failing`). -/

namespace Turnstile

open Turnstile.Store Turnstile.Time

variable {α β κ ε σ : Type} {store : Backend σ} {b : Bench σ}

/-! ### The gate -/

namespace Gate

variable {g : Gate} {key : RequestKey}

theorem run_tryAcquire_of_fails (h : b.Fails store (.setIfAbsent key.storeKey "1" g.lifetime)) :
    b.run store (g.tryAcquire key) =
      (false, Bench.note (.counted .gateRejected) (Bench.note (.counted .gateStoreErrors)
        (Bench.perform store (.setIfAbsent key.storeKey "1" g.lifetime) b).2)) := by
  obtain ⟨failure, hrun⟩ := Bench.run_ask_of_fails h _
  exact hrun

theorem blind_tryAcquire : (g.tryAcquire key).Blind := by
  refine Program.blind_ask (fun _ _ => rfl) fun r => ?_
  split
  · exact Program.blind_bind (Program.blind_count _) fun _ => Program.blind_pure _
  · exact Program.blind_bind (Program.blind_count _) fun _ => Program.blind_pure _
  · exact Program.blind_bind (Program.blind_count _) fun _ =>
      Program.blind_bind (Program.blind_count _) fun _ => Program.blind_pure _

theorem blind_guard {operation : Program (Except ε α)} (h : operation.Blind) :
    (g.guard key operation).Blind := by
  refine Program.blind_bind blind_tryAcquire fun free => ?_
  split
  · exact Program.blind_bind h fun _ => Program.blind_pure _
  · exact Program.blind_pure _

theorem given_tryAcquire :
    b.given store (g.tryAcquire key) = [.setIfAbsent key.storeKey "1" g.lifetime] := by
  rw [tryAcquire, Bench.given_ask]
  split <;> rfl

/-- **The gate fails closed.** -/
structure Contained (g : Gate) (store : Backend σ) (b : Bench σ) : Prop where
  /-- A request is refused if its lock cannot be asked for. -/
  acquire : ∀ key, b.Fails store (.setIfAbsent key.storeKey "1" g.lifetime) →
    (b.run store (g.tryAcquire key)).1 = false ∧
      (b.run store (g.tryAcquire key)).2.calls = b.calls
  /-- It then passes for a duplicate, and what it guards is not run. -/
  guard : ∀ (ε α : Type) key (operation : Program (Except ε α)),
    b.Fails store (.setIfAbsent key.storeKey "1" g.lifetime) →
      b.run store (g.guard key operation) =
        (.error (.duplicate key.storeKey), (b.run store (g.tryAcquire key)).2)
  /-- What else is answered as an error is the operation's own. -/
  errors : ∀ (ε α : Type) key (operation : Program (Except ε α)) failure,
    (b.run store (g.guard key operation)).1 = .error (.operation failure) →
      ((b.run store (g.tryAcquire key)).2.run store operation).1 = .error failure

theorem contained (g : Gate) (store : Backend σ) (b : Bench σ) : g.Contained store b := by
  refine ⟨?_, ?_, ?_⟩
  · intro key h
    rw [run_tryAcquire_of_fails h]
    exact ⟨rfl, Bench.calls_perform _ _ _⟩
  · intro ε α key operation h
    rw [run_guard, run_tryAcquire_of_fails h]
    rfl
  · intro ε α key operation failure h
    rw [run_guard] at h
    dsimp only at h
    split at h
    · cases houtcome : ((b.run store (g.tryAcquire key)).2.run store operation).1 with
      | error e => rw [houtcome] at h; cases h; rfl
      | ok a => rw [houtcome] at h; cases h
    · cases h

end Gate

/-! ### Caches -/

namespace Cache

variable {c : Cache κ α} {k : κ}

theorem run_get_of_fails (h : b.Fails store (.get (c.keyFor k))) :
    b.run store (c.get k) =
      (none, Bench.note (.counted (.cacheMisses c.space))
        (Bench.perform store (.get (c.keyFor k)) b).2) := by
  obtain ⟨failure, hrun⟩ := Bench.run_ask_of_fails h _
  exact hrun

theorem run_set_of_fails {v : α} {lifetime : Option Span} {text : String}
    (hencode : c.codec.encode v = .ok text)
    (h : b.Fails store (.set (c.keyFor k) text (some (lifetime.getD c.lifetime)))) :
    b.run store (c.set k v lifetime) =
      ((), Bench.note (.counted (.cacheWriteErrors c.space))
        (Bench.perform store (.set (c.keyFor k) text (some (lifetime.getD c.lifetime))) b).2) := by
  unfold set
  rw [hencode]
  obtain ⟨failure, hrun⟩ := Bench.run_ask_of_fails h _
  exact hrun

theorem run_delete_of_fails (h : b.Fails store (.delete (c.keyFor k))) :
    b.run store (c.delete k) = (false, (Bench.perform store (.delete (c.keyFor k)) b).2) := by
  obtain ⟨failure, hrun⟩ := Bench.run_ask_of_fails h _
  exact hrun

theorem run_invalidate_of_fails {stem : String}
    (h : b.Fails store (.deleteByPrefix (Key.namespaced c.space stem))) :
    b.run store (c.invalidate stem) =
      (0, (Bench.perform store (.deleteByPrefix (Key.namespaced c.space stem)) b).2) := by
  obtain ⟨failure, hrun⟩ := Bench.run_ask_of_fails h _
  exact hrun

theorem calls_set (k : κ) (v : α) (lifetime : Option Span) :
    (b.run store (c.set k v lifetime)).2.calls = b.calls := by
  unfold set
  split
  · rw [Bench.run_ask]
    split <;> exact Bench.calls_perform _ _ _
  · rfl

theorem blind_get : (c.get k).Blind := by
  refine Program.blind_ask (fun _ _ => rfl) fun r => ?_
  split
  · split
    · exact Program.blind_bind (Program.blind_count _) fun _ => Program.blind_pure _
    · exact Program.blind_bind (Program.blind_count _) fun _ =>
        Program.blind_bind (Program.blind_count _) fun _ => Program.blind_pure _
  · exact Program.blind_bind (Program.blind_count _) fun _ => Program.blind_pure _
  · exact Program.blind_bind (Program.blind_count _) fun _ => Program.blind_pure _

theorem blind_set (v : α) (lifetime : Option Span) : (c.set k v lifetime).Blind := by
  unfold set
  split
  · refine Program.blind_ask (fun _ _ => rfl) fun r => ?_
    split
    · exact Program.blind_pure _
    · exact Program.blind_count _
  · exact Program.blind_count _

theorem blind_delete : (c.delete k).Blind := by
  refine Program.blind_ask (fun _ _ => rfl) fun r => ?_
  split <;> exact Program.blind_pure _

theorem blind_invalidate (stem : String) : (c.invalidate stem).Blind := by
  refine Program.blind_ask (fun _ _ => rfl) fun r => ?_
  split <;> exact Program.blind_pure _

theorem blind_readThrough {load : Program (Except ε (Option α))} (h : load.Blind) :
    (c.readThrough k load).Blind := by
  refine Program.blind_bind blind_get fun found => ?_
  split
  · exact Program.blind_pure _
  · refine Program.blind_bind h fun loaded => ?_
    split
    · exact Program.blind_pure _
    · exact Program.blind_pure _
    · exact Program.blind_bind (blind_set _ none) fun _ => Program.blind_pure _

theorem given_get : b.given store (c.get k) = [.get (c.keyFor k)] := by
  rw [get, Bench.given_ask]
  split
  · split <;> rfl
  · rfl
  · rfl

/-- **A cache never fails.** -/
structure Contained (c : Cache κ α) (store : Backend σ) (b : Bench σ) : Prop where
  /-- What cannot be read is a miss. -/
  get : ∀ k, b.Fails store (.get (c.keyFor k)) → (b.run store (c.get k)).1 = none
  /-- What cannot be written is skipped, and the skip is counted. -/
  set : ∀ k v lifetime text, c.codec.encode v = .ok text →
    b.Fails store (.set (c.keyFor k) text (some (lifetime.getD c.lifetime))) →
      b.run store (c.set k v lifetime) =
        ((), Bench.note (.counted (.cacheWriteErrors c.space))
          (Bench.perform store (.set (c.keyFor k) text (some (lifetime.getD c.lifetime))) b).2)
  /-- What cannot be removed was not there. -/
  delete : ∀ k, b.Fails store (.delete (c.keyFor k)) → (b.run store (c.delete k)).1 = false
  invalidate : ∀ stem, b.Fails store (.deleteByPrefix (Key.namespaced c.space stem)) →
    (b.run store (c.invalidate stem)).1 = 0
  /-- A read through the cache that cannot read it is what its loader comes to, run once; whether
  that is written makes no difference to the answer. -/
  readThrough : ∀ (ε : Type) k (load : Program (Except ε (Option α))),
    b.Fails store (.get (c.keyFor k)) →
      b.run store (c.readThrough k load) =
        let loaded := (b.run store (c.get k)).2.run store load
        (loaded.1, match loaded.1 with
          | .ok (some v) => (loaded.2.run store (c.set k v none)).2
          | _ => loaded.2)
  /-- So a source that comes to this is called once. -/
  called : ∀ (ε : Type) k (loaded : Except ε (Option α)), b.Fails store (.get (c.keyFor k)) →
    (b.run store (c.readThrough k (Program.call loaded))).1 = loaded ∧
      (b.run store (c.readThrough k (Program.call loaded))).2.calls = b.calls + 1
  /-- What is answered as an error is the loader's own. -/
  errors : ∀ (ε : Type) k (load : Program (Except ε (Option α))) failure,
    (b.run store (c.readThrough k load)).1 = .error failure →
      ((b.run store (c.get k)).2.run store load).1 = .error failure

theorem contained (c : Cache κ α) (store : Backend σ) (b : Bench σ) : c.Contained store b where
  get k h := by rw [run_get_of_fails h]
  set k v lifetime text hencode h := run_set_of_fails hencode h
  delete k h := by rw [run_delete_of_fails h]
  invalidate stem h := by rw [run_invalidate_of_fails h]
  readThrough ε k load h := run_readThrough_of_miss (by rw [run_get_of_fails h]) load
  called ε k loaded h := by
    rw [run_readThrough_of_miss (by rw [run_get_of_fails h]), run_get_of_fails h]
    refine ⟨rfl, ?_⟩
    -- Neither the read before the call nor the write after it calls anyone.
    have hcalls : ∀ b' : Bench σ, b'.calls = b.calls →
        (b'.run store (Program.call loaded)).2.calls = b.calls + 1 := fun _ => congrArg (· + 1)
    rcases loaded with failure | _ | v
    · exact hcalls _ (Bench.calls_perform _ _ _)
    · exact hcalls _ (Bench.calls_perform _ _ _)
    · exact (calls_set k v none).trans (hcalls _ (Bench.calls_perform _ _ _))
  errors ε k load failure h := by
    cases hget : (b.run store (c.get k)).1 with
    | some v =>
      rw [run_readThrough_of_hit hget] at h
      cases h
    | none =>
      rw [run_readThrough_of_miss hget] at h
      exact h

end Cache

/-! ### Operations -/

namespace Shop

namespace CacheOperation

variable {c : Cache κ α} {o : CacheOperation κ α}

/-- What is answered if the first command fails. -/
def fallback : (o : CacheOperation κ α) → o.Answer
  | get _ => none
  | set .. => ()
  | delete _ => false
  | invalidate _ => (0 : Nat)
  | readThrough _ source => source

/-- Which commands are given, in turn, if all of them are needed. -/
def kinds : CacheOperation κ α → List Command.Kind
  | get _ => [.get]
  | set .. => [.set]
  | delete _ => [.delete]
  | invalidate _ => [.deleteByPrefix]
  | readThrough .. => [.get, .set]

theorem answer_of_fails (o : CacheOperation κ α)
    (h : ∀ x ∈ (b.given store (o.program c)).head?, b.Fails store x) :
    (b.run store (o.program c)).1 = o.fallback := by
  have hc := c.contained store b
  cases o with
  | get k => exact hc.get k (h _ rfl)
  | set k value lifetime => rfl
  | delete k => exact hc.delete k (h _ rfl)
  | invalidate stem => exact hc.invalidate stem (h _ rfl)
  | readThrough k source => exact (hc.called String k source (h _ rfl)).1

theorem blind_program (c : Cache κ α) (o : CacheOperation κ α) : (o.program c).Blind := by
  cases o with
  | get k => exact Cache.blind_get
  | set k value lifetime => exact Cache.blind_set value lifetime
  | delete k => exact Cache.blind_delete
  | invalidate stem => exact Cache.blind_invalidate stem
  | readThrough k source => exact Cache.blind_readThrough (Program.blind_call source)

theorem kinds_given (c : Cache κ α) (o : CacheOperation κ α) (store : Backend σ) (b : Bench σ) :
    (b.given store (o.program c)).map Command.kind <+: o.kinds := by
  have hset : ∀ k value lifetime (b : Bench σ),
      (b.given store (c.set k value lifetime)).map Command.kind <+: [.set] := by
    intro k value lifetime b
    unfold Cache.set
    split
    · rw [Bench.given_ask]
      split <;> exact List.prefix_rfl
    · exact List.nil_prefix
  cases o with
  | get k =>
    rw [program, Cache.given_get]
    exact List.prefix_rfl
  | set k value lifetime => exact hset k value lifetime b
  | delete k =>
    rw [program, Cache.delete, Bench.given_ask]
    split <;> exact List.prefix_rfl
  | invalidate stem =>
    rw [program, Cache.invalidate, Bench.given_ask]
    split <;> exact List.prefix_rfl
  | readThrough k source =>
    rw [program, Cache.readThrough, Bench.given_bind, Cache.given_get]
    refine (List.prefix_append_right_inj [_]).mpr ?_
    split
    · exact List.nil_prefix
    · rcases source with failure | _ | value
      · exact List.nil_prefix
      · exact List.nil_prefix
      · show ((Bench.note .called (b.run store (c.get k)).2).given store
          (c.set k value none >>= fun _ => pure _)).map Command.kind <+: _
        rw [Bench.given_bind_pure]
        exact hset k value none _

end CacheOperation

namespace Operation

variable {s : Shop}

/-- What is answered if the first command fails. -/
def fallback : (o : Operation β) → o.Answer
  | acquire _ => false
  | guard key _ => .error (.duplicate key.storeKey)
  | countView .. => none
  | viewCount _ => none
  | resetViews _ => false
  | saveToken .. => ()
  | findToken _ => none
  | checkToken .. => false
  | revokeToken _ => false
  | invalidateCuration _ => (0 : Nat)
  | product o => o.fallback
  | curationPage o => o.fallback
  | stock o => o.fallback
  | memberToken o => o.fallback
  | noted o => o.fallback

/-- Which commands are given, in turn, if all of them are needed. -/
def kinds : Operation β → List Command.Kind
  | acquire _ | guard .. => [.setIfAbsent]
  | countView .. => [.incrBy]
  | viewCount _ | findToken _ | checkToken .. => [.get]
  | resetViews _ | revokeToken _ => [.delete]
  | saveToken .. => [.set]
  | invalidateCuration _ => [.deleteByPrefix]
  | product o => o.kinds
  | curationPage o => o.kinds
  | stock o => o.kinds
  | memberToken o => o.kinds
  | noted o => o.kinds

theorem nodup_kinds (o : Operation β) : o.kinds.Nodup := by
  have hcache : ∀ {κ α : Type} (o : CacheOperation κ α), o.kinds.Nodup := by
    intro κ α o
    cases o <;> simp [CacheOperation.kinds]
  cases o with
  | product o => exact hcache o
  | curationPage o => exact hcache o
  | stock o => exact hcache o
  | memberToken o => exact hcache o
  | noted o => exact hcache o
  | _ => simp [kinds]

theorem answer_of_fails (o : Operation β)
    (h : ∀ x ∈ (b.given store (o.program s)).head?, b.Fails store x) :
    (b.run store (o.program s)).1 = o.fallback := by
  have hgate := s.gate.contained store b
  cases o with
  | acquire key => exact (hgate.acquire key (h _ rfl)).1
  | guard key outcome =>
    exact congrArg Prod.fst (hgate.guard String β key (Program.call outcome) (h _ rfl))
  | countView id delta =>
    obtain ⟨failure, hrun⟩ := Bench.run_ask_of_fails (h _ rfl) _
    exact congrArg Prod.fst hrun
  | viewCount id =>
    obtain ⟨failure, hrun⟩ := Bench.run_ask_of_fails (h _ rfl) _
    exact congrArg Prod.fst hrun
  | resetViews id =>
    obtain ⟨failure, hrun⟩ := Bench.run_ask_of_fails (h _ rfl) _
    exact congrArg Prod.fst hrun
  | saveToken id token => rfl
  | findToken id => exact (s.tokens.cache.contained store b).get id (h _ rfl)
  | checkToken id presented =>
    have hfind : (b.run store (s.tokens.find id)).1 = none :=
      (s.tokens.cache.contained store b).get id (h _ rfl)
    rw [program, RefreshTokens.run_isCurrent, hfind]
    rfl
  | revokeToken id => exact (s.tokens.cache.contained store b).delete id (h _ rfl)
  | invalidateCuration id => exact (s.curations.contained store b).invalidate _ (h _ rfl)
  | product o => exact o.answer_of_fails h
  | curationPage o => exact o.answer_of_fails h
  | stock o => exact o.answer_of_fails h
  | memberToken o => exact o.answer_of_fails h
  | noted o => exact o.answer_of_fails h

theorem blind_program (s : Shop) (o : Operation β) : (o.program s).Blind := by
  cases o with
  | acquire key => exact Gate.blind_tryAcquire
  | guard key outcome => exact Gate.blind_guard (Program.blind_call outcome)
  | countView id delta =>
    refine Program.blind_ask (fun _ _ => rfl) fun r => ?_
    split <;> exact Program.blind_bind (Program.blind_count _) fun _ => Program.blind_pure _
  | viewCount id =>
    refine Program.blind_ask (fun _ _ => rfl) fun r => ?_
    split <;> exact Program.blind_pure _
  | resetViews id =>
    refine Program.blind_ask (fun _ _ => rfl) fun r => ?_
    split <;> exact Program.blind_pure _
  | saveToken id token => exact Cache.blind_set token none
  | findToken id => exact Cache.blind_get
  | checkToken id presented =>
    exact Program.blind_bind Cache.blind_get fun _ => Program.blind_pure _
  | revokeToken id => exact Cache.blind_delete
  | invalidateCuration id => exact Cache.blind_invalidate _
  | product o => exact o.blind_program s.products
  | curationPage o => exact o.blind_program s.curations
  | stock o => exact o.blind_program s.stocks
  | memberToken o => exact o.blind_program s.members
  | noted o => exact o.blind_program s.notes

theorem kinds_given (s : Shop) (o : Operation β) (store : Backend σ) (b : Bench σ) :
    (b.given store (o.program s)).map Command.kind <+: o.kinds := by
  cases o with
  | acquire key =>
    rw [program, Gate.given_tryAcquire]
    exact List.prefix_rfl
  | guard key outcome =>
    rw [program, Gate.guard, Bench.given_bind, Gate.given_tryAcquire]
    split <;> exact List.prefix_rfl
  | countView id delta =>
    rw [program, Views.increment, Bench.given_ask]
    split <;> exact List.prefix_rfl
  | viewCount id =>
    rw [program, Views.count, Bench.given_ask]
    split <;> exact List.prefix_rfl
  | resetViews id =>
    rw [program, Views.reset, Bench.given_ask]
    split <;> exact List.prefix_rfl
  | saveToken id token =>
    exact CacheOperation.kinds_given s.tokens.cache (.set id token none) store b
  | findToken id => exact CacheOperation.kinds_given s.tokens.cache (.get id) store b
  | checkToken id presented =>
    rw [program, RefreshTokens.isCurrent, Bench.given_bind_pure]
    exact CacheOperation.kinds_given s.tokens.cache (.get id) store b
  | revokeToken id => exact CacheOperation.kinds_given s.tokens.cache (.delete id) store b
  | invalidateCuration id =>
    exact CacheOperation.kinds_given s.curations (.invalidate _) store b
  | product o => exact o.kinds_given s.products store b
  | curationPage o => exact o.kinds_given s.curations store b
  | stock o => exact o.kinds_given s.stocks store b
  | memberToken o => exact o.kinds_given s.members store b
  | noted o => exact o.kinds_given s.notes store b

/-- **Whatever fails can be ordered**: the failures of an operation's commands, one by one. -/
theorem exists_failing (s : Shop) (o : Operation β) (store : Backend σ) (b : Bench σ)
    (failures : ℕ → Option Failure) :
    ∃ failing, ∀ i x, ((b.withFailing failing).given store (o.program s))[i]? = some x →
      failing x.kind = failures i := by
  -- The i-th command is of the i-th kind, and no other command is.
  refine ⟨fun kind => failures (o.kinds.idxOf kind), fun i x hx => ?_⟩
  obtain ⟨hi, rfl⟩ := List.getElem?_eq_some_iff.mp hx
  have hkind := List.prefix_iff_getElem?.mp (o.kinds_given s store _) i
    (by rwa [List.length_map])
  rw [List.getElem_map] at hkind
  obtain ⟨hi', hget⟩ := List.getElem?_eq_some_iff.mp hkind
  dsimp only
  rw [← hget, o.nodup_kinds.idxOf_getElem i hi']

end Operation

/-! ### What failures come to -/

/-- What failures of store commands come to in a shop on the bench. -/
structure Contained (s : Shop) (store : Backend σ) (b : Bench σ) : Prop where
  /-- Every command fails that is ordered to fail. -/
  fails : ∀ x : Command, b.failing x.kind ≠ none → b.Fails store x
  /-- The gate fails closed, whatever program it guards. -/
  gate : s.gate.Contained store b
  /-- Caches fail open, whatever they keep and whatever program loads it. -/
  caches : ∀ (κ α : Type) (c : Cache κ α), c.Contained store b
  /-- An operation whose first command fails is answered without the store. -/
  fallback : ∀ (β : Type) (o : Operation β),
    (∀ x ∈ (b.given store (o.program s)).head?, b.Fails store x) →
      (b.run store (o.program s)).1 = o.fallback
  /-- No failure is told to anyone: if the same commands fail for other reasons, the answer is the
  same, and so is all that is left behind. -/
  untold : ∀ (β : Type) (o : Operation β) (store' : Backend σ) failing, store.Alike store' →
    (∀ kind, (failing kind).isSome = (b.failing kind).isSome) →
      (b.withFailing failing).run store' (o.program s) =
        ((b.run store (o.program s)).1, (b.run store (o.program s)).2.withFailing failing)
  /-- The store is what the commands that are not made to fail make of it. -/
  reached : ∀ (α : Type) (p : Program α), (b.run store p).2.store =
    store.afterAll b.now ((b.given store p).filter fun x => (b.failing x.kind).isNone) b.store
  /-- So it stays as it was if all of them are made to fail. -/
  unreached : ∀ (α : Type) (p : Program α),
    (∀ x ∈ b.given store p, b.failing x.kind ≠ none) → (b.run store p).2.store = b.store
  /-- The commands of an operation can be made to fail one by one, in any way. -/
  ordered : ∀ (β : Type) (o : Operation β) (failures : ℕ → Option Failure),
    ∃ failing, ∀ i x, ((b.withFailing failing).given store (o.program s))[i]? = some x →
      failing x.kind = failures i

/-- **Failures are contained**, in any shop, on any store, whatever it holds and whichever commands
fail. -/
theorem failures_contained (s : Shop) (store : Backend σ) (b : Bench σ) : s.Contained store b where
  fails _ h := Bench.fails_of_failing h
  gate := s.gate.contained store b
  caches _ _ c := c.contained store b
  fallback _ o h := o.answer_of_fails h
  untold _ o _ _ hstore hfailing := Bench.run_of_blind (o.blind_program s) hstore hfailing
  reached _ p := Bench.store_run store p b
  unreached _ _ h := Bench.store_run_of_failing h
  ordered _ o failures := o.exists_failing s store b failures

/-- Neither the failed read nor the failed write keeps what was loaded from being answered. -/
example :
    let busy : Option Failure := some (.refused "busy")
    let b : Bench Entries := ((freshBench .start).order .get busy).order .set busy
    let tea : Operation Nat := .noted (.readThrough "tea" (.ok (some "green")))
    let r := b.run Memory.backend (tea.program (Shop.make {} "named"))
    (r.2.calls, r.2.metrics.log, r.2.store.find? "named:tea") =
      (1, [.cacheWriteErrors "named", .cacheMisses "named"], none) := by
  decide +kernel

end Shop

end Turnstile
