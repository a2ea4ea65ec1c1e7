import Turnstile.Proofs.Gate.Exclusion
import Turnstile.Proofs.Tokens.Current

/-! # Events are counted once

What a program counts on the bench is a list of events (`Bench.counted`), and a counter goes up by the
number of times that its event occurs there (`Bench.value_run`). For a component the list is known
from what it answers and from what the store shows to whoever reads it (`Sight`): a request at the
gate, a read of a cache or a view leaves one event, or two if the store is to blame; a write leaves
one if it is skipped, and else none.

An operation makes at most one attempt at the gate, one read and one write, so what it counts is known
too (`Moment.tally`). `events_conserved` adds this up over whole runs: a counter is the number of the
operations to which its event happened. -/

namespace Turnstile

open Turnstile.Store Turnstile.Time

variable {α β κ ε σ : Type}

/-! ### What a program counts -/

namespace Metrics

/-- The event, if it happened. -/
def Counter.when (c : Counter) (happened : Bool) : List Counter := if happened then [c] else []

@[simp] theorem count_when (c d : Counter) (happened : Bool) :
    (c.when happened).count d = if happened && c = d then 1 else 0 := by
  cases happened <;> simp [Counter.when, List.count_singleton]

end Metrics

namespace Store

def Event.counters : Event → List Metrics.Counter
  | .counted c => [c]
  | .called => []

namespace Bench

/-- The events that a program counts on the bench, in turn. -/
def counted (store : Backend σ) : Program α → Bench σ → List Metrics.Counter
  | .done _, _ => []
  | .ask c next, b => counted store (next (perform store c b).1) (perform store c b).2
  | .emit e next, b => e.counters ++ counted store next (note e b)

variable {store : Backend σ} {b : Bench σ}

theorem counted_ask (store : Backend σ) (c : Command) (f : c.Reply → Program α) (b : Bench σ) :
    b.counted store (Program.command c >>= f) =
      (perform store c b).2.counted store (f (perform store c b).1) := rfl

theorem counted_bind (store : Backend σ) (p : Program α) (f : α → Program β) (b : Bench σ) :
    b.counted store (p >>= f) =
      b.counted store p ++ (b.run store p).2.counted store (f (b.run store p).1) := by
  show counted store (p.bind f) b = _
  induction p generalizing b with
  | done a => rfl
  | ask c next ih => exact ih _ _
  | emit e next ih =>
    show e.counters ++ _ = (e.counters ++ _) ++ _
    rw [ih, List.append_assoc]
    rfl

theorem value_note (e : Event) (d : Metrics.Counter) :
    (note e b).metrics.value d = b.metrics.value d + e.counters.count d := by
  cases e with
  | counted c =>
    rw [show (note (.counted c) b).metrics = b.metrics.add c from rfl, Metrics.value_add,
      Event.counters, List.count_singleton]
    simp only [beq_iff_eq]
  | called => rfl

/-- **A counter goes up** by the number of its events. -/
theorem value_run (store : Backend σ) (p : Program α) (b : Bench σ) (d : Metrics.Counter) :
    (b.run store p).2.metrics.value d = b.metrics.value d + (b.counted store p).count d := by
  induction p generalizing b with
  | done a => rfl
  | ask c next ih =>
    have hrest := ih (perform store c b).1 (perform store c b).2
    rw [metrics_perform] at hrest
    exact hrest
  | emit e next ih =>
    have hrest := ih (note e b)
    rw [value_note] at hrest
    rw [counted, List.count_append, ← Nat.add_assoc]
    exact hrest

end Bench

/-! ### What a store shows -/

/-- What a store shows to its readers, and whether anyone can reach it. -/
structure Sight (σ : Type) where
  /-- The value that counts under a key. -/
  value? : Instant → String → σ → Option String
  reachable : Bool

namespace Sight

/-- The value that a reader of the key finds. -/
def found? (v : Sight σ) (b : Bench σ) (key : String) : Option String :=
  if b.failing .get = none then v.value? b.now key b.store else none

/-- Commands of the kind fail, by order or because nobody can reach the store. -/
def fails (v : Sight σ) (b : Bench σ) (kind : Command.Kind) : Bool :=
  (b.failing kind).isSome || !v.reachable

/-- The store answers reads and writes as it shows. -/
structure Shows (v : Sight σ) (store : Backend σ) : Prop where
  get : ∀ now key m, (store.step now (.get key) m).1.toOption.join = v.value? now key m
  set : ∀ now key text lifetime m,
    (store.step now (.set key text lifetime) m).1.isOk = v.reachable
  setIfAbsent : ∀ now key text lifetime m,
    (store.step now (.setIfAbsent key text lifetime) m).1.isOk = v.reachable

variable {v : Sight σ} {store : Backend σ}

theorem Shows.found?_eq (h : v.Shows store) (b : Bench σ) (key : String) :
    (Bench.perform store (.get key) b).1.toOption.join = v.found? b key := by
  unfold found?
  cases hf : b.failing .get with
  | some failure =>
    rw [Bench.perform_of_failing hf]
    rfl
  | none =>
    rw [Bench.perform_of_ready hf, if_pos rfl]
    exact h.get b.now key b.store

theorem fails_eq {c : Command} {b : Bench σ}
    (h : (store.step b.now c b.store).1.isOk = v.reachable) :
    v.fails b c.kind = !(Bench.perform store c b).1.isOk := by
  unfold fails
  cases hf : b.failing c.kind with
  | some failure =>
    rw [Bench.perform_of_failing hf]
    rfl
  | none =>
    rw [Bench.perform_of_ready hf, h]
    rfl

end Sight

/-- What the store in memory shows. -/
def Memory.sight : Sight Entries :=
  ⟨fun now key m => (m.live? now key).map Entry.value, true⟩

theorem Memory.shows_sight : Memory.sight.Shows Memory.backend where
  get now key m := rfl
  set now key text lifetime m := rfl
  setIfAbsent now key text lifetime m := by
    simp only [Memory.backend, Memory.step]
    split <;> rfl

/-- What a store shows that nobody can reach. -/
def Outage.sight : Sight Nat := ⟨fun _ _ _ => none, false⟩

theorem Outage.shows_sight : Outage.sight.Shows Outage.backend where
  get _ _ _ := rfl
  set _ _ _ _ _ := rfl
  setIfAbsent _ _ _ _ _ := rfl

end Store

/-! ### The components -/

open Metrics (Counter)

variable {store : Backend σ} {v : Sight σ} {b : Bench σ}

theorem Gate.counted_tryAcquire (h : v.Shows store) (g : Gate) (key : RequestKey) (b : Bench σ) :
    b.counted store (g.tryAcquire key) =
      let free := (b.run store (g.tryAcquire key)).1
      Counter.gateAcquired.when free ++
        (Counter.gateStoreErrors.when (!free && v.fails b .setIfAbsent) ++
          Counter.gateRejected.when !free) := by
  have hfails : v.fails b .setIfAbsent = _ :=
    Sight.fails_eq (h.setIfAbsent b.now key.storeKey "1" g.lifetime b.store)
  rw [tryAcquire, Bench.counted_ask, Bench.run_ask, hfails]
  cases (Bench.perform store (.setIfAbsent key.storeKey "1" g.lifetime) b).1 with
  | error failure => rfl
  | ok free => cases free <;> rfl

theorem Gate.counted_guard (g : Gate) (key : RequestKey) (outcome : Except ε α) (b : Bench σ) :
    b.counted store (g.guard key (Program.call outcome)) = b.counted store (g.tryAcquire key) := by
  rw [guard, Bench.counted_bind]
  refine Eq.trans (congrArg (b.counted store (g.tryAcquire key) ++ ·) ?_) (List.append_nil _)
  split <;> rfl

theorem Views.counted_increment (product : UInt64) (delta : Int64) (b : Bench σ) :
    b.counted store (increment product delta) =
      let total := (b.run store (increment product delta)).1
      Counter.viewIncrements.when total.isSome ++ Counter.viewErrors.when total.isNone := by
  rw [increment, Bench.counted_ask, Bench.run_ask]
  cases (Bench.perform store (.incrBy (Key.views product) delta) b).1 <;> rfl

namespace Cache

/-- A read of a cache: which key, and which texts there can be decoded. -/
structure Lookup where
  space : String
  key : String
  decodes : String → Bool

namespace Lookup

/-- The read finds a value. -/
def isHit (l : Lookup) (v : Sight σ) (b : Bench σ) : Bool := (v.found? b l.key).any l.decodes

/-- The read finds an entry that cannot be decoded. -/
def isGarbled (l : Lookup) (v : Sight σ) (b : Bench σ) : Bool :=
  (v.found? b l.key).any fun text => !l.decodes text

/-- What the read counts. -/
def tally (l : Lookup) (v : Sight σ) (b : Bench σ) : List Counter :=
  (Counter.cacheHits l.space).when (l.isHit v b) ++
    ((Counter.cacheDecodeErrors l.space).when (l.isGarbled v b) ++
      (Counter.cacheMisses l.space).when !l.isHit v b)

end Lookup

/-- A write to a cache: whether there is a text to write. -/
structure Write where
  space : String
  encodes : Bool

namespace Write

/-- The write is skipped. -/
def isSkipped (w : Write) (v : Sight σ) (b : Bench σ) : Bool := !w.encodes || v.fails b .set

/-- What the write counts. -/
def tally (w : Write) (v : Sight σ) (b : Bench σ) : List Counter :=
  (Counter.cacheWriteErrors w.space).when (w.isSkipped v b)

end Write

/-- The read of a value. -/
def lookup (c : Cache κ α) (k : κ) : Lookup :=
  ⟨c.space, c.keyFor k, fun text => (c.codec.decode text).isOk⟩

/-- The write of a value. -/
def write (c : Cache κ α) (value : α) : Write := ⟨c.space, (c.codec.encode value).isOk⟩

theorem hit_and_counted_get (h : v.Shows store) (c : Cache κ α) (k : κ) (b : Bench σ) :
    (b.run store (c.get k)).1.isSome = (c.lookup k).isHit v b ∧
      b.counted store (c.get k) = (c.lookup k).tally v b := by
  unfold Lookup.tally Lookup.isGarbled Lookup.isHit
  rw [get, Bench.run_ask, Bench.counted_ask, lookup, ← h.found?_eq b]
  rcases (Bench.perform store (.get (c.keyFor k)) b).1 with failure | _ | text
  · exact ⟨rfl, rfl⟩
  · exact ⟨rfl, rfl⟩
  · simp only [Except.toOption, Option.join_some, Option.any_some]
    cases c.codec.decode text <;> exact ⟨rfl, rfl⟩

theorem counted_set (h : v.Shows store) (c : Cache κ α) (k : κ) (value : α)
    (lifetime : Option Span) (b : Bench σ) :
    b.counted store (c.set k value lifetime) = (c.write value).tally v b := by
  unfold Write.tally Write.isSkipped write set
  cases c.codec.encode value with
  | error failure => rfl
  | ok text =>
    have hfails : v.fails b .set = _ :=
      Sight.fails_eq (h.set b.now (c.keyFor k) text (some (lifetime.getD c.lifetime)) b.store)
    dsimp only
    rw [Bench.counted_ask, hfails]
    cases (Bench.perform store (.set (c.keyFor k) text (some (lifetime.getD c.lifetime))) b).1 <;>
      rfl

theorem counted_readThrough (h : v.Shows store) (c : Cache κ α) (k : κ)
    (source : Except ε (Option α)) (b : Bench σ) :
    b.counted store (c.readThrough k (Program.call source)) =
      (c.lookup k).tally v b ++ match source with
        | .ok (some value) => if (c.lookup k).isHit v b then [] else (c.write value).tally v b
        | _ => [] := by
  obtain ⟨hhit, hcounted⟩ := hit_and_counted_get h c k b
  rw [readThrough, Bench.counted_bind, hcounted]
  refine congrArg ((c.lookup k).tally v b ++ ·) ?_
  cases hget : (b.run store (c.get k)).1 with
  | some value =>
    rw [hget, Option.isSome_some] at hhit
    rcases source with failure | _ | value
    · rfl
    · rfl
    · exact (if_pos hhit.symm).symm
  | none =>
    rw [hget, Option.isSome_none] at hhit
    rcases source with failure | _ | value
    · rfl
    · rfl
    · dsimp only
      rw [← hhit, if_neg Bool.false_ne_true]
      show (Bench.note .called (b.run store (c.get k)).2).counted store
        (c.set k value none >>= fun _ => pure _) = _
      rw [Bench.counted_bind, counted_set h]
      refine (List.append_nil _).trans ?_
      unfold Write.tally Write.isSkipped Sight.fails
      rw [Bench.failing_note, Bench.failing_run]

end Cache

/-! ### Operations -/

namespace Shop

namespace CacheOperation

/-- The read that the operation begins with. -/
def lookup? (c : Cache κ α) : CacheOperation κ α → Option Cache.Lookup
  | get k | readThrough k _ => some (c.lookup k)
  | _ => none

/-- The write that it comes to. What is read through the cache is written if it was not there. -/
def write? (c : Cache κ α) (v : Sight σ) (b : Bench σ) : CacheOperation κ α → Option Cache.Write
  | set _ value _ => some (c.write value)
  | readThrough k (.ok (some value)) =>
    if (c.lookup k).isHit v b then none else some (c.write value)
  | _ => none

theorem counted_program (h : v.Shows store) (c : Cache κ α) (o : CacheOperation κ α)
    (b : Bench σ) :
    b.counted store (o.program c) =
      (o.lookup? c).elim [] (·.tally v b) ++ (o.write? c v b).elim [] (·.tally v b) := by
  cases o with
  | get k => exact (Cache.hit_and_counted_get h c k b).2.trans (List.append_nil _).symm
  | set k value lifetime => exact Cache.counted_set h c k value lifetime b
  | delete k =>
    rw [program, Cache.delete, Bench.counted_ask]
    split <;> rfl
  | invalidate stem =>
    rw [program, Cache.invalidate, Bench.counted_ask]
    split <;> rfl
  | readThrough k source =>
    rw [program, Cache.counted_readThrough h]
    refine congrArg ((c.lookup k).tally v b ++ ·) ?_
    rcases source with failure | _ | value
    · rfl
    · rfl
    · dsimp only [write?]
      split <;> rfl

end CacheOperation

namespace Operation

/-- The operation asks the gate. -/
def asksGate : Operation β → Bool
  | acquire _ | guard .. => true
  | _ => false

/-- The answer tells that a view was counted. -/
def viewCounted : (o : Operation β) → o.Answer → Bool
  | countView .., answer => answer.isSome
  | _, _ => false

/-- The answer tells that a view was dropped. -/
def viewDropped : (o : Operation β) → o.Answer → Bool
  | countView .., answer => answer.isNone
  | _, _ => false

/-- The read of a cache that the operation begins with. -/
def lookup? (s : Shop) : Operation β → Option Cache.Lookup
  | findToken id | checkToken id _ => some (s.tokens.cache.lookup id)
  | product o => o.lookup? s.products
  | curationPage o => o.lookup? s.curations
  | stock o => o.lookup? s.stocks
  | memberToken o => o.lookup? s.members
  | noted o => o.lookup? s.notes
  | _ => none

/-- The write to a cache that it comes to. -/
def write? (s : Shop) (v : Sight σ) (b : Bench σ) : Operation β → Option Cache.Write
  | saveToken _ token => some (s.tokens.cache.write token)
  | product o => o.write? s.products v b
  | curationPage o => o.write? s.curations v b
  | stock o => o.write? s.stocks v b
  | memberToken o => o.write? s.members v b
  | noted o => o.write? s.notes v b
  | _ => none

theorem letThrough_guard (s : Shop) (key : RequestKey) (outcome : Except String β) (b : Bench σ) :
    (guard key outcome).letThrough (b.run store ((guard key outcome).program s)).1 =
      (b.run store (s.gate.tryAcquire key)).1 := by
  rw [program, Gate.run_guard]
  dsimp only
  cases (b.run store (s.gate.tryAcquire key)).1 with
  | true => cases outcome <;> rfl
  | false => rfl

end Operation

namespace Moment

variable (s : Shop) (store : Backend σ) (v : Sight σ) (x : Moment σ β)

/-- The gate was asked, and let the request through. -/
def accepted : Bool := x.operation.letThrough (x.answer s store)

/-- The gate was asked, and refused. -/
def refused : Bool := x.operation.asksGate && !x.accepted s store

/-- It refused as the store failed. -/
def failedClosed : Bool := x.refused s store && v.fails x.bench .setIfAbsent

/-- A cache in the namespace was read. -/
def reads (space : String) : Bool := (x.operation.lookup? s).any (·.space = space)

/-- It was read, and the store held a value for it. -/
def hits (space : String) : Bool :=
  (x.operation.lookup? s).any fun l => l.isHit v x.bench && l.space = space

/-- It was read, and there was no such value. -/
def misses (space : String) : Bool :=
  (x.operation.lookup? s).any fun l => !l.isHit v x.bench && l.space = space

/-- It was read, and the store held an entry for it that nobody can decode. -/
def garbled (space : String) : Bool :=
  (x.operation.lookup? s).any fun l => l.isGarbled v x.bench && l.space = space

/-- A value was to be written to it, and was not. -/
def skips (space : String) : Bool :=
  (x.operation.write? s v x.bench).any fun w => w.isSkipped v x.bench && w.space = space

/-- A view was counted, or dropped, as its caller is told. -/
def viewCounted : Bool := x.operation.viewCounted (x.answer s store)

def viewDropped : Bool := x.operation.viewDropped (x.answer s store)

/-- What the operation counts. -/
def tally : List Counter :=
  (Counter.gateAcquired.when (x.accepted s store) ++
    (Counter.gateStoreErrors.when (x.failedClosed s store v) ++
      Counter.gateRejected.when (x.refused s store))) ++
  ((Counter.viewIncrements.when (x.viewCounted s store) ++
      Counter.viewErrors.when (x.viewDropped s store)) ++
    ((x.operation.lookup? s).elim [] (·.tally v x.bench) ++
      (x.operation.write? s v x.bench).elim [] (·.tally v x.bench)))

theorem counted_eq_tally (h : v.Shows store) :
    x.bench.counted store (x.operation.program s) = x.tally s store v := by
  obtain ⟨b, o⟩ := x
  cases o with
  | acquire key =>
    exact (Gate.counted_tryAcquire h s.gate key b).trans (List.append_nil _).symm
  | guard key outcome =>
    have haccepted : accepted s store ⟨b, .guard key outcome⟩ = _ :=
      Operation.letThrough_guard s key outcome b
    unfold tally failedClosed refused
    rw [haccepted]
    exact ((Gate.counted_guard s.gate key outcome b).trans
      (Gate.counted_tryAcquire h s.gate key b)).trans (List.append_nil _).symm
  | countView id delta =>
    exact (Views.counted_increment id delta b).trans (List.append_nil _).symm
  | viewCount id =>
    show b.counted store (Views.count id) = []
    rw [Views.count, Bench.counted_ask]
    split <;> rfl
  | resetViews id =>
    show b.counted store (Views.reset id) = []
    rw [Views.reset, Bench.counted_ask]
    split <;> rfl
  | saveToken id token => exact Cache.counted_set h s.tokens.cache id token none b
  | findToken id =>
    exact (Cache.hit_and_counted_get h s.tokens.cache id b).2.trans (List.append_nil _).symm
  | checkToken id presented =>
    show b.counted store (s.tokens.find id >>= fun found => pure _) = _
    rw [Bench.counted_bind]
    exact congrArg (· ++ []) (Cache.hit_and_counted_get h s.tokens.cache id b).2
  | revokeToken id =>
    exact CacheOperation.counted_program h s.tokens.cache (.delete id) b
  | invalidateCuration id =>
    exact CacheOperation.counted_program h s.curations (.invalidate _) b
  | product o => exact o.counted_program h s.products b
  | curationPage o => exact o.counted_program h s.curations b
  | stock o => exact o.counted_program h s.stocks b
  | memberToken o => exact o.counted_program h s.members b
  | noted o => exact o.counted_program h s.notes b

/-- The counter's event happens to the operation; none happens twice. -/
def counts : Counter → Bool
  | .gateAcquired => x.accepted s store
  | .gateRejected => x.refused s store
  | .gateStoreErrors => x.failedClosed s store v
  | .cacheHits space => x.hits s v space
  | .cacheMisses space => x.misses s v space
  | .cacheDecodeErrors space => x.garbled s v space
  | .cacheWriteErrors space => x.skips s v space
  | .viewIncrements => x.viewCounted s store
  | .viewErrors => x.viewDropped s store

theorem count_tally (d : Counter) :
    (x.tally s store v).count d = if x.counts s store v d then 1 else 0 := by
  -- The events in the tally are all different, so each is found in one place only.
  unfold tally counts hits misses garbled skips
  cases x.operation.lookup? s <;> cases x.operation.write? s v x.bench <;> cases d <;>
    simp [Cache.Lookup.tally, Cache.Write.tally]

/-- **One operation** makes a counter go up if its event happens. -/
theorem value_after (h : v.Shows store) (d : Counter) :
    (x.after s store).metrics.value d =
      x.bench.metrics.value d + if x.counts s store v d then 1 else 0 := by
  rw [after, Bench.value_run, counted_eq_tally s store v x h, count_tally]

theorem hits_add_misses (space : String) :
    ((if x.hits s v space then 1 else 0) + if x.misses s v space then 1 else 0) =
      if x.reads s space then 1 else 0 := by
  unfold hits misses reads
  cases x.operation.lookup? s with
  | none => rfl
  | some l => cases h : l.isHit v x.bench <;> simp [h]

theorem countP_hits_add_misses (xs : List (Moment σ β)) (space : String) :
    xs.countP (·.hits s v space) + xs.countP (·.misses s v space) =
      xs.countP (·.reads s space) := by
  induction xs with
  | nil => rfl
  | cons x xs ih =>
    have hx := x.hits_add_misses s v space
    rw [List.countP_cons, List.countP_cons, List.countP_cons]
    omega

end Moment

/-! ### Whole runs -/

variable (s : Shop)

/-- **A whole run** makes a counter go up by the operations to which its event happens. -/
theorem value_after (h : v.Shows store) (steps : List (Step β)) (b : Bench σ) (d : Counter) :
    (s.after store steps b).metrics.value d =
      b.metrics.value d + (s.moments store steps b).countP (·.counts s store v d) := by
  refine moments_after_induction (P := fun xs b' =>
    b'.metrics.value d = b.metrics.value d + xs.countP (·.counts s store v d))
    rfl (fun _ _ _ h => h) (fun _ _ _ _ h => h) ?_
  intro xs b' o _ hbefore
  have hstep : (b'.run store (o.program s)).2.metrics.value d = _ :=
    Moment.value_after s store v ⟨b', o⟩ h d
  rw [List.countP_append, List.countP_singleton, hstep, hbefore]
  exact Nat.add_assoc _ _ _

/-- The counters of the first metrics, and how often what they count happened to the operations, make
up the counters of the second. -/
structure Conserved (store : Backend σ) (v : Sight σ) (xs : List (Moment σ β)) (m m' : Metrics) :
    Prop where
  acquired : m'.value .gateAcquired = m.value .gateAcquired + xs.countP (·.accepted s store)
  rejected : m'.value .gateRejected = m.value .gateRejected + xs.countP (·.refused s store)
  storeErrors : m'.value .gateStoreErrors =
    m.value .gateStoreErrors + xs.countP (·.failedClosed s store v)
  reads : ∀ space, m'.value (.cacheHits space) + m'.value (.cacheMisses space) =
    m.value (.cacheHits space) + m.value (.cacheMisses space) + xs.countP (·.reads s space)
  hits : ∀ space, m'.value (.cacheHits space) =
    m.value (.cacheHits space) + xs.countP (·.hits s v space)
  decodeErrors : ∀ space, m'.value (.cacheDecodeErrors space) =
    m.value (.cacheDecodeErrors space) + xs.countP (·.garbled s v space)
  writeErrors : ∀ space, m'.value (.cacheWriteErrors space) =
    m.value (.cacheWriteErrors space) + xs.countP (·.skips s v space)
  viewIncrements : m'.value .viewIncrements =
    m.value .viewIncrements + xs.countP (·.viewCounted s store)
  viewErrors : m'.value .viewErrors = m.value .viewErrors + xs.countP (·.viewDropped s store)

theorem conserved_after (h : v.Shows store) (steps : List (Step β)) (b : Bench σ) :
    s.Conserved store v (s.moments store steps b) b.metrics (s.after store steps b).metrics where
  acquired := s.value_after h steps b .gateAcquired
  rejected := s.value_after h steps b .gateRejected
  storeErrors := s.value_after h steps b .gateStoreErrors
  reads space := by
    have hhits := s.value_after h steps b (.cacheHits space)
    have hmisses := s.value_after h steps b (.cacheMisses space)
    have hreads := Moment.countP_hits_add_misses s v (s.moments store steps b) space
    simp only [Moment.counts] at hhits hmisses
    omega
  hits space := s.value_after h steps b (.cacheHits space)
  decodeErrors space := s.value_after h steps b (.cacheDecodeErrors space)
  writeErrors space := s.value_after h steps b (.cacheWriteErrors space)
  viewIncrements := s.value_after h steps b .viewIncrements
  viewErrors := s.value_after h steps b .viewErrors

/-- **Metrics conserve events**, over every run of a shop on either store, whatever it held at first,
and whatever fails. -/
theorem events_conserved (steps : List (Step β)) :
    (∀ b : Bench Entries, s.Conserved Memory.backend Memory.sight
      (s.moments Memory.backend steps b) b.metrics (s.after Memory.backend steps b).metrics) ∧
    ∀ b : Bench Nat, s.Conserved Outage.backend Outage.sight
      (s.moments Outage.backend steps b) b.metrics (s.after Outage.backend steps b).metrics :=
  ⟨s.conserved_after Memory.shows_sight steps, s.conserved_after Outage.shows_sight steps⟩

/-- An entry that nobody can decode is a miss, and is written over. -/
example :
    let b : Bench Entries := { store := Entries.empty.put "named:tea" ⟨"green", none⟩ }
    let steps : List (Step Nat) :=
      [.operate (.noted (.readThrough "tea" (.ok (some "black")))), .operate (.noted (.get "tea"))]
    ((Shop.make {} "named").after Memory.backend steps b).metrics.log =
      [.cacheHits "named", .cacheMisses "named", .cacheDecodeErrors "named"] := by
  decide +kernel

end Shop

end Turnstile
