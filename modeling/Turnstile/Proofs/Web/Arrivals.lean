import Turnstile.Proofs.Digest.Standard
import Turnstile.Proofs.Key.Canonical
import Turnstile.Proofs.Shop.Run
import Turnstile.Proofs.Shop.Spaces
import Turnstile.Proofs.Web.Senders
import Turnstile.Web.Site

/-! # Requests over time

The requests that the application is handed for one lock come a lifetime apart (`Exact.apart`). What
carries this over a run is that a lock, once taken, stands until its lifetime is over
(`LastsUntil`): time does not shorten it, a failure of the store does not, the gate does not, and
neither does an application that takes no lock away (`Program.KeepsLocks`). The lock may be replaced
in the meantime, but by one that ends later, since that one was taken when the first was over.

An application need not leave locks alone for this: it may take some of its own, as the site does at
its checkout (`keepsLocks_dispatch`).

What a request is locked under is said of the request itself (`LocksUnder`), and what the gate does
with it on any store (`Attempts`). All that the gate promises of one request and of many is put
together in `Exact`. -/

namespace Turnstile

open Turnstile.Http Turnstile.Store Turnstile.Text Turnstile.Time

/-! ### Locks that stand -/

namespace Store

/-- What stands there ends, but not before the instant. -/
def LastsUntil (t : Instant) (entry : Option Entry) : Prop :=
  ∃ e u, entry = some e ∧ e.expiry = some u ∧ t ≤ u

/-- The command may take a lock, but it takes none away. -/
def Command.SparesLocks (c : Command) : Prop :=
  (∃ k value lifetime, c = .setIfAbsent k value lifetime) ∨
    ∀ name, ¬ c.Writes (Key.namespaced Key.requestLock name)

theorem Command.sparesLocks_of_inside {space : String} (hspace : Key.IsSpace space)
    (hne : space ≠ Key.requestLock) {c : Command} (hc : c.Inside space) : c.SparesLocks :=
  Or.inr fun name => not_writes_of_inside hspace Key.isSpace_requestLock hne hc name

theorem LastsUntil.le_of_live?_eq_none {t now : Instant} {m : Entries} {key : String}
    (h : LastsUntil t (m.find? key)) (hl : m.live? now key = none) : t ≤ now := by
  obtain ⟨e, u, he, hu, hle⟩ := h
  have hdead := Entries.live?_eq_none_iff.mp hl e he
  rw [← Bool.not_eq_true, Entry.isLive_of_expiry hu, Instant.not_lt] at hdead
  exact Instant.le_trans hle hdead

theorem LastsUntil.perform {c : Command} (hc : c.SparesLocks) {name : String} {t : Instant}
    {d : Span} {b : Bench Entries}
    (h : LastsUntil (t.after d) (b.store.find? (Key.namespaced Key.requestLock name))) :
    LastsUntil (t.after d) ((b.perform Memory.backend c).2.store.find?
      (Key.namespaced Key.requestLock name)) := by
  rcases hc with ⟨k, value, lifetime, rfl⟩ | hc
  · cases hf : b.failing .setIfAbsent with
    | some failure =>
      have hfail : b.failing (Command.setIfAbsent k value lifetime).kind = some failure := hf
      rwa [Bench.perform_of_failing hfail]
    | none =>
      unfold Bench.perform
      simp only [Command.kind, hf, Memory.backend, Memory.step]
      cases hl : b.store.live? b.now k with
      | some e => exact h
      | none =>
        dsimp only
        rw [Entries.find?_put]
        split
        · -- The lock was over when it was taken anew, so it ends later now.
          next hk =>
          subst hk
          exact ⟨_, b.now.after lifetime, rfl, rfl,
            Instant.after_le_after_of_le (h.le_of_live?_eq_none hl) lifetime⟩
        · exact h
  · rwa [Bench.find?_perform (hc name)]

namespace Program

variable {α β : Type}

/-- A lock that stands until some instant still does so when the program has run. -/
def KeepsLocks (p : Program α) : Prop :=
  ∀ (name : String) (t : Instant) (d : Span) (b : Bench Entries),
    LastsUntil (t.after d) (b.store.find? (Key.namespaced Key.requestLock name)) →
      LastsUntil (t.after d) ((b.run Memory.backend p).2.store.find?
        (Key.namespaced Key.requestLock name))

theorem keepsLocks_of_within {p : Program α} (hp : p.Within Command.SparesLocks) :
    p.KeepsLocks := fun name t d b h =>
  Program.run_preserves
    (I := fun s : Bench Entries =>
      LastsUntil (t.after d) (s.store.find? (Key.namespaced Key.requestLock name)))
    (fun _ _ hc hs => hs.perform hc) (fun e s hs => by rwa [Bench.handler, Bench.store_note]) hp b h

theorem keepsLocks_pure (a : α) : (pure a : Program α).KeepsLocks := fun _ _ _ _ h => h

theorem keepsLocks_bind {p : Program α} {f : α → Program β} (hp : p.KeepsLocks)
    (hf : ∀ a, (f a).KeepsLocks) : (p >>= f).KeepsLocks := by
  intro name t d b h
  have hrun : b.run Memory.backend (p >>= f) =
      (b.run Memory.backend p).2.run Memory.backend (f (b.run Memory.backend p).1) :=
    Program.run_bind _ p f b
  rw [hrun]
  exact hf _ name t d _ (hp name t d b h)

end Program

end Store

theorem Gate.keepsLocks_tryAcquire (g : Gate) (key : RequestKey) :
    (g.tryAcquire key).KeepsLocks :=
  Program.keepsLocks_of_within (Gate.within_tryAcquire_of (Or.inl ⟨_, _, _, rfl⟩))

namespace Web.Admission

/-! ### One arrival -/

/-- What happens in front of the application. -/
inductive Arrival where
  /-- A request comes in. -/
  | request (r : Request)
  /-- Time goes by. -/
  | advance (d : Span)
  /-- Commands of one kind fail from now on, or no longer fail. -/
  | order (kind : Command.Kind) (failure : Option Failure)

/-- The application is handed the request. -/
def Admits (a : Admission) (r : Request) (b : Bench Entries) : Prop :=
  (b.run Memory.backend (a.judge r)).1 = .forward

instance (a : Admission) (r : Request) (b : Bench Entries) : Decidable (a.Admits r b) := by
  unfold Admits; infer_instance

/-- The bench after an arrival. -/
def Arrival.after (a : Admission) (inner : Request → Program Response) (b : Bench Entries) :
    Arrival → Bench Entries
  | request r => (b.run Memory.backend (a.respond inner r)).2
  | advance d => b.advance d
  | order kind failure => b.order kind failure

/-- When the application is handed a request for the lock of this key, if it is. -/
def Arrival.calls (a : Admission) (key : String) (b : Bench Entries) : Arrival → List Instant
  | request r =>
    if isMutating r.method = true ∧ (requestKey r).storeKey = key ∧ a.Admits r b then [b.now]
    else []
  | _ => []

/-- The readings of the clock at which the application is handed requests for the lock of this
key. -/
def calls (a : Admission) (inner : Request → Program Response) (key : String) :
    List Arrival → Bench Entries → List Instant
  | [], _ => []
  | x :: xs, b => x.calls a key b ++ a.calls inner key xs (x.after a inner b)

variable {a : Admission} {inner : Request → Program Response} {r : Request} {b : Bench Entries}

/-- **The bench once a request is judged** that changes something and is not too long. -/
theorem run_judge_of_fits (h : isMutating r.method = true) (hlong : a.isTooLong r = false) :
    b.run Memory.backend (a.judge r) =
      (if Gate.Free (requestKey r).storeKey b then .forward else .duplicate,
        (b.run Memory.backend (a.gate.tryAcquire (requestKey r))).2) := by
  have hanswer := (Gate.run_tryAcquire a.gate (requestKey r) b).1
  rw [judge_of_fits h hlong]
  unfold Bench.run at hanswer ⊢
  rw [Program.run_bind, Program.run_pure, hanswer]
  simp only [decide_eq_true_iff]

theorem admits_iff :
    a.Admits r b ↔ isMutating r.method = false ∨
      a.isTooLong r = false ∧ Gate.Free (requestKey r).storeKey b := by
  unfold Admits
  cases h : isMutating r.method with
  | false => simp [judge_of_safe h, Bench.run]
  | true =>
    cases hlong : a.isTooLong r with
    | true => simp [judge_of_tooLong h hlong, Bench.run]
    | false =>
      rw [run_judge_of_fits h hlong]
      by_cases hfree : Gate.Free (requestKey r).storeKey b <;> simp [hfree]

theorem keepsLocks_judge (a : Admission) (r : Request) : (a.judge r).KeepsLocks := by
  cases h : isMutating r.method with
  | false => exact judge_of_safe (a := a) h ▸ Program.keepsLocks_pure _
  | true =>
    cases hlong : a.isTooLong r with
    | true => exact judge_of_tooLong h hlong ▸ Program.keepsLocks_pure _
    | false =>
      rw [judge_of_fits h hlong]
      exact Program.keepsLocks_bind (Gate.keepsLocks_tryAcquire _ _) fun _ =>
        Program.keepsLocks_pure _

theorem keepsLocks_carryOut (hinner : (inner r).KeepsLocks) (v : Verdict) :
    (a.carryOut inner r v).KeepsLocks := by
  cases v with
  | forward => exact hinner
  | tooLong => exact Program.keepsLocks_pure _
  | duplicate => exact Program.keepsLocks_pure _

theorem run_respond (a : Admission) (inner : Request → Program Response) (r : Request)
    (b : Bench Entries) :
    b.run Memory.backend (a.respond inner r) =
      (b.run Memory.backend (a.judge r)).2.run Memory.backend
        (a.carryOut inner r (b.run Memory.backend (a.judge r)).1) := by
  rw [respond_eq_judge]
  exact Program.run_bind _ _ _ _

variable {x : Arrival} {name : String} {t : Instant}

theorem Arrival.lastsUntil_after {d : Span} (hinner : ∀ r, x = .request r → (inner r).KeepsLocks)
    (h : LastsUntil (t.after d) (b.store.find? (Key.namespaced Key.requestLock name))) :
    LastsUntil (t.after d) ((x.after a inner b).store.find?
      (Key.namespaced Key.requestLock name)) := by
  cases x with
  | advance d => exact h
  | order kind failure => exact h
  | request r =>
    simp only [Arrival.after, run_respond]
    exact keepsLocks_carryOut (hinner r rfl) _ name t d _ (keepsLocks_judge a r name t d b h)

theorem Arrival.mem_calls_iff {key : String} {u : Instant} :
    u ∈ x.calls a key b ↔ u = b.now ∧ ∃ r, x = .request r ∧ isMutating r.method = true ∧
      (requestKey r).storeKey = key ∧ a.Admits r b := by
  cases x with
  | advance d => simp [Arrival.calls]
  | order kind failure => simp [Arrival.calls]
  | request r =>
    simp only [Arrival.calls]
    split
    · next h => simp [h]
    · next h =>
      refine ⟨nofun, ?_⟩
      rintro ⟨-, r', hr, hmutating, hkey, hadmits⟩
      cases hr
      exact absurd ⟨hmutating, hkey, hadmits⟩ h

/-- **The application is not called while the lock stands**, and calling it leaves one behind. -/
theorem Arrival.lock_of_mem_calls {u : Instant}
    (hinner : ∀ r, x = .request r → (inner r).KeepsLocks)
    (h : u ∈ x.calls a (Key.namespaced Key.requestLock name) b) :
    (∀ s, LastsUntil s (b.store.find? (Key.namespaced Key.requestLock name)) → s ≤ u) ∧
      LastsUntil (u.after a.gate.lifetime)
        ((x.after a inner b).store.find? (Key.namespaced Key.requestLock name)) := by
  obtain ⟨rfl, r, rfl, hmutating, hkey, hadmits⟩ := Arrival.mem_calls_iff.mp h
  rcases admits_iff.mp hadmits with hsafe | ⟨hlong, hfree⟩
  · rw [hmutating] at hsafe
    cases hsafe
  have hstore := (Gate.run_tryAcquire a.gate (requestKey r) b).2.1
  rw [if_pos hfree] at hstore
  rw [hkey] at hfree hstore
  refine ⟨fun s hs => hs.le_of_live?_eq_none hfree.2, ?_⟩
  simp only [Arrival.after, run_respond]
  refine keepsLocks_carryOut (hinner r rfl) _ name b.now a.gate.lifetime _ ?_
  rw [run_judge_of_fits hmutating hlong, hstore, Entries.find?_put, if_pos rfl]
  exact ⟨_, _, rfl, rfl, Instant.le_refl _⟩

/-! ### Whole runs -/

/-- **Calls for one lock are a lifetime apart**, and none comes while a lock stands that was taken
before. -/
theorem calls_apart (xs : List Arrival)
    (hinner : ∀ r, .request r ∈ xs → (inner r).KeepsLocks) (b : Bench Entries) :
    (a.calls inner (Key.namespaced Key.requestLock name) xs b).Pairwise
        (fun t u => t.after a.gate.lifetime ≤ u) ∧
      ∀ t : Instant, LastsUntil (t.after a.gate.lifetime)
          (b.store.find? (Key.namespaced Key.requestLock name)) →
        ∀ u ∈ a.calls inner (Key.namespaced Key.requestLock name) xs b,
          t.after a.gate.lifetime ≤ u := by
  induction xs generalizing b with
  | nil => exact ⟨List.Pairwise.nil, fun _ _ => nofun⟩
  | cons x xs ih =>
    have hx : ∀ r, x = .request r → (inner r).KeepsLocks := fun r hr =>
      hinner r (hr ▸ List.mem_cons_self)
    obtain ⟨hpairwise, hlater⟩ := ih (fun r hr => hinner r (List.mem_cons_of_mem _ hr))
      (x.after a inner b)
    have hfirst : (x.calls a (Key.namespaced Key.requestLock name) b).Pairwise
        (fun t u => t.after a.gate.lifetime ≤ u) := by
      cases x with
      | request r =>
        simp only [Arrival.calls]
        split
        · exact List.pairwise_singleton _ _
        · exact List.Pairwise.nil
      | _ => exact List.Pairwise.nil
    refine ⟨List.pairwise_append.mpr ⟨hfirst, hpairwise, fun t ht u hu => ?_⟩, fun t ht u hu => ?_⟩
    · exact hlater t (Arrival.lock_of_mem_calls hx ht).2 u hu
    · rcases List.mem_append.mp hu with hu | hu
      · exact (Arrival.lock_of_mem_calls hx hu).1 _ ht
      · exact hlater t (Arrival.lastsUntil_after hx ht) u hu

end Web.Admission

/-! ### The site -/

namespace Web.Site

variable {s : Site} {next : Program Response}

theorem within_orProblem {α : Type} {P : Command → Prop} {x : Except Problem α}
    {next : α → Program Response} (h : ∀ value, (next value).Within P) :
    (orProblem x next).Within P := by
  cases x with
  | ok value => exact h value
  | error problem => exact Program.within_pure _

theorem within_withPathId {P : Command → Prop} {segment : List Char}
    {next : UInt64 → Program Response} (h : ∀ id, (next id).Within P) :
    (withPathId segment next).Within P := by
  unfold withPathId
  split
  · exact h _
  · exact Program.within_pure _

theorem within_withBody {P : Command → Prop} {r : Request} (h : next.Within P) :
    (withBody r next).Within P := by
  unfold withBody
  split
  · exact Program.within_pure _
  · exact h

theorem within_withText {P : Command → Prop} {r : Request} {next : String → Program Response}
    (h : ∀ sent, (next sent).Within P) : (withText r next).Within P := by
  refine within_withBody ?_
  split
  · exact h _
  · exact Program.within_pure _

theorem sparesLocks_showProduct (s : Site) (segment : List Char) :
    (s.showProduct segment).Within Command.SparesLocks := by
  have hspares : ∀ c : Command, c.Inside Key.product → c.SparesLocks := fun c =>
    Command.sparesLocks_of_inside Key.isSpace_product (by decide)
  refine within_withPathId fun id => ?_
  refine Program.within_bind ((s.products.within_readThrough id (Program.within_call _)).mono
    hspares) fun found => ?_
  split
  · exact Program.within_pure _
  · exact Program.within_pure _
  · refine Program.within_bind (Program.within_bind
      (Program.within_command (hspares _ ⟨_, rfl⟩)) fun r => ?_) fun _ => Program.within_pure _
    split <;> exact Program.within_bind (Program.within_count _) fun _ => Program.within_pure _

theorem sparesLocks_listCuration (s : Site) (segment : List Char) (r : Request) :
    (s.listCuration segment r).Within Command.SparesLocks := by
  have hspares : ∀ c : Command, c.Inside Key.curation → c.SparesLocks := fun c =>
    Command.sparesLocks_of_inside Key.isSpace_curation (by decide)
  refine within_withPathId fun id => within_orProblem fun page => ?_
  refine Program.within_bind ((s.curations.within_readThrough _ (Program.within_call _)).mono
    hspares) fun found => ?_
  split <;> exact Program.within_pure _

theorem sparesLocks_placeOrder (r : Request) :
    (placeOrder r).Within Command.SparesLocks :=
  within_orProblem fun _ => within_withText fun _ => Program.within_pure _

theorem sparesLocks_checkout (s : Site) (r : Request) :
    (s.checkout r).Within Command.SparesLocks := by
  refine within_withText fun sent => Program.within_bind ?_ fun answer => ?_
  · refine Program.within_bind (Gate.within_tryAcquire_of (Or.inl ⟨_, _, _, rfl⟩)) fun free => ?_
    split
    · exact Program.within_bind (Program.within_call _) fun _ => Program.within_pure _
    · exact Program.within_pure _
  · split <;> exact Program.within_pure _

theorem sparesLocks_readiness : readiness.Within Command.SparesLocks := by
  refine Program.within_bind (Program.within_command (Or.inr fun name => ?_)) fun answer => ?_
  · rintro (hput | hremove)
    · exact hput
    · exact hremove
  · split <;> exact Program.within_pure _

theorem sparesLocks_handle (s : Site) (exposition : Option String) (route : Route) (r : Request) :
    (s.handle exposition route r).Within Command.SparesLocks := by
  cases route with
  | products => exact within_orProblem fun page => Program.within_pure _
  | product id => exact s.sparesLocks_showProduct id
  | curation id => exact s.sparesLocks_listCuration id r
  | orders => exact sparesLocks_placeOrder r
  | echo => exact within_withBody (Program.within_pure _)
  | checkout => exact s.sparesLocks_checkout r
  | health => exact Program.within_pure _
  | readiness => exact sparesLocks_readiness
  | metrics => exact Program.within_pure _

theorem keepsLocks_dispatch (s : Site) (exposition : Option String) (route : Route) (r : Request) :
    (s.dispatch exposition route r).KeepsLocks := by
  refine Program.keepsLocks_of_within ?_
  unfold dispatch
  split
  · exact Program.within_pure _
  · split
    · exact Program.within_bind (s.sparesLocks_handle exposition route r) fun _ =>
        Program.within_pure _
    · exact s.sparesLocks_handle exposition route r

theorem handlers_called_apart (s : Site) (exposition : Option String) (route : Route)
    (xs : List Admission.Arrival) (start : Instant) (name : String) :
    (s.admission.calls (s.dispatch exposition route) (Key.namespaced Key.requestLock name) xs
        (Shop.freshBench start)).Pairwise
      fun t u => min (t.nanos + s.config.idempotency.lockLifetime.nanos) Instant.last.nanos ≤
        u.nanos := by
  refine (Admission.calls_apart xs (fun r _ => s.keepsLocks_dispatch exposition route r)
    (Shop.freshBench start)).1.imp fun {t u} h => ?_
  rwa [Instant.le_iff, Instant.nanos_after] at h

end Web.Site

namespace Web.Admission

/-! ### What the gate promises -/

/-- The key of a request's lock. It is made up of whose the request is, its method, the resource that
its path names, and the digest of its body, if it has one. -/
def LocksUnder (r : Request) (key : String) : Prop :=
  ∃ actor resource digest, Sender.Acts r actor ∧
    RequestKey.Names r.target.path.toList resource ∧
    Digest.Standard.IsDigest r.body digest ∧
    key = "request-lock:" ++ actor ++ ":" ++ r.method ++ ":" ++ String.ofList resource ++
      (if r.body = [] then "" else "#" ++ digest)

theorem locksUnder_iff (h : isMutating r.method = true) {key : String} :
    LocksUnder r key ↔ key = (requestKey r).storeKey := by
  unfold LocksUnder
  simp only [Sender.acts_iff, RequestKey.names_iff, Digest.Standard.isDigest_iff,
    storeKey_requestKey h]
  constructor
  · rintro ⟨actor, resource, digest, rfl, rfl, rfl, hkey⟩
    exact hkey
  · intro hkey
    exact ⟨_, _, _, rfl, rfl, rfl, hkey⟩

/-- The program makes one attempt at the lock of this key. If the lock is taken, it goes on; if it is
not, or the store fails, it refuses. Each outcome is counted. -/
def Attempts (key : String) (lifetime : Span) (next : Program Response) (refusal : Response)
    (p : Program Response) : Prop :=
  ∀ (σ : Type) (h : Handler σ) (s : σ), p.run h s =
    let reply := h.perform (.setIfAbsent key "1" lifetime) s
    match reply.1 with
    | .ok true => next.run h (h.note (.counted .gateAcquired) reply.2)
    | .ok false => (refusal, h.note (.counted .gateRejected) reply.2)
    | .error _ =>
      (refusal, h.note (.counted .gateRejected) (h.note (.counted .gateStoreErrors) reply.2))

/-- What the gate promises of an application behind it, whatever the application, the store and the
request are. -/
structure Exact (a : Admission) : Prop where
  /-- A request that changes nothing is the application's alone: no command is given for it. -/
  safe : ∀ (inner : Request → Program Response) (r : Request),
    r.method ∉ ["POST", "PUT", "PATCH", "DELETE"] → a.respond inner r = inner r
  /-- One that is too long is turned away without a command, and the application is not called. -/
  tooLong : ∀ (inner : Request → Program Response) (r : Request),
    r.method ∈ ["POST", "PUT", "PATCH", "DELETE"] → TooLong a.bodyLimit.toNat r →
      ∃ refusal : Response, refusal.status = 413 ∧ a.respond inner r = pure refusal
  /-- For any other, one attempt at its lock is made. The application is handed the request, as it
  came, if the lock is taken; if it is not, or the store fails, the request is turned away. -/
  fits : ∀ (inner : Request → Program Response) (r : Request),
    r.method ∈ ["POST", "PUT", "PATCH", "DELETE"] → ¬ TooLong a.bodyLimit.toNat r →
      (∃ key, LocksUnder r key) ∧ ∃ refusal : Response, refusal.status = 429 ∧
        ∀ key, LocksUnder r key → key = (requestKey r).storeKey ∧
          Attempts key a.gate.lifetime (inner r) refusal (a.respond inner r)
  /-- On a store in memory, `Admits` tells which requests the application is handed. -/
  handed : ∀ (inner : Request → Program Response) (r : Request) (b : Bench Entries), a.Admits r b →
    b.run Memory.backend (a.respond inner r) =
      (b.run Memory.backend (a.judge r)).2.run Memory.backend (inner r)
  /-- An application that is not handed the request has no part in the answer. -/
  withheld : ∀ (inner other : Request → Program Response) (r : Request) (b : Bench Entries),
    ¬ a.Admits r b →
      b.run Memory.backend (a.respond inner r) = b.run Memory.backend (a.respond other r)
  /-- On a store that is empty at first, the requests for one lock that the application is handed are
  a lifetime apart, as far as the calendar goes, unless the application takes locks away. -/
  apart : ∀ (inner : Request → Program Response) (xs : List Arrival) (start : Instant)
    (name : String), (∀ r, .request r ∈ xs → (inner r).KeepsLocks) →
      (a.calls inner (Key.namespaced Key.requestLock name) xs (Shop.freshBench start)).Pairwise
        fun t u => min (t.nanos + a.gate.lifetime.nanos) Instant.last.nanos ≤ u.nanos

/-- **Admitted, turned away or handed over**, exactly as the request and the store have it: whatever
the application behind the gate, it is handed a request once or not at all, and as it came. -/
theorem exact_respond (a : Admission) : a.Exact where
  safe inner r hmethod := by
    have hsafe : isMutating r.method = false :=
      Bool.eq_false_iff.mpr fun h => hmethod (isMutating_iff.mp h)
    rw [respond_eq_judge, judge_of_safe hsafe, pure_bind]
    rfl
  tooLong inner r hmethod hlong := by
    refine ⟨(Problem.payloadTooLarge a.bodyLimit.toNat).response, rfl, ?_⟩
    rw [respond_eq_judge, judge_of_tooLong (isMutating_iff.mpr hmethod) (isTooLong_iff.mpr hlong),
      pure_bind]
    rfl
  fits inner r hmethod hlong := by
    have hmutating := isMutating_iff.mpr hmethod
    have hfits := isTooLong_eq_false_iff.mpr hlong
    refine ⟨⟨_, (locksUnder_iff hmutating).mpr rfl⟩,
      (Problem.duplicateRequest Problem.duplicateMessage).response, rfl, fun key hkey => ?_⟩
    obtain rfl := (locksUnder_iff hmutating).mp hkey
    refine ⟨rfl, fun σ h s => ?_⟩
    rw [respond_eq_judge, judge_of_fits hmutating hfits, Program.run_bind, Program.run_bind,
      Program.run_pure, run_tryAcquire]
    generalize h.perform (.setIfAbsent (requestKey r).storeKey "1" a.gate.lifetime) s = reply
    obtain ⟨answer, s'⟩ := reply
    rcases answer with e | taken
    · rfl
    · cases taken <;> rfl
  handed inner r b hadmits := by
    rw [run_respond, show (b.run Memory.backend (a.judge r)).1 = .forward from hadmits]
    rfl
  withheld inner other r b hadmits := by
    rw [run_respond, run_respond]
    cases hverdict : (b.run Memory.backend (a.judge r)).1 with
    | forward => exact absurd hverdict hadmits
    | tooLong => rfl
    | duplicate => rfl
  apart inner xs start name hinner := by
    refine (calls_apart xs hinner (Shop.freshBench start)).1.imp fun {t u} h => ?_
    rwa [Instant.le_iff, Instant.nanos_after] at h

/-- An order that is sent three times within a second is taken down at first and at last, and these
are a lifetime apart. One with a body, whose actor a header names, is locked under the digest of the
body. One that says that it is longer than it may be is turned away. -/
theorem exact_respond_order :
    let a : Admission := ⟨⟨.ofMillis 1000⟩, 1024⟩
    let order : Request := ⟨"POST", ⟨"/api/orders/", some "page=2"⟩, [], some "7", none, []⟩
    let named : Request := ⟨"POST", ⟨"/api/orders/", none⟩,
      [⟨"X-ACTOR-ID", Utf8.encode "\tshop 7 "⟩], none, some .localhost, Utf8.encode "abc"⟩
    let long : Request := { order with headers := [⟨"content-length", Utf8.encode "+1025"⟩] }
    let calls := a.calls Site.placeOrder (Key.namespaced Key.requestLock "7:POST:/api/orders")
      [.request order, .advance (.ofMillis 400), .request order, .advance (.ofMillis 600),
        .request order] (Shop.freshBench .start)
    let digest := "ba7816bf8f01cfea414140de5dae2223b00361a396177a9cb410ff61f20015ad"
    (calls = [.start, Instant.start.after (.ofMillis 1000)] ∧
      calls.Pairwise fun t u =>
        min (t.nanos + a.gate.lifetime.nanos) Instant.last.nanos ≤ u.nanos) ∧
      (Sender.Acts named "shop 7" ∧ ∃ refusal : Response, refusal.status = 429 ∧
        Attempts ("request-lock:shop 7:POST:/api/orders#" ++ digest) a.gate.lifetime
          (Site.placeOrder named) refusal (a.respond Site.placeOrder named)) ∧
      ∃ refusal : Response, refusal.status = 413 ∧ a.respond Site.placeOrder long = pure refusal := by
  intro a order named long calls digest
  have hkeeps : ∀ r, (Site.placeOrder r).KeepsLocks := fun r =>
    Program.keepsLocks_of_within (Site.sparesLocks_placeOrder r)
  have hfits : ¬ TooLong a.bodyLimit.toNat named :=
    isTooLong_eq_false_iff.mp (by decide +kernel)
  have hlong : TooLong a.bodyLimit.toNat long := isTooLong_iff.mp (by decide +kernel)
  have hkey : LocksUnder named ("request-lock:shop 7:POST:/api/orders#" ++ digest) :=
    (locksUnder_iff (by decide)).mpr (by decide +kernel)
  obtain ⟨-, refusal, hstatus, hattempt⟩ :=
    (exact_respond a).fits Site.placeOrder named (by decide) hfits
  exact ⟨⟨by decide +kernel,
      (exact_respond a).apart Site.placeOrder _ .start _ fun r _ => hkeeps r⟩,
    ⟨Sender.acts_iff.mpr (by decide +kernel), refusal, hstatus, (hattempt _ hkey).2⟩,
    (exact_respond a).tooLong Site.placeOrder long (by decide) hlong⟩

end Web.Admission

end Turnstile
